import DomainModel.Proofs.Document.Revision
import DomainModel.Proofs.Validation.Targets

namespace DomainModel

variable (onEntity : Entity → Entity) (onGreeting : Greeting → Greeting)

namespace Element

theorem entity?_revise (element : Element) :
    (element.revise onEntity onGreeting).entity? = element.entity?.map onEntity := by
  cases element with
  | _ => rfl

theorem greeting?_revise (element : Element) :
    (element.revise onEntity onGreeting).greeting? = element.greeting?.map onGreeting := by
  cases element with
  | _ => rfl

theorem person?_revise (element : Element) :
    (element.revise onEntity onGreeting).person? = element.person? := by
  cases element with
  | _ => rfl

end Element

namespace Scope

theorem repeatErrors_revise (scope : Scope) (node? : Element → Option α) (onNode : α → α)
    (node?_revise : ∀ element : Element,
      node? (element.revise onEntity onGreeting) = (node? element).map onNode)
    (key? : α → Option String) (error : Located α → String → Nat → Diagnostic)
    (same_key : ∀ element ∈ scope.elements, ∀ node, node? element = some node →
      key? (onNode node) = key? node)
    (same_error : ∀ path node key n, error ⟨path, onNode node⟩ key n = error ⟨path, node⟩ key n) :
    (scope.revise onEntity onGreeting).repeatErrors node? key? error =
      scope.repeatErrors node? key? error := by
  have same : ∀ element ∈ scope.elements,
      (node? (element.revise onEntity onGreeting)).bind key? = (node? element).bind key? := by
    intro element mem
    rw [node?_revise, Option.bind_map]
    apply Option.bind_congr
    intro node known
    exact same_key element mem node known
  unfold repeatErrors revise
  dsimp only
  rw [List.zipIdx_map, List.filterMap_map]
  apply List.filterMap_congr
  intro item mem
  rcases item with ⟨element, index⟩
  rw [List.mk_mem_zipIdx_iff_getElem?] at mem
  have inside := List.mem_of_getElem? mem
  have counted : ∀ key,
      ((scope.elements.map (·.revise onEntity onGreeting)).take index).countP
          (fun element => (node? element).bind key? = some key) =
        (scope.elements.take index).countP fun element =>
          (node? element).bind key? = some key := by
    intro key
    rw [← List.map_take, List.countP_map]
    apply List.countP_congr
    intro earlier mem
    dsimp only [Function.comp_apply]
    rw [same earlier (List.mem_of_mem_take mem)]
  dsimp only [Function.comp_apply, Prod.map_apply, id]
  rw [node?_revise]
  cases known : node? element with
  | none => rfl
  | some node =>
    rw [Option.map_some, Option.bind_some, Option.bind_some, same_key element inside node known]
    simp only [counted, same_error]

theorem personWarnings_revise (settings : ValidationSettings) (scope : Scope) :
    (scope.revise onEntity onGreeting).personWarnings settings = scope.personWarnings settings := by
  unfold personWarnings revise
  dsimp only
  rw [List.zipIdx_map, List.filterMap_map]
  congr
  funext item
  rcases item with ⟨element, index⟩
  dsimp only [Function.comp_apply, Prod.map_apply, id]
  rw [Element.person?_revise]

structure IsKept (scope : Scope) : Prop where
  names : ∀ entity, (onEntity entity).name = entity.name
  keys : ∀ inner, scope.Encloses inner → ∀ greeting, .greeting greeting ∈ inner.elements →
    (onGreeting greeting).person.key = greeting.person.key

theorem validate_revise (scope : Scope) (kept : scope.IsKept onEntity onGreeting)
    (settings : ValidationSettings) :
    (scope.revise onEntity onGreeting).validate settings = scope.validate settings := by
  rw [validate_eq_flatMap, validate_eq_flatMap, depthFirst_revise, List.flatMap_map]
  apply List.flatMap_congr
  intro inner mem
  rw [mem_depthFirst_iff] at mem
  have entities : (inner.revise onEntity onGreeting).entityErrors = inner.entityErrors := by
    apply repeatErrors_revise onEntity onGreeting inner _ onEntity
    . exact Element.entity?_revise onEntity onGreeting
    . intro element _ entity _
      exact congrArg some (kept.names entity)
    . intro path entity key n
      unfold Validation.repeatedEntity
      rw [kept.names]
  have greetings : (inner.revise onEntity onGreeting).greetingErrors = inner.greetingErrors := by
    apply repeatErrors_revise onEntity onGreeting inner _ onGreeting
    . exact Element.greeting?_revise onEntity onGreeting
    . intro element inside greeting known
      rw [Element.greeting?_eq_some_iff] at known
      rw [known] at inside
      exact kept.keys inner mem greeting inside
    . intro path greeting key n
      rfl
  rw [entities, greetings, personWarnings_revise]

end Scope

end DomainModel
