import DomainModel.Proofs.Document.Order
import DomainModel.Proofs.Processor.Gate

/-!
The order of declarations. It decides which of two namesakes is reported, where, and when, but not
what is said: that depends on how often names and keys occur in a scope.
-/

namespace DomainModel

abbrev Wording := Severity × Option DiagnosticCode × String

def Diagnostic.wording (d : Diagnostic) : Wording := (d.severity, d.code, d.message)

namespace Scope

theorem filterMap_bucket (scope : Scope) (kind? : Element → Option α) (f : α → Option β) :
    (scope.bucket kind?).filterMap (fun item => f item.node) =
      scope.elements.filterMap fun element => (kind? element).bind f := by
  conv_rhs => rw [← List.zipIdx_map_fst 0 scope.elements, List.filterMap_map]
  rw [bucket_eq_filterMap, List.filterMap_filterMap]
  congr
  funext item
  exact Option.bind_map

theorem map_name_entities (scope : Scope) :
    scope.entities.map (·.node.name) = scope.elements.filterMap Element.entityName? := by
  rw [funext Element.entityName?_eq_bind, ← filterMap_bucket, List.filterMap_eq_map']
  rfl

theorem map_key_keyed (scope : Scope) :
    (Validation.keyed scope.greetings).map (·.2) =
      scope.elements.filterMap Element.greetingKey? := by
  rw [funext Element.greetingKey?_eq_bind, ← filterMap_bucket]
  unfold Validation.keyed
  rw [List.map_filterMap]
  simp only [Option.map_map, Function.comp_def, Option.map_id']
  rfl

-- What is said of the elements of a scope, whatever the paths are under which they are found.

def entityWordings (elements : List Element) : List Wording :=
  (repeats id (elements.filterMap Element.entityName?)).map fun (name, n) =>
    (Validation.repeatedEntity ⟨.root, ⟨name, [], none⟩⟩ n).wording

def greetingWordings (elements : List Element) : List Wording :=
  (repeats id (elements.filterMap Element.greetingKey?)).map fun (key, n) =>
    (Validation.repeatedGreeting ⟨.root, ⟨{}⟩⟩ key n).wording

def personWordings (settings : ValidationSettings) (elements : List Element) : List Wording :=
  elements.filterMap fun element =>
    element.person?.bind fun person =>
      if settings.capitalizedPersons ∧ ¬ person.name.toList.head?.any Text.isCapital then
        some (Validation.lowercasePerson ⟨.root, person⟩).wording
      else none

theorem map_wording_entityErrors (scope : Scope) :
    scope.entityErrors.map Diagnostic.wording = entityWordings scope.elements := by
  unfold entityWordings
  rw [← ofEntities_entities, ← map_name_entities, ← map_repeats]
  unfold Validation.ofEntities
  rw [List.map_map, List.map_map]
  rfl

theorem map_wording_greetingErrors (scope : Scope) :
    scope.greetingErrors.map Diagnostic.wording = greetingWordings scope.elements := by
  unfold greetingWordings
  rw [← ofGreetings_greetings, ← map_key_keyed, ← map_repeats]
  unfold Validation.ofGreetings
  rw [List.map_map, List.map_map]
  rfl

theorem map_wording_personWarnings (settings : ValidationSettings) (scope : Scope) :
    (scope.personWarnings settings).map Diagnostic.wording =
      personWordings settings scope.elements := by
  unfold personWordings
  conv_rhs => rw [← List.zipIdx_map_fst 0 scope.elements, List.filterMap_map]
  unfold personWarnings
  rw [List.map_filterMap]
  congr
  funext item
  rw [Option.map_bind]
  congr
  funext person
  dsimp only [Function.comp_apply]
  split
  . rfl
  . rfl

def wordings (settings : ValidationSettings) (elements : List Element) : List Wording :=
  entityWordings elements ++ greetingWordings elements ++ personWordings settings elements

theorem map_wording_validate (scope : Scope) (settings : ValidationSettings) :
    (scope.validate settings).map Diagnostic.wording =
      scope.depthFirst.flatMap fun scope => wordings settings scope.elements := by
  rw [validate_eq_flatMap, List.map_flatMap]
  congr
  funext inner
  unfold wordings
  rw [List.map_append, List.map_append, map_wording_entityErrors, map_wording_greetingErrors,
    map_wording_personWarnings]

theorem perm_wordings (settings : ValidationSettings) (elements others : List Element)
    (h : Rearranged elements others) :
    (wordings settings elements).Perm (wordings settings others) := by
  unfold wordings
  apply List.Perm.append
  . apply List.Perm.append
    . apply List.Perm.map
      apply repeats_perm
      apply h.perm_filterMap
      intro name inner inner'
      rfl
    . apply List.Perm.map
      apply repeats_perm
      apply h.perm_filterMap
      intro name inner inner'
      rfl
  . apply h.perm_filterMap
    intro name inner inner'
    rfl

theorem perm_wording_validate (scope other : Scope)
    (h : Rearranged scope.elements other.elements) (settings : ValidationSettings) :
    ((scope.validate settings).map Diagnostic.wording).Perm
      ((other.validate settings).map Diagnostic.wording) := by
  rw [map_wording_validate, map_wording_validate]
  exact h.perm_flatMap_depthFirst _ (perm_wordings settings)

end Scope

theorem isGated_eq_of_perm {ds others : List Diagnostic}
    (h : (ds.map Diagnostic.wording).Perm (others.map Diagnostic.wording)) :
    isGated ds = isGated others := by
  have gated (ds : List Diagnostic) :
      isGated ds = (ds.map Diagnostic.wording).any fun wording => wording.1 == .error := by
    rw [List.any_map]
    rfl
  rw [gated, gated]
  exact h.any_eq

namespace Document

theorem validate_perm_of_rearranged (document other : Document)
    (h : Rearranged document.elements other.elements) (settings : Settings) :
    ((document.scope.validate settings.validation).map Diagnostic.wording).Perm
      ((other.scope.validate settings.validation).map Diagnostic.wording) ∧
    (∀ code,
      (document.scope.validate settings.validation).countP (·.code = code) =
        (other.scope.validate settings.validation).countP (·.code = code)) ∧
    ∀ (session another : Session) (change later : DocumentChange),
      change.diagnostics = later.diagnostics →
        (Processor.derive settings session change document).1.hasErrors =
          (Processor.derive settings another later other).1.hasErrors := by
  have same := Scope.perm_wording_validate document.scope other.scope h settings.validation
  refine ⟨same, ?_, ?_⟩
  . intro code
    have counted (ds : List Diagnostic) :
        ds.countP (·.code = code) = (ds.map Diagnostic.wording).countP (·.2.1 = code) := by
      rw [List.countP_map]
      rfl
    rw [counted, counted]
    exact same.countP_eq _
  . intro session another change later served
    apply isGated_eq_of_perm
    dsimp only [Processor.derive]
    rw [served, List.map_append, List.map_append]
    exact same.append_left _

def seated : Document :=
  ⟨none, [.person ⟨"ann"⟩, .package "p" [.entity ⟨"A", [], none⟩, .greeting ⟨.dangling "B"⟩,
    .entity ⟨"A", [], none⟩]]⟩

def reseated : Document :=
  ⟨none, [.package "p" [.greeting ⟨.dangling "B"⟩, .entity ⟨"A", [], none⟩,
    .entity ⟨"A", [], none⟩], .person ⟨"ann"⟩]⟩

theorem validate_perm_of_rearranged_reseated :
    Rearranged seated.elements reseated.elements ∧
    ((seated.scope.validate {}).map Diagnostic.wording).Perm
      ((reseated.scope.validate {}).map Diagnostic.wording) ∧
    (∀ code,
      (seated.scope.validate {}).countP (·.code = code) =
        (reseated.scope.validate {}).countP (·.code = code)) ∧
    ∀ (session another : Session) (change later : DocumentChange),
      change.diagnostics = later.diagnostics →
        (Processor.derive {} session change seated).1.hasErrors =
          (Processor.derive {} another later reseated).1.hasErrors := by
  have h : Rearranged seated.elements reseated.elements := by
    apply Rearranged.trans
    . apply Rearranged.swap
    . apply Rearranged.package
      . apply Rearranged.swap
      . apply Rearranged.of_perm
        exact .refl _
  exact ⟨h, validate_perm_of_rearranged seated reseated h {}⟩

end Document

end DomainModel
