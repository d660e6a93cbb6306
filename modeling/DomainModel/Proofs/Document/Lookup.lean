import DomainModel.Document.Lookup
import DomainModel.Proofs.Document.Scope
import Mathlib.Data.List.Induction

namespace DomainModel

namespace Declaration

inductive Contains : Declaration → Segment → Declaration → Prop where
  | element {name : String} {elements : List Element} {index : Nat} {element : Element}
      (at_index : elements[index]? = some element) :
      Contains (.element (.package name elements)) ⟨"elements", some index⟩ (.element element)
  | feature {entity : Entity} {index : Nat} {feature : Feature}
      (at_index : entity.features[index]? = some feature) :
      Contains (.element (.entity entity)) ⟨"features", some index⟩ (.feature feature)

theorem contains_of_step {node inner : Declaration} {segment : Segment}
    (step : node.step segment = some inner) : node.Contains segment inner := by
  rcases segment with ⟨property, index⟩
  unfold Declaration.step at step
  rw [Option.bind_eq_bind, Option.bind_eq_some_iff] at step
  rcases step with ⟨index, rfl, step⟩
  split at step
  . split at step
    . next contained =>
      dsimp only at contained
      rw [Option.map_eq_some_iff] at step
      rcases step with ⟨element, at_index, rfl⟩
      rw [contained]
      exact .element at_index
    . cases step
  . split at step
    . next owned =>
      dsimp only at owned
      rw [Option.map_eq_some_iff] at step
      rcases step with ⟨feature, at_index, rfl⟩
      rw [owned]
      exact .feature at_index
    . cases step
  . cases step

theorem step_eq_some_iff (node : Declaration) (segment : Segment) (inner : Declaration) :
    node.step segment = some inner ↔ node.Contains segment inner := by
  constructor
  . exact contains_of_step
  . intro contains
    cases contains with
    | element at_index => simp [step, at_index]
    | feature at_index => simp [step, at_index]

theorem step_eq_element_iff (node : Declaration) (segment : Segment) (element : Element) :
    node.step segment = some (.element element) ↔
      ∃ name elements index,
        node = .element (.package name elements) ∧
        segment = ⟨"elements", some index⟩ ∧
        elements[index]? = some element := by
  rw [step_eq_some_iff]
  constructor
  . intro contains
    cases contains with
    | element at_index => exact ⟨_, _, _, rfl, rfl, at_index⟩
  . rintro ⟨name, elements, index, rfl, rfl, at_index⟩
    exact .element at_index

end Declaration

def FeatureType.declaration : FeatureType → Declaration
  | .dataType d => .element (.dataType d)
  | .entity e => .element (.entity e)

namespace Document

theorem lookup_singleton (document : Document) (segment : Segment) :
    document.lookup ⟨[segment]⟩ =
      segment.index.bind fun index =>
        if segment.property = "elements" then document.elements[index]?.map .element else none := by
  rcases segment with ⟨property, index⟩
  cases index with
  | none => rfl
  | some index =>
    by_cases root : property = "elements"
    . subst root
      cases known : document.elements[index]? with
      | none => simp [lookup, known]
      | some element => simp [lookup, known]
    . simp [lookup, root]

theorem length_segments_of_mem_entities (document : Document) (item : Located Entity)
    (mem : item ∈ document.scope.entities) : item.path.segments.length = 1 := by
  rw [Scope.mem_entities] at mem
  rcases mem with ⟨index, _, path⟩
  rw [path]
  rfl

theorem mem_entities_of_lookup (document : Document) (path : NodePath) (entity : Entity)
    (short : path.segments.length ≤ 1)
    (found : document.lookup path = some (.element (.entity entity))) :
    ⟨path, entity⟩ ∈ document.scope.entities := by
  rcases path with ⟨segments⟩
  cases segments with
  | nil => cases found
  | cons segment rest =>
    cases rest with
    | nil =>
      rw [lookup_singleton] at found
      rw [Option.bind_eq_some_iff] at found
      rcases found with ⟨index, counted, found⟩
      split at found
      . next property =>
        rw [Option.map_eq_some_iff] at found
        rcases found with ⟨element, known, same⟩
        cases same
        rw [Scope.mem_entities]
        refine ⟨index, known, ?_⟩
        rcases segment with ⟨name, step⟩
        dsimp only at property counted
        rw [property, counted]
        rfl
      . cases found
    | cons next rest =>
      simp only [List.length_cons] at short
      omega

theorem target?_eq_some_iff (document : Document) (reference : Reference) (node : Declaration) :
    document.target? reference = some node ↔
      ∃ path, reference.target = some path ∧ document.lookup path = some node := by
  unfold target?
  rw [Option.bind_eq_bind, Option.bind_eq_some_iff]

theorem resolveEntity_eq_some_iff (document : Document) (reference : Reference) (entity : Entity) :
    document.resolveEntity reference = some entity ↔
      document.target? reference = some (.element (.entity entity)) := by
  unfold resolveEntity
  split
  . next found => simp [found]
  . next other => simpa using other entity

theorem resolveType_eq_some_iff (document : Document) (reference : Reference)
    (type : FeatureType) :
    document.resolveType reference = some type ↔
      document.target? reference = some type.declaration := by
  unfold resolveType
  split
  . next found =>
    cases type with
    | dataType _ | entity _ => simp [found, FeatureType.declaration]
  . next found =>
    cases type with
    | dataType _ | entity _ => simp [found, FeatureType.declaration]
  . next noType noEntity =>
    cases type with
    | dataType d => simpa [FeatureType.declaration] using noType d
    | entity e => simpa [FeatureType.declaration] using noEntity e

theorem resolvePerson_eq_some_iff (document : Document) (reference : Reference)
    (person : Person) :
    document.resolvePerson reference = some person ↔
      document.target? reference = some (.element (.person person)) := by
  unfold resolvePerson
  split
  . next found => simp [found]
  . next other => simpa using other person

theorem lookup_append (document : Document) (segments : List Segment) (inside : segments ≠ [])
    (segment : Segment) :
    document.lookup ⟨segments ++ [segment]⟩ =
      (document.lookup ⟨segments⟩).bind (·.step segment) := by
  cases segments with
  | nil => exact absurd rfl inside
  | cons first rest =>
    simp only [lookup, List.cons_append, List.foldlM_append]
    cases first.index with
    | none => rfl
    | some index =>
      by_cases contained : first.property = "elements"
      . simp [contained, Option.bind_assoc]
      . simp [contained]

theorem lookup_child_of_known (document : Document) {outer scope : Scope}
    (h : outer.Encloses scope)
    (known : ∀ index, document.lookup (outer.path.child "elements" index) =
      outer.elements[index]?.map .element)
    (index : Nat) :
    document.lookup (scope.path.child "elements" index) =
      scope.elements[index]?.map .element := by
  induction h with
  | self => exact known index
  | package declared _ ih =>
    apply ih
    intro next
    unfold NodePath.child
    rw [lookup_append]
    . change (document.lookup (NodePath.child _ "elements" _)).bind _ = _
      rw [known, declared]
      simp [Declaration.step]
    . simp

theorem lookup_child_of_encloses (document : Document) (scope : Scope)
    (enclosed : document.scope.Encloses scope) (index : Nat) :
    document.lookup (scope.path.child "elements" index) =
      scope.elements[index]?.map .element := by
  apply lookup_child_of_known document enclosed
  intro index
  apply (lookup_singleton document ⟨"elements", some index⟩).trans
  simp [Document.scope]

theorem lookup_eq_element_iff (document : Document) (path : NodePath) (element : Element) :
    document.lookup path = some (.element element) ↔
      ∃ scope index,
        document.scope.Encloses scope ∧
        path = scope.path.child "elements" index ∧
        scope.elements[index]? = some element := by
  constructor
  . rcases path with ⟨segments⟩
    -- The last step of the path leads into the body of a package that the steps before it reach.
    induction segments using List.reverseRecOn generalizing element with
    | nil =>
      intro found
      cases found
    | append_singleton segments last ih =>
      intro found
      by_cases first : segments = []
      . subst first
        rw [List.nil_append, lookup_singleton, Option.bind_eq_some_iff] at found
        rcases found with ⟨index, counted, found⟩
        split at found
        . next contained =>
          rw [Option.map_eq_some_iff] at found
          rcases found with ⟨_, known, ⟨⟩⟩
          refine ⟨document.scope, index, .self _, ?_, known⟩
          rcases last with ⟨property, step⟩
          dsimp only at contained counted
          rw [contained, counted]
          rfl
        . cases found
      . rw [lookup_append document segments first, Option.bind_eq_some_iff] at found
        rcases found with ⟨node, found, stepped⟩
        rw [Declaration.step_eq_element_iff] at stepped
        rcases stepped with ⟨name, elements, index, rfl, rfl, known⟩
        rcases ih _ found with ⟨outer, at_index, enclosed, path, declared⟩
        refine ⟨_, index, enclosed.body declared, ?_, known⟩
        rw [← path]
        rfl
  . intro found
    rcases found with ⟨scope, index, enclosed, rfl, known⟩
    rw [lookup_child_of_encloses document scope enclosed, known]
    rfl

end Document

end DomainModel
