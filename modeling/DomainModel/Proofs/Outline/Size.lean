import DomainModel.Proofs.Outline.Packages
import Mathlib.Algebra.Ring.Nat

/-!
How many nodes an outline has. Every declaration that shows has one node for itself, a feature has
one more for its type, and the features of the entity that is extended count once more under the
entity that extends it. They count there on their own, not with what that entity extends in turn,
so entities may well extend each other in a circle.
-/

namespace DomainModel

namespace Outline

theorem sizes_eq_sum (outlines : List Outline) : sizes outlines = (outlines.map size).sum := by
  induction outlines with
  | nil => rfl
  | cons outline outlines ih => rw [sizes, ih, List.map_cons, List.sum_cons]

theorem sizes_append (outlines others : List Outline) :
    sizes (outlines ++ others) = sizes outlines + sizes others := by
  simp only [sizes_eq_sum, List.map_append, List.sum_append]

theorem size_eq (outline : Outline) : outline.size = 1 + sizes outline.children := by
  cases outline
  rfl

theorem size_branch (name : String) (kind : OutlineKind) (children : List Outline) :
    (branch name kind children).size = 1 + sizes children := rfl

end Outline

namespace Document

def entitySize (document : Document) (entity : Entity) : Nat :=
  1 + 2 * entity.features.length +
    match document.superEntity entity with
    | some super => 1 + 2 * super.features.length
    | none => 0

mutual

def elementSize (document : Document) : Element → Nat
  | .entity entity => document.entitySize entity
  | .package _ elements => 1 + document.elementsSize elements
  | .dataType _ | .person _ | .greeting _ => 1
termination_by structural element => element

def elementsSize (document : Document) : List Element → Nat
  | [] => 0
  | element :: elements => document.elementSize element + document.elementsSize elements
termination_by structural elements => elements

end

theorem size_outlineType (d : Document) (reference : Reference) :
    (d.outlineType reference).size = 1 := by
  rw [Outline.size_eq, children_outlineType]
  rfl

theorem size_outlineFeature (d : Document) (f : Feature) : (d.outlineFeature f).size = 2 := by
  rw [Outline.size_eq, children_outlineFeature, Outline.sizes, size_outlineType]
  rfl

theorem sizes_features (d : Document) (features : List Feature) :
    Outline.sizes (features.map d.outlineFeature) = 2 * features.length := by
  induction features with
  | nil => rfl
  | cons f features ih =>
    rw [List.map_cons, Outline.sizes, size_outlineFeature, ih, List.length_cons]
    omega

theorem size_outlineSuper (d : Document) (super : Entity) :
    (d.outlineSuper super).size = 1 + 2 * super.features.length := by
  rw [Outline.size_eq, children_outlineSuper, sizes_features]

theorem sizes_super (d : Document) (e : Entity) :
    Outline.sizes ((d.superEntity e).toList.map d.outlineSuper) =
      match d.superEntity e with
      | some super => 1 + 2 * super.features.length
      | none => 0 := by
  cases d.superEntity e with
  | none => rfl
  | some super =>
    rw [Option.toList_some, List.map_singleton, Outline.sizes, size_outlineSuper]
    rfl

theorem size_outlineEntity (d : Document) (e : Entity) :
    (d.outlineEntity e).size = d.entitySize e := by
  rw [Outline.size_eq, children_outlineEntity, Outline.sizes_append, sizes_features, sizes_super]
  rw [entitySize, Nat.add_assoc]

mutual

theorem size_outlineElement (d : Document) (element : Element) :
    (d.outlineElement element).size = d.elementSize element := by
  cases element with
  | entity e => exact d.size_outlineEntity e
  | package name elements =>
    rw [outlineElement, Outline.size_branch, elementSize, sizes_outlineElements d elements]
  | dataType _ | person _ | greeting _ => rfl
termination_by structural element

theorem sizes_outlineElements (d : Document) (elements : List Element) :
    Outline.sizes (d.outlineElements elements) = d.elementsSize elements := by
  cases elements with
  | nil => rfl
  | cons element elements =>
    rw [outlineElements, Outline.sizes, elementsSize, size_outlineElement d element,
      sizes_outlineElements d elements]
termination_by structural elements

end

end Document

namespace Scope

def categorySize (scope : Scope) (kind : NodeKind) : Nat :=
  if scope.elements.filter (·.kind = kind) = [] then 0
  else 1 + scope.document.elementsSize (scope.elements.filter (·.kind = kind))

theorem children_outline (scope : Scope) :
    scope.outline.children =
      scope.sections.flatMap fun part =>
        category part.1 (part.2.map scope.document.outlineElement) := by
  rw [outline_eq, Outline.children_branch, flatMap_category]
  rfl

theorem sizes_category (scope : Scope) (name : String) (elements : List Element) :
    Outline.sizes (category name (elements.map scope.document.outlineElement)) =
      if elements = [] then 0 else 1 + scope.document.elementsSize elements := by
  rw [← Document.outlineElements_eq_map, ← Document.sizes_outlineElements]
  cases elements with
  | nil => rfl
  | cons element elements => rfl

-- Two entities that extend each other, one of them in a package, and a greeting that is not shown.
example :
    let outside := NodePath.root.child "elements" 1
    let inside := (NodePath.root.child "elements" 0).child "elements" 0
    let document : Document := {
      elements := [
        .package "p" [.entity ⟨"A", [⟨"a", {}, false⟩], some { target := outside }⟩],
        .entity ⟨"B", [⟨"b", {}, true⟩, ⟨"c", {}, false⟩], some { target := inside }⟩,
        .greeting ⟨{}⟩] }
    document.scope.outline.size = 20 := by
  decide

end Scope

end DomainModel
