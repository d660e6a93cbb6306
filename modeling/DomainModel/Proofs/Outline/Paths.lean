import DomainModel.Proofs.Outline.Nodes
import Mathlib.Data.List.Induction

namespace DomainModel

namespace Outline

def at? (outline : Outline) (path : List Nat) : Option Outline :=
  path.foldlM (fun node index => node.children[index]?) outline

@[simp]
theorem at?_nil (outline : Outline) : outline.at? [] = some outline := rfl

theorem at?_cons (outline : Outline) (index : Nat) (path : List Nat) :
    outline.at? (index :: path) = outline.children[index]?.bind (·.at? path) := rfl

theorem at?_concat (outline : Outline) (path : List Nat) (index : Nat) :
    outline.at? (path ++ [index]) = (outline.at? path).bind (·.children[index]?) := by
  unfold at?
  rw [List.foldlM_append]
  simp

theorem at?_concat_of_at? {outline node : Outline} {path : List Nat}
    (there : outline.at? path = some node) (index : Nat) :
    outline.at? (path ++ [index]) = node.children[index]? := by
  rw [at?_concat, there, Option.bind_some]

end Outline

namespace Document

def outlineDeclaration (document : Document) : Declaration → Outline
  | .element element => document.outlineElement element
  | .feature feature => document.outlineFeature feature

theorem children_outlineEntity_length (d : Document) (e : Entity) :
    (d.outlineEntity e).children[e.features.length]? = (d.superEntity e).map d.outlineSuper := by
  rw [children_outlineEntity, List.getElem?_append_right (by simp)]
  cases d.superEntity e with
  | none => simp
  | some super => simp

theorem children_outlineEntity_of_lt (d : Document) (e : Entity) {index : Nat}
    (h : index < e.features.length) :
    (d.outlineEntity e).children[index]? = e.features[index]?.map d.outlineFeature := by
  rw [children_outlineEntity, List.getElem?_append_left (by simpa using h), List.getElem?_map]

theorem children_outlineEntity_of_gt (d : Document) (e : Entity) {index : Nat}
    (h : e.features.length < index) : (d.outlineEntity e).children[index]? = none := by
  rw [children_outlineEntity, List.getElem?_append_right (by simp; omega)]
  cases d.superEntity e with
  | none => simp
  | some super =>
    simp
    omega

end Document

namespace Scope

/--
The declaration for which there is a node under a path. Features are shown under their entity, and
after these once more under an entity that extends it.
-/
inductive Shows (scope : Scope) : List Nat → Declaration → Prop where
  | listed {part : String × List Element} {category index : Nat} {element : Element}
      (at_category : scope.categories[category]? = some part)
      (at_index : part.2[index]? = some element) :
      Shows scope ([category] ++ [index]) (.element element)
  | inside {path : List Nat} {name : String} {elements : List Element} {index : Nat}
      {element : Element}
      (package : Shows scope path (.element (.package name elements)))
      (at_index : elements[index]? = some element) :
      Shows scope (path ++ [index]) (.element element)
  | feature {path : List Nat} {entity : Entity} {index : Nat} {feature : Feature}
      (owner : Shows scope path (.element (.entity entity)))
      (at_index : entity.features[index]? = some feature) :
      Shows scope (path ++ [index]) (.feature feature)
  | inherited {path : List Nat} {entity super : Entity} {index : Nat} {feature : Feature}
      (owner : Shows scope path (.element (.entity entity)))
      (extend : scope.document.superEntity entity = some super)
      (at_index : super.features[index]? = some feature) :
      Shows scope (path ++ [entity.features.length] ++ [index]) (.feature feature)

theorem at?_category (scope : Scope) (category : Nat) :
    scope.outline.at? [category] = scope.categories[category]?.map scope.outlineCategory := by
  rw [Outline.at?_cons, outline_eq, Outline.children_branch, List.getElem?_map]
  cases scope.categories[category]? with
  | none => rfl
  | some part => rfl

theorem at?_super (scope : Scope) {path : List Nat} {entity super : Entity}
    (there : scope.outline.at? path = some (scope.document.outlineEntity entity))
    (extend : scope.document.superEntity entity = some super) :
    scope.outline.at? (path ++ [entity.features.length]) =
      some (scope.document.outlineSuper super) := by
  rw [Outline.at?_concat_of_at? there, Document.children_outlineEntity_length, extend]
  rfl

theorem at?_of_shows {scope : Scope} {path : List Nat} {declaration : Declaration}
    (h : scope.Shows path declaration) :
    scope.outline.at? path = some (scope.document.outlineDeclaration declaration) := by
  induction h with
  | @listed part category index element at_category at_index =>
    have there : scope.outline.at? [category] = some (scope.outlineCategory part) := by
      rw [at?_category, at_category, Option.map_some]
    rw [Outline.at?_concat_of_at? there]
    unfold outlineCategory
    rw [Outline.children_branch, List.getElem?_map, at_index]
    rfl
  | inside package at_index ih =>
    rw [Outline.at?_concat_of_at? ih, Document.outlineDeclaration]
    rw [Document.outlineElement_package, Outline.children_branch, List.getElem?_map, at_index]
    rfl
  | feature owner at_index ih =>
    have lt := (List.getElem?_eq_some_iff.mp at_index).1
    rw [Outline.at?_concat_of_at? ih, Document.outlineDeclaration]
    rw [Document.outlineElement_entity, Document.children_outlineEntity_of_lt _ _ lt, at_index]
    rfl
  | inherited owner extend at_index ih =>
    rw [Outline.at?_concat_of_at? (scope.at?_super ih extend)]
    rw [Document.children_outlineSuper, List.getElem?_map, at_index]
    rfl

inductive Stands (scope : Scope) : List Nat → Outline → Prop where
  | root : Stands scope [] scope.outline
  | category {category : Nat} {part : String × List Element}
      (at_category : scope.categories[category]? = some part) :
      Stands scope [category] (scope.outlineCategory part)
  | element {path : List Nat} {element : Element} (shown : scope.Shows path (.element element)) :
      Stands scope path (scope.document.outlineElement element)
  | super {path : List Nat} {entity super : Entity}
      (owner : scope.Shows path (.element (.entity entity)))
      (extend : scope.document.superEntity entity = some super) :
      Stands scope (path ++ [entity.features.length]) (scope.document.outlineSuper super)
  | feature {path : List Nat} {feature : Feature} (shown : scope.Shows path (.feature feature)) :
      Stands scope path (scope.document.outlineFeature feature)
  | type {path : List Nat} {feature : Feature} (shown : scope.Shows path (.feature feature)) :
      Stands scope (path ++ [0]) (scope.document.outlineType feature.type)

theorem Stands.child_entity {scope : Scope} {path : List Nat} {entity : Entity}
    (shown : scope.Shows path (.element (.entity entity))) {index : Nat} {child : Outline}
    (found : (scope.document.outlineEntity entity).children[index]? = some child) :
    scope.Stands (path ++ [index]) child := by
  rcases Nat.lt_trichotomy index entity.features.length with lt | eq | gt
  . rw [Document.children_outlineEntity_of_lt _ _ lt, Option.map_eq_some_iff] at found
    rcases found with ⟨feature, at_index, rfl⟩
    exact .feature (.feature shown at_index)
  . rw [eq, Document.children_outlineEntity_length, Option.map_eq_some_iff] at found
    rcases found with ⟨super, extend, rfl⟩
    rw [eq]
    exact .super shown extend
  . rw [Document.children_outlineEntity_of_gt _ _ gt] at found
    cases found

theorem Stands.child {scope : Scope} {path : List Nat} {node child : Outline} {index : Nat}
    (h : scope.Stands path node) (found : node.children[index]? = some child) :
    scope.Stands (path ++ [index]) child := by
  cases h with
  | root =>
    rw [outline_eq, Outline.children_branch, List.getElem?_map, Option.map_eq_some_iff] at found
    rcases found with ⟨part, at_category, rfl⟩
    exact .category at_category
  | category at_category =>
    unfold outlineCategory at found
    rw [Outline.children_branch, List.getElem?_map, Option.map_eq_some_iff] at found
    rcases found with ⟨element, at_index, rfl⟩
    exact .element (.listed at_category at_index)
  | @element _ element shown =>
    cases element with
    | entity entity => exact child_entity shown found
    | package name elements =>
      rw [Document.outlineElement_package, Outline.children_branch] at found
      rw [List.getElem?_map, Option.map_eq_some_iff] at found
      rcases found with ⟨element, at_index, rfl⟩
      exact .element (.inside shown at_index)
    | dataType _ | person _ | greeting _ => cases found
  | super owner extend =>
    rw [Document.children_outlineSuper, List.getElem?_map, Option.map_eq_some_iff] at found
    rcases found with ⟨feature, at_index, rfl⟩
    exact .feature (.inherited owner extend at_index)
  | feature shown =>
    rw [Document.children_outlineFeature, List.getElem?_singleton] at found
    split at found
    . next first =>
      cases found
      rw [first]
      exact .type shown
    . cases found
  | type shown =>
    rw [Document.children_outlineType] at found
    cases found

theorem at?_outline_iff (scope : Scope) (path : List Nat) (node : Outline) :
    scope.outline.at? path = some node ↔ scope.Stands path node := by
  constructor
  . intro there
    induction path using List.reverseRecOn generalizing node with
    | nil =>
      cases there
      exact .root
    | append_singleton path index ih =>
      rw [Outline.at?_concat, Option.bind_eq_some_iff] at there
      rcases there with ⟨parent, there, found⟩
      exact (ih parent there).child found
  . intro stands
    cases stands with
    | root => rfl
    | category at_category => rw [at?_category, at_category, Option.map_some]
    | element shown => exact at?_of_shows shown
    | super owner extend => exact scope.at?_super (at?_of_shows owner) extend
    | feature shown => exact at?_of_shows shown
    | type shown =>
      rw [Outline.at?_concat_of_at? (at?_of_shows shown), Document.outlineDeclaration]
      rw [Document.children_outlineFeature]
      rfl

end Scope

end DomainModel
