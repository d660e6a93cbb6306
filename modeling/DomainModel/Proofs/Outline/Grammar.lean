import DomainModel.Proofs.Outline.Paths

/-!
The grammar of outlines. Whatever the references of a document do, the outline of each of its scopes
has the same few forms of nodes in the same places, and since only one step of a reference is
followed, no entity reaches deeper than the types of the features of its supertype.
-/

namespace DomainModel

namespace Outline

def Within (levels : Nat) (outline : Outline) : Prop :=
  ∀ path, (outline.at? path).isSome → path.length ≤ levels

theorem within_zero {outline : Outline} (h : outline.children = []) : outline.Within 0 := by
  intro path reached
  cases path with
  | nil => simp
  | cons index path =>
    rw [at?_cons, h] at reached
    cases reached

theorem within_succ {outline : Outline} {levels : Nat}
    (h : ∀ child ∈ outline.children, child.Within levels) : outline.Within (levels + 1) := by
  intro path reached
  cases path with
  | nil => simp
  | cons index path =>
    rw [at?_cons] at reached
    cases found : outline.children[index]? with
    | none =>
      rw [found] at reached
      cases reached
    | some child =>
      rw [found, Option.bind_some] at reached
      rw [List.length_cons]
      apply Nat.succ_le_succ
      exact h child (List.mem_of_getElem? found) path reached

theorem Within.mono {outline : Outline} {levels more : Nat} (h : outline.Within levels)
    (le : levels ≤ more) : outline.Within more := by
  intro path reached
  exact Nat.le_trans (h path reached) le

def DeclaresEntity (outline : Outline) (path : List Nat) : Prop :=
  ∃ outer index parent node,
    path = outer ++ [index] ∧
    outline.at? outer = some parent ∧
    outline.at? path = some node ∧
    node.kind = .entity ∧
    (parent.kind = .category ∧ parent.name = "Entities" ∨ parent.kind = .package)

end Outline

namespace Document

theorem within_outlineFeature (d : Document) (f : Feature) : (d.outlineFeature f).Within 1 := by
  apply Outline.within_succ
  rw [children_outlineFeature, List.forall_mem_singleton]
  apply Outline.within_zero
  apply children_outlineType

theorem within_outlineFeatures (d : Document) (features : List Feature) :
    ∀ child ∈ features.map d.outlineFeature, child.Within 1 := by
  rw [List.forall_mem_map]
  intro f _
  exact d.within_outlineFeature f

theorem within_outlineSuper (d : Document) (super : Entity) : (d.outlineSuper super).Within 2 := by
  apply Outline.within_succ
  apply within_outlineFeatures

theorem within_outlineEntity (d : Document) (e : Entity) : (d.outlineEntity e).Within 3 := by
  apply Outline.within_succ
  rw [children_outlineEntity, List.forall_mem_append]
  constructor
  . intro child mem
    apply (d.within_outlineFeatures _ child mem).mono
    decide
  . rw [List.forall_mem_map]
    intro super _
    exact d.within_outlineSuper super

theorem filter_hasTag_outlineEntity (d : Document) (e : Entity) :
    (d.outlineEntity e).children.filter (·.hasTag .supertype) =
      (d.superEntity e).toList.map d.outlineSuper := by
  rw [children_outlineEntity, List.filter_append]
  have features : (e.features.map d.outlineFeature).filter (·.hasTag .supertype) = [] := by simp
  rw [features, List.nil_append, List.filter_eq_self]
  simp

theorem mem_tagged_outlineEntity_iff (d : Document) (e : Entity) (child : Outline) :
    child ∈ (d.outlineEntity e).children ∧ child.hasTag .supertype ↔
      ∃ super, d.superEntity e = some super ∧ child = d.outlineSuper super := by
  rw [← List.mem_filter, filter_hasTag_outlineEntity, List.mem_map]
  simp only [Option.mem_toList, eq_comm]

theorem exists_tagged_outlineEntity_iff (d : Document) (e : Entity) :
    (∃ child ∈ (d.outlineEntity e).children, child.hasTag .supertype) ↔
      (d.superEntity e).isSome := by
  simp only [mem_tagged_outlineEntity_iff]
  rw [Option.isSome_iff_exists]
  constructor
  . rintro ⟨_, super, extend, _⟩
    exact ⟨super, extend⟩
  . rintro ⟨super, extend⟩
    exact ⟨_, super, extend, rfl⟩

end Document

namespace Scope

theorem name_of_mem_categories {scope : Scope} {part : String × List Element}
    (mem : part ∈ scope.categories) {entity : Entity} (listed : .entity entity ∈ part.2) :
    part.1 = "Entities" := by
  unfold categories sections at mem
  have known := (List.mem_filter.mp mem).1
  simp only [List.mem_cons, List.not_mem_nil, or_false] at known
  rcases known with rfl | rfl | rfl
  . simp at listed
  . rfl
  . simp at listed

namespace Stands

variable {scope : Scope} {path : List Nat} {node : Outline}

theorem feature_of_kind (h : scope.Stands path node) (kind : node.kind = .feature) :
    ∃ feature, scope.Shows path (.feature feature) := by
  cases h with
  | feature shown => exact ⟨_, shown⟩
  | element shown =>
    rw [Document.kind_outlineElement] at kind
    split at kind <;> cases kind
  | type shown =>
    rw [Document.kind_outlineType] at kind
    split at kind <;> cases kind
  | root | category | super => cases kind

theorem feature_of_many (h : scope.Stands path node) (many : node.hasTag .many) :
    ∃ feature, scope.Shows path (.feature feature) ∧ feature.many := by
  cases h with
  | @feature _ feature shown =>
    rw [Document.hasTag_outlineFeature] at many
    exact ⟨feature, shown, by simpa using many⟩
  | element shown =>
    rw [Document.hasTag_outlineElement] at many
    cases many
  | type shown =>
    rw [Document.hasTag_outlineType] at many
    cases many
  | super owner extend =>
    rw [Document.hasTag_outlineSuper] at many
    cases many
  | root | category => cases many

theorem owner_of_supertype (h : scope.Stands path node) (tagged : node.hasTag .supertype) :
    ∃ outer entity,
      path = outer ++ [entity.features.length] ∧ scope.Shows outer (.element (.entity entity)) := by
  cases h with
  | super owner extend => exact ⟨_, _, rfl, owner⟩
  | feature shown =>
    rw [Document.hasTag_outlineFeature] at tagged
    simp at tagged
  | element shown =>
    rw [Document.hasTag_outlineElement] at tagged
    cases tagged
  | type shown =>
    rw [Document.hasTag_outlineType] at tagged
    cases tagged
  | root | category => cases tagged

theorem within_of_entity (h : scope.Stands path node) (kind : node.kind = .entity) :
    node.Within 3 := by
  cases h with
  | @element _ element shown =>
    cases element with
    | entity entity => exact scope.document.within_outlineEntity entity
    | dataType _ | package _ _ | person _ | greeting _ => cases kind
  | super owner extend =>
    apply (scope.document.within_outlineSuper _).mono
    decide
  | feature shown =>
    rw [Document.kind_outlineFeature] at kind
    cases kind
  | type shown =>
    apply (Outline.within_zero _).mono
    . decide
    . apply Document.children_outlineType
  | root | category => cases kind

end Stands

theorem declaresEntity_of_shows {scope : Scope} {path : List Nat} {entity : Entity}
    (shown : scope.Shows path (.element (.entity entity))) : scope.outline.DeclaresEntity path := by
  have there := at?_of_shows shown
  cases shown with
  | @listed part category index _ at_category at_index =>
    refine ⟨[category], index, scope.outlineCategory part, _, rfl, ?_, there, rfl, ?_⟩
    . rw [at?_category, at_category, Option.map_some]
    . left
      refine ⟨rfl, ?_⟩
      have listed := List.mem_of_getElem? at_index
      exact name_of_mem_categories (List.mem_of_getElem? at_category) listed
  | inside package at_index =>
    refine ⟨_, _, _, _, rfl, at?_of_shows package, there, rfl, ?_⟩
    right
    rfl

theorem shows_of_declaresEntity {scope : Scope} {path : List Nat}
    (h : scope.outline.DeclaresEntity path) :
    ∃ entity, scope.Shows path (.element (.entity entity)) := by
  rcases h with ⟨outer, index, parent, node, here, above, there, kind, place⟩
  rw [at?_outline_iff] at there
  cases there with
  | @element _ element shown =>
    cases element with
    | entity entity => exact ⟨entity, shown⟩
    | dataType _ | package _ _ | person _ | greeting _ => cases kind
  | feature shown =>
    rw [Document.kind_outlineFeature] at kind
    cases kind
  | root | category => cases kind
  -- The other nodes for entities are right under those of entities and features.
  | super owner extend =>
    rw [← (List.append_inj' here rfl).1, at?_of_shows owner, Option.some.injEq] at above
    subst above
    rcases place with ⟨kind, _⟩ | kind
    . cases kind
    . cases kind
  | type shown =>
    rw [← (List.append_inj' here rfl).1, at?_of_shows shown, Option.some.injEq] at above
    subst above
    rw [Document.outlineDeclaration, Document.kind_outlineFeature] at place
    rcases place with ⟨kind, _⟩ | kind
    . cases kind
    . cases kind

structure Grammar (scope : Scope) (root : Outline) : Prop where
  categories :
    (root.children.map fun category => (category.name, category.kind)).Sublist
      [("DataTypes", .category), ("Entities", .category), ("Packages", .category)]
  filled : ∀ category ∈ root.children, category.children ≠ []
  shown : ∀ path declaration, scope.Shows path declaration → (root.at? path).isSome
  feature : ∀ path node, root.at? path = some node →
    (node.kind = .feature ↔ ∃ feature, scope.Shows path (.feature feature))
  type : ∀ path node feature, root.at? path = some node → scope.Shows path (.feature feature) →
    ∃ type,
      node.children = [type] ∧
      type.children = [] ∧
      (type.kind = .dataType ∨ type.kind = .entity ∨ type.kind = .unresolvedType) ∧
      (type.kind = .unresolvedType ↔ scope.document.resolveType feature.type = none)
  many : ∀ path node, root.at? path = some node →
    (node.hasTag .many ↔ ∃ feature, scope.Shows path (.feature feature) ∧ feature.many)
  entity : ∀ path,
    root.DeclaresEntity path ↔ ∃ entity, scope.Shows path (.element (.entity entity))
  super : ∀ path node entity, root.at? path = some node →
    scope.Shows path (.element (.entity entity)) →
      ((∃ child ∈ node.children, child.hasTag .supertype) ↔
        (scope.document.superEntity entity).isSome) ∧
      ∀ child ∈ node.children, child.hasTag .supertype →
        node.children.filter (·.hasTag .supertype) = [child] ∧
        node.children.getLast? = some child ∧
        ∀ inner ∈ child.children, inner.kind = .feature
  tagged : ∀ path node, root.at? path = some node → node.hasTag .supertype →
    ∃ outer index, path = outer ++ [index] ∧ root.DeclaresEntity outer
  shallow : ∀ path node, root.at? path = some node → node.kind = .entity → node.Within 3

end Scope

end DomainModel
