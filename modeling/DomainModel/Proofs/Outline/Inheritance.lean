import DomainModel.Proofs.Layout.Inheritance
import DomainModel.Proofs.Outline.Nodes

namespace DomainModel

namespace Outline

def entityNodes (outline : Outline) : List Outline :=
  match outline.child? "Entities" with
  | some category => category.children
  | none => []

def super? (outline : Outline) : Option Outline := outline.children.find? (·.hasTag .supertype)

def inheritance? (outline entity : Outline) : Option (String × String) :=
  match entity.super? with
  | some super =>
    if super.name ∈ outline.entityNodes.map (·.name) then some (entity.name, super.name) else none
  | none => none

theorem inheritance?_eq_some_iff (outline entity : Outline) (pair : String × String) :
    outline.inheritance? entity = some pair ↔
      ∃ super,
        entity.super? = some super ∧
        super.name ∈ outline.entityNodes.map (·.name) ∧
        (entity.name, super.name) = pair := by
  unfold inheritance?
  cases entity.super? with
  | none => simp
  | some super =>
    simp only [Option.ite_none_right_eq_some, Option.some.injEq, exists_eq_left']

end Outline

namespace Document

theorem super?_outlineEntity (d : Document) (e : Entity) :
    (d.outlineEntity e).super? = (d.superEntity e).map d.outlineSuper := by
  unfold Outline.super?
  rw [children_outlineEntity, List.find?_append]
  have untagged : (e.features.map d.outlineFeature).find? (·.hasTag .supertype) = none := by
    simp
  rw [untagged, Option.none_or]
  cases d.superEntity e with
  | none => rfl
  | some super => rfl

end Document

namespace Scope

theorem child?_outline (scope : Scope) (name : String) :
    scope.outline.child? name =
      (scope.sections.find? fun part => !part.2.isEmpty ∧ part.1 == name).map
        scope.outlineCategory := by
  unfold Outline.child?
  rw [outline_eq, Outline.children_branch, List.find?_map]
  unfold categories
  rw [List.find?_filter]
  rfl

theorem child?_entities_outline (scope : Scope) :
    scope.outline.child? "Entities" =
      if scope.entities = [] then none
      else some (scope.outlineCategory ("Entities", scope.entities.map (.entity ·.node))) := by
  rw [child?_outline]
  unfold sections
  cases scope.entities with
  | nil => simp
  | cons entity entities => simp

theorem entityNodes_outline (scope : Scope) :
    scope.outline.entityNodes =
      scope.entities.map fun e => scope.document.outlineEntity e.node := by
  unfold Outline.entityNodes
  rw [child?_entities_outline]
  split
  . next found =>
    split at found
    . cases found
    . cases found
      simp [outlineCategory]
  . next found =>
    split at found
    . next none => rw [none, List.map_nil]
    . cases found

end Scope

namespace Graph

theorem map_name_entityNodes (document : Document) :
    document.scope.outline.entityNodes.map (·.name) =
      document.scope.entities.map (·.node.name) := by
  rw [Scope.entityNodes_outline, List.map_map]
  rfl

theorem inheritance?_outlineEntity (document : Document) (entity : Located Entity) :
    document.scope.outline.inheritance? (document.outlineEntity entity.node) =
      (keptEdge? document entity).map fun edge => (edge.source, edge.target) := by
  ext pair
  rw [Outline.inheritance?_eq_some_iff, map_name_entityNodes, Document.super?_outlineEntity]
  rw [Option.map_eq_some_iff]
  simp only [Option.map_eq_some_iff, keptEdge?_eq_some_iff]
  constructor
  . rintro ⟨_, ⟨super, extend, rfl⟩, shown, rfl⟩
    exact ⟨_, ⟨super, extend, shown, rfl⟩, rfl⟩
  . rintro ⟨_, ⟨super, extend, shown, rfl⟩, rfl⟩
    exact ⟨_, ⟨super, extend, rfl⟩, shown, rfl⟩

theorem project_eq_inheritance (document : Document) (cache : PositionCache) :
    (project document document.scope.entities cache).1.nodes.map (·.id) =
      document.scope.outline.entityNodes.map (·.name) ∧
    (project document document.scope.entities cache).1.edges.map (fun edge =>
        (edge.source, edge.target)) =
      document.scope.outline.entityNodes.filterMap document.scope.outline.inheritance? ∧
    ((project document document.scope.entities cache).1.nodes = [] ↔
      document.scope.outline.child? "Entities" = none) := by
  have ids : (project document document.scope.entities cache).1.nodes.map (·.id) =
      document.scope.entities.map (·.node.name) := by
    apply map_id_placeNodes
  refine ⟨?_, ?_, ?_⟩
  . rw [map_name_entityNodes]
    exact ids
  . rw [edges_project, Scope.entityNodes_outline]
    rw [List.map_filterMap, List.filterMap_map]
    congr
    funext entity
    exact (inheritance?_outlineEntity document entity).symm
  . rw [Scope.child?_entities_outline]
    rw [← List.map_eq_nil_iff, ids]
    simp

end Graph

end DomainModel
