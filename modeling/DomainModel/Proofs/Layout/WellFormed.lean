import DomainModel.Proofs.Layout.Inheritance
import DomainModel.Proofs.Validation.Order
import Mathlib.Data.List.Nodup

/-!
Well-formed graphs. Where the entities of the root have different names, a graph has one node for
each of them, its edges join nodes, and no two edges come from the same node. The ids of its edges
need not differ, because names may contain the hyphen that joins them: two ids are the same just
when one source goes on, across a hyphen, into the target of the other edge.
-/

namespace DomainModel

def Document.entityNames (document : Document) : List String :=
  document.elements.filterMap Element.entityName?

theorem Document.map_name_entities (document : Document) :
    document.scope.entities.map (·.node.name) = document.entityNames :=
  document.scope.map_name_entities

namespace GraphEdge

/-- The source of the other edge goes on, across a hyphen, into the target of this one. -/
def Overlaps (edge other : GraphEdge) : Prop :=
  ∃ middle,
    other.source = edge.source ++ "-" ++ middle ∧ edge.target = middle ++ "-" ++ other.target

theorem not_overlaps_self (edge : GraphEdge) : ¬ edge.Overlaps edge := by
  rintro ⟨middle, longer, _⟩
  have lengths := congrArg String.length longer
  simp only [String.length_append] at lengths
  have hyphen : "-".length = 1 := rfl
  omega

theorem Overlaps.mem_source {edge other : GraphEdge} (h : edge.Overlaps other) :
    '-' ∈ other.source.toList := by
  rcases h with ⟨middle, longer, _⟩
  simp [longer]

-- One source is at least as long as the other one, and what it has more begins with the hyphen.
theorem eq_or_hyphenated (a b c d : String) (rest : List Char)
    (longer : c.toList = a.toList ++ rest) (beyond : '-' :: b.toList = rest ++ '-' :: d.toList) :
    (a = c ∧ b = d) ∨ ∃ middle, c = a ++ "-" ++ middle ∧ b = middle ++ "-" ++ d := by
  rw [List.cons_eq_append_iff] at beyond
  rcases beyond with ⟨rfl, same⟩ | ⟨middle, rfl, beyond⟩
  . left
    rw [List.append_nil] at longer
    rw [List.cons.injEq] at same
    exact ⟨(String.toList_injective longer).symm, (String.toList_injective same.2).symm⟩
  . right
    refine ⟨String.ofList middle, ?_, ?_⟩
    . apply String.toList_injective
      simp [longer]
    . apply String.toList_injective
      simp [beyond]

theorem hyphenated_eq_iff (a b c d : String) :
    a ++ "-" ++ b = c ++ "-" ++ d ↔
      (a = c ∧ b = d) ∨
      (∃ middle, c = a ++ "-" ++ middle ∧ b = middle ++ "-" ++ d) ∨
      ∃ middle, a = c ++ "-" ++ middle ∧ d = middle ++ "-" ++ b := by
  constructor
  . intro same
    have chars : a.toList ++ '-' :: b.toList = c.toList ++ '-' :: d.toList := by
      simpa using congrArg String.toList same
    rw [List.append_eq_append_iff] at chars
    rcases chars with ⟨rest, longer, beyond⟩ | ⟨rest, longer, beyond⟩
    . rcases eq_or_hyphenated a b c d rest longer beyond with both | middle
      . exact .inl both
      . exact .inr (.inl middle)
    . rcases eq_or_hyphenated c d a b rest longer beyond with both | middle
      . exact .inl ⟨both.1.symm, both.2.symm⟩
      . exact .inr (.inr middle)
  . rintro (⟨rfl, rfl⟩ | ⟨middle, rfl, rfl⟩ | ⟨middle, rfl, rfl⟩)
    . rfl
    . simp only [String.append_assoc]
    . simp only [String.append_assoc]

theorem id_between_eq_iff (source target source' target' : String) :
    (between source target).id = (between source' target').id ↔
      between source target = between source' target' ∨
      (between source target).Overlaps (between source' target') ∨
      (between source' target').Overlaps (between source target) := by
  have same : between source target = between source' target' ↔
      source = source' ∧ target = target' := by
    constructor
    . intro same
      exact ⟨congrArg GraphEdge.source same, congrArg GraphEdge.target same⟩
    . rintro ⟨rfl, rfl⟩
      rfl
  rw [same]
  apply hyphenated_eq_iff

end GraphEdge

namespace Graph

theorem map_fst_labels (graph : Graph) : graph.labels.map Prod.fst = graph.nodes.map (·.id) := by
  unfold labels
  rw [List.map_map]
  rfl

theorem map_id_of_labels {graph : Graph} {names : List String}
    (same : graph.labels = names.map fun name => (name, name)) :
    graph.nodes.map (·.id) = names := by
  rw [← map_fst_labels, same, List.map_map]
  exact List.map_id names

theorem map_id_moveNode (graph : Graph) (id : String) (position : Point) :
    (graph.moveNode id position).nodes.map (·.id) = graph.nodes.map (·.id) := by
  rw [← map_fst_labels, labels_moveNode, map_fst_labels]

structure WellFormed (names : List String) (graph : Graph) : Prop where
  labels_eq : graph.labels = names.map fun name => (name, name)
  nodup_id : (graph.nodes.map (·.id)).Nodup
  source_mem : ∀ edge ∈ graph.edges, edge.source ∈ graph.nodes.map (·.id)
  target_mem : ∀ edge ∈ graph.edges, edge.target ∈ graph.nodes.map (·.id)
  nodup_source : (graph.edges.map (·.source)).Nodup
  between_eq : ∀ edge ∈ graph.edges, edge = .between edge.source edge.target

theorem of_mem_edges_project (document : Document) (cache : PositionCache) (edge : GraphEdge)
    (mem : edge ∈ (project document document.scope.entities cache).1.edges) :
    edge.source ∈ document.entityNames ∧
    edge.target ∈ document.entityNames ∧
    edge = .between edge.source edge.target := by
  rw [edges_project, List.mem_filterMap] at mem
  rcases mem with ⟨entity, mem, kept⟩
  rw [keptEdge?_eq_some_iff, document.map_name_entities] at kept
  rcases kept with ⟨super, _, known, rfl⟩
  refine ⟨?_, known, rfl⟩
  rw [← document.map_name_entities]
  exact List.mem_map_of_mem mem

theorem source_sublist_project (document : Document) (cache : PositionCache) :
    ((project document document.scope.entities cache).1.edges.map (·.source)).Sublist
      document.entityNames := by
  rw [edges_project, List.map_filterMap]
  rw [← document.map_name_entities, ← List.filterMap_eq_map]
  apply filterMap_sublist_of_le
  intro entity source kept
  rw [Option.map_eq_some_iff] at kept
  rcases kept with ⟨edge, kept, rfl⟩
  rw [keptEdge?_eq_some_iff] at kept
  rcases kept with ⟨super, _, _, rfl⟩
  rfl

theorem labels_project_root (document : Document) (cache : PositionCache) :
    (project document document.scope.entities cache).1.labels =
      document.entityNames.map fun name => (name, name) := by
  rw [labels_project, ← document.map_name_entities, List.map_map]
  rfl

theorem map_id_project (document : Document) (cache : PositionCache) :
    (project document document.scope.entities cache).1.nodes.map (·.id) =
      document.entityNames :=
  map_id_of_labels (labels_project_root document cache)

theorem wellFormed_project (document : Document) (distinct : document.entityNames.Nodup)
    (cache : PositionCache) :
    (project document document.scope.entities cache).1.WellFormed document.entityNames where
  labels_eq := labels_project_root document cache
  nodup_id := by
    rw [map_id_project]
    exact distinct
  source_mem edge mem := by
    rw [map_id_project]
    exact (of_mem_edges_project document cache edge mem).1
  target_mem edge mem := by
    rw [map_id_project]
    exact (of_mem_edges_project document cache edge mem).2.1
  nodup_source := distinct.sublist (source_sublist_project document cache)
  between_eq edge mem := (of_mem_edges_project document cache edge mem).2.2

namespace WellFormed

variable {names : List String} {graph : Graph}

theorem moveNode (h : graph.WellFormed names) (id : String) (position : Point) :
    (graph.moveNode id position).WellFormed names where
  labels_eq := (graph.labels_moveNode id position).trans h.labels_eq
  nodup_id := by
    rw [map_id_moveNode]
    exact h.nodup_id
  source_mem := by
    rw [map_id_moveNode]
    exact h.source_mem
  target_mem := by
    rw [map_id_moveNode]
    exact h.target_mem
  nodup_source := h.nodup_source
  between_eq := h.between_eq

theorem source_mem_names (h : graph.WellFormed names) :
    ∀ edge ∈ graph.edges, edge.source ∈ names := by
  rw [← map_id_of_labels h.labels_eq]
  exact h.source_mem

theorem nodup_ends (h : graph.WellFormed names) :
    (graph.edges.map fun edge => (edge.source, edge.target)).Nodup := by
  apply List.Nodup.of_map Prod.fst
  rw [List.map_map]
  exact h.nodup_source

theorem id_eq_iff (h : graph.WellFormed names) {edge other : GraphEdge}
    (mem : edge ∈ graph.edges) (mem' : other ∈ graph.edges) :
    edge.id = other.id ↔ edge = other ∨ edge.Overlaps other ∨ other.Overlaps edge := by
  rw [h.between_eq edge mem, h.between_eq other mem']
  apply GraphEdge.id_between_eq_iff

theorem nodup_edge_id_iff (h : graph.WellFormed names) :
    (graph.edges.map (·.id)).Nodup ↔
      ∀ edge ∈ graph.edges, ∀ other ∈ graph.edges, ¬ edge.Overlaps other := by
  constructor
  . intro distinct edge mem other mem' overlaps
    have same := (h.id_eq_iff mem mem').mpr (.inr (.inl overlaps))
    have equal := List.inj_on_of_nodup_map distinct mem mem' same
    subst equal
    exact edge.not_overlaps_self overlaps
  . intro apart
    have distinct : graph.edges.Nodup := List.Nodup.of_map _ h.nodup_source
    apply distinct.map_on
    intro edge mem other mem' same
    rcases (h.id_eq_iff mem mem').mp same with equal | overlaps | overlaps
    . exact equal
    . exact absurd overlaps (apart edge mem other mem')
    . exact absurd overlaps (apart other mem' edge mem)

end WellFormed

end Graph

end DomainModel
