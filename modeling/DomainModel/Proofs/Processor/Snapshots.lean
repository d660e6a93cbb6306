import DomainModel.Proofs.Layout.WellFormed
import DomainModel.Proofs.Processor.Drops
import DomainModel.Proofs.Processor.Gate

/-!
Snapshots that a processor shows. Each one was derived from a notification, and drags have moved its
nodes since. So what every derived snapshot has, and moves keep, holds after every run: the nodes
are those of the root entities, nodes of one name stand together, and the graph of a snapshot
without errors is well formed.
-/

namespace DomainModel

namespace Processor

theorem mem_snapshot_step (p : Processor) (step : Step) (s : Snapshot)
    (shown : s ∈ (p.step step).snapshot) :
    (∃ change document, s = (derive p.settings p.session change document).1) ∨
    s ∈ p.snapshot ∨
    ∃ old ∈ p.snapshot, ∃ id position,
      s = { old with graph := old.graph.moveNode id position } := by
  rcases step_cases p step with ⟨change, document, _, _, next⟩ | ⟨_, next⟩ | ⟨event, rfl⟩ | rfl
  . left
    rw [next] at shown
    cases shown
    exact ⟨change, document, rfl⟩
  . right; left
    rw [next] at shown
    exact shown
  . right
    dsimp only [Processor.step] at shown
    rw [snapshot_drag, Option.mem_def, Option.map_eq_some_iff] at shown
    rcases shown with ⟨old, known, rfl⟩
    cases event.position with
    | none => exact .inl known
    | some position => exact .inr ⟨old, known, event.id, position, rfl⟩
  . right; left
    exact shown

section Invariant

variable {P : Snapshot → Prop}
    (derived : ∀ settings session change document, P (derive settings session change document).1)
    (moved : ∀ s id position, P s → P { s with graph := s.graph.moveNode id position })

include derived moved

theorem forall_mem_snapshot_step (p : Processor) (h : ∀ s ∈ p.snapshot, P s) (step : Step) :
    ∀ s ∈ (p.step step).snapshot, P s := by
  intro s shown
  rcases p.mem_snapshot_step step s shown with
    ⟨change, document, rfl⟩ | same | ⟨old, known, id, position, rfl⟩
  . apply derived
  . exact h s same
  . exact moved old id position (h old known)

theorem forall_mem_snapshot_run (settings : Settings) (steps : List Step) :
    ∀ s ∈ ((ofSettings settings).run steps).snapshot, P s := by
  have start : ∀ s ∈ (ofSettings settings).snapshot, P s := by
    intro s shown
    cases shown
  generalize ofSettings settings = p at start
  induction steps generalizing p with
  | nil => exact start
  | cons step steps ih =>
    apply ih
    exact forall_mem_snapshot_step derived moved p start step

end Invariant

theorem nodup_entityNames_of_derive (settings : Settings) (session : Session)
    (change : DocumentChange) (document : Document)
    (opened : (derive settings session change document).1.hasErrors = false) :
    document.entityNames.Nodup := by
  apply document.scope.nodup_filterMap_of_not_repeats
  intro repeated
  have closed := (hasErrors_derive_iff settings session change document).mpr
    (.inr ⟨document.scope, .self _, .inl repeated⟩)
  rw [opened] at closed
  cases closed

theorem wellFormed_of_mem_run (settings : Settings) (steps : List Step) :
    ∀ s ∈ ((ofSettings settings).run steps).snapshot,
      s.hasErrors = false → s.graph.WellFormed s.document.entityNames := by
  apply forall_mem_snapshot_run
  . intro settings session change document opened
    apply Graph.wellFormed_project
    exact nodup_entityNames_of_derive settings session change document opened
  . intro s id position h opened
    exact (h opened).moveNode id position

theorem labels_of_mem_run (settings : Settings) (steps : List Step) :
    ∀ s ∈ ((ofSettings settings).run steps).snapshot,
      s.graph.labels = s.document.entityNames.map fun name => (name, name) := by
  apply forall_mem_snapshot_run
  . intro settings session change document
    apply Graph.labels_project_root
  . intro s id position h
    exact (s.graph.labels_moveNode id position).trans h

-- "a" extends "b-c", and "a-b" extends "c".
def hyphensChange : DocumentChange where
  content :=
    "[\"Domainmodel\",null,[[\"Entity\",\"a\",[],[\"#/elements@2\"]]," ++
      "[\"Entity\",\"a-b\",[],[\"#/elements@3\"]],[\"Entity\",\"b-c\"],[\"Entity\",\"c\"]]]"

theorem exists_shown_hyphensChange :
    ∃ s ∈ ((ofSettings {}).run [.apply hyphensChange]).snapshot,
      s.hasErrors = false ∧ s.graph.edges = [.between "a" "b-c", .between "a-b" "c"] := by
  have shown : (((ofSettings {}).run [.apply hyphensChange]).snapshot.map fun s =>
      (s.hasErrors, s.graph.edges)) = some (false, [.between "a" "b-c", .between "a-b" "c"]) := by
    decide +kernel
  rw [Option.map_eq_some_iff] at shown
  rcases shown with ⟨s, shown, both⟩
  rw [Prod.mk.injEq] at both
  exact ⟨s, shown, both⟩

theorem graph_wellFormed_of_opened (settings : Settings) (steps : List Step) (s : Snapshot)
    (shown : s ∈ ((ofSettings settings).run steps).snapshot) (kind : ViewKind)
    (opened : (s.view kind).isGated = false) : s.graph.WellFormed s.document.entityNames := by
  rw [s.isGated_view kind] at opened
  exact wellFormed_of_mem_run settings steps s shown opened

theorem graph_wellFormed_of_opened_hyphens :
    ∃ s ∈ ((ofSettings {}).run [.apply hyphensChange]).snapshot,
      (s.view .graph).isGated = false ∧ s.graph.WellFormed s.document.entityNames := by
  rcases exists_shown_hyphensChange with ⟨s, shown, opened, _⟩
  rw [← s.isGated_view .graph] at opened
  exact ⟨s, shown, opened,
    graph_wellFormed_of_opened {} [.apply hyphensChange] s shown .graph opened⟩

theorem nodup_edge_id_of_opened_iff (settings : Settings) (steps : List Step) (s : Snapshot)
    (shown : s ∈ ((ofSettings settings).run steps).snapshot) (opened : s.hasErrors = false) :
    (s.graph.edges.map fun edge => (edge.source, edge.target)).Nodup ∧
    (∀ edge ∈ s.graph.edges, edge.id = edge.source ++ "-" ++ edge.target) ∧
    ((s.graph.edges.map (·.id)).Nodup ↔
      ∀ edge ∈ s.graph.edges, ∀ other ∈ s.graph.edges, ¬ edge.Overlaps other) ∧
    ((∀ name ∈ s.document.entityNames, '-' ∉ name.toList) →
      (s.graph.edges.map (·.id)).Nodup) := by
  have wellFormed := wellFormed_of_mem_run settings steps s shown opened
  refine ⟨wellFormed.nodup_ends, ?_, wellFormed.nodup_edge_id_iff, ?_⟩
  . intro edge mem
    exact congrArg GraphEdge.id (wellFormed.between_eq edge mem)
  . intro plain
    rw [wellFormed.nodup_edge_id_iff]
    intro edge _ other mem overlaps
    exact plain other.source (wellFormed.source_mem_names other mem) overlaps.mem_source

theorem nodup_edge_id_of_opened_iff_hyphens :
    ∃ s ∈ ((ofSettings {}).run [.apply hyphensChange]).snapshot,
      s.hasErrors = false ∧
      (s.graph.edges.map fun edge => (edge.source, edge.target)).Nodup ∧
      (∀ edge ∈ s.graph.edges, edge.id = edge.source ++ "-" ++ edge.target) ∧
      ((s.graph.edges.map (·.id)).Nodup ↔
        ∀ edge ∈ s.graph.edges, ∀ other ∈ s.graph.edges, ¬ edge.Overlaps other) ∧
      ((∀ name ∈ s.document.entityNames, '-' ∉ name.toList) →
        (s.graph.edges.map (·.id)).Nodup) := by
  rcases exists_shown_hyphensChange with ⟨s, shown, opened, _⟩
  exact ⟨s, shown, opened, nodup_edge_id_of_opened_iff {} [.apply hyphensChange] s shown opened⟩

theorem not_nodup_edge_id_hyphens :
    ∃ s ∈ ((ofSettings {}).run [.apply hyphensChange]).snapshot,
      s.hasErrors = false ∧ ¬ (s.graph.edges.map (·.id)).Nodup := by
  rcases exists_shown_hyphensChange with ⟨s, shown, opened, edges⟩
  refine ⟨s, shown, opened, ?_⟩
  rw [edges]
  decide

theorem position_eq_of_mem_run (settings : Settings) (steps : List Step) :
    ∀ s ∈ ((ofSettings settings).run steps).snapshot,
      ∀ node ∈ s.graph.nodes, ∀ other ∈ s.graph.nodes,
        node.id = other.id → node.position = other.position := by
  have shows := (Shows.ofSettings settings).run steps
  intro s shown node mem other mem' same
  -- Both stand where the history of the run puts their name.
  have position := shows.position_eq s shown node mem
  rw [same, shows.position_eq s shown other mem'] at position
  exact (Option.some.inj position).symm

theorem exists_accept_of_outcome (p : Processor) (step : Step) (s : Snapshot)
    (applied : p.outcome step = .applied (.ok s)) :
    ∃ change document,
      s = (derive p.settings p.session change document).1 ∧
      p.step step = p.accept change document := by
  rcases outcome_cases p step with
    ⟨change, document, _, known, next⟩ | ⟨_, _, known, _⟩ | ⟨_, rfl⟩ | rfl
  . rw [known] at applied
    cases applied
    exact ⟨change, document, rfl, next⟩
  . rw [known] at applied
    cases applied
  . cases applied
  . cases applied

theorem nodes_of_run (settings : Settings) (steps : List Step) :
    let p := (ofSettings settings).run steps
    (∀ s ∈ p.snapshot,
      s.graph.labels = s.document.entityNames.map (fun name => (name, name)) ∧
      ∀ node ∈ s.graph.nodes, ∀ other ∈ s.graph.nodes,
        node.id = other.id → node.position = other.position) ∧
    ∀ step s, p.outcome step = .applied (.ok s) →
      (p.step step).snapshot = some s ∧
      ∀ node ∈ s.graph.nodes,
        (p.step step).session.cache.get? node.id = some node.position := by
  constructor
  . intro s shown
    exact ⟨labels_of_mem_run settings steps s shown, position_eq_of_mem_run settings steps s shown⟩
  . intro step s applied
    rcases exists_accept_of_outcome _ step s applied with ⟨change, document, rfl, next⟩
    rw [next]
    refine ⟨rfl, ?_⟩
    intro node mem
    apply Graph.get?_of_mem_placeNodes _ _ _ _ mem

def namesakesChange : DocumentChange where
  content := "[\"Domainmodel\",null,[[\"Entity\",\"User\"],[\"Entity\",\"User\"]]]"

-- The drag leaves the plane.
def draggedNamesakes : List Step :=
  [.apply namesakesChange, .drag (.moving "User" ⟨1 / 0, 5⟩), .reset]

theorem nodes_of_run_namesakes :
    let p := (ofSettings {}).run draggedNamesakes
    (∃ s ∈ p.snapshot,
      s.graph.nodes.length = 2 ∧
      s.graph.labels = s.document.entityNames.map (fun name => (name, name)) ∧
      ∀ node ∈ s.graph.nodes, ∀ other ∈ s.graph.nodes,
        node.id = other.id → node.position = other.position) ∧
    ∃ s,
      p.outcome (.apply namesakesChange) = .applied (.ok s) ∧
      (p.step (.apply namesakesChange)).snapshot = some s ∧
      ∀ node ∈ s.graph.nodes,
        (p.step (.apply namesakesChange)).session.cache.get? node.id = some node.position := by
  have two : (((ofSettings {}).run draggedNamesakes).snapshot.map fun s =>
      s.graph.nodes.length) = some 2 := by
    decide +kernel
  have read : namesakesChange.document.toOption.isSome := by
    decide +kernel
  have nodes := nodes_of_run {} draggedNamesakes
  rw [Option.map_eq_some_iff] at two
  rcases two with ⟨s, shown, two⟩
  rcases exists_snapshot_of_isSome ((ofSettings {}).run draggedNamesakes) namesakesChange read with
    ⟨t, applied⟩
  have outcome : ((ofSettings {}).run draggedNamesakes).outcome (.apply namesakesChange) =
      .applied (.ok t) := congrArg Outcome.applied applied
  exact ⟨⟨s, shown, two, nodes.1 s shown⟩, t, outcome, nodes.2 (.apply namesakesChange) t outcome⟩

end Processor

end DomainModel
