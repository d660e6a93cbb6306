import DomainModel.Proofs.Processor.Content
import DomainModel.Proofs.Processor.Positions

namespace DomainModel

namespace Session

theorem isFinite_of_not_recorded (session : Session) (event : DragEvent)
    (drop : event.dragging = false) (lost : (session.drag event).1 = false) (position : Point)
    (known : (event.position <|> session.inFlight[event.id]?) = some position) :
    position.isFinite = false := by
  rw [drag_fst, drop, known] at lost
  simpa using lost

theorem cache_drag_of_not_recorded (session : Session) (event : DragEvent)
    (lost : (session.drag event).1 = false) : (session.drag event).2.cache = session.cache := by
  cases drop : event.dragging with
  | true => rw [drag_of_dragging session event drop]
  | false =>
    have infinite := isFinite_of_not_recorded session event drop lost
    rw [drag_of_dropped session event drop]
    cases known : (event.position <|> session.inFlight[event.id]?) with
    | none => rfl
    | some position => simp [PositionCache.record, infinite position known]

end Session

namespace Graph

theorem moveNode_eq_self_iff (graph : Graph) (id : String) (position : Point) :
    graph.moveNode id position = graph ↔
      ∀ node ∈ graph.nodes, node.id = id → node.position = position := by
  rcases graph with ⟨nodes, edges⟩
  simp only [moveNode, Graph.mk.injEq, and_true]
  conv =>
    lhs
    rhs
    rw [← List.map_id nodes]
  rw [List.map_inj_left]
  constructor
  . intro fixed node mem own
    have same := fixed node mem
    rw [if_pos own] at same
    exact (congrArg GraphNode.position same).symm
  . intro there node mem
    split
    . next own =>
      rw [← there node mem own]
      rfl
    . rfl

end Graph

namespace Processor

open Snapshot (SameContent)

theorem snapshot_drag (p : Processor) (event : DragEvent) :
    (p.drag event).2.snapshot =
      p.snapshot.map fun s =>
        { s with graph := (event.position.map (s.graph.moveNode event.id)).getD s.graph } := by
  unfold drag
  cases event.position with
  | none => simp
  | some position => rfl

theorem graph_drag_eq_iff (p : Processor) (event : DragEvent) :
    (p.drag event).2.snapshot.map (·.graph) = p.snapshot.map (·.graph) ↔
      ∀ position ∈ event.position, ∀ snapshot ∈ p.snapshot, ∀ node ∈ snapshot.graph.nodes,
        node.id = event.id → node.position = position := by
  rw [snapshot_drag]
  cases p.snapshot with
  | none => simp
  | some snapshot =>
    cases event.position with
    | none => simp
    | some position => simp [Graph.moveNode_eq_self_iff]

theorem sameContent_of_mem_drag (p : Processor) (event : DragEvent) (after : Snapshot)
    (mem : after ∈ (p.drag event).2.snapshot) :
    ∃ before ∈ p.snapshot,
      SameContent after before ∧
      after.graph.nodes = before.graph.nodes.map fun node =>
        if node.id = event.id then { node with position := event.position.getD node.position }
        else node := by
  rw [snapshot_drag, Option.mem_def, Option.map_eq_some_iff] at mem
  rcases mem with ⟨before, mem, rfl⟩
  refine ⟨before, mem, ?_⟩
  cases event.position with
  | none => exact ⟨.refl before, by simp⟩
  | some position => exact ⟨.moveNode before event.id position, rfl⟩

theorem drag_of_not_recorded (p : Processor) (event : DragEvent) (drop : event.dragging = false)
    (lost : (p.drag event).1 = false) :
    (p.drag event).2.session.cache = p.session.cache ∧
    (∀ position ∈ event.position, position.isFinite = false) ∧
    ((p.drag event).2.snapshot.map (·.graph) = p.snapshot.map (·.graph) ↔
      ∀ position ∈ event.position, ∀ snapshot ∈ p.snapshot, ∀ node ∈ snapshot.graph.nodes,
        node.id = event.id → node.position = position) ∧
    ∀ after ∈ (p.drag event).2.snapshot, ∃ before ∈ p.snapshot,
      SameContent after before ∧
      after.graph.nodes = before.graph.nodes.map fun node =>
        if node.id = event.id then { node with position := event.position.getD node.position }
        else node := by
  refine ⟨Session.cache_drag_of_not_recorded p.session event lost, ?_, ?_, ?_⟩
  . intro position own
    apply Session.isFinite_of_not_recorded p.session event drop lost
    rw [Option.mem_def] at own
    rw [own]
    rfl
  . exact p.graph_drag_eq_iff event
  . exact p.sameContent_of_mem_drag event

-- A drop far outside: its first coordinate exceeds single precision.
def farDrop : DragEvent := .dropped "User" (some ⟨1 / 0, 0⟩)

theorem not_recorded_farDrop :
    (((ofSettings {}).step (.apply userChange)).drag farDrop).1 = false := by
  decide +kernel

theorem drag_of_not_recorded_farDrop :
    let p := (ofSettings {}).step (.apply userChange)
    (p.drag farDrop).1 = false ∧
    (p.drag farDrop).2.session.cache = p.session.cache ∧
    (∀ position ∈ farDrop.position, position.isFinite = false) ∧
    ((p.drag farDrop).2.snapshot.map (·.graph) = p.snapshot.map (·.graph) ↔
      ∀ position ∈ farDrop.position, ∀ snapshot ∈ p.snapshot, ∀ node ∈ snapshot.graph.nodes,
        node.id = farDrop.id → node.position = position) ∧
    ∀ after ∈ (p.drag farDrop).2.snapshot, ∃ before ∈ p.snapshot,
      SameContent after before ∧
      after.graph.nodes = before.graph.nodes.map fun node =>
        if node.id = farDrop.id then { node with position := farDrop.position.getD node.position }
        else node :=
  ⟨not_recorded_farDrop, drag_of_not_recorded _ farDrop rfl not_recorded_farDrop⟩

theorem graph_ne_of_farDrop :
    let p := (ofSettings {}).run [.apply userChange]
    farDrop.dragging = false ∧
    (p.drag farDrop).1 = false ∧
    (p.drag farDrop).2.snapshot.map (·.graph) ≠ p.snapshot.map (·.graph) := by
  refine ⟨rfl, not_recorded_farDrop, ?_⟩
  decide +kernel

end Processor

end DomainModel
