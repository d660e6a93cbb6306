import DomainModel.Proofs.Processor.Drops

/-!
Drags of different nodes. Events of different names commute: neither changes what the other one
finds, so both are answered as before and the same is left in the end. Hence streams of events about
different names may be mixed in any way that keeps the order of each.
-/

namespace DomainModel

inductive Interleaving : List α → List α → List α → Prop where
  | nil : Interleaving [] [] []
  | left {as bs cs : List α} (a : α) (h : Interleaving as bs cs) :
      Interleaving (a :: as) bs (a :: cs)
  | right {as bs cs : List α} (b : α) (h : Interleaving as bs cs) :
      Interleaving as (b :: bs) (b :: cs)

namespace Graph

theorem moveNode_comm (graph : Graph) {id id' : String} (apart : id ≠ id')
    (position position' : Point) :
    (graph.moveNode id position).moveNode id' position' =
      (graph.moveNode id' position').moveNode id position := by
  unfold moveNode
  simp only [List.map_map, Graph.mk.injEq, and_true]
  apply List.map_congr_left
  intro node _
  dsimp only [Function.comp_apply]
  by_cases own : node.id = id
  . subst own
    simp [apart]
  . by_cases other : node.id = id'
    . subst other
      simp [own]
    . simp [own, other]

def follow (graph : Graph) (event : DragEvent) : Graph :=
  (event.position.map (graph.moveNode event.id)).getD graph

theorem follow_comm (graph : Graph) {event other : DragEvent} (apart : event.id ≠ other.id) :
    (graph.follow event).follow other = (graph.follow other).follow event := by
  unfold follow
  cases event.position with
  | none => rfl
  | some position =>
    cases other.position with
    | none => rfl
    | some position' => exact graph.moveNode_comm apart position position'

end Graph

namespace Session

theorem eq_of_lookups (session other : Session) (layout : session.cache.layout = other.cache.layout)
    (kept : ∀ id, session.cache.get? id = other.cache.get? id)
    (watched : ∀ id : String, session.inFlight[id]? = other.inFlight[id]?) : session = other := by
  rcases session with ⟨⟨layout, positions⟩, inFlight⟩
  rcases other with ⟨⟨layout', positions'⟩, inFlight'⟩
  have positions_eq : positions = positions' := Std.ExtTreeMap.ext_getElem? kept
  have inFlight_eq : inFlight = inFlight' := Std.ExtTreeMap.ext_getElem? watched
  dsimp only at layout
  rw [layout, positions_eq, inFlight_eq]

variable {event other : DragEvent}

theorem inFlight_drag_of_ne (session : Session) (apart : event.id ≠ other.id) :
    (session.drag event).2.inFlight[other.id]? = session.inFlight[other.id]? := by
  rw [inFlight_drag, if_neg apart]

theorem drag_fst_of_ne (session : Session) (apart : event.id ≠ other.id) :
    ((session.drag event).2.drag other).1 = (session.drag other).1 := by
  rw [drag_fst, drag_fst, session.inFlight_drag_of_ne apart]

theorem drag_comm (session : Session) (apart : event.id ≠ other.id) :
    ((session.drag event).2.drag other).2 = ((session.drag other).2.drag event).2 := by
  apply eq_of_lookups
  . rw [layout_drag, layout_drag, layout_drag, layout_drag]
  . intro id
    rw [get?_drag, get?_drag, get?_drag, get?_drag]
    rw [session.inFlight_drag_of_ne apart, session.inFlight_drag_of_ne apart.symm]
    by_cases own : event.id = id
    . subst own
      simp [apart.symm]
    . simp [own]
  . intro id
    rw [inFlight_drag, inFlight_drag, inFlight_drag, inFlight_drag]
    by_cases own : event.id = id
    . subst own
      simp [apart.symm]
    . simp [own]

end Session

namespace Processor

variable {event other : DragEvent}

theorem drag_fst_of_ne (p : Processor) (apart : event.id ≠ other.id) :
    ((p.drag event).2.drag other).1 = (p.drag other).1 := by
  rw [drag_fst, drag_fst, session_drag]
  exact p.session.drag_fst_of_ne apart

theorem drag_snd (p : Processor) (event : DragEvent) :
    (p.drag event).2 =
      { p with
        session := (p.session.drag event).2
        snapshot := p.snapshot.map fun s => { s with graph := s.graph.follow event } } := by
  unfold Graph.follow
  rw [← snapshot_drag]
  rfl

theorem drag_comm (p : Processor) (apart : event.id ≠ other.id) :
    ((p.drag event).2.drag other).2 = ((p.drag other).2.drag event).2 := by
  rw [drag_snd, drag_snd, drag_snd, drag_snd]
  dsimp only
  rw [p.session.drag_comm apart]
  rw [Option.map_map, Option.map_map]
  simp only [Function.comp_def, Graph.follow_comm _ apart]

theorem run_drag_comm (p : Processor) (events : List DragEvent)
    (apart : ∀ event ∈ events, event.id ≠ other.id) :
    (p.drag other).2.run (events.map .drag) = ((p.run (events.map .drag)).drag other).2 := by
  induction events generalizing p with
  | nil => rfl
  | cons event events ih =>
    rw [List.forall_mem_cons] at apart
    rw [List.map_cons, run_cons, run_cons]
    dsimp only [step]
    rw [← p.drag_comm apart.1]
    exact ih (p.drag event).2 apart.2

theorem trace_drag_of_ne (p : Processor) (events : List DragEvent)
    (apart : ∀ event ∈ events, event.id ≠ other.id) :
    (p.drag other).2.trace (events.map .drag) = p.trace (events.map .drag) := by
  induction events generalizing p with
  | nil => rfl
  | cons event events ih =>
    rw [List.forall_mem_cons] at apart
    rw [List.map_cons, trace_cons, trace_cons]
    dsimp only [step, outcome]
    rw [p.drag_fst_of_ne apart.1.symm, ← p.drag_comm apart.1]
    rw [ih (p.drag event).2 apart.2]

theorem drag_fst_run_of_ne (p : Processor) (events : List DragEvent)
    (apart : ∀ event ∈ events, event.id ≠ other.id) :
    ((p.run (events.map .drag)).drag other).1 = (p.drag other).1 := by
  induction events generalizing p with
  | nil => rfl
  | cons event events ih =>
    rw [List.forall_mem_cons] at apart
    rw [List.map_cons, run_cons]
    dsimp only [step]
    rw [ih (p.drag event).2 apart.2]
    exact p.drag_fst_of_ne apart.1

theorem run_of_interleaving (p : Processor) (events others mixed : List DragEvent)
    (apart : ∀ event ∈ events, ∀ other ∈ others, event.id ≠ other.id)
    (h : Interleaving events others mixed) :
    p.run (mixed.map .drag) = p.run ((events ++ others).map .drag) ∧
    Interleaving (p.trace (events.map .drag))
      ((p.run (events.map .drag)).trace (others.map .drag)) (p.trace (mixed.map .drag)) := by
  induction h generalizing p with
  | nil => exact ⟨rfl, .nil⟩
  | left event h ih =>
    rw [List.forall_mem_cons] at apart
    rcases ih (p.drag event).2 apart.2 with ⟨run, trace⟩
    exact ⟨run, .left _ trace⟩
  | @right events others mixed other h ih =>
    simp only [List.forall_mem_cons, forall_and] at apart
    rcases ih (p.drag other).2 apart.2 with ⟨run, trace⟩
    -- The event comes first here and after all of the other stream there.
    have first := p.run_drag_comm events apart.1
    constructor
    . rw [List.map_append, run_append] at run ⊢
      rw [List.map_cons, run_cons, List.map_cons, run_cons]
      dsimp only [step]
      rw [run, first]
    . rw [List.map_cons, trace_cons, List.map_cons, trace_cons]
      dsimp only [step, outcome]
      rw [p.drag_fst_run_of_ne events apart.1, ← first]
      rw [← p.trace_drag_of_ne events apart.1]
      exact .right _ trace

def userDrag : List DragEvent := [.moving "User" ⟨10, 10⟩, .dropped "User" none]

-- Neither of the drops is recorded.
def orderDrag : List DragEvent := [.dropped "Order" (some ⟨1 / 0, 0⟩), .dropped "Order" none]

def bothDrags : List DragEvent :=
  [.dropped "Order" (some ⟨1 / 0, 0⟩), .moving "User" ⟨10, 10⟩, .dropped "Order" none,
    .dropped "User" none]

theorem run_of_interleaving_bothDrags :
    let p := (ofSettings {}).run [.apply userChange]
    (∀ event ∈ userDrag, ∀ other ∈ orderDrag, event.id ≠ other.id) ∧
    Interleaving userDrag orderDrag bothDrags ∧
    p.run (bothDrags.map .drag) = p.run ((userDrag ++ orderDrag).map .drag) ∧
    Interleaving (p.trace (userDrag.map .drag))
      ((p.run (userDrag.map .drag)).trace (orderDrag.map .drag))
      (p.trace (bothDrags.map .drag)) := by
  have apart : ∀ event ∈ userDrag, ∀ other ∈ orderDrag, event.id ≠ other.id := by
    decide
  have mixed : Interleaving userDrag orderDrag bothDrags :=
    .right _ (.left _ (.right _ (.left _ .nil)))
  exact ⟨apart, mixed, run_of_interleaving _ userDrag orderDrag bothDrags apart mixed⟩

end Processor

end DomainModel
