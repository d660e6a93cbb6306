import DomainModel.Proofs.Processor.Run

/-!
Where a processor shows the nodes of a name, and where its session keeps the name. A drop that is
committed without a position of its own leaves the view behind if a notification has replaced the
snapshot since the node was last seen on its way: then the nodes stand where the cache had the name
before the drop.
-/

namespace DomainModel

namespace Session

namespace Step

def isProjection : Step → Bool
  | .project _ _ => true
  | _ => false

end Step

namespace History

/-- Where a view shows the nodes of a name: every event with a position moves them. -/
def shown? (layout : Layout) (id : String) : History → Option Point
  | [] => none
  | .project document entities :: past => position? layout id (.project document entities :: past)
  | .drag event :: past =>
    if event.id = id then (event.position <|> shown? layout id past) else shown? layout id past
  | .reset :: past => shown? layout id past

def sinceProjection (past : History) : History := past.takeWhile (!·.isProjection)

theorem sinceProjection_drag (event : DragEvent) (past : History) :
    sinceProjection (.drag event :: past) = .drag event :: sinceProjection past := by
  simp [sinceProjection, Step.isProjection]

-- While a node is on its way, only a projection can part the view from the last position seen.
theorem shown?_of_lastSeen? (layout : Layout) (id : String) (past : History) (position : Point)
    (seen : lastSeen? id past = some position) :
    (lastSeen? id (sinceProjection past) = some position ∧
      shown? layout id past = some position) ∨
    (lastSeen? id (sinceProjection past) = none ∧
      shown? layout id past = position? layout id past) := by
  induction past with
  | nil => cases seen
  | cons step past ih =>
    cases step with
    | project document entities =>
      right
      exact ⟨rfl, rfl⟩
    | reset =>
      rw [lastSeen?_reset] at seen
      cases seen
    | drag event =>
      rw [lastSeen?_drag] at seen
      rw [sinceProjection_drag, lastSeen?_drag, position?_drag]
      dsimp only [shown?, committed?]
      by_cases own : event.id = id
      . by_cases way : event.dragging
        . cases known : event.position with
          | some latest =>
            rw [if_pos own, if_pos way, known] at seen
            left
            simpa [own, way] using seen
          | none =>
            rw [if_pos own, if_pos way, known] at seen
            simpa [own, way] using ih seen
        . rw [if_pos own, if_neg way] at seen
          cases seen
      . rw [if_neg own] at seen
        simpa [own] using ih seen

end History

end Session

namespace Processor

open Session (History)

def Agrees (p : Processor) (id : String) : Prop :=
  ∀ snapshot ∈ p.snapshot, ∀ node ∈ snapshot.graph.nodes, node.id = id →
    p.session.cache.get? id = some node.position

instance (p : Processor) (id : String) : Decidable (p.Agrees id) :=
  inferInstanceAs (Decidable (∀ snapshot ∈ p.snapshot, ∀ node ∈ snapshot.graph.nodes, _ → _))

theorem snapshot_drag_of_none (p : Processor) (event : DragEvent) (own : event.position = none) :
    (p.drag event).2.snapshot = p.snapshot := by
  unfold drag
  rw [own]

theorem of_mem_snapshot_drag (p : Processor) (event : DragEvent) (position : Point)
    (own : event.position = some position) (snapshot : Snapshot)
    (mem : snapshot ∈ (p.drag event).2.snapshot) (node : GraphNode)
    (shown : node ∈ snapshot.graph.nodes) :
    ∃ before ∈ p.snapshot, ∃ old ∈ before.graph.nodes,
      old.id = node.id ∧ node.position = if node.id = event.id then position else old.position := by
  dsimp only [drag] at mem
  rw [own] at mem
  dsimp only at mem
  rw [Option.mem_def, Option.map_eq_some_iff] at mem
  rcases mem with ⟨before, mem, rfl⟩
  exact ⟨before, mem, Graph.of_mem_moveNode _ _ _ _ shown⟩

-- The position that a committed drop had, and the cache has from then on.
theorem get?_drag_of_committed (p : Processor) (event : DragEvent)
    (committed : (p.drag event).1 = true) :
    ∃ position,
      (event.position <|> p.session.inFlight[event.id]?) = some position ∧
      (p.drag event).2.session.cache.get? event.id = some position := by
  rw [drag_fst, Session.drag_fst, Bool.and_eq_true] at committed
  rcases committed with ⟨drop, finite⟩
  rw [session_drag, Session.get?_drag]
  rw [if_pos ⟨rfl, drop⟩]
  cases known : (event.position <|> p.session.inFlight[event.id]?) with
  | none =>
    rw [known] at finite
    cases finite
  | some position =>
    rw [known, Option.any_some] at finite
    simp [Option.filter, finite]

theorem agrees_drag_of_some (p : Processor) (event : DragEvent) (position : Point)
    (committed : (p.drag event).1 = true) (own : event.position = some position) :
    (p.drag event).2.Agrees event.id := by
  intro snapshot mem node shown same
  rcases p.get?_drag_of_committed event committed with ⟨_, known, kept⟩
  rw [own] at known
  cases known
  rw [kept]
  rcases p.of_mem_snapshot_drag event position own snapshot mem node shown with
    ⟨_, _, _, _, _, moved⟩
  rw [if_pos same] at moved
  rw [moved]

structure Shows (layout : Layout) (past : History) (p : Processor) : Prop where
  follows : Session.Follows layout past p.session
  position_eq : ∀ snapshot ∈ p.snapshot, ∀ node ∈ snapshot.graph.nodes,
    History.shown? layout node.id past = some node.position

namespace Shows

variable {layout : Layout} {past : History} {p : Processor}

theorem ofSettings (settings : Settings) :
    Shows settings.layout [] (Processor.ofSettings settings) where
  follows := .ofLayout settings.layout
  position_eq := by
    intro snapshot mem
    cases mem

theorem accept (h : Shows layout past p) (change : DocumentChange) (document : Document) :
    Shows layout (.project document document.scope.entities :: past)
      (p.accept change document) where
  follows := h.follows.project document document.scope.entities
  position_eq := by
    intro snapshot mem node shown
    dsimp only [History.shown?]
    rw [← (h.follows.project document document.scope.entities).get?_eq]
    cases mem
    apply Graph.get?_of_mem_placeNodes _ _ _ _ shown

theorem drag (h : Shows layout past p) (event : DragEvent) :
    Shows layout (.drag event :: past) (p.drag event).2 where
  follows := h.follows.drag event
  position_eq := by
    intro snapshot mem node shown
    dsimp only [History.shown?]
    cases known : event.position with
    | none =>
      rw [p.snapshot_drag_of_none event known] at mem
      simpa using h.position_eq snapshot mem node shown
    | some position =>
      rcases p.of_mem_snapshot_drag event position known snapshot mem node shown with
        ⟨before, mem, old, oldMem, same, moved⟩
      by_cases own : event.id = node.id
      . simp [own, moved]
      . rw [if_neg own, moved, if_neg (Ne.symm own)]
        rw [← same]
        exact h.position_eq before mem old oldMem

theorem reset (h : Shows layout past p) : Shows layout (.reset :: past) p.resetSession where
  follows := h.follows.reset
  position_eq := h.position_eq

theorem step (h : Shows layout past p) (step : Step) :
    Shows layout (step.onSession?.toList ++ past) (p.step step) := by
  rcases step_cases p step with ⟨change, document, _, own, next⟩ | ⟨own, next⟩ | ⟨event, rfl⟩ | rfl
  . rw [own, next]
    exact h.accept change document
  . rw [own, next]
    exact h
  . exact h.drag event
  . exact h.reset

theorem run (h : Shows layout past p) (steps : List Step) :
    Shows layout (history steps ++ past) (p.run steps) := by
  induction steps generalizing past p with
  | nil => exact h
  | cons step steps ih =>
    have next := ih (h.step step)
    unfold history at next ⊢
    rw [run_cons]
    cases onSession : step.onSession? with
    | none => simpa [onSession] using next
    | some own => simpa [onSession] using next

-- The view has a node on its way where it was last seen, or else where the last projection put it.
theorem position_of_inFlight (h : Shows layout past p) (id : String) (last : Point)
    (seen : p.session.inFlight[id]? = some last) (snapshot : Snapshot)
    (mem : snapshot ∈ p.snapshot) (node : GraphNode) (nodeMem : node ∈ snapshot.graph.nodes)
    (same : node.id = id) :
    (History.lastSeen? id (History.sinceProjection past) = some last ∧ node.position = last) ∨
    (History.lastSeen? id (History.sinceProjection past) = none ∧
      p.session.cache.get? id = some node.position) := by
  have shown := h.position_eq snapshot mem node nodeMem
  rw [same] at shown
  rw [h.follows.inFlight_eq] at seen
  rcases History.shown?_of_lastSeen? layout id past last seen with
    ⟨watched, follows⟩ | ⟨unwatched, stays⟩
  . left
    rw [follows, Option.some.injEq] at shown
    exact ⟨watched, shown.symm⟩
  . right
    rw [h.follows.get?_eq, ← stays]
    exact ⟨unwatched, shown⟩

theorem agrees_drag_iff_of_none (h : Shows layout past p) (event : DragEvent)
    (committed : (p.drag event).1 = true) (own : event.position = none) :
    (p.drag event).2.Agrees event.id ↔
      (History.lastSeen? event.id (History.sinceProjection past)).isSome ∨
      p.session.cache.get? event.id = p.session.inFlight[event.id]? ∨
      ∀ snapshot ∈ p.snapshot, ∀ node ∈ snapshot.graph.nodes, node.id ≠ event.id := by
  rcases p.get?_drag_of_committed event committed with ⟨last, seen, kept⟩
  rw [own] at seen
  change p.session.inFlight[event.id]? = some last at seen
  unfold Agrees
  rw [snapshot_drag_of_none p event own, kept, seen]
  constructor
  . intro agrees
    by_cases absent : ∀ snapshot ∈ p.snapshot, ∀ node ∈ snapshot.graph.nodes, node.id ≠ event.id
    . exact .inr (.inr absent)
    . push Not at absent
      rcases absent with ⟨snapshot, mem, node, nodeMem, same⟩
      have shown := agrees snapshot mem node nodeMem same
      rcases h.position_of_inFlight event.id last seen snapshot mem node nodeMem same with
        ⟨watched, _⟩ | ⟨_, stays⟩
      . left
        rw [watched]
        rfl
      . right; left
        rw [stays, shown]
  . intro reason snapshot mem node nodeMem same
    rcases h.position_of_inFlight event.id last seen snapshot mem node nodeMem same with
      ⟨_, follows⟩ | ⟨unwatched, stays⟩
    . rw [follows]
    . rcases reason with watched | known | absent
      . rw [unwatched] at watched
        cases watched
      . rw [← known, stays]
      . exact absurd same (absent snapshot mem node nodeMem)

end Shows

theorem agrees_drag_iff (settings : Settings) (steps : List Step) (event : DragEvent)
    (committed : (((ofSettings settings).run steps).drag event).1 = true) :
    (((ofSettings settings).run steps).drag event).2.Agrees event.id ↔
      event.position.isSome ∨
      (History.lastSeen? event.id (History.sinceProjection (history steps))).isSome ∨
      ((ofSettings settings).run steps).session.cache.get? event.id =
        ((ofSettings settings).run steps).session.inFlight[event.id]? ∨
      ∀ snapshot ∈ ((ofSettings settings).run steps).snapshot,
        ∀ node ∈ snapshot.graph.nodes, node.id ≠ event.id := by
  have shows := (Shows.ofSettings settings).run steps
  rw [List.append_nil] at shows
  cases own : event.position with
  | some position =>
    have agrees := agrees_drag_of_some _ event position committed own
    simp [agrees]
  | none =>
    rw [shows.agrees_drag_iff_of_none event committed own]
    simp

-- A notification arrives while the node is on its way.
def midDrag : List Step := [.apply userChange, .drag (.moving "User" ⟨10, 10⟩), .apply userChange]

theorem committed_midDrag :
    (((ofSettings {}).run midDrag).drag (.dropped "User" none)).1 = true := by
  decide +kernel

theorem agrees_drag_iff_midDrag :
    (((ofSettings {}).run midDrag).drag (.dropped "User" none)).1 = true ∧
    ((((ofSettings {}).run midDrag).drag (.dropped "User" none)).2.Agrees "User" ↔
      (none : Option Point).isSome ∨
      (History.lastSeen? "User" (History.sinceProjection (history midDrag))).isSome ∨
      ((ofSettings {}).run midDrag).session.cache.get? "User" =
        ((ofSettings {}).run midDrag).session.inFlight["User"]? ∨
      ∀ snapshot ∈ ((ofSettings {}).run midDrag).snapshot,
        ∀ node ∈ snapshot.graph.nodes, node.id ≠ "User") :=
  ⟨committed_midDrag, agrees_drag_iff {} midDrag (.dropped "User" none) committed_midDrag⟩

theorem not_agrees_midDrag :
    (((ofSettings {}).run midDrag).drag (.dropped "User" none)).1 = true ∧
    ¬ (((ofSettings {}).run midDrag).drag (.dropped "User" none)).2.Agrees "User" := by
  refine ⟨committed_midDrag, ?_⟩
  decide +kernel

end Processor

end DomainModel
