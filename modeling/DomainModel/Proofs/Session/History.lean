import DomainModel.Proofs.Session.Operations
import Mathlib.Data.List.Infix
import Mathlib.Data.List.TakeWhile

/-!
What a session remembers, told from its history alone. After every run of projections, drag events
and resets, the position of a name is that of its last drop that was committed since the last reset,
or else the default position that the first projection with that name gave it.
-/

namespace DomainModel

namespace Session

inductive Step where
  | project (document : Document) (entities : List (Located Entity))
  | drag (event : DragEvent)
  | reset

def step (session : Session) : Step → Session
  | .project document entities => (session.project document entities).2
  | .drag event => (session.drag event).2
  | .reset => session.reset

def run (session : Session) (steps : List Step) : Session := steps.foldl step session

namespace Step

def isReset : Step → Bool
  | .reset => true
  | _ => false

def isDropOf (id : String) : Step → Bool
  | .drag event => event.id = id && !event.dragging
  | _ => false

def seen? (id : String) : Step → Option Point
  | .drag event => if event.id = id ∧ event.dragging then event.position else none
  | _ => none

def placed? (layout : Layout) (id : String) : Step → Option Point
  | .project _ entities => (entities.findIdx? (·.node.name = id)).map layout.defaultPosition
  | _ => none

end Step

abbrev History := List Step

namespace History

def sinceReset (past : History) : History := past.takeWhile (!·.isReset)

/-- The last position on the way, after the previous drop and the last reset. -/
def lastSeen? (id : String) (past : History) : Option Point :=
  ((sinceReset past).takeWhile (!·.isDropOf id)).findSome? (·.seen? id)

def dropPosition? (event : DragEvent) (past : History) : Option Point :=
  event.position <|> lastSeen? event.id past

def committed? (id : String) : History → Option Point
  | .drag event :: past =>
    if event.id = id ∧ !event.dragging then (dropPosition? event past).filter Point.isFinite
    else none
  | _ => none

def lastCommitted? (id : String) (past : History) : Option Point :=
  (sinceReset past).tails.findSome? (committed? id)

def firstPlaced? (layout : Layout) (id : String) (past : History) : Option Point :=
  (sinceReset past).reverse.findSome? (·.placed? layout id)

def position? (layout : Layout) (id : String) (past : History) : Option Point :=
  lastCommitted? id past <|> firstPlaced? layout id past

theorem lastSeen?_project (id : String) (document : Document) (entities : List (Located Entity))
    (past : History) : lastSeen? id (.project document entities :: past) = lastSeen? id past := by
  simp [lastSeen?, sinceReset, Step.isReset, Step.isDropOf, Step.seen?]

theorem lastSeen?_reset (id : String) (past : History) : lastSeen? id (.reset :: past) = none := by
  simp [lastSeen?, sinceReset, Step.isReset]

theorem lastSeen?_drag (id : String) (event : DragEvent) (past : History) :
    lastSeen? id (.drag event :: past) =
      if event.id = id then
        if event.dragging then (event.position <|> lastSeen? id past) else none
      else lastSeen? id past := by
  unfold lastSeen? sinceReset
  by_cases own : event.id = id
  . by_cases way : event.dragging
    . cases known : event.position with
      | none =>
        simp [Step.isReset, Step.isDropOf, Step.seen?, own, way, known]
      | some position =>
        simp [Step.isReset, Step.isDropOf, Step.seen?, own, way, known]
    . simp [Step.isReset, Step.isDropOf, own, way]
  . simp [Step.isReset, Step.isDropOf, Step.seen?, own]

-- A drop looks back no further than the last reset, so it may be read off the shortened history.
theorem lastSeen?_sinceReset (id : String) (past : History) :
    lastSeen? id (sinceReset past) = lastSeen? id past := by
  unfold lastSeen? sinceReset
  rw [List.takeWhile_idem]

theorem committed?_drag_sinceReset (id : String) (event : DragEvent) (past : History) :
    committed? id (.drag event :: sinceReset past) = committed? id (.drag event :: past) := by
  dsimp only [committed?, dropPosition?]
  rw [lastSeen?_sinceReset]

theorem lastCommitted?_drag (id : String) (event : DragEvent) (past : History) :
    lastCommitted? id (.drag event :: past) =
      (committed? id (.drag event :: past) <|> lastCommitted? id past) := by
  have kept : sinceReset (.drag event :: past) = .drag event :: sinceReset past := by
    simp [sinceReset, Step.isReset]
  unfold lastCommitted?
  rw [kept]
  rw [List.tails_cons, List.findSome?_cons]
  rw [committed?_drag_sinceReset]
  cases committed? id (.drag event :: past) with
  | none => simp
  | some position => simp

theorem position?_reset (layout : Layout) (id : String) (past : History) :
    position? layout id (.reset :: past) = none := by
  simp [position?, lastCommitted?, firstPlaced?, sinceReset, Step.isReset, committed?]

theorem position?_project (layout : Layout) (id : String) (document : Document)
    (entities : List (Located Entity)) (past : History) :
    position? layout id (.project document entities :: past) =
      (position? layout id past <|>
        Step.placed? layout id (.project document entities)) := by
  have kept : sinceReset (.project document entities :: past) =
      .project document entities :: sinceReset past := by
    simp [sinceReset, Step.isReset]
  unfold position? lastCommitted? firstPlaced?
  rw [kept]
  rw [List.tails_cons, List.findSome?_cons]
  rw [List.reverse_cons, List.findSome?_append]
  simp [committed?, Option.or_assoc]

theorem position?_drag (layout : Layout) (id : String) (event : DragEvent) (past : History) :
    position? layout id (.drag event :: past) =
      (committed? id (.drag event :: past) <|> position? layout id past) := by
  have placed : firstPlaced? layout id (.drag event :: past) = firstPlaced? layout id past := by
    simp [firstPlaced?, sinceReset, Step.isReset, Step.placed?]
  unfold position?
  rw [lastCommitted?_drag]
  rw [placed]
  simp [Option.or_assoc]

end History

-- What the history of a session says about its state, name by name.
structure Follows (layout : Layout) (past : History) (session : Session) : Prop where
  layout_eq : session.cache.layout = layout
  get?_eq (id : String) : session.cache.get? id = History.position? layout id past
  inFlight_eq (id : String) : session.inFlight[id]? = History.lastSeen? id past

namespace Follows

variable {layout : Layout} {past : History} {session : Session}

theorem ofLayout (layout : Layout) : Follows layout [] (Session.ofLayout layout) where
  layout_eq := rfl
  get?_eq id := by
    simp [Session.ofLayout, PositionCache.get?, History.position?, History.lastCommitted?,
      History.firstPlaced?, History.sinceReset, History.committed?]
  inFlight_eq id := by
    simp [Session.ofLayout, History.lastSeen?, History.sinceReset]

theorem project (h : Follows layout past session) (document : Document)
    (entities : List (Located Entity)) :
    Follows layout (.project document entities :: past) (session.project document entities).2 where
  layout_eq := by
    rw [layout_project]
    exact h.layout_eq
  get?_eq id := by
    rw [get?_project, History.position?_project]
    rw [h.get?_eq, h.layout_eq]
    rfl
  inFlight_eq id := by
    rw [inFlight_project, History.lastSeen?_project]
    exact h.inFlight_eq id

theorem dropPosition?_eq (h : Follows layout past session) (event : DragEvent) :
    (event.position <|> session.inFlight[event.id]?) = History.dropPosition? event past := by
  unfold History.dropPosition?
  rw [h.inFlight_eq]

theorem drag (h : Follows layout past session) (event : DragEvent) :
    Follows layout (.drag event :: past) (session.drag event).2 where
  layout_eq := by
    rw [layout_drag]
    exact h.layout_eq
  get?_eq id := by
    rw [get?_drag, History.position?_drag]
    rw [h.get?_eq, h.dropPosition?_eq]
    rfl
  inFlight_eq id := by
    rw [inFlight_drag, History.lastSeen?_drag]
    rw [h.inFlight_eq]

theorem reset (h : Follows layout past session) : Follows layout (.reset :: past) session.reset where
  layout_eq := by
    rw [layout_reset]
    exact h.layout_eq
  get?_eq id := by
    rw [get?_reset, History.position?_reset]
  inFlight_eq id := by
    rw [inFlight_reset, History.lastSeen?_reset]

theorem step (h : Follows layout past session) (step : Step) :
    Follows layout (step :: past) (session.step step) := by
  cases step with
  | project document entities => exact h.project document entities
  | drag event => exact h.drag event
  | reset => exact h.reset

theorem run (h : Follows layout past session) (steps : List Step) :
    Follows layout (steps.reverse ++ past) (session.run steps) := by
  induction steps generalizing past session with
  | nil => exact h
  | cons step steps ih =>
    rw [List.reverse_cons, List.append_assoc]
    exact ih (h.step step)

theorem drag_fst_eq (h : Follows layout past session) (event : DragEvent) :
    (session.drag event).1 = (History.committed? event.id (.drag event :: past)).isSome := by
  rw [drag_fst]
  rw [h.dropPosition?_eq]
  dsimp only [History.committed?]
  cases event.dragging with
  | true => simp
  | false => simp [Option.isSome_filter]

end Follows

theorem run_ofLayout_eq_history (layout : Layout) (steps : List Step) :
    (∀ id : String,
      ((Session.ofLayout layout).run steps).cache.get? id =
        History.position? layout id steps.reverse) ∧
    ∀ event : DragEvent,
      (((Session.ofLayout layout).run steps).drag event).1 =
        (History.committed? event.id (.drag event :: steps.reverse)).isSome := by
  have follows := (Follows.ofLayout layout).run steps
  rw [List.append_nil] at follows
  constructor
  . exact follows.get?_eq
  . exact follows.drag_fst_eq

end Session

end DomainModel
