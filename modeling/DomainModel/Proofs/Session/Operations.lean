import DomainModel.Proofs.Layout.Graph
import DomainModel.Session

namespace DomainModel

namespace Session

theorem inFlight_project (session : Session) (document : Document)
    (entities : List (Located Entity)) :
    (session.project document entities).2.inFlight = session.inFlight := rfl

theorem layout_project (session : Session) (document : Document)
    (entities : List (Located Entity)) :
    (session.project document entities).2.cache.layout = session.cache.layout := by
  dsimp only [project, Graph.project]
  rw [Graph.layout_placeNodes]

theorem get?_project (session : Session) (document : Document) (entities : List (Located Entity))
    (id : String) :
    (session.project document entities).2.cache.get? id =
      (session.cache.get? id <|>
        (entities.findIdx? (·.node.name = id)).map session.cache.layout.defaultPosition) := by
  dsimp only [project, Graph.project]
  rw [Graph.get?_placeNodes]
  simp only [Nat.zero_add]

theorem drag_of_dragging (session : Session) (event : DragEvent) (way : event.dragging = true) :
    session.drag event =
      (false,
        { session with
          inFlight :=
            match event.position with
            | some position => session.inFlight.insert event.id position
            | none => session.inFlight }) := by
  unfold drag
  rw [if_pos way]
  cases event.position with
  | none => rfl
  | some position => rfl

theorem drag_of_dropped (session : Session) (event : DragEvent) (drop : event.dragging = false) :
    session.drag event =
      match event.position <|> session.inFlight[event.id]? with
      | some position =>
        ((session.cache.record event.id position).1,
          { cache := (session.cache.record event.id position).2,
            inFlight := session.inFlight.erase event.id })
      | none => (false, { session with inFlight := session.inFlight.erase event.id }) := by
  unfold drag
  rw [if_neg (by simp [drop])]
  dsimp only
  cases event.position <|> session.inFlight[event.id]? with
  | none => rfl
  | some position => rfl

theorem drag_fst (session : Session) (event : DragEvent) :
    (session.drag event).1 =
      (!event.dragging &&
        (event.position <|> session.inFlight[event.id]?).any Point.isFinite) := by
  cases way : event.dragging with
  | true =>
    rw [drag_of_dragging session event way]
    rfl
  | false =>
    rw [drag_of_dropped session event way]
    cases event.position <|> session.inFlight[event.id]? with
    | none => rfl
    | some position => apply PositionCache.record_fst

theorem layout_drag (session : Session) (event : DragEvent) :
    (session.drag event).2.cache.layout = session.cache.layout := by
  cases way : event.dragging with
  | true => rw [drag_of_dragging session event way]
  | false =>
    rw [drag_of_dropped session event way]
    cases event.position <|> session.inFlight[event.id]? with
    | none => rfl
    | some position => apply PositionCache.layout_record

theorem inFlight_drag (session : Session) (event : DragEvent) (id : String) :
    (session.drag event).2.inFlight[id]? =
      if event.id = id then
        if event.dragging then (event.position <|> session.inFlight[id]?) else none
      else session.inFlight[id]? := by
  cases way : event.dragging with
  | true =>
    rw [drag_of_dragging session event way]
    cases event.position with
    | none => simp
    | some position =>
      dsimp only
      rw [Std.ExtTreeMap.getElem?_insert]
      simp
  | false =>
    have erased : (session.inFlight.erase event.id)[id]? =
        if event.id = id then none else session.inFlight[id]? := by
      rw [Std.ExtTreeMap.getElem?_erase]
      simp only [Std.LawfulEqCmp.compare_eq_iff_eq]
    rw [drag_of_dropped session event way]
    cases event.position <|> session.inFlight[event.id]? with
    | none => simpa using erased
    | some position => simpa using erased

theorem get?_drag (session : Session) (event : DragEvent) (id : String) :
    (session.drag event).2.cache.get? id =
      ((if event.id = id ∧ !event.dragging then
          (event.position <|> session.inFlight[event.id]?).filter Point.isFinite
        else none) <|> session.cache.get? id) := by
  cases way : event.dragging with
  | true =>
    rw [drag_of_dragging session event way]
    simp
  | false =>
    rw [drag_of_dropped session event way]
    cases event.position <|> session.inFlight[event.id]? with
    | none => simp
    | some position =>
      dsimp only
      rw [PositionCache.get?_record]
      by_cases own : event.id = id
      . by_cases finite : position.isFinite
        . simp [own, finite, Option.filter]
        . simp [own, finite, Option.filter]
      . simp [own]

theorem get?_reset (session : Session) (id : String) : session.reset.cache.get? id = none := by
  apply PositionCache.get?_clear

theorem inFlight_reset (session : Session) (id : String) : session.reset.inFlight[id]? = none := by
  simp [reset]

theorem layout_reset (session : Session) : session.reset.cache.layout = session.cache.layout := rfl

end Session

end DomainModel
