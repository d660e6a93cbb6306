import DomainModel.Document.Decode
import DomainModel.Layout.Graph

/-!
Sessions: one view of the graph, and the positions that it remembers. While a node is dragged, its
way is only watched; where it is dropped, it stays.
-/

namespace DomainModel

open Json (Fault Field Fields Record Node)

structure DragEvent where
  id : String
  position : Option Point := none
  dragging : Bool
  deriving DecidableEq

namespace DragEvent

def moving (id : String) (position : Point) : DragEvent :=
  { id, position := some position, dragging := true }

def dropped (id : String) (position : Option Point) : DragEvent :=
  { id, position, dragging := false }

def record : Record Node DragEvent where
  name := "DragEvent"
  fields :=
    .cons { name := "id", read := nameOfNode } <|
    .cons
      { name := "position", read := Node.optional Point.record.ofNode, absent := some none } <|
    .cons { name := "dragging", read := Node.boolean } .nil
  build := fun (id, position, dragging, _) => { id, position, dragging }

def ofText (text : String) : Except Json.Error DragEvent := Json.decode record.ofNode text

end DragEvent

structure Session where
  cache : PositionCache := {}
  inFlight : Positions := ∅

namespace Session

def ofLayout (layout : Layout) : Session := { cache := { layout } }

def project (session : Session) (document : Document) (entities : List (Located Entity)) :
    Graph × Session :=
  let (graph, cache) := Graph.project document entities session.cache
  (graph, { session with cache })

/--
Takes an event in. A drop without a position ends where the drag was last seen. The answer is
whether a position was recorded for good.
-/
def drag (session : Session) (event : DragEvent) : Bool × Session :=
  if event.dragging then
    match event.position with
    | some position =>
      (false, { session with inFlight := session.inFlight.insert event.id position })
    | none => (false, session)
  else
    let last := session.inFlight[event.id]?
    let session := { session with inFlight := session.inFlight.erase event.id }
    match event.position <|> last with
    | none => (false, session)
    | some position =>
      let (recorded, cache) := session.cache.record event.id position
      (recorded, { session with cache })

def reset (session : Session) : Session := { cache := session.cache.clear, inFlight := ∅ }

end Session

end DomainModel
