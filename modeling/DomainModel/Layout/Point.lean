import DomainModel.Json.Record

namespace DomainModel

open Json (Fault Field Fields Record Node Value)

structure Point where
  x : Float32
  y : Float32
  deriving DecidableEq

namespace Point

def isFinite (p : Point) : Bool := p.x.isFinite && p.y.isFinite

def record : Record Node Point where
  name := "Point"
  fields :=
    .cons { name := "x", read := Node.single } <|
    .cons { name := "y", read := Node.single } .nil
  build := fun (x, y, _) => { x, y }

def ofText (text : String) : Except Json.Error Point := Json.decode record.ofNode text

def toValue (p : Point) : Value :=
  .object [("x", .number (.single p.x)), ("y", .number (.single p.y))]

end Point

end DomainModel
