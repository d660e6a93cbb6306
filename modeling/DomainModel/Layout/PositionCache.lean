import DomainModel.Layout.Point
import Std.Data.ExtTreeMap

/-!
Positions that outlive their documents. They belong to names, not to nodes: whoever disappears and
comes back under the same name is where it was.
-/

namespace DomainModel

structure Layout where
  originX : Float32 := 0
  rowSpacing : Float32 := 100
  deriving DecidableEq

def Layout.defaultPosition (layout : Layout) (index : Nat) : Point :=
  ⟨layout.originX, index.toUInt64.toFloat32 * layout.rowSpacing⟩

abbrev Positions := Std.ExtTreeMap String Point

structure PositionCache where
  layout : Layout := {}
  positions : Positions := ∅

namespace PositionCache

def get? (cache : PositionCache) (name : String) : Option Point := cache.positions[name]?

def contains (cache : PositionCache) (name : String) : Bool := cache.positions.contains name

def size (cache : PositionCache) : Nat := cache.positions.size

def isEmpty (cache : PositionCache) : Bool := cache.positions.isEmpty

def clear (cache : PositionCache) : PositionCache := { cache with positions := ∅ }

def insert (cache : PositionCache) (name : String) (position : Point) : PositionCache :=
  { cache with positions := cache.positions.insert name position }

def place (cache : PositionCache) (name : String) (index : Nat) : Point × PositionCache :=
  match cache.get? name with
  | some position => (position, cache)
  | none =>
    let position := cache.layout.defaultPosition index
    (position, cache.insert name position)

def record (cache : PositionCache) (name : String) (position : Point) : Bool × PositionCache :=
  if position.isFinite then (true, cache.insert name position) else (false, cache)

end PositionCache

end DomainModel
