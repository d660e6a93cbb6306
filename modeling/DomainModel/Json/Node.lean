import DomainModel.Json.Literal

/-!
The syntax tree of a JSON text. It is built for every text: where the text breaks, the tree ends
with the fault. Nodes know where they stand, so that whoever finds one unfit can say where.
-/

namespace DomainModel.Json

/--
A key in a text. Reading that gives up right after it still takes the closing brace if that comes
next: `finish` is the offset after it.
-/
structure Key where
  text : String
  flaw : Option Fault
  stop : Nat
  finish : Nat
  deriving DecidableEq

mutual

inductive Node where
  | null (start stop : Nat)
  | bool (start stop : Nat) (b : Bool)
  | number (start : Nat) (literal : Literal)
  /-- The flaw is the first lone surrogate, which only matters if the string itself does. -/
  | string (start stop : Nat) (text : String) (flaw : Option Fault)
  | array (start : Nat) (items : Items)
  | object (start : Nat) (members : Members)
  | brokenString (start : Nat) (flaw : Option Fault) (fault : Fault)
  | broken (start : Nat) (fault : Fault)

inductive Items where
  | closed (stop : Nat)
  | broken (fault : Fault)
  /--
  One item. Reading that gives up after it still takes the closing bracket if it comes next, or one
  comma with its blanks: `finish` is the offset after that.
  -/
  | item (node : Node) (finish : Nat) (more : Items)

inductive Members where
  | closed (stop : Nat)
  | broken (flaw : Option Fault) (fault : Fault)
  | member (key : Key) (node : Node) (finish : Nat) (more : Members)

end

structure Tree where
  root : Node
  trailing : Option Fault

namespace Node

def start : Node → Nat
  | .null start _ | .bool start _ _ | .number start _ | .string start _ _ _ => start
  | .array start _ | .object start _ | .brokenString start _ _ | .broken start _ => start

end Node

end DomainModel.Json
