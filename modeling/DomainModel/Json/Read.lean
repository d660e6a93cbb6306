import DomainModel.Json.Scan

namespace DomainModel.Json

def nestingLimit : Nat := 127

def Key.read (key : Key) : Except Fault String :=
  match key.flaw with
  | some flaw => .error flaw
  | none => .ok key.text

mutual

def Node.toValue (limit : Nat) : Node → Except Fault Value
  | .null _ _ => .ok .null
  | .bool _ _ b => .ok (.bool b)
  | .number _ literal => return .number (← literal.number)
  | .string _ _ text none => .ok (.string text)
  | .string _ _ _ (some flaw) => .error flaw
  | .array start items =>
    match limit with
    | 0 => .error (.atOffset (start + 1) .recursionLimit)
    | limit + 1 => return .array (← items.toValues limit)
  | .object start members =>
    match limit with
    | 0 => .error (.atOffset (start + 1) .recursionLimit)
    | limit + 1 => return .object (← members.toValues limit)
  | .brokenString _ flaw fault => .error (flaw.getD fault)
  | .broken _ fault => .error fault
termination_by structural node => node

def Items.toValues (limit : Nat) : Items → Except Fault (List Value)
  | .closed _ => .ok []
  | .broken fault => .error fault
  | .item node _ more => return (← node.toValue limit) :: (← more.toValues limit)
termination_by structural items => items

def Members.toValues (limit : Nat) : Members → Except Fault (List (String × Value))
  | .closed _ => .ok []
  | .broken flaw fault => .error (flaw.getD fault)
  | .member key node _ more => do
    let text ← key.read
    return (text, ← node.toValue limit) :: (← more.toValues limit)
termination_by structural members => members

end

mutual

def Node.skip : Node → Except Fault Unit
  | .array _ items => items.skip
  | .object _ members => members.skip
  | .brokenString _ _ fault | .broken _ fault => .error fault.skipped
  | _ => .ok ()
termination_by structural node => node

def Items.skip : Items → Except Fault Unit
  | .closed _ => .ok ()
  | .broken fault => .error fault.skipped
  | .item node _ more => do
    node.skip
    more.skip
termination_by structural items => items

def Members.skip : Members → Except Fault Unit
  | .closed _ => .ok ()
  | .broken _ fault => .error fault.skipped
  | .member _ node _ more => do
    node.skip
    more.skip
termination_by structural members => members

end

namespace Node

-- The fault of a node that is not what was expected. A scalar is read first and then refused; of an
-- array or an object nothing is read.
def mismatch (expected : String) : Node → Fault
  | .null _ stop => .atOffset stop (.invalidType .null expected)
  | .bool _ stop b => .atOffset stop (.invalidType (.bool b) expected)
  | .number _ literal =>
    match literal.number with
    | .ok n => .atOffset literal.stop (.invalidType (.number n) expected)
    | .error fault => fault
  | .string _ _ _ (some flaw) => flaw
  | .string _ stop text none => .atOffset stop (.invalidType (.string text) expected)
  | .array start _ => .atOffset start (.invalidType .sequence expected)
  | .object start _ => .atOffset start (.invalidType .map expected)
  | .brokenString _ flaw fault => flaw.getD fault
  | .broken _ fault => fault

def text : Node → Except Fault String
  | .string _ _ text none => .ok text
  | node => .error (node.mismatch "a string")

def boolean : Node → Except Fault Bool
  | .bool _ _ b => .ok b
  | node => .error (node.mismatch "a boolean")

def unit : Node → Except Fault Unit
  | .null _ _ => .ok ()
  | node => .error (node.mismatch "unit")

def single : Node → Except Fault Float32
  | .number _ literal => return (← literal.number).toSingle
  | node => .error (node.mismatch "f32")

def natural (bound : Nat) (expected : String) : Node → Except Fault Nat
  | .number start literal => do
    match ← literal.number with
    | .integer n =>
      if 0 ≤ n ∧ n < bound then return n.toNat
      else throw (.atOffset literal.stop (.invalidInteger n expected))
    | _ => throw ((Node.number start literal).mismatch expected)
  | node => .error (node.mismatch expected)

def uint8 (node : Node) : Except Fault UInt8 :=
  return (← node.natural UInt8.size "u8").toUInt8

def uint32 (node : Node) : Except Fault UInt32 :=
  return (← node.natural UInt32.size "u32").toUInt32

def optional (read : Node → Except Fault α) : Node → Except Fault (Option α)
  | .null _ _ => .ok none
  | node => return some (← read node)

def list (read : Node → Except Fault α) : Node → Except Fault (List α)
  | .array _ items => go items
  | node => .error (node.mismatch "a sequence")
where
  go : Items → Except Fault (List α)
    | .closed _ => .ok []
    | .broken fault => .error fault
    | .item node finish more => return (← settle finish (read node)) :: (← go more)

def variant (choices : List (String × α)) (name : String) : Except Fault α :=
  match choices.lookup name with
  | some choice => .ok choice
  | none => .error { cause := .unknownVariant name (choices.map (·.1)) }

def identifier (choices : List (String × α)) : Node → Except Fault α
  | .string _ stop name none => settle stop (variant choices name)
  | node => .error (node.mismatch "variant identifier")

def choice (choices : List (String × α)) : Node → Except Fault α
  | .string start stop name flaw => identifier choices (.string start stop name flaw)
  | .object _ members => go members
  | .brokenString _ flaw fault => .error (flaw.getD fault)
  | .broken _ ⟨.expectedColon, offset⟩ => .error ⟨.expectedColon, offset⟩
  | .broken _ ⟨.endInObject, offset⟩ => .error ⟨.endInObject, offset⟩
  | .broken start ⟨.endInValue, some offset⟩ =>
    if offset = start then .error (.atOffset start .endInValue)
    else .error (.atOffset (start + 1) .expectedValue)
  | node => .error (.atOffset (node.start + 1) .expectedValue)
where
  go : Members → Except Fault α
    | .closed stop => .error (.atOffset stop .expectedValue)
    | .broken flaw fault => .error (flaw.getD fault)
    | .member key node finish more => do
      let name ← key.read
      let choice ← settle key.stop (variant choices name)
      node.unit
      match more with
      | .closed _ => return choice
      | .broken _ ⟨.endInObject, offset⟩ => throw ⟨.endInObject, offset⟩
      | _ => throw (.atOffset finish .expectedValue)

end Node

namespace Value

def found : Value → Found
  | .null => .null
  | .bool b => .bool b
  | .number n => .number n
  | .string s => .string s
  | .array _ => .sequence
  | .object _ => .map

def mismatch (expected : String) (value : Value) : Fault :=
  { cause := .invalidType value.found expected }

def text : Value → Except Fault String
  | .string s => .ok s
  | value => .error (value.mismatch "a string")

def boolean : Value → Except Fault Bool
  | .bool b => .ok b
  | value => .error (value.mismatch "a boolean")

def optional (read : Value → Except Fault α) : Value → Except Fault (Option α)
  | .null => .ok none
  | value => return some (← read value)

def list (read : Value → Except Fault α) : Value → Except Fault (List α)
  | .array items => items.mapM read
  | value => .error (value.mismatch "a sequence")

end Value

def Tree.read (tree : Tree) (read : Node → Except Fault α) : Except Fault α := do
  let a ← read tree.root
  match tree.trailing with
  | some fault => throw fault
  | none => return a

def decode (read : Node → Except Fault α) (text : String) : Except Error α :=
  match (scan text.toList).read read with
  | .ok a => .ok a
  | .error fault => .error (fault.locate text.toList)

def parse (text : String) : Except Error Value :=
  decode (·.toValue nestingLimit) text

end DomainModel.Json
