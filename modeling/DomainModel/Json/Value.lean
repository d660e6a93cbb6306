namespace DomainModel.Json

inductive Number where
  | integer (n : Int)
  | double (x : Float)
  | single (x : Float32)
  deriving DecidableEq

/-- A JSON value. The members of an object keep the order and the repetitions of the text. -/
inductive Value where
  | null
  | bool (b : Bool)
  | number (n : Number)
  | string (s : String)
  | array (items : List Value)
  | object (members : List (String × Value))
  deriving Inhabited

namespace Number

def narrow (x : Float) : Float32 :=
  match x.toModel.unpack with
  | .finite sign mantissa exponent _ =>
    .ofModel (.pack (Float.Model.UnpackedFloat.round .binary32 sign mantissa exponent))
  | other => .ofModel (.pack other)

/-- The nearest single precision number. Integers are rounded once, straight from their digits. -/
def toSingle : Number → Float32
  | .integer n =>
    let magnitude := n.natAbs.toUInt64.toFloat32
    if n < 0 then -magnitude else magnitude
  | .double x => narrow x
  | .single x => x

end Number

namespace Value

def ofNat (n : Nat) : Value := .number (.integer n)

def ofText? (text : Option String) : Value :=
  match text with
  | some s => .string s
  | none => .null

def get? (key : String) : Value → Option Value
  | .object members => (members.find? (·.1 == key)).map (·.2)
  | _ => none

end Value

end DomainModel.Json
