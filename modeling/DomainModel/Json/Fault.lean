import DomainModel.Decimal.Shortest
import DomainModel.Json.Value
import DomainModel.Text.Place
import DomainModel.Text.Quoted

namespace DomainModel.Json

inductive Found where
  | null
  | bool (b : Bool)
  | number (n : Number)
  | string (s : String)
  | sequence
  | map
  deriving DecidableEq

inductive Cause where
  | endInValue
  | endInNumber
  | endAfterComma
  | endInList
  | endInObject
  | endInString
  | expectedValue
  | expectedColon
  | expectedListEnd
  | expectedObjectEnd
  | expectedIdent
  | keyMustBeString
  | trailingListComma
  | trailingObjectComma
  | trailingCharacters
  | invalidNumber
  | numberOutOfRange
  | invalidEscape
  | unpairedEscape
  | loneSurrogate
  | controlCharacter
  | recursionLimit
  | invalidType (found : Found) (expected : String)
  | invalidInteger (n : Int) (expected : String)
  | invalidLength (length : Nat) (expected : String)
  | unknownVariant (name : String) (known : List String)
  | missingField (name : String)
  | duplicateField (name : String)
  | emptyName
  | noCode
  deriving DecidableEq

structure Fault where
  cause : Cause
  offset : Option Nat := none
  deriving DecidableEq

def Found.text : Found → String
  | .null => "null"
  | .bool b => "boolean `" ++ toString b ++ "`"
  | .number (.integer n) => "integer `" ++ toString n ++ "`"
  | .number (.double x) => "floating point `" ++ (Decimal.ofDouble? x).getD "NaN" ++ "`"
  | .number (.single x) => "floating point `" ++ (Decimal.ofSingle? x).getD "NaN" ++ "`"
  | .string s => "string " ++ Text.quoted s
  | .sequence => "sequence"
  | .map => "map"

namespace Cause

def choice (known : List String) : String :=
  match known.map (fun name => "`" ++ name ++ "`") with
  | [one] => one
  | [one, other] => one ++ " or " ++ other
  | names => "one of " ++ String.intercalate ", " names

def message : Cause → String
  | .endInValue | .endInNumber | .endAfterComma => "EOF while parsing a value"
  | .endInList => "EOF while parsing a list"
  | .endInObject => "EOF while parsing an object"
  | .endInString => "EOF while parsing a string"
  | .expectedValue => "expected value"
  | .expectedColon => "expected `:`"
  | .expectedListEnd => "expected `,` or `]`"
  | .expectedObjectEnd => "expected `,` or `\x7d`"
  | .expectedIdent => "expected ident"
  | .keyMustBeString => "key must be a string"
  | .trailingListComma | .trailingObjectComma => "trailing comma"
  | .trailingCharacters => "trailing characters"
  | .invalidNumber => "invalid number"
  | .numberOutOfRange => "number out of range"
  | .invalidEscape => "invalid escape"
  | .unpairedEscape => "unexpected end of hex escape"
  | .loneSurrogate => "lone leading surrogate in hex escape"
  | .controlCharacter => "control character (\\u0000-\\u001F) found while parsing a string"
  | .recursionLimit => "recursion limit exceeded"
  | .invalidType found expected => "invalid type: " ++ found.text ++ ", expected " ++ expected
  | .invalidInteger n expected =>
    "invalid value: integer `" ++ toString n ++ "`, expected " ++ expected
  | .invalidLength length expected =>
    "invalid length " ++ toString length ++ ", expected " ++ expected
  | .unknownVariant name known => "unknown variant `" ++ name ++ "`, expected " ++ choice known
  | .missingField name => "missing field `" ++ name ++ "`"
  | .duplicateField name => "duplicate field `" ++ name ++ "`"
  | .emptyName => "element name must not be empty"
  | .noCode => "data did not match any variant of untagged enum Code"

/--
The cause reported for the same break inside a value that nobody asked for, where only the outline
of the text is checked.
-/
def skipped : Cause → Cause
  | .endInNumber => .invalidNumber
  | .endAfterComma => .endInObject
  | .trailingListComma => .expectedValue
  | .trailingObjectComma => .keyMustBeString
  | cause => cause

/-- The cause reported for the same break in a list of which no more items were wanted. -/
def surplus : Cause → Cause
  | .endInValue | .expectedListEnd => .trailingCharacters
  | cause => cause

end Cause

namespace Fault

def atOffset (offset : Nat) (cause : Cause) : Fault := ⟨cause, some offset⟩

def settle (offset : Nat) (fault : Fault) : Fault :=
  { fault with offset := some (fault.offset.getD offset) }

def skipped (fault : Fault) : Fault :=
  match fault.cause with
  | .controlCharacter => { fault with offset := fault.offset.map (· - 1) }
  | cause => { fault with cause := cause.skipped }

def surplus (fault : Fault) : Fault := { fault with cause := fault.cause.surplus }

end Fault

structure Error where
  cause : Cause
  place : Place
  deriving DecidableEq

def Fault.locate (text : List Char) (fault : Fault) : Error :=
  match fault.offset with
  | some offset => ⟨fault.cause, Place.ofOffset text offset⟩
  | none => ⟨fault.cause, ⟨0, 0⟩⟩

def Error.message (error : Error) : String :=
  if error.place.line = 0 then error.cause.message
  else
    error.cause.message ++ " at line " ++ toString error.place.line ++
      " column " ++ toString error.place.column

def settle (offset : Nat) : Except Fault α → Except Fault α
  | .error fault => .error (fault.settle offset)
  | .ok a => .ok a

end DomainModel.Json
