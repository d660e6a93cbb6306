import DomainModel.Decimal.Shortest
import DomainModel.Json.Value

/-!
Writing JSON: on one line without blanks, or one item and member a line, indented by two spaces.
Every function writes in front of the text that is to follow.
-/

namespace DomainModel.Json

inductive Spread where
  | line
  | indented (depth : Nat)

namespace Spread

def inner : Spread → Spread
  | .line => .line
  | .indented depth => .indented (depth + 1)

def lineBreak (spread : Spread) (rest : List Char) : List Char :=
  match spread with
  | .line => rest
  | .indented depth => '\n' :: (List.replicate (2 * depth) ' ' ++ rest)

def colon (spread : Spread) (rest : List Char) : List Char :=
  match spread with
  | .line => ':' :: rest
  | .indented _ => ':' :: ' ' :: rest

end Spread

def escapedChar (c : Char) : List Char :=
  match c with
  | '"' => ['\\', '"']
  | '\\' => ['\\', '\\']
  | '\x08' => ['\\', 'b']
  | '\t' => ['\\', 't']
  | '\n' => ['\\', 'n']
  | '\x0c' => ['\\', 'f']
  | '\r' => ['\\', 'r']
  | c =>
    if c < ' ' then
      ['\\', 'u', '0', '0', Nat.digitChar (c.toNat / 16), Nat.digitChar (c.toNat % 16)]
    else [c]

def writeString (s : String) (rest : List Char) : List Char :=
  '"' :: (s.toList.flatMap escapedChar ++ '"' :: rest)

def Number.text : Number → String
  | .integer n => toString n
  | .double x => (Decimal.ofDouble? x).getD "null"
  | .single x => (Decimal.ofSingle? x).getD "null"

mutual

def Value.write (spread : Spread) : Value → List Char → List Char
  | .null, rest => 'n' :: 'u' :: 'l' :: 'l' :: rest
  | .bool true, rest => 't' :: 'r' :: 'u' :: 'e' :: rest
  | .bool false, rest => 'f' :: 'a' :: 'l' :: 's' :: 'e' :: rest
  | .number n, rest => n.text.toList ++ rest
  | .string s, rest => writeString s rest
  | .array [], rest => '[' :: ']' :: rest
  | .array (item :: items), rest =>
    '[' :: spread.inner.lineBreak
      (item.write spread.inner (writeItems spread.inner items (spread.lineBreak (']' :: rest))))
  | .object [], rest => '{' :: '}' :: rest
  | .object ((key, value) :: members), rest =>
    '{' :: spread.inner.lineBreak
      (writeString key (spread.colon (value.write spread.inner
        (writeMembers spread.inner members (spread.lineBreak ('}' :: rest))))))
termination_by structural value => value

def writeItems (spread : Spread) : List Value → List Char → List Char
  | [], rest => rest
  | item :: items, rest =>
    ',' :: spread.lineBreak (item.write spread (writeItems spread items rest))
termination_by structural items => items

def writeMembers (spread : Spread) : List (String × Value) → List Char → List Char
  | [], rest => rest
  | (key, value) :: members, rest =>
    ',' :: spread.lineBreak
      (writeString key (spread.colon (value.write spread (writeMembers spread members rest))))
termination_by structural members => members

end

namespace Value

def compact (value : Value) : String := String.ofList (value.write .line [])

def pretty (value : Value) : String := String.ofList (value.write (.indented 0) [])

end Value

end DomainModel.Json
