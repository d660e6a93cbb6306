namespace DomainModel.Json

structure Cursor where
  offset : Nat
  rest : List Char
  deriving DecidableEq

namespace Cursor

def ofText (text : List Char) : Cursor := ⟨0, text⟩

def peek (c : Cursor) : Nat :=
  match c.rest with
  | [] => c.offset
  | _ :: _ => c.offset + 1

def isBlank (c : Char) : Bool := c == ' ' || c == '\n' || c == '\t' || c == '\r'

def skipBlanks (c : Cursor) : Cursor :=
  go c.offset c.rest
where
  go (offset : Nat) : List Char → Cursor
    | [] => ⟨offset, []⟩
    | c :: rest => if isBlank c then go (offset + 1) rest else ⟨offset, c :: rest⟩

def digits (c : Cursor) : List Char × Cursor :=
  let taken := c.rest.takeWhile Char.isDigit
  (taken, ⟨c.offset + taken.length, c.rest.dropWhile Char.isDigit⟩)

def advance (c : Cursor) (count : Nat) : Cursor := ⟨c.offset + count, c.rest.drop count⟩

end Cursor

end DomainModel.Json
