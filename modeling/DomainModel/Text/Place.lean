/-!
Places in a text: line and column of a byte offset, and the offset that a line and a column stand
for. Lines are counted from one, columns in bytes from the line's start.
-/

namespace DomainModel

def byteLength (text : List Char) : Nat :=
  text.foldr (fun c count => c.utf8Size + count) 0

structure Place where
  line : Nat
  column : Nat
  deriving DecidableEq, Repr

namespace Place

def ofOffset (text : List Char) (offset : Nat) : Place :=
  go 1 0 text offset
where
  go (line column : Nat) : List Char → Nat → Place
    | [], _ => ⟨line, column⟩
    | c :: rest, offset =>
      if offset < c.utf8Size then ⟨line, column + offset⟩
      else if c = '\n' then go (line + 1) 0 rest (offset - c.utf8Size)
      else go line (column + c.utf8Size) rest (offset - c.utf8Size)

def lineStart : Nat → List Char → Nat
  | 0, _ => 0
  | _, [] => 0
  | lines + 1, c :: rest =>
    if c = '\n' then c.utf8Size + lineStart lines rest
    else c.utf8Size + lineStart (lines + 1) rest

def dropLines : Nat → List Char → List Char
  | 0, text => text
  | _, [] => []
  | lines + 1, c :: rest => if c = '\n' then dropLines lines rest else dropLines (lines + 1) rest

/--
The offset of the byte that a one-based column counts, held to the line: its newline or the end of
the text is the last place of a line. There is no line zero.
-/
def offset? (text : List Char) (place : Place) : Option Nat :=
  match place.line with
  | 0 => none
  | line + 1 =>
    let length := byteLength ((dropLines line text).takeWhile (· ≠ '\n'))
    some (lineStart line text + min (place.column - 1) length)

end Place

end DomainModel
