namespace DomainModel

structure Segment where
  property : String
  index : Option Nat
  deriving DecidableEq, Repr

structure NodePath where
  segments : List Segment
  deriving DecidableEq, Repr

structure InvalidNodePath where
  text : String
  deriving DecidableEq, Repr

def InvalidNodePath.message (e : InvalidNodePath) : String :=
  "invalid node path `" ++ e.text ++ "`"

namespace Segment

def render (segment : Segment) : List Char :=
  match segment.index with
  | some index => segment.property.toList ++ '@' :: Nat.toDigits 10 index
  | none => segment.property.toList

def digitsValue (digits : List Char) : Nat :=
  digits.foldl (fun value d => value * 10 + (d.toNat - '0'.toNat)) 0

def indexDigits : List Char → List Char
  | '+' :: digits => digits
  | digits => digits

def index? (text : List Char) : Option Nat :=
  let digits := indexDigits text
  if digits ≠ [] ∧ digits.all Char.isDigit ∧ digitsValue digits < UInt64.size then
    some (digitsValue digits)
  else none

def ofText? (text : List Char) : Option Segment :=
  let property := text.takeWhile (· ≠ '@')
  if property = [] then none
  else
    match text.dropWhile (· ≠ '@') with
    | [] => some ⟨String.ofList property, none⟩
    | _ :: index => (index? index).map fun index => ⟨String.ofList property, some index⟩

end Segment

namespace NodePath

def root : NodePath := ⟨[]⟩

def isRoot (path : NodePath) : Bool := path.segments.isEmpty

def child (path : NodePath) (property : String) (index : Nat) : NodePath :=
  ⟨path.segments ++ [⟨property, some index⟩]⟩

def render (path : NodePath) : List Char :=
  match path.segments with
  | [] => ['/']
  | segments => segments.flatMap fun segment => '/' :: segment.render

instance : ToString NodePath := ⟨fun path => String.ofList path.render⟩

def fragment (text : List Char) : List Char :=
  (text.reverse.takeWhile (· ≠ '#')).reverse

def splitSlashes : List Char → List (List Char)
  | [] => [[]]
  | c :: rest =>
    match splitSlashes rest with
    | [] => []
    | part :: parts => if c = '/' then [] :: part :: parts else (c :: part) :: parts

def ofChars? (text : List Char) : Option NodePath :=
  match fragment text with
  | ['/'] => some root
  | '/' :: rest => ((splitSlashes rest).mapM Segment.ofText?).map NodePath.mk
  | _ => none

def ofText (text : String) : Except InvalidNodePath NodePath :=
  match ofChars? text.toList with
  | some path => .ok path
  | none => .error ⟨text⟩

end NodePath

end DomainModel
