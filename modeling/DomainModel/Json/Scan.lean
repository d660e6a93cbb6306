import DomainModel.Json.Node

namespace DomainModel.Json

def hexValue? (c : Char) : Option Nat :=
  if '0' ≤ c ∧ c ≤ '9' then some (c.toNat - '0'.toNat)
  else if 'a' ≤ c ∧ c ≤ 'f' then some (c.toNat - 'a'.toNat + 10)
  else if 'A' ≤ c ∧ c ≤ 'F' then some (c.toNat - 'A'.toNat + 10)
  else none

def codeUnit? (a b c d : Char) : Option Nat := do
  let a ← hexValue? a
  let b ← hexValue? b
  let c ← hexValue? c
  let d ← hexValue? d
  return ((a * 16 + b) * 16 + c) * 16 + d

def escape? (c : Char) : Option Char :=
  match c with
  | '"' => some '"'
  | '\\' => some '\\'
  | '/' => some '/'
  | 'b' => some '\x08'
  | 'f' => some '\x0c'
  | 'n' => some '\n'
  | 'r' => some '\r'
  | 't' => some '\t'
  | _ => none

def isLeading (unit : Nat) : Bool := 0xD800 ≤ unit && unit ≤ 0xDBFF

def isTrailing (unit : Nat) : Bool := 0xDC00 ≤ unit && unit ≤ 0xDFFF

def surrogatePair (leading trailing : Nat) : Char :=
  .ofNat (0x10000 + (leading - 0xD800) * 0x400 + (trailing - 0xDC00))

inductive ScannedString where
  | closed (text : String) (flaw : Option Fault) (next : Cursor)
  | broken (flaw : Option Fault) (fault : Fault)

structure StringState where
  waiting : Option Nat := none
  flaw : Option Fault := none
  taken : List Char := []

namespace StringState

def push (s : StringState) (c : Char) : StringState := { s with taken := c :: s.taken }

def giveUp (s : StringState) (offset : Nat) (cause : Cause) : StringState :=
  match s.waiting with
  | none => s
  | some _ => { s with waiting := none, flaw := s.flaw <|> some (.atOffset offset cause) }

def pushUnit (s : StringState) (offset unit : Nat) : StringState :=
  match s.waiting with
  | some leading =>
    if isTrailing unit then { s with waiting := none }.push (surrogatePair leading unit)
    else fresh (s.giveUp offset .loneSurrogate)
  | none => fresh s
where
  fresh (s : StringState) : StringState :=
    if isLeading unit then { s with waiting := some unit }
    else if isTrailing unit then
      { s with flaw := s.flaw <|> some (.atOffset offset .loneSurrogate) }
    else s.push (.ofNat unit)

end StringState

def scanString (offset : Nat) (s : StringState) : List Char → ScannedString
  | [] => .broken s.flaw (.atOffset offset .endInString)
  | '\\' :: rest =>
    match rest with
    | [] => .broken s.flaw (.atOffset (offset + 1) .endInString)
    | 'u' :: rest =>
      match rest with
      | a :: b :: c :: d :: rest =>
        match codeUnit? a b c d with
        | some unit => scanString (offset + 6) (s.pushUnit (offset + 6) unit) rest
        | none => .broken s.flaw (.atOffset (offset + 6) .invalidEscape)
      | short =>
        let left := byteLength short
        if left < 4 then .broken s.flaw (.atOffset (offset + 2 + left) .endInString)
        else .broken s.flaw (.atOffset (offset + 6) .invalidEscape)
    | e :: rest =>
      let s := s.giveUp (offset + 2) .unpairedEscape
      match escape? e with
      | some c => scanString (offset + 2) (s.push c) rest
      | none => .broken s.flaw (.atOffset (offset + 2) .invalidEscape)
  | c :: rest =>
    let s := s.giveUp (offset + 1) .unpairedEscape
    if c = '"' then .closed (String.ofList s.taken.reverse) s.flaw ⟨offset + 1, rest⟩
    else if c < ' ' then .broken s.flaw (.atOffset (offset + 1) .controlCharacter)
    else scanString (offset + c.utf8Size) (s.push c) rest

def scanWord (c : Cursor) : List Char → Except Fault Cursor
  | [] => .ok c
  | expected :: word =>
    match c.rest with
    | [] => .error (.atOffset c.offset .endInValue)
    | found :: _ =>
      if found = expected then scanWord (c.advance 1) word
      else .error (.atOffset (c.offset + 1) .expectedIdent)

def scanConstant (c : Cursor) (word : List Char) (node : Nat → Node) : Node × Option Cursor :=
  match scanWord c word with
  | .ok next => (node next.offset, some next)
  | .error fault => (.broken c.offset fault, none)

def closeObject (c : Cursor) : Nat :=
  let c := c.skipBlanks
  match c.rest with
  | '}' :: _ => c.offset + 1
  | _ => c.offset

def brokenMember (member : Node → Nat → Members → Members) (node : Node) (c : Cursor) :
    Members × Option Cursor :=
  (member node c.offset (.broken none (.atOffset c.offset .endInObject)), none)

mutual

/--
Reads a value, and yields what follows it unless the text broke. The budget bounds the depth of the
calls, of which each three take at least one character.
-/
def scanNode : Nat → Cursor → Node × Option Cursor
  | 0, c => (.broken c.offset (.atOffset c.offset .endInValue), none)
  | budget + 1, c =>
    let c := c.skipBlanks
    match c.rest with
    | [] => (.broken c.offset (.atOffset c.offset .endInValue), none)
    | 'n' :: _ => scanConstant c ['n', 'u', 'l', 'l'] (.null c.offset)
    | 't' :: _ => scanConstant c ['t', 'r', 'u', 'e'] (.bool c.offset · true)
    | 'f' :: _ => scanConstant c ['f', 'a', 'l', 's', 'e'] (.bool c.offset · false)
    | '"' :: rest =>
      match scanString (c.offset + 1) {} rest with
      | .closed text flaw next => (.string c.offset next.offset text flaw, some next)
      | .broken flaw fault => (.brokenString c.offset flaw fault, none)
    | '[' :: _ =>
      let (items, next) := scanFirstItem budget (c.advance 1)
      (.array c.offset items, next)
    | '{' :: _ =>
      let (members, next) := scanFirstMember budget (c.advance 1)
      (.object c.offset members, next)
    | first :: _ =>
      if first = '-' ∨ first.isDigit then
        match Literal.scan c with
        | .ok (literal, next) => (.number c.offset literal, some next)
        | .error fault => (.broken c.offset fault, none)
      else (.broken c.offset (.atOffset (c.offset + 1) .expectedValue), none)

def scanFirstItem : Nat → Cursor → Items × Option Cursor
  | 0, c => (.broken (.atOffset c.offset .endInList), none)
  | budget + 1, c =>
    let c := c.skipBlanks
    match c.rest with
    | [] => (.broken (.atOffset c.offset .endInList), none)
    | ']' :: rest => (.closed (c.offset + 1), some ⟨c.offset + 1, rest⟩)
    | _ => scanItem budget c

def scanItem : Nat → Cursor → Items × Option Cursor
  | 0, c => (.broken (.atOffset c.offset .endInList), none)
  | budget + 1, c =>
    match scanNode budget c with
    | (node, none) => (.item node c.offset (.broken (.atOffset c.offset .endInList)), none)
    | (node, some next) =>
      let c := next.skipBlanks
      match c.rest with
      | [] => (.item node c.offset (.broken (.atOffset c.offset .endInList)), none)
      | ']' :: rest =>
        (.item node (c.offset + 1) (.closed (c.offset + 1)), some ⟨c.offset + 1, rest⟩)
      | ',' :: _ =>
        let c := (c.advance 1).skipBlanks
        match c.rest with
        | [] => (.item node c.offset (.broken (.atOffset c.offset .endInValue)), none)
        | ']' :: _ =>
          (.item node c.offset (.broken (.atOffset (c.offset + 1) .trailingListComma)), none)
        | _ =>
          let (more, next) := scanItem budget c
          (.item node c.offset more, next)
      | _ => (.item node c.offset (.broken (.atOffset (c.offset + 1) .expectedListEnd)), none)

def scanFirstMember : Nat → Cursor → Members × Option Cursor
  | 0, c => (.broken none (.atOffset c.offset .endInObject), none)
  | budget + 1, c =>
    let c := c.skipBlanks
    match c.rest with
    | [] => (.broken none (.atOffset c.offset .endInObject), none)
    | '}' :: rest => (.closed (c.offset + 1), some ⟨c.offset + 1, rest⟩)
    | '"' :: _ => scanMember budget c
    | _ => (.broken none (.atOffset (c.offset + 1) .keyMustBeString), none)

def scanMember : Nat → Cursor → Members × Option Cursor
  | 0, c => (.broken none (.atOffset c.offset .endInObject), none)
  | budget + 1, c =>
    match scanString (c.offset + 1) {} (c.rest.drop 1) with
    | .broken flaw fault => (.broken flaw fault, none)
    | .closed key flaw next =>
      let c := next.skipBlanks
      let member := Members.member ⟨key, flaw, next.offset, closeObject next⟩
      match c.rest with
      | [] => brokenMember member (.broken c.offset (.atOffset c.offset .endInObject)) c
      | ':' :: _ =>
        match scanNode budget (c.advance 1) with
        | (node, none) => brokenMember member node c
        | (node, some next) =>
          let c := next.skipBlanks
          match c.rest with
          | [] => (member node c.offset (.broken none (.atOffset c.offset .endInObject)), none)
          | '}' :: rest =>
            (member node (c.offset + 1) (.closed (c.offset + 1)), some ⟨c.offset + 1, rest⟩)
          | ',' :: _ =>
            let finish := c.offset
            let c := (c.advance 1).skipBlanks
            match c.rest with
            | [] => (member node finish (.broken none (.atOffset c.offset .endAfterComma)), none)
            | '"' :: _ =>
              let (more, next) := scanMember budget c
              (member node finish more, next)
            | '}' :: _ =>
              let fault := .atOffset (c.offset + 1) .trailingObjectComma
              (member node finish (.broken none fault), none)
            | _ =>
              let fault := .atOffset (c.offset + 1) .keyMustBeString
              (member node finish (.broken none fault), none)
          | _ =>
            let fault := .atOffset (c.offset + 1) .expectedObjectEnd
            (member node c.offset (.broken none fault), none)
      | _ => brokenMember member (.broken c.offset (.atOffset (c.offset + 1) .expectedColon)) c

end

def scan (text : List Char) : Tree :=
  match scanNode (3 * text.length + 3) (.ofText text) with
  | (root, none) => ⟨root, none⟩
  | (root, some next) =>
    let c := next.skipBlanks
    match c.rest with
    | [] => ⟨root, none⟩
    | _ :: _ => ⟨root, some (.atOffset (c.offset + 1) .trailingCharacters)⟩

end DomainModel.Json
