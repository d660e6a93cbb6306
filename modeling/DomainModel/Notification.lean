import DomainModel.Diagnostic.Basic
import DomainModel.Document.Decode
import DomainModel.Json.Printer

namespace DomainModel

open Json (Fault Field Fields Record Node Value)

structure ServiceDiagnostic where
  severity : Option UInt8 := none
  range : SourceRange
  message : String
  source : Option String := none
  code : Option String := none
  deriving DecidableEq, Repr

structure DocumentChange where
  content : String
  diagnostics : List ServiceDiagnostic := []
  deriving DecidableEq, Repr

namespace ServiceDiagnostic

def toDiagnostic (d : ServiceDiagnostic) : Diagnostic where
  severity := .ofNumber? d.severity
  message := d.message
  code := d.code.map .external
  target := some (.range d.range)
  source := d.source

/--
A code: a text, or an integer of 64 signed bits that is kept as its text. Anything else is read
whole before it is refused, and may open at most `limit` arrays and objects.
-/
def readCode (limit : Nat) : Node → Except Fault (Option String)
  | .null _ _ => .ok none
  | node => do
    match ← node.toValue limit with
    | .string text => return some text
    | .number (.integer n) =>
      if n < 0x8000000000000000 then return some (toString n) else throw { cause := .noCode }
    | _ => throw { cause := .noCode }

def positionRecord : Record Node SourcePosition where
  name := "Position"
  fields :=
    .cons { name := "line", read := Node.uint32 } <|
    .cons { name := "character", read := Node.uint32 } .nil
  build := fun (line, character, _) => { line, character }

def rangeRecord : Record Node SourceRange where
  name := "Range"
  fields :=
    .cons { name := "start", read := positionRecord.ofNode } <|
    .cons { name := "end", read := positionRecord.ofNode } .nil
  build := fun (start, stop, _) => { start, stop }

def record (limit : Nat) : Record Node ServiceDiagnostic where
  name := "LspDiagnostic"
  fields :=
    .cons { name := "severity", read := Node.optional Node.uint8, absent := some none } <|
    .cons { name := "range", read := rangeRecord.ofNode } <|
    .cons { name := "message", read := Node.text } <|
    .cons { name := "source", read := Node.optional Node.text, absent := some none } <|
    .cons { name := "code", read := readCode limit, absent := some none } .nil
  build := fun (severity, range, message, source, code, _) =>
    { severity, range, message, source, code }

def ofText (text : String) : Except Json.Error ServiceDiagnostic :=
  Json.decode (record (Json.nestingLimit - 1)).ofNode text

def positionValue (p : SourcePosition) : Value :=
  .object [("line", .ofNat p.line.toNat), ("character", .ofNat p.character.toNat)]

def rangeValue (r : SourceRange) : Value :=
  .object [("start", positionValue r.start), ("end", positionValue r.stop)]

def toValue (d : ServiceDiagnostic) : Value :=
  let severity :=
    match d.severity with
    | some n => .ofNat n.toNat
    | none => .null
  .object [
    ("severity", severity),
    ("range", rangeValue d.range),
    ("message", .string d.message),
    ("source", .ofText? d.source),
    ("code", .ofText? d.code)]

end ServiceDiagnostic

namespace DocumentChange

def record : Record Node DocumentChange where
  name := "DocumentChange"
  fields :=
    .cons { name := "content", read := Node.text } <|
    .cons
      { name := "diagnostics",
        read := Node.list (ServiceDiagnostic.record (Json.nestingLimit - 3)).ofNode,
        absent := some [] } .nil
  build := fun (content, diagnostics, _) => { content, diagnostics }

def ofText (text : String) : Except Rejection DocumentChange :=
  match Json.decode record.ofNode text with
  | .ok change => .ok change
  | .error error => .error (.malformed error)

def toValue (change : DocumentChange) : Value :=
  .object [
    ("content", .string change.content),
    ("diagnostics", .array (change.diagnostics.map ServiceDiagnostic.toValue))]

def toText (change : DocumentChange) : String := change.toValue.compact

def document (change : DocumentChange) : Except Rejection Document :=
  Document.ofText change.content

def hasErrors (change : DocumentChange) : Bool :=
  change.diagnostics.any fun d => d.severity == some 1

end DocumentChange

namespace Rejection

def code : Rejection → ErrorCode
  | .malformed _ => .malformedDocument
  | .unexpectedRoot _ => .unexpectedRoot

def help : Rejection → String
  | .malformed _ => "the language service sent an AST that does not match the Masala grammar"
  | .unexpectedRoot _ => "only `Domainmodel` documents can be visualized"

def toDiagnostic (rejection : Rejection) : Diagnostic where
  severity := .error
  message := rejection.message
  code := some (.own rejection.code)
  source := some Diagnostic.ownSource
  help := some rejection.help

end Rejection

end DomainModel
