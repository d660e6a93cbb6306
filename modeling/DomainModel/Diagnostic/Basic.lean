import DomainModel.Reference

namespace DomainModel

inductive Severity where
  | error
  | warning
  deriving DecidableEq, Repr

namespace Severity

def name : Severity → String
  | .error => "error"
  | .warning => "warning"

def isError : Severity → Bool
  | .error => true
  | .warning => false

def isWarning : Severity → Bool
  | .error => false
  | .warning => true

def ofNumber? (number : Option UInt8) : Severity :=
  if number = some 1 then .error else .warning

end Severity

inductive ErrorCode where
  | malformedDocument
  | unexpectedRoot
  | repeatedEntity
  | repeatedGreeting
  | lowercasePerson
  deriving DecidableEq, Repr

namespace ErrorCode

def all : List ErrorCode :=
  [.malformedDocument, .unexpectedRoot, .repeatedEntity, .repeatedGreeting, .lowercasePerson]

def text : ErrorCode → String
  | .malformedDocument => "E100"
  | .unexpectedRoot => "E101"
  | .repeatedEntity => "E200"
  | .repeatedGreeting => "E201"
  | .lowercasePerson => "W200"

def description : ErrorCode → String
  | .malformedDocument => "malformed document"
  | .unexpectedRoot => "unexpected root node"
  | .repeatedEntity => "non-unique entity name"
  | .repeatedGreeting => "repeated greeting"
  | .lowercasePerson => "person name not capitalized"

end ErrorCode

inductive DiagnosticCode where
  | own (code : ErrorCode)
  | external (code : String)
  deriving DecidableEq, Repr

namespace DiagnosticCode

def text : DiagnosticCode → String
  | .own code => code.text
  | .external code => code

def own? : DiagnosticCode → Option ErrorCode
  | .own code => some code
  | .external _ => none

end DiagnosticCode

structure SourcePosition where
  line : UInt32
  character : UInt32
  deriving DecidableEq, Repr

-- Editors number lines from one. The number has 32 bits as the line itself, and wraps to zero.
def SourcePosition.lineNumber (p : SourcePosition) : UInt32 := p.line + 1

structure SourceRange where
  start : SourcePosition
  stop : SourcePosition
  deriving DecidableEq, Repr

def SourceRange.text (range : SourceRange) : String :=
  "Line " ++ toString range.start.lineNumber.toNat ++ "-" ++
    toString range.stop.lineNumber.toNat

inductive Target where
  | node (path : NodePath)
  | range (range : SourceRange)
  deriving DecidableEq, Repr

namespace Target

def text : Target → String
  | .node path => toString path
  | .range r => r.text

def node? : Target → Option NodePath
  | .node path => some path
  | .range _ => none

def range? : Target → Option SourceRange
  | .node _ => none
  | .range r => some r

end Target

structure Diagnostic where
  severity : Severity
  message : String
  code : Option DiagnosticCode := none
  target : Option Target := none
  source : Option String := none
  help : Option String := none
  deriving DecidableEq, Repr

namespace Diagnostic

def ownSource : String := "masala"

def errorCode? (d : Diagnostic) : Option ErrorCode := d.code.bind DiagnosticCode.own?

def text (d : Diagnostic) : String :=
  let code :=
    match d.code with
    | some code => "[" ++ code.text ++ "]"
    | none => ""
  d.severity.name ++ code ++ ": " ++ d.message

end Diagnostic

end DomainModel
