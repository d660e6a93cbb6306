import DomainModel.Processor

namespace DomainModel

structure Label where
  offset : Nat
  length : Nat := 0
  text : String := "here"
  deriving DecidableEq, Repr

structure Report where
  message : String
  code : Option String
  severity : Option Severity
  help : Option String
  source : Option String := none
  labels : List Label := []
  cause : Option String := none
  deriving DecidableEq

namespace Diagnostic

def advice (d : Diagnostic) : Option String :=
  match d.help, d.source with
  | some help, some source => some (help ++ " (reported by " ++ source ++ ")")
  | some help, none => some help
  | none, some source => some ("reported by " ++ source)
  | none, none => none

def report (d : Diagnostic) : Report where
  message :=
    match d.target with
    | some target => target.text ++ ": " ++ d.message
    | none => d.message
  code := d.code.map DiagnosticCode.text
  severity := some d.severity
  help := d.advice

end Diagnostic

namespace Failure

def code : Failure → String
  | .file _ => "masala::io"
  | .notification _ => "masala::notification"
  | .document rejection _ => rejection.code.text

def help : Failure → Option String
  | .file _ => none
  | .notification _ =>
    some "expected a JSON object with a `content` string and optional `diagnostics`"
  | .document rejection _ => some rejection.help

def source? : Failure → Option String
  | .document _ source => some source
  | _ => none

def labels : Failure → List Label
  | .document (.malformed error) source =>
    match error.place.offset? source.toList with
    | some offset => [{ offset }]
    | none => []
  | _ => []

def cause? : Failure → Option String
  | .file error => some error.message
  | _ => none

def report (failure : Failure) : Report where
  message := failure.message
  code := some failure.code
  severity := none
  help := failure.help
  source := failure.source?
  labels := failure.labels
  cause := failure.cause?

end Failure

end DomainModel
