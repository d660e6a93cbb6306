import DomainModel.Failure
import DomainModel.Listing
import DomainModel.Outline
import DomainModel.Session
import DomainModel.Settings

/-!
Processing notifications: each one that can be read replaces the snapshot of what the document says.
Positions are kept by a session, so they pass from one snapshot to the next. An error anywhere in a
snapshot closes its views.
-/

namespace DomainModel

inductive View where
  | tree (outline : Outline)
  | graph (graph : Graph)
  | diagnostics (listing : Listing)

namespace View

def isGated : View → Bool
  | .diagnostics _ => true
  | _ => false

def toValue : View → Json.Value
  | .tree outline => .object [("view", .string "tree"), ("data", outline.toValue)]
  | .graph g => .object [("view", .string "graph"), ("data", g.toValue)]
  | .diagnostics listing => .object [("view", .string "diagnostics"), ("data", listing.toValue)]

def text : View → String
  | .tree outline => outline.toValue.pretty
  | .graph g => g.toValue.pretty
  | .diagnostics listing => listing.text

end View

def isGated (ds : List Diagnostic) : Bool := ds.any fun d => d.severity == .error

structure Snapshot where
  document : Document
  diagnostics : List Diagnostic
  outline : Outline
  graph : Graph

namespace Snapshot

def hasErrors (snapshot : Snapshot) : Bool := isGated snapshot.diagnostics

def view (snapshot : Snapshot) (kind : ViewKind) : View :=
  if snapshot.hasErrors then .diagnostics (.ofDiagnostics snapshot.diagnostics)
  else
    match kind with
    | .tree => .tree snapshot.outline
    | .graph => .graph snapshot.graph

end Snapshot

structure Processor where
  settings : Settings := {}
  session : Session := {}
  snapshot : Option Snapshot := none

namespace Processor

def ofSettings (settings : Settings) : Processor :=
  { settings, session := .ofLayout settings.layout }

def derive (settings : Settings) (session : Session) (change : DocumentChange)
    (document : Document) : Snapshot × Session :=
  let scope := document.scope
  let (graph, session) := session.project document scope.entities
  ({ document
     diagnostics :=
       change.diagnostics.map ServiceDiagnostic.toDiagnostic ++ scope.validate settings.validation
     outline := scope.outline
     graph }, session)

def apply (p : Processor) (change : DocumentChange) : Except Failure Snapshot × Processor :=
  match change.document with
  | .error rejection => (.error (.document rejection change.content), p)
  | .ok document =>
    let (snapshot, session) := derive p.settings p.session change document
    (.ok snapshot, { p with session, snapshot := some snapshot })

def applyText (p : Processor) (text : String) : Except Failure Snapshot × Processor :=
  match DocumentChange.ofText text with
  | .error rejection => (.error (.notification rejection), p)
  | .ok change => p.apply change

/--
Takes a drag event in: the node of the snapshot follows every event that has a position, the
session remembers where the drag ends. The answer is whether a position was recorded for good.
-/
def drag (p : Processor) (event : DragEvent) : Bool × Processor :=
  let snapshot :=
    match event.position with
    | some position =>
      p.snapshot.map fun s => { s with graph := s.graph.moveNode event.id position }
    | none => p.snapshot
  let (recorded, session) := p.session.drag event
  (recorded, { p with snapshot, session })

def resetSession (p : Processor) : Processor := { p with session := p.session.reset }

def view (p : Processor) (kind : ViewKind) : Option View := p.snapshot.map (·.view kind)

end Processor

end DomainModel
