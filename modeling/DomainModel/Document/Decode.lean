import DomainModel.Document.Basic
import DomainModel.Json.Record

/-!
Reading documents from JSON. The document itself is read straight from the text. An element is
first read whole into a plain value, because the member that tells its kind may come last, and then
decoded from that value; only its tag is judged while the text is read.
-/

namespace DomainModel

open Json (Fault Field Fields Record Node Value Items Members)

def nonEmpty (name : String) : Except Fault String :=
  if name.isEmpty then .error { cause := .emptyName } else .ok name

def nameOfNode (node : Node) : Except Fault String := do nonEmpty (← node.text)

def nameOfValue (value : Value) : Except Fault String := do nonEmpty (← value.text)

namespace NodeKind

def choices : List (String × NodeKind) := all.map fun kind => (kind.name, kind)

def ofText (text : String) : Except Json.Error NodeKind := Json.decode (Node.choice choices) text

end NodeKind

namespace Reference

def ofParts (target text error : Option String) : Reference :=
  { text, error, target := target.bind fun path => (NodePath.ofText path).toOption }

def record (text : σ → Except Fault (Option String)) : Record σ Reference where
  name := "RawReference"
  fields :=
    .cons { name := "$ref", read := text, absent := some none } <|
    .cons { name := "$refText", read := text, absent := some none } <|
    .cons { name := "$error", read := text, absent := some none } .nil
  build := fun (target, text, error, _) => ofParts target text error

def ofNode (node : Node) : Except Fault Reference :=
  (record (Node.optional Node.text)).ofNode node

def ofValue (value : Value) : Except Fault Reference :=
  (record (Value.optional Value.text)).ofValue value

def ofText (text : String) : Except Json.Error Reference := Json.decode ofNode text

end Reference

namespace Feature

def record : Record Value Feature where
  name := "Feature"
  fields :=
    .cons { name := "name", read := nameOfValue } <|
    .cons { name := "type", read := Reference.ofValue } <|
    .cons { name := "many", read := Value.boolean, absent := some false } .nil
  build := fun (name, type, many, _) => { name, type, many }

end Feature

inductive ElementKind where
  | dataType
  | entity
  | package
  | person
  | greeting
  deriving DecidableEq, Repr

namespace ElementKind

def all : List ElementKind := [.dataType, .entity, .package, .person, .greeting]

def node : ElementKind → NodeKind
  | .dataType => .dataType
  | .entity => .entity
  | .package => .package
  | .person => .person
  | .greeting => .greeting

def choices : List (String × ElementKind) := all.map fun kind => (kind.node.name, kind)

def ofValue : Value → Except Fault ElementKind
  | .string name => Json.Node.variant choices name
  | .number (.integer n) =>
    if n < 0 then .error ((Value.number (.integer n)).mismatch "variant identifier")
    else
      match all[n.toNat]? with
      | some kind => .ok kind
      | none => .error { cause := .invalidInteger n "variant index 0 <= i < 5" }
  | value => .error (value.mismatch "variant identifier")

end ElementKind

namespace Element

def tagName : String := "$type"

/--
A plain value inside an element, and what it says as a list of elements: that is worked out
together with the element, and only asked for by packages.
-/
structure Part where
  value : Value
  elements : Unit → Except Fault (List Element)

namespace Part

def name (part : Part) : Except Fault String := nameOfValue part.value

end Part

def dataTypeRecord : Record Part Element where
  name := "DataType"
  fields := .cons { name := "name", read := Part.name } .nil
  build := fun (name, _) => .dataType { name }

def entityRecord : Record Part Element where
  name := "Entity"
  fields :=
    .cons { name := "name", read := Part.name } <|
    .cons
      { name := "features", read := fun part => part.value.list Feature.record.ofValue,
        absent := some [] } <|
    .cons
      { name := "superType", read := fun part => part.value.optional Reference.ofValue,
        absent := some none } .nil
  build := fun (name, features, superType, _) => .entity { name, features, superType }

def packageRecord : Record Part Element where
  name := "PackageDeclaration"
  fields :=
    .cons { name := "name", read := Part.name } <|
    .cons { name := "elements", read := fun part => part.elements (), absent := some [] } .nil
  build := fun (name, elements, _) => .package name elements

def personRecord : Record Part Element where
  name := "Person"
  fields := .cons { name := "name", read := Part.name } .nil
  build := fun (name, _) => .person { name }

def greetingRecord : Record Part Element where
  name := "Greeting"
  fields := .cons { name := "person", read := fun part => Reference.ofValue part.value } .nil
  build := fun (reference, _) => .greeting { person := reference }

def record : ElementKind → Record Part Element
  | .dataType => dataTypeRecord
  | .entity => entityRecord
  | .package => packageRecord
  | .person => personRecord
  | .greeting => greetingRecord

def takeTag (tag : Option ElementKind) :
    List (String × Part) → Except Fault (ElementKind × List (String × Part))
  | [] =>
    match tag with
    | some kind => .ok (kind, [])
    | none => .error { cause := .missingField tagName }
  | (key, part) :: members =>
    if key = tagName then
      if tag.isSome then .error { cause := .duplicateField tagName }
      else do takeTag (some (← ElementKind.ofValue part.value)) members
    else do
      let (kind, rest) ← takeTag tag members
      return (kind, (key, part) :: rest)

mutual

def ofValue : Value → Except Fault Element
  | .object members => do
    let (kind, rest) ← takeTag none (partsOfMembers members)
    (record kind).ofMembers rest
  | .array [] => .error { cause := .missingField tagName }
  | .array (tag :: items) => do
    let kind ← ElementKind.ofValue tag
    (record kind).ofItems (partsOfItems items)
  | value => .error (value.mismatch "internally tagged enum Element")
termination_by structural value => value

def partOfValue : Value → Part
  | .array items => ⟨.array items, fun _ => ofValues items⟩
  | value => ⟨value, fun _ => .error (value.mismatch "a sequence")⟩
termination_by structural value => value

def ofValues : List Value → Except Fault (List Element)
  | [] => .ok []
  | value :: values => return (← ofValue value) :: (← ofValues values)
termination_by structural values => values

def partsOfItems : List Value → List Part
  | [] => []
  | value :: values => partOfValue value :: partsOfItems values
termination_by structural values => values

def partsOfMembers : List (String × Value) → List (String × Part)
  | [] => []
  | (key, value) :: members => (key, partOfValue value) :: partsOfMembers members
termination_by structural members => members

end

/-- An element may open so many arrays and objects besides its own. -/
def nestingLimit : Nat := Json.nestingLimit - 3

def readMembers (tag : Option ElementKind) :
    Members → Except Fault (ElementKind × List (String × Value))
  | .closed stop =>
    match tag with
    | some kind => .ok (kind, [])
    | none => .error (.atOffset stop (.missingField tagName))
  | .broken flaw fault => .error (flaw.getD fault)
  | .member key node _ more => do
    let name ← key.read
    if name = tagName then
      if tag.isSome then throw (.atOffset key.finish (.duplicateField tagName))
      else readMembers (some (← node.identifier ElementKind.choices)) more
    else
      let value ← node.toValue nestingLimit
      let (kind, rest) ← readMembers tag more
      return (kind, (name, value) :: rest)

def ofNode : Node → Except Fault Element
  | .object _ members => do
    let (kind, rest) ← readMembers none members
    (record kind).ofMembers (partsOfMembers rest)
  | .array _ (.closed stop) => .error (.atOffset stop (.missingField tagName))
  | .array _ (.broken fault) => .error fault
  | .array _ (.item tag _ more) => do
    let kind ← tag.identifier ElementKind.choices
    let items ← more.toValues nestingLimit
    (record kind).ofItems (partsOfItems items)
  | node => .error (node.mismatch "internally tagged enum Element")

end Element

namespace Document

structure Raw where
  kind : String
  name : Option String
  elements : List Element

def record : Record Node Raw where
  name := "Document"
  fields :=
    .cons { name := "$type", read := Node.text } <|
    .cons { name := "name", read := Node.optional Node.text, absent := some none } <|
    .cons { name := "elements", read := Node.list Element.ofNode } .nil
  build := fun (kind, name, elements, _) => { kind, name, elements }

end Document

inductive Rejection where
  | malformed (error : Json.Error)
  | unexpectedRoot (found : String)
  deriving DecidableEq

namespace Rejection

def message : Rejection → String
  | .malformed error => "malformed document: " ++ error.message
  | .unexpectedRoot found =>
    "unexpected root node `" ++ found ++ "`, expected `" ++ NodeKind.domainmodel.name ++ "`"

end Rejection

def Document.ofText (text : String) : Except Rejection Document :=
  match Json.decode Document.record.ofNode text with
  | .error error => .error (.malformed error)
  | .ok raw =>
    if raw.kind = NodeKind.domainmodel.name then .ok { name := raw.name, elements := raw.elements }
    else .error (.unexpectedRoot raw.kind)

end DomainModel
