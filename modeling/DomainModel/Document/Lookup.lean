import DomainModel.Document.Basic

namespace DomainModel

inductive Declaration where
  | element (element : Element)
  | feature (feature : Feature)

namespace Declaration

def kind : Declaration → NodeKind
  | .element e => e.kind
  | .feature _ => .feature

def name? : Declaration → Option String
  | .element e => e.name?
  | .feature f => some f.name

def step (node : Declaration) (segment : Segment) : Option Declaration := do
  let index ← segment.index
  match node with
  | .element (.package _ elements) =>
    if segment.property = "elements" then (elements[index]?).map .element else none
  | .element (.entity e) =>
    if segment.property = "features" then (e.features[index]?).map .feature else none
  | _ => none

end Declaration

inductive FeatureType where
  | dataType (dataType : DataType)
  | entity (entity : Entity)

def FeatureType.name : FeatureType → String
  | .dataType d => d.name
  | .entity e => e.name

namespace Document

def lookup (document : Document) (path : NodePath) : Option Declaration :=
  match path.segments with
  | [] => none
  | first :: rest => do
    let index ← first.index
    let element ← if first.property = "elements" then document.elements[index]? else none
    rest.foldlM Declaration.step (.element element)

def target? (document : Document) (reference : Reference) : Option Declaration := do
  document.lookup (← reference.target)

def resolveEntity (document : Document) (reference : Reference) : Option Entity :=
  match document.target? reference with
  | some (.element (.entity entity)) => some entity
  | _ => none

def resolveType (document : Document) (reference : Reference) : Option FeatureType :=
  match document.target? reference with
  | some (.element (.dataType dataType)) => some (.dataType dataType)
  | some (.element (.entity entity)) => some (.entity entity)
  | _ => none

def resolvePerson (document : Document) (reference : Reference) : Option Person :=
  match document.target? reference with
  | some (.element (.person person)) => some person
  | _ => none

def superEntity (document : Document) (entity : Entity) : Option Entity := do
  document.resolveEntity (← entity.superType)

end Document

end DomainModel
