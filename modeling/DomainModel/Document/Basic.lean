import DomainModel.Reference

namespace DomainModel

inductive NodeKind where
  | domainmodel
  | dataType
  | entity
  | feature
  | package
  | person
  | greeting
  deriving DecidableEq, Repr

namespace NodeKind

def name : NodeKind → String
  | .domainmodel => "Domainmodel"
  | .dataType => "DataType"
  | .entity => "Entity"
  | .feature => "Feature"
  | .package => "PackageDeclaration"
  | .person => "Person"
  | .greeting => "Greeting"

def all : List NodeKind :=
  [.domainmodel, .dataType, .entity, .feature, .package, .person, .greeting]

end NodeKind

structure DataType where
  name : String
  deriving DecidableEq, Repr

structure Feature where
  name : String
  type : Reference
  many : Bool
  deriving DecidableEq, Repr

structure Entity where
  name : String
  features : List Feature
  superType : Option Reference
  deriving DecidableEq, Repr

structure Person where
  name : String
  deriving DecidableEq, Repr

structure Greeting where
  person : Reference
  deriving DecidableEq, Repr

inductive Element where
  | dataType (dataType : DataType)
  | entity (entity : Entity)
  | package (name : String) (elements : List Element)
  | person (person : Person)
  | greeting (greeting : Greeting)
  deriving Repr

structure Package where
  name : String
  elements : List Element

structure Document where
  name : Option String := none
  elements : List Element

namespace Element

def kind : Element → NodeKind
  | .dataType _ => .dataType
  | .entity _ => .entity
  | .package _ _ => .package
  | .person _ => .person
  | .greeting _ => .greeting

def name? : Element → Option String
  | .dataType d => some d.name
  | .entity e => some e.name
  | .package name _ => some name
  | .person p => some p.name
  | .greeting _ => none

def entity? : Element → Option Entity
  | .entity e => some e
  | _ => none

def dataType? : Element → Option DataType
  | .dataType d => some d
  | _ => none

def package? : Element → Option Package
  | .package name elements => some ⟨name, elements⟩
  | _ => none

def person? : Element → Option Person
  | .person p => some p
  | _ => none

def greeting? : Element → Option Greeting
  | .greeting g => some g
  | _ => none

end Element

end DomainModel
