import DomainModel.Document.Lookup
import DomainModel.Document.Scope
import DomainModel.Json.Value

/-!
Outlines: what a document declares, and what each entity is made of, as a tree. References that lead
nowhere show as leaves of a kind of their own, or, for supertypes, not at all.
-/

namespace DomainModel

inductive OutlineKind where
  | domainmodel
  | category
  | dataType
  | entity
  | feature
  | package
  | person
  | greeting
  | unresolvedType
  deriving DecidableEq, Repr

namespace OutlineKind

def name : OutlineKind → String
  | .domainmodel => "Domainmodel"
  | .category => "Category"
  | .dataType => "DataType"
  | .entity => "Entity"
  | .feature => "Feature"
  | .package => "Package"
  | .person => "Person"
  | .greeting => "Greeting"
  | .unresolvedType => "UnresolvedType"

end OutlineKind

inductive Tag where
  | many
  | supertype
  deriving DecidableEq, Repr

namespace Tag

def name : Tag → String
  | .many => "many"
  | .supertype => "supertype"

end Tag

inductive Outline where
  | node (name : String) (kind : OutlineKind) (tags : List Tag) (children : List Outline)
  deriving Repr

namespace Outline

def name : Outline → String
  | .node name _ _ _ => name

def kind : Outline → OutlineKind
  | .node _ kind _ _ => kind

def tags : Outline → List Tag
  | .node _ _ tags _ => tags

def children : Outline → List Outline
  | .node _ _ _ children => children

def branch (name : String) (kind : OutlineKind) (children : List Outline) : Outline :=
  .node name kind [] children

def leaf (name : String) (kind : OutlineKind) : Outline := branch name kind []

def withTag (tag : Tag) : Outline → Outline
  | .node name kind tags children =>
    .node name kind (if tags.contains tag then tags else tags ++ [tag]) children

def hasTag (tag : Tag) (outline : Outline) : Bool := outline.tags.contains tag

def isLeaf (outline : Outline) : Bool := outline.children.isEmpty

def child? (name : String) (outline : Outline) : Option Outline :=
  outline.children.find? (·.name == name)

mutual

def size : Outline → Nat
  | .node _ _ _ children => 1 + sizes children
termination_by structural outline => outline

def sizes : List Outline → Nat
  | [] => 0
  | outline :: outlines => outline.size + sizes outlines
termination_by structural outlines => outlines

end

mutual

def toValue : Outline → Json.Value
  | .node name kind tags children =>
    .object [
      ("name", .string name),
      ("kind", .string kind.name),
      ("tags", .array (tags.map (.string ·.name))),
      ("children", .array (toValues children))]
termination_by structural outline => outline

def toValues : List Outline → List Json.Value
  | [] => []
  | outline :: outlines => outline.toValue :: toValues outlines
termination_by structural outlines => outlines

end

end Outline

namespace Document

def unknown : String := "?"

def outlineDataType (dataType : DataType) : Outline := .leaf dataType.name .dataType

def outlineFeature (document : Document) (feature : Feature) : Outline :=
  let type :=
    match document.resolveType feature.type with
    | some (.dataType dataType) => outlineDataType dataType
    | some (.entity entity) => .leaf entity.name .entity
    | none => .leaf (feature.type.text.getD unknown) .unresolvedType
  if feature.many then (Outline.branch (feature.name ++ "[]") .feature [type]).withTag .many
  else .branch feature.name .feature [type]

def outlineEntity (document : Document) (entity : Entity) : Outline :=
  let features := entity.features.map document.outlineFeature
  let extended :=
    match document.superEntity entity with
    | some super =>
      [(Outline.branch super.name .entity (super.features.map document.outlineFeature)).withTag
        .supertype]
    | none => []
  .branch entity.name .entity (features ++ extended)

def outlinePerson (person : Person) : Outline := .leaf person.name .person

def outlineGreeting (document : Document) (greeting : Greeting) : Outline :=
  let name :=
    match document.resolvePerson greeting.person with
    | some person => person.name
    | none => greeting.person.key.getD unknown
  .leaf ("Hello " ++ name ++ "!") .greeting

mutual

def outlineElement (document : Document) : Element → Outline
  | .dataType dataType => outlineDataType dataType
  | .entity entity => document.outlineEntity entity
  | .package name elements => .branch name .package (document.outlineElements elements)
  | .person person => outlinePerson person
  | .greeting greeting => document.outlineGreeting greeting
termination_by structural element => element

def outlineElements (document : Document) : List Element → List Outline
  | [] => []
  | element :: elements => document.outlineElement element :: document.outlineElements elements
termination_by structural elements => elements

end

def outlinePackage (document : Document) (package : Package) : Outline :=
  .branch package.name .package (document.outlineElements package.elements)

end Document

namespace Scope

def category (name : String) (children : List Outline) : List Outline :=
  if children.isEmpty then [] else [.branch name .category children]

def outline (scope : Scope) : Outline :=
  .branch "Domainmodel" .domainmodel <|
    category "DataTypes" (scope.dataTypes.map fun d => Document.outlineDataType d.node) ++
    category "Entities" (scope.entities.map fun e => scope.document.outlineEntity e.node) ++
    category "Packages" (scope.packages.map fun p => scope.document.outlinePackage p.node)

end Scope

end DomainModel
