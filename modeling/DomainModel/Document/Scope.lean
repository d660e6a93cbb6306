import DomainModel.Document.Basic

namespace DomainModel

structure Located (α : Type) where
  path : NodePath
  node : α

namespace Located

def map (f : α → β) (located : Located α) : Located β := ⟨located.path, f located.node⟩

def filterMap (f : α → Option β) (located : Located α) : Option (Located β) :=
  (f located.node).map (⟨located.path, ·⟩)

end Located

structure Scope where
  document : Document
  path : NodePath
  elements : List Element

def Document.scope (document : Document) : Scope := ⟨document, .root, document.elements⟩

namespace Scope

def located (scope : Scope) : List (Located Element) :=
  scope.elements.zipIdx.map fun (element, index) => ⟨scope.path.child "elements" index, element⟩

def bucket (scope : Scope) (kind? : Element → Option α) : List (Located α) :=
  scope.located.filterMap (·.filterMap kind?)

def packages (scope : Scope) : List (Located Package) := scope.bucket Element.package?

def entities (scope : Scope) : List (Located Entity) := scope.bucket Element.entity?

def dataTypes (scope : Scope) : List (Located DataType) := scope.bucket Element.dataType?

def persons (scope : Scope) : List (Located Person) := scope.bucket Element.person?

def greetings (scope : Scope) : List (Located Greeting) := scope.bucket Element.greeting?

def size (scope : Scope) : Nat :=
  scope.packages.length + scope.entities.length + scope.dataTypes.length +
    scope.persons.length + scope.greetings.length

def body (scope : Scope) (package : Located Package) : Scope :=
  ⟨scope.document, package.path, package.node.elements⟩

mutual

def ofElement (document : Document) (path : NodePath) : Element → List Scope
  | .package _ elements =>
    ⟨document, path, elements⟩ :: ofElements document path 0 elements
  | _ => []
termination_by structural element => element

def ofElements (document : Document) (path : NodePath) (index : Nat) : List Element → List Scope
  | [] => []
  | element :: elements =>
    ofElement document (path.child "elements" index) element ++
      ofElements document path (index + 1) elements
termination_by structural elements => elements

end

def depthFirst (scope : Scope) : List Scope :=
  scope :: ofElements scope.document scope.path 0 scope.elements

end Scope

end DomainModel
