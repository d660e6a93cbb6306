import DomainModel.Diagnostic.Collector
import DomainModel.Document.Scope
import DomainModel.Text.Capital

/-!
Validation: in every scope, entities have different names, every person is greeted at most once,
and persons start with a capital. Only names and the keys of references count, so it never matters
whether a reference leads anywhere.
-/

namespace DomainModel

def repeats [DecidableEq κ] (key : α → κ) (items : List α) : List (α × Nat) :=
  go [] items
where
  go (seen : List κ) : List α → List (α × Nat)
    | [] => []
    | item :: items =>
      let before := seen.count (key item)
      let rest := go (key item :: seen) items
      if before = 0 then rest else (item, before + 1) :: rest

def ordinal (n : Nat) : String :=
  if n = 2 then "2nd" else toString n ++ "th"

structure ValidationSettings where
  capitalizedPersons : Bool := true
  deriving DecidableEq, Repr

namespace Validation

def repeatedEntity (entity : Located Entity) (occurrence : Nat) : Diagnostic where
  severity := .error
  message := "Entity has non-unique name '" ++ entity.node.name ++ "' (" ++ ordinal occurrence ++
    " occurrence)."
  code := some (.own .repeatedEntity)
  target := some (.node entity.path)
  source := some Diagnostic.ownSource
  help := some "rename the entity or remove the duplicate declaration"

def repeatedGreeting (greeting : Located Greeting) (key : String) (occurrence : Nat) :
    Diagnostic where
  severity := .error
  message := "You can greet each person only once. This is the " ++ ordinal occurrence ++
    " greeting to '" ++ key ++ "'."
  code := some (.own .repeatedGreeting)
  target := some (.node greeting.path)
  source := some Diagnostic.ownSource

def lowercasePerson (person : Located Person) : Diagnostic where
  severity := .warning
  message := "Person name should start with a capital."
  code := some (.own .lowercasePerson)
  target := some (.node person.path)
  source := some Diagnostic.ownSource

def ofEntities (entities : List (Located Entity)) : List Diagnostic :=
  (repeats (·.node.name) entities).map fun (entity, occurrence) =>
    repeatedEntity entity occurrence

def keyed (greetings : List (Located Greeting)) : List (Located Greeting × String) :=
  greetings.filterMap fun greeting => (greeting.node.person.key).map (greeting, ·)

def ofGreetings (greetings : List (Located Greeting)) : List Diagnostic :=
  (repeats (·.2) (keyed greetings)).map fun ((greeting, key), occurrence) =>
    repeatedGreeting greeting key occurrence

def ofPersons (settings : ValidationSettings) (persons : List (Located Person)) :
    List Diagnostic :=
  if settings.capitalizedPersons then
    (persons.filter fun person => !Text.startsCapital person.node.name).map lowercasePerson
  else []

end Validation

inductive Visit where
  | entities (entities : List (Located Entity))
  | greetings (greetings : List (Located Greeting))
  | persons (persons : List (Located Person))

namespace Scope

def ownVisits (scope : Scope) : List Visit :=
  [.entities scope.entities, .greetings scope.greetings, .persons scope.persons]

def visits (scope : Scope) : List Visit := scope.depthFirst.flatMap ownVisits

end Scope

structure Validator where
  settings : ValidationSettings := {}
  found : Collector := {}

namespace Validator

def hasErrors (v : Validator) : Bool := v.found.hasErrors

def diagnostics (v : Validator) : List Diagnostic := v.found.diagnostics

def visit (v : Validator) (visit : Visit) : Validator :=
  let ds :=
    match visit with
    | .entities entities => Validation.ofEntities entities
    | .greetings greetings => Validation.ofGreetings greetings
    | .persons persons => Validation.ofPersons v.settings persons
  { v with found := v.found.emitAll ds }

end Validator

def Scope.validate (scope : Scope) (settings : ValidationSettings) : List Diagnostic :=
  (scope.visits.foldl Validator.visit { settings }).diagnostics

end DomainModel
