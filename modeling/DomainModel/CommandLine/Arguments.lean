import DomainModel.Settings

namespace DomainModel.CommandLine

structure Arguments where
  input : String
  output : Option String := none
  view : Option ViewKind := none
  config : Option String := none
  logLevel : String := "info"
  deriving DecidableEq, Repr

inductive Stop where
  | help
  | version
  | missingInput
  | unknownArgument
  | missingValue
  | unexpectedValue
  | unknownView
  | repeatedOption
  deriving DecidableEq, Repr

inductive OptionName where
  | output
  | view
  | config
  | logLevel
  deriving DecidableEq, Repr

inductive Switch where
  | help
  | version
  | option (name : OptionName)
  deriving DecidableEq, Repr

namespace Switch

def longNames : List (String × Switch) :=
  [("output", .option .output), ("view", .option .view), ("config", .option .config),
    ("log-level", .option .logLevel), ("help", .help), ("version", .version)]

def letters : List (Char × Switch) :=
  [('o', .option .output), ('c', .option .config), ('h', .help), ('V', .version)]

end Switch

inductive Word where
  | separator
  | long (name : String) (value : Option String)
  | short (letter : Char) (value : Option String)
  | plain
  deriving DecidableEq, Repr

namespace Word

def splitLong (text : List Char) : Word :=
  let value :=
    match text.dropWhile (· != '=') with
    | _ :: value => some (String.ofList value)
    | [] => none
  .long (String.ofList (text.takeWhile (· != '='))) value

def joinedValue : List Char → Option String
  | [] => none
  | '=' :: value => some (String.ofList value)
  | value => some (String.ofList value)

def ofText (text : String) : Word :=
  match text.toList with
  | ['-', '-'] => .separator
  | '-' :: '-' :: rest => splitLong rest
  | '-' :: letter :: rest => .short letter (joinedValue rest)
  | _ => .plain

end Word

structure Reading where
  input : Option String := none
  output : Option String := none
  view : Option ViewKind := none
  config : Option String := none
  logLevel : Option String := none
  /--
  The last option that was a word of its own, with its value once that is read. It is settled when
  the next argument turns out to be known.
  -/
  pending : Option (OptionName × Option String) := none
  onlyInputs : Bool := false

namespace Reading

def has (r : Reading) : OptionName → Bool
  | .output => r.output.isSome
  | .view => r.view.isSome
  | .config => r.config.isSome
  | .logLevel => r.logLevel.isSome

def set (r : Reading) (value : String) : OptionName → Except Stop Reading
  | .output => .ok { r with output := some value }
  | .view =>
    match ViewKind.ofText value with
    | .ok kind => .ok { r with view := some kind }
    | .error _ => .error .unknownView
  | .config => .ok { r with config := some value }
  | .logLevel => .ok { r with logLevel := some value }

def assign (r : Reading) (name : OptionName) (value : Option String) : Except Stop Reading :=
  match value with
  | none => .error .missingValue
  | some value => if r.has name then .error .repeatedOption else r.set value name

def settle (r : Reading) : Except Stop Reading :=
  match r.pending with
  | none => .ok r
  | some (name, value) => { r with pending := none }.assign name value

def takeInput (r : Reading) (text : String) : Except Stop Reading :=
  if r.input.isSome then .error .unknownArgument
  else return { ← r.settle with input := some text }

def takeSwitch (r : Reading) (switch : Switch) (value : Option String) : Except Stop Reading := do
  let r ← r.settle
  match switch, value with
  | .help, _ => .error .help
  | .version, _ => .error .version
  | .option name, some value => r.assign name (some value)
  | .option name, none => .ok { r with pending := some (name, none) }

def takePlain (r : Reading) (text : String) : Except Stop Reading :=
  match r.pending with
  | some (name, none) => .ok { r with pending := some (name, some text) }
  | _ => r.takeInput text

def take (r : Reading) (text : String) : Except Stop Reading :=
  if r.onlyInputs then r.takeInput text
  else
    match Word.ofText text with
    | .separator => .ok { r with onlyInputs := true }
    | .long name value =>
      match Switch.longNames.lookup name, value with
      | none, _ => .error .unknownArgument
      | some .help, some _ => .error .unexpectedValue
      | some .version, some _ => .error .unexpectedValue
      | some switch, value => r.takeSwitch switch value
    | .short letter value =>
      match Switch.letters.lookup letter with
      | none => .error .unknownArgument
      | some switch => r.takeSwitch switch value
    | .plain => r.takePlain text

def finish (r : Reading) : Except Stop Arguments := do
  let r ← r.settle
  match r.input with
  | none => .error .missingInput
  | some input =>
    return {
      input
      output := r.output
      view := r.view
      config := r.config
      logLevel := r.logLevel.getD "info" }

end Reading

def Arguments.ofWords (words : List String) : Except Stop Arguments := do
  let r ← words.foldlM Reading.take {}
  r.finish

end DomainModel.CommandLine
