import DomainModel.CommandLine.Arguments
import DomainModel.CommandLine.Storage
import DomainModel.Processor
import DomainModel.SettingsFile

namespace DomainModel.CommandLine

def projectSettings : String := "masala/config.toml"

def userSettings (settingsHome home : Option String) : Option String :=
  match settingsHome.filter (·.startsWith "/"), home.filter (!·.isEmpty) with
  | some directory, _ => some (directory ++ "/masala/config.toml")
  | none, some directory => some (directory ++ "/.config/masala/config.toml")
  | none, none => none

inductive SettingsSource where
  | file (path : String)
  | missing (path : String)
  | defaults
  deriving DecidableEq, Repr

def SettingsSource.find (present : String → Bool) (config user : Option String) : SettingsSource :=
  match config with
  | some path => if present path then .file path else .missing path
  | none =>
    if present projectSettings then .file projectSettings
    else
      match user with
      | some path => if present path then .file path else .defaults
      | none => .defaults

structure Rendering where
  view : View
  diagnostics : List Diagnostic

structure Result where
  outcome : Except Failure Rendering
  printed : String := ""

namespace Storage

variable {σ : Type} (storage : Storage σ)

def readSettings (state : σ) (path : String) : Except FileError Settings := do
  let text ← storage.readText state path
  match Settings.ofToml? text with
  | some settings => return settings
  | none => .error .invalidSettings

def loadSettings (state : σ) (config user : Option String) : Except FileError Settings :=
  match SettingsSource.find (storage.present state) config user with
  | .file path => storage.readSettings state path
  | .missing path => .error (.missingSettings path)
  | .defaults => .ok {}

def render (state : σ) (user : Option String) (arguments : Arguments) :
    Except Failure Rendering := do
  let settings ← (storage.loadSettings state arguments.config user).mapError .file
  let text ← (storage.readText state arguments.input).mapError .file
  let snapshot ← ((Processor.ofSettings settings).applyText text).1
  return {
    view := snapshot.view (arguments.view.getD settings.view.default)
    diagnostics := snapshot.diagnostics }

def run (state : σ) (user : Option String) (arguments : Arguments) : Result × σ :=
  match storage.render state user arguments with
  | .error failure => ({ outcome := .error failure }, state)
  | .ok rendering =>
    match arguments.output with
    | none =>
      ({ outcome := .ok rendering, printed := rendering.view.text ++ "\n" }, state)
    | some path =>
      match storage.write state path rendering.view.text with
      | .error error => ({ outcome := .error (.file error) }, state)
      | .ok state => ({ outcome := .ok rendering }, state)

end Storage

end DomainModel.CommandLine
