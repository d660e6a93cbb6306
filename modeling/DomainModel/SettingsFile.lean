import DomainModel.Settings
import DomainModel.Toml.Reader

namespace DomainModel

open Json (Fault Found Record)

namespace Toml.Value

def mismatch (expected : String) : Value → Fault
  | .string s => unexpected (.string s)
  | .integer n => unexpected (.number (.integer n))
  | .float x => unexpected (.number (.double x))
  | .outOfRange => { cause := .numberOutOfRange }
  | .boolean b => unexpected (.bool b)
  | .datetime | .table _ _ => unexpected .map
  | .array _ | .tables _ => unexpected .sequence
where
  unexpected (found : Found) : Fault := { cause := .invalidType found expected }

def fits (n : Int) : Bool := -0x8000000000000000 ≤ n && n < UInt64.size

mutual

def withinBounds : Value → Bool
  | .outOfRange => false
  | .array items | .tables items => allWithinBounds items
  | .table _ entries => entriesWithinBounds entries
  | _ => true
termination_by structural value => value

def allWithinBounds : List Value → Bool
  | [] => true
  | value :: values => value.withinBounds && allWithinBounds values
termination_by structural values => values

def entriesWithinBounds : List (String × Value) → Bool
  | [] => true
  | (_, value) :: entries => value.withinBounds && entriesWithinBounds entries
termination_by structural entries => entries

end

def single (value : Value) : Except Fault Float32 :=
  match value with
  | .integer n =>
    if fits n then .ok (Json.Number.integer n).toSingle else .error (value.mismatch "f32")
  | .float x => .ok (Json.Number.double x).toSingle
  | value => .error (value.mismatch "f32")

def bool (value : Value) : Except Fault Bool :=
  match value with
  | .boolean b => .ok b
  | value => .error (value.mismatch "a boolean")

def viewKind (value : Value) : Except Fault ViewKind :=
  match value with
  | .string name => Json.Node.variant ViewKind.choices name
  | .table _ [(name, .table _ [])] | .table _ [(name, .array [])] =>
    Json.Node.variant ViewKind.choices name
  | value => .error (value.mismatch "string or table")

/--
A record from a table, by name, or from an array, by position, of which the end is not read. A date
or time counts as a table that has none of the names.
-/
def record (record : Record Value α) (value : Value) : Except Fault α :=
  match value with
  | .table _ entries =>
    if (entries.filter fun entry => !record.fields.has entry.1).all (·.2.withinBounds) then
      record.ofMembers entries
    else .error (value.mismatch ("struct " ++ record.name))
  | .datetime => record.ofMembers []
  | .array items | .tables items => do
    let (values, _) ← record.fillItems 0 record.fields items
    return record.build values
  | value => .error (value.mismatch ("struct " ++ record.name))

end Toml.Value

def SettingsReaders.ofToml : SettingsReaders Toml.Value where
  single := Toml.Value.single
  boolean := Toml.Value.bool
  viewKind := Toml.Value.viewKind

def Settings.ofToml? (text : String) : Option Settings := do
  let table ← Toml.parse? text
  (Toml.Value.record (SettingsReaders.ofToml.settings Toml.Value.record)
    (.table .header table)).toOption

end DomainModel
