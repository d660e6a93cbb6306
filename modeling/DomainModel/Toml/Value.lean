import DomainModel.Json.Fault

/-!
The values of a settings file, and the tables they are kept in. How a table came about decides
whether it may still grow.
-/

namespace DomainModel.Toml

inductive Origin where
  | implied
  | dotted
  | header
  | inline
  deriving DecidableEq, Repr

inductive Value where
  | string (s : String)
  | integer (n : Int)
  | float (x : Float)
  /-- A number that is too large to hold. It only matters if it is read. -/
  | outOfRange
  | boolean (b : Bool)
  | datetime
  | array (items : List Value)
  | table (origin : Origin) (entries : List (String × Value))
  | tables (items : List Value)

abbrev Table := List (String × Value)

namespace Table

def alter (key : String) (change : Option Value → Option Value) : Table → Option Table
  | [] => do return [(key, ← change none)]
  | (k, value) :: entries =>
    if k = key then do return (k, ← change (some value)) :: entries
    else do return (k, value) :: (← alter key change entries)

def alterLast (change : Value → Option Value) : List Value → Option (List Value)
  | [] => none
  | [item] => do return [← change item]
  | item :: items => do return item :: (← alterLast change items)

def alterOpen (change : Table → Option Table) : Value → Option Value
  | .table .inline _ => none
  | .table origin entries => do return .table origin (← change entries)
  | _ => none

def within (path : List String) (change : Table → Option Table) (table : Table) :
    Option Table :=
  match path with
  | [] => change table
  | key :: path =>
    alter key
      (fun
        | none => do return .table .implied (← within path change [])
        | some (.tables items) => do
          return .tables (← alterLast (alterOpen (within path change)) items)
        | some value => alterOpen (within path change) value)
      table

/-- Opens the table of a header, which no header or dotted key may have made before. -/
def openTable (key : String) : Table → Option Table :=
  alter key fun
    | none => some (.table .header [])
    | some (.table .implied entries) => some (.table .header entries)
    | some _ => none

def openItem (key : String) : Table → Option Table :=
  alter key fun
    | none => some (.tables [.table .header []])
    | some (.tables items) => some (.tables (items ++ [.table .header []]))
    | some _ => none

/--
Adds a value under a key, which may have dots but must be new. The tables on the way may have come
about by headers of tables inside them, but no header of their own may follow. The last table of a
header in double brackets may be on the way too, but the value does not go right into it.
-/
def insert (key : String) (path : List String) (value : Value) (table : Table) : Option Table :=
  match path with
  | [] => alter key (fun old => if old.isSome then none else some value) table
  | next :: path =>
    alter key
      (fun
        | none => do return .table .dotted (← insert next path value [])
        | some (.table .implied entries) | some (.table .dotted entries) => do
          return .table .dotted (← insert next path value entries)
        | some (.tables items) =>
          if path.isEmpty then none
          else do return .tables (← alterLast (alterOpen (insert next path value)) items)
        | some _ => none)
      table

end Table

end DomainModel.Toml
