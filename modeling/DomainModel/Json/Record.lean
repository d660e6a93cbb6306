import DomainModel.Json.Read

/-!
Records: values with named fields. A record is described once, by its fields in order, and read
from objects, by name, as well as from arrays, by position; from the nodes of a text, with the
places of faults, as well as from plain values.
-/

namespace DomainModel.Json

structure Field (σ α : Type) where
  name : String
  read : σ → Except Fault α
  absent : Option α := none

/--
The fields of a record. Their values, in order, make up a `τ`; the values met so far are a `s`, with
a place for each field.
-/
inductive Fields (σ : Type) : Type → Type → Type 1
  | nil : Fields σ Unit Unit
  | cons {α τ s : Type} (field : Field σ α) (rest : Fields σ τ s) :
      Fields σ (α × τ) (Option α × s)

structure Record (σ α : Type) where
  name : String
  {τ s : Type}
  fields : Fields σ τ s
  build : τ → α

namespace Fields

variable {σ : Type}

def count : {τ s : Type} → Fields σ τ s → Nat
  | _, _, .nil => 0
  | _, _, .cons _ rest => rest.count + 1

def empty : {τ s : Type} → Fields σ τ s → s
  | _, _, .nil => ()
  | _, _, .cons _ rest => (none, rest.empty)

def has (key : String) : {τ s : Type} → Fields σ τ s → Bool
  | _, _, .nil => false
  | _, _, .cons field rest => field.name == key || rest.has key

def met (key : String) : {τ s : Type} → Fields σ τ s → s → Bool
  | _, _, .nil, _ => false
  | _, _, .cons field rest, (slot, slots) =>
    if field.name == key then slot.isSome else rest.met key slots

def put (key : String) (source : σ) : {τ s : Type} → Fields σ τ s → s → Except Fault s
  | _, _, .nil, slots => .ok slots
  | _, _, .cons field rest, (slot, slots) =>
    if field.name == key then return (some (← field.read source), slots)
    else return (slot, ← rest.put key source slots)

def complete : {τ s : Type} → Fields σ τ s → s → Except Fault τ
  | _, _, .nil, _ => .ok ()
  | _, _, .cons field rest, (slot, slots) =>
    match slot <|> field.absent with
    | none => .error { cause := .missingField field.name }
    | some value => return (value, ← rest.complete slots)

end Fields

namespace Record

variable {σ α : Type}

def lengthMessage (record : Record σ α) : String :=
  let count := record.fields.count
  "struct " ++ record.name ++ " with " ++ toString count ++
    (if count = 1 then " element" else " elements")

def ofMembers (record : Record σ α) (members : List (String × σ)) : Except Fault α := do
  let slots ← go members record.fields.empty
  return record.build (← record.fields.complete slots)
where
  go : List (String × σ) → record.s → Except Fault record.s
    | [], slots => .ok slots
    | (key, source) :: members, slots =>
      if !record.fields.has key then go members slots
      else if record.fields.met key slots then .error { cause := .duplicateField key }
      else do
        let slots ← record.fields.put key source slots
        go members slots

def fillItems (record : Record σ α) (index : Nat) :
    {τ s : Type} → Fields σ τ s → List σ → Except Fault (τ × List σ)
  | _, _, .nil, items => .ok ((), items)
  | _, _, .cons field rest, [] => do
    match field.absent with
    | none => throw { cause := .invalidLength index record.lengthMessage }
    | some value =>
      let (values, items) ← record.fillItems (index + 1) rest []
      return ((value, values), items)
  | _, _, .cons field rest, item :: items => do
    let value ← field.read item
    let (values, items) ← record.fillItems (index + 1) rest items
    return ((value, values), items)

def ofItems (record : Record σ α) (items : List σ) : Except Fault α := do
  let (values, rest) ← record.fillItems 0 record.fields items
  if rest.isEmpty then return record.build values
  else
    let count := record.fields.count
    let expected := toString count ++
      (if count = 1 then " element in sequence" else " elements in sequence")
    throw { cause := .invalidLength (count + rest.length) expected }

def ofValue (record : Record Value α) : Value → Except Fault α
  | .object members => record.ofMembers members
  | .array items => record.ofItems items
  | value => .error (value.mismatch ("struct " ++ record.name))

def ofNodeMembers (record : Record Node α) :
    Members → record.s → Except Fault (record.s × Nat)
  | .closed stop, slots => .ok (slots, stop)
  | .broken flaw fault, _ => .error (flaw.getD fault)
  | .member key node finish more, slots => do
    let name ← key.read
    if !record.fields.has name then
      node.skip
      record.ofNodeMembers more slots
    else if record.fields.met name slots then
      throw (.atOffset key.finish (.duplicateField name))
    else
      let slots ← settle finish (record.fields.put name node slots)
      record.ofNodeMembers more slots

def fillNodeItems (record : Record Node α) (index : Nat) :
    {τ s : Type} → Fields Node τ s → Items → Except Fault (τ × Items)
  | _, _, .nil, items => .ok ((), items)
  | _, _, .cons _ _, .broken fault => .error fault
  | _, _, .cons field rest, .closed stop => do
    match field.absent with
    | none => throw (.atOffset stop (.invalidLength index record.lengthMessage))
    | some value =>
      let (values, items) ← record.fillNodeItems (index + 1) rest (.closed stop)
      return ((value, values), items)
  | _, _, .cons field rest, .item node finish more => do
    let value ← settle finish (field.read node)
    let (values, items) ← record.fillNodeItems (index + 1) rest more
    return ((value, values), items)

def ofNode (record : Record Node α) : Node → Except Fault α
  | .object _ members => do
    let (slots, stop) ← record.ofNodeMembers members record.fields.empty
    return record.build (← settle stop (record.fields.complete slots))
  | .array _ items => do
    let (values, rest) ← record.fillNodeItems 0 record.fields items
    match rest with
    | .closed _ => return record.build values
    | .broken fault => throw fault.surplus
    | .item node _ _ => throw (.atOffset (node.start + 1) .trailingCharacters)
  | node => .error (node.mismatch ("struct " ++ record.name))

end Record

end DomainModel.Json
