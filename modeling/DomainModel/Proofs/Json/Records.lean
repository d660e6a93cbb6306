import DomainModel.Json.Record
import DomainModel.Proofs.Json.Basic
import DomainModel.Proofs.Json.Lookups

/-!
Records look their fields up by name: of the members of an object only those count that a field
names, wherever they stand. An array is read like an object with the names of the fields, in order.
-/

namespace DomainModel.Json

variable {σ α τ s : Type}

def Field.Finds (field : Field σ α) (lookup : String → Option σ) (value : α) : Prop :=
  match lookup field.name with
  | some source => field.read source = .ok value
  | none => field.absent = some value

theorem Field.finds_of_rel {field : Field σ α} {lookup lookup' : String → Option σ}
    {R : σ → σ → Prop} (same : Option.Rel R (lookup field.name) (lookup' field.name))
    (read : ∀ source source', R source source' →
      ∀ value, field.read source = .ok value → field.read source' = .ok value)
    (value : α) (found : field.Finds lookup value) : field.Finds lookup' value := by
  rw [Finds] at found ⊢
  generalize lookup field.name = source at same found
  generalize lookup' field.name = source' at same ⊢
  cases same with
  | none => exact found
  | some related => exact read _ _ related value found

theorem Field.Finds.read_eq_ok {field : Field σ α} {lookup : String → Option σ} {value : α}
    (found : field.Finds lookup value) {source : σ} (h : lookup field.name = some source) :
    field.read source = .ok value := by
  rw [Finds, h] at found
  exact found

theorem Field.Finds.exists_of_required {field : Field σ α} {lookup : String → Option σ} {value : α}
    (found : field.Finds lookup value) (required : field.absent = none) :
    ∃ source, lookup field.name = some source ∧ field.read source = .ok value := by
  rw [Finds, required] at found
  generalize lookup field.name = source at found ⊢
  cases source with
  | none => cases found
  | some source => exact ⟨source, rfl, found⟩

theorem Field.Finds.exists_or_absent {field : Field σ α} {lookup : String → Option σ} {value : α}
    (found : field.Finds lookup value) :
    (∃ source, lookup field.name = some source ∧ field.read source = .ok value) ∨
      field.absent = some value := by
  unfold Finds at found
  split at found
  . next source known =>
    left
    exact ⟨source, known, found⟩
  . right
    exact found

namespace Fields

def names : {τ s : Type} → Fields σ τ s → List String
  | _, _, .nil => []
  | _, _, .cons field rest => field.name :: rest.names

def Selects (lookup : String → Option σ) : {τ s : Type} → Fields σ τ s → τ → Prop
  | _, _, .nil, _ => True
  | _, _, .cons field rest, (value, values) => field.Finds lookup value ∧ rest.Selects lookup values

def Fills (lookup : String → Option σ) : {τ s : Type} → Fields σ τ s → s → s → Prop
  | _, _, .nil, _, _ => True
  | _, _, .cons field rest, (slot, slots), (slot', slots') =>
    (match lookup field.name with
    | some source => ∃ value, field.read source = .ok value ∧ slot' = some value
    | none => slot' = slot) ∧
    rest.Fills lookup slots slots'

theorem has_iff (fields : Fields σ τ s) (key : String) :
    fields.has key = true ↔ key ∈ fields.names := by
  induction fields with
  | nil => simp [has, names]
  | cons field rest ih => rw [has, names, Bool.or_eq_true, beq_iff_eq, ih, List.mem_cons, eq_comm]

theorem selects_congr (fields : Fields σ τ s) (lookup lookup' : String → Option σ)
    (same : ∀ key ∈ fields.names, lookup key = lookup' key) (values : τ) :
    fields.Selects lookup values ↔ fields.Selects lookup' values := by
  induction fields with
  | nil => rfl
  | cons field rest ih =>
    rcases values with ⟨value, values⟩
    rw [names, List.forall_mem_cons] at same
    rw [Selects, Selects, ih same.2, Field.Finds, Field.Finds, same.1]

def FoundIn (lookup lookup' : String → Option σ) : {τ s : Type} → Fields σ τ s → Prop
  | _, _, .nil => True
  | _, _, .cons field rest =>
    (∀ value, field.Finds lookup value → field.Finds lookup' value) ∧ rest.FoundIn lookup lookup'

theorem FoundIn.selects {fields : Fields σ τ s} {lookup lookup' : String → Option σ}
    (h : fields.FoundIn lookup lookup') (values : τ) (selected : fields.Selects lookup values) :
    fields.Selects lookup' values := by
  induction fields with
  | nil => trivial
  | cons field rest ih => exact ⟨h.1 _ selected.1, ih h.2 _ selected.2⟩

theorem fills_congr (fields : Fields σ τ s) (lookup lookup' : String → Option σ)
    (same : ∀ key ∈ fields.names, lookup key = lookup' key) (slots slots' : s) :
    fields.Fills lookup slots slots' ↔ fields.Fills lookup' slots slots' := by
  induction fields with
  | nil => rfl
  | cons field rest ih =>
    rcases slots with ⟨slot, slots⟩
    rcases slots' with ⟨slot', slots'⟩
    rw [names, List.forall_mem_cons] at same
    rw [Fills, Fills, ih same.2, same.1]

theorem fills_none_iff (fields : Fields σ τ s) (slots slots' : s) :
    fields.Fills (fun _ => none) slots slots' ↔ slots' = slots := by
  induction fields with
  | nil => simp [Fills]
  | cons field rest ih =>
    rcases slots with ⟨slot, slots⟩
    rcases slots' with ⟨slot', slots'⟩
    simp [Fills, ih]

-- A source that is put into its slot before the others could as well be looked up with them.
theorem fills_put_iff (fields : Fields σ τ s) (distinct : fields.names.Nodup) (key : String)
    (known : fields.has key = true) (source : σ) (lookup : String → Option σ)
    (once : lookup key = none) (slots slots' : s) :
    (∃ between, fields.put key source slots = .ok between ∧ fields.Fills lookup between slots') ↔
      fields.Fills (fun name => if name = key then some source else lookup name) slots slots' := by
  induction fields with
  | nil => cases known
  | cons field rest ih =>
    rcases slots with ⟨slot, slots⟩
    rcases slots' with ⟨slot', slots'⟩
    rw [names, List.nodup_cons] at distinct
    by_cases here : field.name = key
    . have others : ∀ name ∈ rest.names,
          lookup name = if name = key then some source else lookup name := by
        intro name mem
        rw [if_neg]
        rintro rfl
        exact distinct.1 (here ▸ mem)
      rw [put, if_pos (by simpa using here), Fills, if_pos here, ← rest.fills_congr _ _ others]
      simp only [bind_eq_ok_iff, pure_eq_ok_iff]
      constructor
      . rintro ⟨_, ⟨value, read, rfl⟩, same, filled⟩
        rw [here, once] at same
        exact ⟨⟨value, read, same⟩, filled⟩
      . rintro ⟨⟨value, read, same⟩, filled⟩
        refine ⟨_, ⟨value, read, rfl⟩, ?_, filled⟩
        rw [here, once]
        exact same
    . rw [has, Bool.or_eq_true, beq_iff_eq] at known
      rw [put, if_neg (by simpa using here), Fills, if_neg here,
        ← ih distinct.2 (known.resolve_left here)]
      simp only [bind_eq_ok_iff, pure_eq_ok_iff]
      constructor
      . rintro ⟨_, ⟨between, stored, rfl⟩, found, filled⟩
        exact ⟨found, between, stored, filled⟩
      . rintro ⟨found, between, stored, filled⟩
        exact ⟨_, ⟨between, stored, rfl⟩, found, filled⟩

theorem met_empty (fields : Fields σ τ s) (key : String) : fields.met key fields.empty = false := by
  induction fields with
  | nil => rfl
  | cons field rest ih =>
    rw [empty, met, ih]
    simp

theorem met_put (fields : Fields σ τ s) (key : String) (source : σ) (slots slots' : s)
    (stored : fields.put key source slots = .ok slots') (name : String)
    (known : fields.has name = true) :
    fields.met name slots' = (fields.met name slots || name == key) := by
  induction fields with
  | nil => cases known
  | cons field rest ih =>
    rcases slots with ⟨slot, slots⟩
    rw [put] at stored
    split at stored
    . next here =>
      simp only [bind_eq_ok_iff, pure_eq_ok_iff] at stored
      rcases stored with ⟨value, _, rfl⟩
      rw [beq_iff_eq] at here
      subst here
      by_cases found : field.name = name
      . simp [met, found]
      . have other : ¬ name = field.name := fun same => found same.symm
        simp [met, found, other]
    . next elsewhere =>
      simp only [bind_eq_ok_iff, pure_eq_ok_iff] at stored
      rcases stored with ⟨between, stored, rfl⟩
      rw [beq_iff_eq] at elsewhere
      by_cases found : field.name = name
      . subst found
        simp [met, elsewhere]
      . rw [has, Bool.or_eq_true, beq_iff_eq] at known
        simp [met, found, ih slots between stored (known.resolve_left found)]

theorem complete_cons_eq_ok_iff (field : Field σ α) (rest : Fields σ τ s) (slot : Option α)
    (slots : s) (value : α) (values : τ) :
    complete (.cons field rest) (slot, slots) = .ok (value, values) ↔
      (slot <|> field.absent) = some value ∧ rest.complete slots = .ok values := by
  rw [complete]
  cases slot <|> field.absent with
  | none => simp
  | some found =>
    simp only [bind_eq_ok_iff, pure_eq_ok_iff, Prod.mk.injEq, Option.some.injEq]
    constructor
    . rintro ⟨_, completed, same, rfl⟩
      exact ⟨same, completed⟩
    . rintro ⟨same, completed⟩
      exact ⟨values, completed, same, rfl⟩

theorem fills_complete_iff (fields : Fields σ τ s) (lookup : String → Option σ) (values : τ) :
    (∃ slots, fields.Fills lookup fields.empty slots ∧ fields.complete slots = .ok values) ↔
      fields.Selects lookup values := by
  induction fields with
  | nil => simp [Fills, Selects, complete]
  | cons field rest ih =>
    rcases values with ⟨value, values⟩
    simp only [Selects, ← ih, Field.Finds, Prod.exists, complete_cons_eq_ok_iff, empty, Fills]
    cases lookup field.name with
    | none =>
      constructor
      . rintro ⟨slot, slots, ⟨rfl, filled⟩, found, completed⟩
        exact ⟨found, slots, filled, completed⟩
      . rintro ⟨found, slots, filled, completed⟩
        exact ⟨none, slots, ⟨rfl, filled⟩, found, completed⟩
    | some source =>
      constructor
      . rintro ⟨_, slots, ⟨⟨_, read, rfl⟩, filled⟩, same, completed⟩
        cases same
        exact ⟨read, slots, filled, completed⟩
      . rintro ⟨read, slots, filled, completed⟩
        exact ⟨some value, slots, ⟨⟨value, read, rfl⟩, filled⟩, rfl, completed⟩

end Fields

namespace Record

def Once (record : Record σ α) (members : List (String × σ)) : Prop :=
  ((members.map Prod.fst).filter (record.fields.has ·)).Nodup

theorem once_cons_iff (record : Record σ α) (key : String) (source : σ)
    (members : List (String × σ)) (known : record.fields.has key = true) :
    record.Once ((key, source) :: members) ↔
      key ∉ members.map Prod.fst ∧ record.Once members := by
  rw [Once, List.map_cons, List.filter_cons, if_pos known, List.nodup_cons, List.mem_filter]
  simp [Once, known]

theorem go_eq_ok_iff (record : Record σ α) (distinct : record.fields.names.Nodup)
    (members : List (String × σ)) (slots slots' : record.s) :
    ofMembers.go record members slots = .ok slots' ↔
      record.Once members ∧
      (∀ key ∈ members.map Prod.fst,
        record.fields.has key = true → record.fields.met key slots = false) ∧
      record.fields.Fills (members.lookup ·) slots slots' := by
  -- What was met before is in its slot, so the members to come may not name it again.
  induction members generalizing slots with
  | nil =>
    have nothing := record.fields.fills_none_iff slots slots'
    simp only [ofMembers.go, Except.ok.injEq, Once, List.map_nil, List.filter_nil, List.nodup_nil,
      List.not_mem_nil, false_implies, implies_true, true_and, List.lookup_nil, nothing, eq_comm]
  | cons member members ih =>
    rcases member with ⟨key, source⟩
    rw [ofMembers.go, List.map_cons, List.forall_mem_cons]
    cases known : record.fields.has key with
    | false =>
      -- No field asks for this member.
      have others : ∀ name ∈ record.fields.names,
          List.lookup name ((key, source) :: members) = members.lookup name := by
        intro name mem
        rw [lookup_cons_eq_ite, if_neg]
        rintro rfl
        rw [← record.fields.has_iff, known] at mem
        cases mem
      rw [if_pos (by simp), ih slots, record.fields.fills_congr _ _ others]
      simp [Once, known]
    | true =>
      rw [if_neg (by simp), once_cons_iff record key source members known]
      cases met : record.fields.met key slots with
      | true => simp
      | false =>
        rw [if_neg (by simp), bind_eq_ok_iff]
        simp only [ih]
        constructor
        . rintro ⟨between, stored, once, unmet, filled⟩
          have metAfter := record.fields.met_put key source slots between stored
          have absent : key ∉ members.map Prod.fst := by
            intro mem
            have free := unmet key mem known
            simp [metAfter key known] at free
          refine ⟨⟨absent, once⟩, ⟨fun _ => trivial, ?_⟩, ?_⟩
          . intro name mem knownName
            have free := unmet name mem knownName
            rw [metAfter name knownName, Bool.or_eq_false_iff] at free
            exact free.1
          . rw [← lookup_eq_none_iff_notMem] at absent
            simp only [lookup_cons_eq_ite]
            rw [← record.fields.fills_put_iff distinct key known source _ absent]
            exact ⟨between, stored, filled⟩
        . rintro ⟨⟨absent, once⟩, ⟨_, unmet⟩, filled⟩
          simp only [lookup_cons_eq_ite] at filled
          rw [← record.fields.fills_put_iff distinct key known source _
            ((lookup_eq_none_iff_notMem key members).mpr absent)] at filled
          rcases filled with ⟨between, stored, filled⟩
          refine ⟨between, stored, once, ?_, filled⟩
          intro name mem knownName
          rw [record.fields.met_put key source slots between stored name knownName,
            unmet name mem knownName, Bool.false_or, beq_eq_false_iff_ne]
          rintro rfl
          exact absent mem

theorem ofMembers_eq_ok_iff (record : Record σ α) (distinct : record.fields.names.Nodup)
    (members : List (String × σ)) (a : α) :
    record.ofMembers members = .ok a ↔
      record.Once members ∧
      ∃ values, record.fields.Selects (members.lookup ·) values ∧ record.build values = a := by
  simp only [ofMembers, bind_eq_ok_iff, pure_eq_ok_iff, go_eq_ok_iff record distinct,
    record.fields.met_empty, implies_true, true_and, ← record.fields.fills_complete_iff]
  constructor
  . rintro ⟨slots, ⟨once, filled⟩, values, completed, rfl⟩
    exact ⟨once, values, ⟨slots, filled, completed⟩, rfl⟩
  . rintro ⟨once, values, ⟨slots, filled, completed⟩, rfl⟩
    exact ⟨slots, ⟨once, filled⟩, values, completed, rfl⟩

theorem fillItems_eq_ok_iff (record : Record σ α) (fields : Fields σ τ s)
    (distinct : fields.names.Nodup) (index : Nat) (items rest : List σ) (values : τ) :
    record.fillItems index fields items = .ok (values, rest) ↔
      fields.Selects ((fields.names.zip items).lookup ·) values ∧
      rest = items.drop fields.names.length := by
  induction fields generalizing index items rest with
  | nil => simp [fillItems, Fields.Selects, Fields.names, eq_comm]
  | cons field fields ih =>
    rcases values with ⟨value, values⟩
    rw [Fields.names, List.nodup_cons] at distinct
    cases items with
    | nil =>
      rw [fillItems, Fields.names, List.zip_nil_right, Fields.Selects, Field.Finds, List.lookup_nil]
      cases field.absent with
      | none => simp
      | some absent =>
        simp only [bind_eq_ok_iff, pure_eq_ok_iff, Prod.exists, Prod.mk.injEq, ih distinct.2,
          Option.some.injEq, List.zip_nil_right, List.drop_nil]
        constructor
        . rintro ⟨_, _, ⟨selected, rfl⟩, ⟨rfl, rfl⟩, same⟩
          exact ⟨⟨rfl, selected⟩, same.symm⟩
        . rintro ⟨⟨rfl, selected⟩, rfl⟩
          exact ⟨_, _, ⟨selected, rfl⟩, ⟨rfl, rfl⟩, rfl⟩
    | cons item items =>
      have others : ∀ name ∈ fields.names,
          ((field.name, item) :: fields.names.zip items).lookup name =
            (fields.names.zip items).lookup name := by
        intro name mem
        rw [lookup_cons_eq_ite, if_neg]
        rintro rfl
        exact distinct.1 mem
      rw [fillItems, Fields.names, List.zip_cons_cons, Fields.Selects, Field.Finds,
        lookup_cons_eq_ite, if_pos rfl, fields.selects_congr _ _ others]
      simp only [bind_eq_ok_iff, pure_eq_ok_iff, Prod.exists, Prod.mk.injEq,
        ih distinct.2, List.length_cons, List.drop_succ_cons]
      constructor
      . rintro ⟨_, read, _, _, ⟨selected, rfl⟩, ⟨rfl, rfl⟩, rfl⟩
        exact ⟨⟨read, selected⟩, rfl⟩
      . rintro ⟨⟨read, selected⟩, rfl⟩
        exact ⟨_, read, _, _, ⟨selected, rfl⟩, ⟨rfl, rfl⟩, rfl⟩

theorem map_fst_zip_sublist (names : List String) (items : List σ) :
    ((names.zip items).map Prod.fst).Sublist names := by
  induction names generalizing items with
  | nil => exact List.Sublist.refl []
  | cons name names ih =>
    cases items with
    | nil => exact List.nil_sublist _
    | cons item items => exact (ih items).cons_cons name

theorem once_zip (record : Record σ α) (distinct : record.fields.names.Nodup) (items : List σ) :
    record.Once (record.fields.names.zip items) :=
  (distinct.sublist (map_fst_zip_sublist _ items)).filter _

theorem ofItems_eq_ok_iff (record : Record σ α) (distinct : record.fields.names.Nodup)
    (items : List σ) (a : α) :
    record.ofItems items = .ok a ↔
      items.length ≤ record.fields.names.length ∧
      record.ofMembers (record.fields.names.zip items) = .ok a := by
  rw [ofMembers_eq_ok_iff record distinct]
  simp only [ofItems, bind_eq_ok_iff, Prod.exists, fillItems_eq_ok_iff record _ distinct,
    once_zip record distinct, true_and]
  constructor
  . rintro ⟨values, _, ⟨selected, rfl⟩, built⟩
    split at built
    . next whole =>
      rw [List.isEmpty_iff, List.drop_eq_nil_iff] at whole
      rw [pure_eq_ok_iff] at built
      exact ⟨whole, values, selected, built⟩
    . cases built
  . rintro ⟨whole, values, selected, built⟩
    refine ⟨values, _, ⟨selected, rfl⟩, ?_⟩
    rw [← List.drop_eq_nil_iff] at whole
    rw [whole, if_pos (by rfl), pure_eq_ok_iff]
    exact built

theorem exists_selects_of_ofValue (record : Record Value α) (distinct : record.fields.names.Nodup)
    {v : Value} {a : α} (decoded : record.ofValue v = .ok a) :
    ∃ lookup values, record.fields.Selects lookup values ∧ record.build values = a := by
  cases v with
  | object members =>
    rw [ofValue, ofMembers_eq_ok_iff record distinct] at decoded
    exact ⟨_, decoded.2⟩
  | array items =>
    rw [ofValue, ofItems_eq_ok_iff record distinct, ofMembers_eq_ok_iff record distinct] at decoded
    exact ⟨_, decoded.2.2⟩
  | null => cases decoded
  | bool b => cases decoded
  | number n => cases decoded
  | string s => cases decoded

end Record

end DomainModel.Json
