import DomainModel.Proofs.Json.Reading
import DomainModel.Proofs.Json.Records

namespace DomainModel.Json

variable {α τ s : Type}

def Items.nodes? : Items → Option (List Node)
  | .closed _ => some []
  | .broken _ => none
  | .item node _ more => return node :: (← more.nodes?)

def Members.entries? : Members → Option (List (String × Node))
  | .closed _ => some []
  | .broken _ _ => none
  | .member key node _ more => return (← key.text?, node) :: (← more.entries?)

namespace Record

theorem ofNodeMembers_eq_ok_iff (record : Record Node α) (members : Members)
    (slots slots' : record.s) :
    (∃ stop, record.ofNodeMembers members slots = .ok (slots', stop)) ↔
      ∃ entries,
        members.entries? = some entries ∧
        (∀ entry ∈ entries, record.fields.has entry.1 = false → entry.2.skip = .ok ()) ∧
        ofMembers.go record entries slots = .ok slots' := by
  cases members with
  | closed stop => simp [ofNodeMembers, Members.entries?, ofMembers.go]
  | broken flaw fault => simp [ofNodeMembers, Members.entries?]
  | member key node finish more =>
    have others := ofNodeMembers_eq_ok_iff record more
    rw [Members.entries?]
    simp only [ofNodeMembers, bind_eq_ok_iff, key_read_eq_ok_iff]
    cases key.text? with
    | none => simp
    | some name =>
      simp only [Option.some.injEq, exists_eq_left', Option.bind_eq_bind, Option.bind_some,
        Option.bind_eq_some_iff, Option.pure_def]
      cases known : record.fields.has name with
      | false =>
        -- A member that is not known is read past, which only takes that it is complete.
        simp only [Bool.not_false, if_true, bind_eq_ok_iff]
        constructor
        . rintro ⟨stop, _, skipped, filled⟩
          rcases (others slots slots').mp ⟨stop, filled⟩ with ⟨entries, found, rest, filled⟩
          refine ⟨_, ⟨entries, found, rfl⟩, ?_, ?_⟩
          . rw [List.forall_mem_cons]
            exact ⟨fun _ => skipped, rest⟩
          . rw [ofMembers.go, known]
            exact filled
        . rintro ⟨_, ⟨entries, found, rfl⟩, rest, filled⟩
          rw [List.forall_mem_cons] at rest
          rw [ofMembers.go, known] at filled
          rcases (others slots slots').mpr ⟨entries, found, rest.2, filled⟩ with ⟨stop, filled⟩
          exact ⟨stop, (), rest.1 known, filled⟩
      | true =>
        cases met : record.fields.met name slots with
        | true =>
          constructor
          . rintro ⟨stop, filled⟩
            cases filled
          . rintro ⟨_, ⟨entries, found, rfl⟩, rest, filled⟩
            rw [ofMembers.go, known, met] at filled
            cases filled
        | false =>
          simp only [Bool.not_true, Bool.false_eq_true, if_false, bind_eq_ok_iff, settle_eq_ok_iff]
          constructor
          . rintro ⟨stop, between, stored, filled⟩
            rcases (others between slots').mp ⟨stop, filled⟩ with ⟨entries, found, rest, filled⟩
            refine ⟨_, ⟨entries, found, rfl⟩, ?_, ?_⟩
            . rw [List.forall_mem_cons]
              refine ⟨fun unknown => ?_, rest⟩
              rw [known] at unknown
              cases unknown
            . rw [ofMembers.go, known, met]
              exact (bind_eq_ok_iff _ _ _).mpr ⟨between, stored, filled⟩
          . rintro ⟨_, ⟨entries, found, rfl⟩, rest, filled⟩
            rw [List.forall_mem_cons] at rest
            rw [ofMembers.go, known, met] at filled
            rcases (bind_eq_ok_iff _ _ _).mp filled with ⟨between, stored, filled⟩
            rcases (others between slots').mpr ⟨entries, found, rest.2, filled⟩ with ⟨stop, filled⟩
            exact ⟨stop, between, stored, filled⟩
termination_by structural members

theorem ofNode_object_eq_ok_iff (record : Record Node α) (start : Nat) (members : Members) (a : α) :
    record.ofNode (.object start members) = .ok a ↔
      ∃ entries,
        members.entries? = some entries ∧
        (∀ entry ∈ entries, record.fields.has entry.1 = false → entry.2.skip = .ok ()) ∧
        record.ofMembers entries = .ok a := by
  have inner := record.ofNodeMembers_eq_ok_iff members record.fields.empty
  simp only [ofNode, ofMembers, bind_eq_ok_iff, pure_eq_ok_iff, Prod.exists, settle_eq_ok_iff]
  constructor
  . rintro ⟨slots, stop, filled, values, completed, built⟩
    rcases (inner slots).mp ⟨stop, filled⟩ with ⟨entries, found, skipped, filled⟩
    exact ⟨entries, found, skipped, slots, filled, values, completed, built⟩
  . rintro ⟨entries, found, skipped, slots, filled, values, completed, built⟩
    rcases (inner slots).mpr ⟨entries, found, skipped, filled⟩ with ⟨stop, filled⟩
    exact ⟨slots, stop, filled, values, completed, built⟩

theorem fillNodeItems_eq_ok_iff (record : Record Node α) (fields : Fields Node τ s) (index : Nat)
    (items : Items) (values : τ) :
    (∃ stop, record.fillNodeItems index fields items = .ok (values, .closed stop)) ↔
      ∃ nodes,
        items.nodes? = some nodes ∧ record.fillItems index fields nodes = .ok (values, []) := by
  induction fields generalizing index items with
  | nil =>
    cases items with
    | closed stop => simp [fillNodeItems, fillItems, Items.nodes?]
    | broken fault => simp [fillNodeItems, Items.nodes?]
    | item node finish more =>
      constructor
      . rintro ⟨stop, filled⟩
        cases filled
      . rintro ⟨nodes, found, filled⟩
        cases filled
        rw [Items.nodes?] at found
        cases others : more.nodes? with
        | none =>
          rw [others] at found
          cases found
        | some nodes =>
          rw [others] at found
          cases found
  | cons field fields ih =>
    rcases values with ⟨value, values⟩
    cases items with
    | broken fault => simp [fillNodeItems, Items.nodes?]
    | closed stop =>
      have more := ih (index + 1) (.closed stop) values
      simp only [Items.nodes?, Option.some.injEq, exists_eq_left'] at more ⊢
      rw [fillItems]
      simp only [fillNodeItems]
      cases field.absent with
      | none =>
        constructor
        . rintro ⟨_, filled⟩
          cases filled
        . intro filled
          cases filled
      | some absent =>
        simp only [bind_eq_ok_iff, pure_eq_ok_iff, Prod.exists, Prod.mk.injEq]
        constructor
        . rintro ⟨last, values, rest, filled, ⟨rfl, rfl⟩, rfl⟩
          exact ⟨values, [], more.mp ⟨_, filled⟩, ⟨rfl, rfl⟩, rfl⟩
        . rintro ⟨values, _, filled, ⟨rfl, rfl⟩, rfl⟩
          rcases more.mpr filled with ⟨last, filled⟩
          exact ⟨last, values, _, filled, ⟨rfl, rfl⟩, rfl⟩
    | item node finish more =>
      have others := ih (index + 1) more values
      simp only [fillNodeItems, bind_eq_ok_iff, pure_eq_ok_iff, Prod.exists, Prod.mk.injEq,
        settle_eq_ok_iff, Items.nodes?, Option.bind_eq_bind, Option.bind_eq_some_iff,
        Option.pure_def, Option.some.injEq]
      constructor
      . rintro ⟨stop, first, read, values, _, filled, ⟨rfl, rfl⟩, rfl⟩
        rcases others.mp ⟨stop, filled⟩ with ⟨nodes, found, filled⟩
        refine ⟨_, ⟨nodes, found, rfl⟩, ?_⟩
        simp only [fillItems, bind_eq_ok_iff, pure_eq_ok_iff, Prod.exists, Prod.mk.injEq]
        exact ⟨first, read, values, [], filled, ⟨rfl, rfl⟩, rfl⟩
      . rintro ⟨_, ⟨nodes, found, rfl⟩, filled⟩
        simp only [fillItems, bind_eq_ok_iff, pure_eq_ok_iff, Prod.exists, Prod.mk.injEq] at filled
        rcases filled with ⟨first, read, values, _, filled, ⟨rfl, rfl⟩, rfl⟩
        rcases others.mpr ⟨nodes, found, filled⟩ with ⟨stop, filled⟩
        exact ⟨stop, first, read, values, _, filled, ⟨rfl, rfl⟩, rfl⟩

theorem ofNode_array_eq_ok_iff (record : Record Node α) (start : Nat) (items : Items) (a : α) :
    record.ofNode (.array start items) = .ok a ↔
      ∃ nodes, items.nodes? = some nodes ∧ record.ofItems nodes = .ok a := by
  have inner := record.fillNodeItems_eq_ok_iff record.fields 0 items
  simp only [ofNode, ofItems, bind_eq_ok_iff, Prod.exists]
  constructor
  . rintro ⟨values, rest, filled, built⟩
    cases rest with
    | closed stop =>
      rcases (inner values).mp ⟨stop, filled⟩ with ⟨nodes, found, filled⟩
      exact ⟨nodes, found, values, [], filled, built⟩
    | broken fault => cases built
    | item node finish more => cases built
  . rintro ⟨nodes, found, values, rest, filled, built⟩
    cases rest with
    | nil =>
      rcases (inner values).mpr ⟨nodes, found, filled⟩ with ⟨stop, filled⟩
      exact ⟨values, _, filled, built⟩
    | cons node rest => cases built

end Record

namespace Term

def MeansOr (means : Term → α → Prop) (absent : Option α) : Option Term → α → Prop
  | some x, a => means x a
  | none, a => absent = some a

end Term

theorem Items.terms?_eq_some_iff (items : Items) (xs : List Term) :
    items.terms? = some xs ↔
      ∃ nodes,
        items.nodes? = some nodes ∧ List.Forall₂ (fun node x => node.term? = some x) nodes xs := by
  cases items with
  | closed stop => simp [Items.terms?, Items.nodes?, eq_comm]
  | broken fault => simp [Items.terms?, Items.nodes?]
  | item node finish more =>
    simp only [Items.terms?, Items.nodes?, Option.bind_eq_bind, Option.bind_eq_some_iff,
      Option.pure_def, Option.some.injEq, more.terms?_eq_some_iff]
    constructor
    . rintro ⟨x, said, xs, ⟨nodes, found, all⟩, rfl⟩
      exact ⟨_, ⟨nodes, found, rfl⟩, .cons said all⟩
    . rintro ⟨_, ⟨nodes, found, rfl⟩, all⟩
      cases all with
      | cons said all => exact ⟨_, said, _, ⟨nodes, found, all⟩, rfl⟩
termination_by structural items

def EntriesSay : List (String × Node) → List (String × Term) → Prop :=
  Matched fun node x => node.term? = some x

theorem Members.terms?_eq_some_iff (members : Members) (said : List (String × Term)) :
    members.terms? = some (said.map fun member => (some member.1, member.2)) ↔
      ∃ entries, members.entries? = some entries ∧ EntriesSay entries said := by
  cases members with
  | closed stop =>
    cases said with
    | nil => simp [Members.terms?, Members.entries?, EntriesSay, Matched]
    | cons member said => simp [Members.terms?, Members.entries?, EntriesSay, Matched]
  | broken flaw fault => simp [Members.terms?, Members.entries?]
  | member key node finish more =>
    have others := more.terms?_eq_some_iff
    simp only [Members.terms?, Members.entries?, Option.bind_eq_bind, Option.bind_eq_some_iff,
      Option.pure_def, Option.some.injEq]
    constructor
    . rintro ⟨x, first, xs, rest, same⟩
      cases said with
      | nil => cases same
      | cons member said =>
        simp only [List.map_cons, List.cons.injEq, Prod.mk.injEq] at same
        rcases same with ⟨⟨named, rfl⟩, rfl⟩
        rcases (others said).mp rest with ⟨entries, found, all⟩
        exact ⟨_, ⟨member.1, named, entries, found, rfl⟩, .cons ⟨rfl, first⟩ all⟩
    . rintro ⟨_, ⟨name, named, entries, found, rfl⟩, all⟩
      cases all with
      | @cons _ member _ said first all =>
        rcases first with ⟨rfl, first⟩
        exact ⟨_, first, _, (others said).mpr ⟨entries, found, all⟩, by rw [List.map_cons, named]⟩
termination_by structural members

theorem EntriesSay.finds_iff {entries : List (String × Node)} {members : List (String × Term)}
    (h : EntriesSay entries members) (field : Field Node α) {means : Term → α → Prop}
    (reads : ReadsAs field.read means) (value : α) :
    field.Finds (entries.lookup ·) value ↔
      Term.MeansOr means field.absent (members.lookup field.name) value := by
  have same := h.lookup field.name
  rw [Field.Finds]
  generalize entries.lookup field.name = node at same ⊢
  generalize members.lookup field.name = x at same ⊢
  cases same with
  | none => rfl
  | @some node x said =>
    change field.read node = .ok value ↔ means x value
    rw [reads node value, said]
    simp

theorem exists_terms (nodes : List Node) (complete : ∀ node ∈ nodes, node.term?.isSome = true) :
    ∃ xs, List.Forall₂ (fun node x => node.term? = some x) nodes xs := by
  induction nodes with
  | nil => exact ⟨[], .nil⟩
  | cons node nodes ih =>
    rw [List.forall_mem_cons, Option.isSome_iff_exists] at complete
    rcases complete with ⟨⟨x, said⟩, complete⟩
    rcases ih complete with ⟨xs, all⟩
    exact ⟨x :: xs, .cons said all⟩

def Fields.ReadTerms : {τ s : Type} → Fields Node τ s → Prop
  | _, _, .nil => True
  | _, _, .cons field rest =>
    (∀ node a, field.read node = .ok a → node.term?.isSome = true) ∧ rest.ReadTerms

theorem ReadsAs.isSome {read : Node → Except Fault α} {means : Term → α → Prop}
    (h : ReadsAs read means) (node : Node) (a : α) (done : read node = .ok a) :
    node.term?.isSome = true := by
  rw [h node a] at done
  rcases done with ⟨x, said, _⟩
  rw [said]
  rfl

theorem Fields.isSome_of_put (fields : Fields Node τ s) (complete : fields.ReadTerms) (key : String)
    (known : fields.has key = true) (node : Node) (slots slots' : s)
    (stored : fields.put key node slots = .ok slots') : node.term?.isSome = true := by
  induction fields with
  | nil => cases known
  | cons field rest ih =>
    rcases slots with ⟨slot, slots⟩
    rw [put] at stored
    split at stored
    . rw [bind_eq_ok_iff] at stored
      rcases stored with ⟨value, read, _⟩
      exact complete.1 node value read
    . next elsewhere =>
      rw [bind_eq_ok_iff] at stored
      rcases stored with ⟨between, stored, _⟩
      rw [has, Bool.or_eq_true] at known
      exact ih complete.2 (known.resolve_left elsewhere) slots between stored

theorem Record.isSome_of_go (record : Record Node α) (complete : record.fields.ReadTerms)
    (entries : List (String × Node)) (slots slots' : record.s)
    (filled : ofMembers.go record entries slots = .ok slots') :
    ∀ entry ∈ entries, record.fields.has entry.1 = true → entry.2.term?.isSome = true := by
  induction entries generalizing slots with
  | nil => simp
  | cons entry entries ih =>
    rcases entry with ⟨key, node⟩
    rw [ofMembers.go] at filled
    rw [List.forall_mem_cons]
    split at filled
    . next unknown =>
      refine ⟨fun known => ?_, ih slots filled⟩
      simp [known] at unknown
    . next known =>
      split at filled
      . cases filled
      . rw [bind_eq_ok_iff] at filled
        rcases filled with ⟨between, stored, filled⟩
        refine ⟨fun known => ?_, ih between filled⟩
        exact record.fields.isSome_of_put complete key known node slots between stored

theorem Record.isSome_of_ofMembers (record : Record Node α) (complete : record.fields.ReadTerms)
    (entries : List (String × Node)) (a : α) (read : record.ofMembers entries = .ok a) :
    ∀ entry ∈ entries, record.fields.has entry.1 = true → entry.2.term?.isSome = true := by
  rw [ofMembers, bind_eq_ok_iff] at read
  rcases read with ⟨slots, filled, _⟩
  exact record.isSome_of_go complete entries _ slots filled

/--
What a record means that has fields of these names: they are looked up in an object, where none of
them is repeated, or come first in an array, in order.
-/
inductive Term.RecordMeans (names : List String) (means : List (String × Term) → α → Prop) :
    Term → α → Prop where
  | object {members : List (String × Term)} {a : α}
      (once : ∀ name ∈ names, (members.map Prod.fst).count name ≤ 1) (h : means members a) :
      RecordMeans names means (.named members) a
  | array {items : List Term} {a : α} (short : items.length ≤ names.length)
      (h : means (names.zip items) a) : RecordMeans names means (.array items) a

theorem Term.named_injective {members others : List (String × Term)}
    (same : named members = named others) : members = others := by
  have injective : Function.Injective fun member : String × Term => (some member.1, member.2) := by
    rintro ⟨name, x⟩ ⟨name', x'⟩ same
    cases same
    rfl
  exact List.map_injective_iff.mpr injective (Term.object.inj same)

theorem Term.recordMeans_named_iff (names : List String) (means : List (String × Term) → α → Prop)
    (members : List (String × Term)) (a : α) :
    RecordMeans names means (.named members) a ↔
      (∀ name ∈ names, (members.map Prod.fst).count name ≤ 1) ∧ means members a := by
  constructor
  . generalize same : named members = x
    intro h
    cases h with
    | object once h =>
      rw [named_injective same]
      exact ⟨once, h⟩
    | array short h => cases same
  . rintro ⟨once, h⟩
    exact .object once h

theorem Node.eq_object_of_term? {node : Node} {members : List (Option String × Term)}
    (said : node.term? = some (.object members)) :
    ∃ start inner, node = .object start inner ∧ inner.terms? = some members := by
  cases node with
  | object start inner => exact ⟨start, inner, rfl, by simpa [Node.term?] using said⟩
  | array start items => simp [Node.term?] at said
  | null _ _ => cases said
  | bool _ _ _ => cases said
  | number _ _ => cases said
  | string _ _ _ _ => cases said
  | brokenString _ _ _ => cases said
  | broken _ _ => cases said

theorem Node.eq_array_of_term? {node : Node} {items : List Term}
    (said : node.term? = some (.array items)) :
    ∃ start inner, node = .array start inner ∧ inner.terms? = some items := by
  cases node with
  | array start inner => exact ⟨start, inner, rfl, by simpa [Node.term?] using said⟩
  | object start members => simp [Node.term?] at said
  | null _ _ => cases said
  | bool _ _ _ => cases said
  | number _ _ => cases said
  | string _ _ _ _ => cases said
  | brokenString _ _ _ => cases said
  | broken _ _ => cases said

theorem Record.readsAs_ofNode (record : Record Node α) (distinct : record.fields.names.Nodup)
    (complete : record.fields.ReadTerms) (means : List (String × Term) → α → Prop)
    (h : ∀ entries members, EntriesSay entries members → ∀ a,
      (∃ values, record.fields.Selects (entries.lookup ·) values ∧ record.build values = a) ↔
        means members a) :
    ReadsAs record.ofNode (Term.RecordMeans record.fields.names means) := by
  have byName (entries : List (String × Node)) (members : List (String × Term))
      (said : EntriesSay entries members) (a : α) :
      record.ofMembers entries = .ok a ↔
        (∀ name ∈ record.fields.names, (members.map Prod.fst).count name ≤ 1) ∧
        means members a := by
    rw [ofMembers_eq_ok_iff record distinct, Once, nodup_filter_iff, Matched.map_fst said,
      h entries members said]
    simp only [record.fields.has_iff]
  intro node a
  constructor
  . intro read
    cases node with
    | object start inner =>
      rw [ofNode_object_eq_ok_iff] at read
      rcases read with ⟨entries, found, skipped, read⟩
      have whole : ∀ entry ∈ entries, ∃ x, entry.2.term? = some x := by
        intro entry mem
        rw [← Option.isSome_iff_exists]
        cases known : record.fields.has entry.1 with
        | true => exact record.isSome_of_ofMembers complete entries a read entry mem known
        | false => exact (Node.skip_eq_ok_iff entry.2).mp (skipped entry mem known)
      rcases Matched.exists_of_forall (R := fun node x => node.term? = some x) entries whole with
        ⟨members, all⟩
      have said := (inner.terms?_eq_some_iff members).mpr ⟨entries, found, all⟩
      rw [byName entries members all] at read
      refine ⟨.named members, ?_, .object read.1 read.2⟩
      rw [Node.term?, said]
      rfl
    | array start inner =>
      rw [ofNode_array_eq_ok_iff] at read
      rcases read with ⟨nodes, found, read⟩
      rw [ofItems_eq_ok_iff record distinct] at read
      rcases read with ⟨short, read⟩
      have whole : ∀ node ∈ nodes, node.term?.isSome = true := by
        intro node mem
        rw [← List.map_snd_zip short, List.mem_map] at mem
        rcases mem with ⟨⟨name, _⟩, mem, rfl⟩
        have known := (record.fields.has_iff name).mpr (List.of_mem_zip mem).1
        exact record.isSome_of_ofMembers complete _ a read _ mem known
      rcases exists_terms nodes whole with ⟨items, all⟩
      have named := Matched.zip record.fields.names all
      have inside := (inner.terms?_eq_some_iff items).mpr ⟨nodes, found, all⟩
      rw [byName _ _ named] at read
      rw [all.length_eq] at short
      refine ⟨.array items, ?_, .array short read.2⟩
      rw [Node.term?, inside]
      rfl
    | null start stop => cases read
    | bool start stop b => cases read
    | number start literal => cases read
    | string start stop text flaw => cases read
    | brokenString start flaw fault => cases read
    | broken start fault => cases read
  . rintro ⟨x, said, meant⟩
    cases meant with
    | @object members _ once meant =>
      rcases Node.eq_object_of_term? said with ⟨start, inner, rfl, inside⟩
      rw [inner.terms?_eq_some_iff] at inside
      rcases inside with ⟨entries, found, all⟩
      rw [ofNode_object_eq_ok_iff]
      refine ⟨entries, found, ?_, ?_⟩
      . intro entry mem _
        rw [Node.skip_eq_ok_iff, Option.isSome_iff_exists]
        exact Matched.exists_of_mem all entry mem
      . rw [byName entries members all]
        exact ⟨once, meant⟩
    | @array items _ short meant =>
      rcases Node.eq_array_of_term? said with ⟨start, inner, rfl, inside⟩
      rw [inner.terms?_eq_some_iff] at inside
      rcases inside with ⟨nodes, found, all⟩
      have named := Matched.zip record.fields.names all
      rw [ofNode_array_eq_ok_iff]
      refine ⟨nodes, found, ?_⟩
      rw [ofItems_eq_ok_iff record distinct, byName _ _ named, all.length_eq]
      refine ⟨short, ?_, meant⟩
      intro name _
      exact List.nodup_iff_count_le_one.mp (distinct.sublist (map_fst_zip_sublist _ items)) name

end DomainModel.Json
