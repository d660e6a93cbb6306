import DomainModel.Proofs.Document.Reading

/-!
The shape of the texts that are read as documents. Every record stands as an object, with its parts
by name, or as an array, with its parts in order; only inside packages may a tag be a number.
-/

namespace DomainModel

open Json (Field Record Term Value Matched bind_eq_ok_iff pure_eq_ok_iff mapM_eq_ok_iff)

namespace Json.Term

/--
The parts of a record that has these names: the members of an object, where none of the names is
repeated, or the items of an array, which stand for the names in order.
-/
inductive HasParts (names : List String) : Term → List (String × Term) → Prop where
  | object {members : List (String × Term)}
      (once : ∀ name ∈ names, (members.map Prod.fst).count name ≤ 1) :
      HasParts names (.named members) members
  | array {items : List Term} (short : items.length ≤ names.length) :
      HasParts names (.array items) (names.zip items)

def IsReference (x : Term) : Prop := ∃ parts, x.HasParts ["$ref", "$refText", "$error"] parts

def IsFeature (x : Term) : Prop :=
  ∃ parts y,
    x.HasParts ["name", "type", "many"] parts ∧
    parts.lookup "type" = some y ∧ y.IsReference

def IsTag (packaged : Bool) (x : Term) (kind : ElementKind) : Prop :=
  x.IsText kind.node.name ∨
  packaged = true ∧ ∃ n : Nat, x = .number (some (.integer n)) ∧ ElementKind.all[n]? = some kind

def IsTagged (packaged : Bool) (x : Term) (kind : ElementKind) (parts : List (String × Term)) :
    Prop :=
  x.HasParts (Element.tagName :: (Element.record kind).fields.names) parts ∧
  ∃ tag, parts.lookup Element.tagName = some tag ∧ tag.IsTag packaged kind

inductive IsElement : Bool → Term → Prop where
  | dataType {packaged : Bool} {x : Term} {parts : List (String × Term)}
      (tagged : x.IsTagged packaged .dataType parts) : IsElement packaged x
  | entity {packaged : Bool} {x : Term} {parts : List (String × Term)}
      (tagged : x.IsTagged packaged .entity parts)
      (features : ∀ y, parts.lookup "features" = some y →
        ∃ items, y = .array items ∧ ∀ z ∈ items, z.IsFeature)
      (superType : ∀ y, parts.lookup "superType" = some y → y = .null ∨ y.IsReference) :
      IsElement packaged x
  | package {packaged : Bool} {x : Term} {parts : List (String × Term)} {items : List Term}
      (tagged : x.IsTagged packaged .package parts)
      (elements : parts.lookup "elements" = some (.array items))
      (inside : ∀ y ∈ items, IsElement true y) : IsElement packaged x
  | emptyPackage {packaged : Bool} {x : Term} {parts : List (String × Term)}
      (tagged : x.IsTagged packaged .package parts) (elements : parts.lookup "elements" = none) :
      IsElement packaged x
  | person {packaged : Bool} {x : Term} {parts : List (String × Term)}
      (tagged : x.IsTagged packaged .person parts) : IsElement packaged x
  | greeting {packaged : Bool} {x y : Term} {parts : List (String × Term)}
      (tagged : x.IsTagged packaged .greeting parts)
      (person : parts.lookup "person" = some y) (reference : y.IsReference) : IsElement packaged x

def IsDocument (x : Term) : Prop :=
  ∃ parts tag items,
    x.HasParts ["$type", "name", "elements"] parts ∧
    parts.lookup "$type" = some tag ∧ tag.IsText NodeKind.domainmodel.name ∧
    parts.lookup "elements" = some (.array items) ∧ ∀ y ∈ items, y.IsElement false

end Json.Term

theorem exists_of_forall₂_of_mem {α β γ : Type} {P : α → β → Prop} {Q : β → γ → Prop}
    {as : List α} {bs : List β} {cs : List γ} (all : List.Forall₂ P as bs)
    (all' : List.Forall₂ Q bs cs) : ∀ a ∈ as, ∃ b c, P a b ∧ Q b c := by
  induction all generalizing cs with
  | nil => simp
  | cons first _ ih =>
    cases all' with
    | cons first' all' =>
      rw [List.forall_mem_cons]
      exact ⟨⟨_, _, first, first'⟩, ih all'⟩

structure ReadFrom (limit : Nat) (names : List String) (x : Term) (parts : List (String × Term))
    (values : List (String × Value)) : Prop where
  shape : x.HasParts names parts
  matched : Matched (fun y v => y.value? limit = some v) parts values

section ReadFrom

variable {limit : Nat} {names : List String} {x : Term} {parts : List (String × Term)}
  {values : List (String × Value)} {σ α : Type} {field : Field σ α} {lookup : String → Option σ}
  {f : Value → σ} {a : α}

theorem ReadFrom.exists_of_lookup (h : ReadFrom limit names x parts values)
    (same : lookup field.name = (values.lookup field.name).map f) (found : field.Finds lookup a)
    {y : Term} (there : parts.lookup field.name = some y) :
    ∃ v, y.value? limit = some v ∧ field.read (f v) = .ok a := by
  rcases h.matched.exists_of_lookup_left there with ⟨v, there, read⟩
  rw [there] at same
  exact ⟨v, read, found.read_eq_ok same⟩

theorem ReadFrom.exists_of_required (h : ReadFrom limit names x parts values)
    (same : lookup field.name = (values.lookup field.name).map f) (found : field.Finds lookup a)
    (required : field.absent = none) :
    ∃ y v, parts.lookup field.name = some y ∧ y.value? limit = some v ∧
      field.read (f v) = .ok a := by
  rcases found.exists_of_required required with ⟨source, there, decoded⟩
  rw [same, Option.map_eq_some_iff] at there
  rcases there with ⟨v, there, rfl⟩
  rcases h.matched.exists_of_lookup_right there with ⟨y, there, read⟩
  exact ⟨y, v, there, read, decoded⟩

end ReadFrom

theorem exists_readFrom_array {names : List String} {limit : Nat} {x : Term} {vs : List Value}
    (read : x.value? limit = some (.array vs)) (short : vs.length ≤ names.length) :
    ∃ l parts, limit = l + 1 ∧ ReadFrom l names x parts (names.zip vs) := by
  rcases Term.gives_of_value? read with ⟨l, items, rfl, rfl, all⟩
  rw [← all.length_eq] at short
  exact ⟨l, _, rfl, .array short, Matched.zip names all⟩

theorem exists_readFrom_object {names : List String} {limit : Nat} {x : Term}
    {vs : List (String × Value)} (read : x.value? limit = some (.object vs))
    (once : ∀ name ∈ names, (vs.map Prod.fst).count name ≤ 1) :
    ∃ l parts, limit = l + 1 ∧ ReadFrom l names x parts vs := by
  rcases Term.gives_of_value? read with ⟨l, members, rfl, rfl, all⟩
  rw [← all.map_fst] at once
  exact ⟨l, members, rfl, .object once, all⟩

theorem exists_readFrom {α : Type} (record : Record Value α) (distinct : record.fields.names.Nodup)
    {limit : Nat} {x : Term} {v : Value} (read : x.value? limit = some v) {a : α}
    (decoded : record.ofValue v = .ok a) :
    ∃ l parts values selected,
      ReadFrom l record.fields.names x parts values ∧
      record.fields.Selects (values.lookup ·) selected := by
  cases v with
  | object vs =>
    rw [Record.ofValue, Record.ofMembers_eq_ok_iff _ distinct, Record.Once,
      Json.nodup_filter_iff] at decoded
    rcases decoded with ⟨once, selected, found, _⟩
    have once : ∀ name ∈ record.fields.names, (vs.map Prod.fst).count name ≤ 1 :=
      fun name mem => once name ((record.fields.has_iff name).mpr mem)
    rcases exists_readFrom_object read once with ⟨l, parts, _, origin⟩
    exact ⟨l, parts, vs, selected, origin, found⟩
  | array vs =>
    rw [Record.ofValue, Record.ofItems_eq_ok_iff _ distinct,
      Record.ofMembers_eq_ok_iff _ distinct] at decoded
    rcases decoded with ⟨short, _, selected, found, _⟩
    rcases exists_readFrom_array read short with ⟨l, parts, _, origin⟩
    exact ⟨l, parts, _, selected, origin, found⟩
  | null => cases decoded
  | bool b => cases decoded
  | number n => cases decoded
  | string s => cases decoded

theorem isReference_of_ofValue {limit : Nat} {x : Term} {v : Value} {r : Reference}
    (read : x.value? limit = some v) (decoded : Reference.ofValue v = .ok r) : x.IsReference := by
  rcases exists_readFrom (Reference.record (Value.optional Value.text)) (by decide) read decoded
    with ⟨_, parts, _, _, origin, _⟩
  exact ⟨parts, origin.shape⟩

theorem isReference_of_optional {limit : Nat} {x : Term} {v : Value} {r : Option Reference}
    (read : x.value? limit = some v) (decoded : v.optional Reference.ofValue = .ok r) :
    x = .null ∨ x.IsReference := by
  unfold Value.optional at decoded
  split at decoded
  . exact .inl (Term.gives_of_value? read)
  . rw [bind_eq_ok_iff] at decoded
    rcases decoded with ⟨r, decoded, _⟩
    exact .inr (isReference_of_ofValue read decoded)

theorem isFeature_of_ofValue {limit : Nat} {x : Term} {v : Value} {f : Feature}
    (read : x.value? limit = some v) (decoded : Feature.record.ofValue v = .ok f) :
    x.IsFeature := by
  rcases exists_readFrom Feature.record (by decide) read decoded with
    ⟨_, parts, values, _, origin, _, type, _⟩
  rcases origin.exists_of_required (f := id) (by simp) type rfl with ⟨y, w, there, read, decoded⟩
  exact ⟨parts, y, origin.shape, there, isReference_of_ofValue read decoded⟩

theorem exists_items_of_list {α : Type} {limit : Nat} {x : Term} {v : Value}
    (read : x.value? limit = some v) {decode : Value → Except Json.Fault α} {as : List α}
    (decoded : v.list decode = .ok as) :
    ∃ l items,
      limit = l + 1 ∧ x = .array items ∧
      ∀ y ∈ items, ∃ w a, y.value? l = some w ∧ decode w = .ok a := by
  cases v with
  | array vs =>
    rw [Value.list, mapM_eq_ok_iff] at decoded
    rcases Term.gives_of_value? read with ⟨l, items, rfl, rfl, all⟩
    exact ⟨l, items, rfl, rfl, exists_of_forall₂_of_mem all decoded⟩
  | object vs => cases decoded
  | null => cases decoded
  | bool b => cases decoded
  | number n => cases decoded
  | string s => cases decoded

namespace Element

theorem exists_readFrom_of_ofValue {limit : Nat} {x : Term} {v : Value} {e : Element}
    (read : x.value? limit = some v) (decoded : ofValue v = .ok e) :
    ∃ l kind parts values tag,
      limit = l + 1 ∧
      ReadFrom l (tagName :: (record kind).fields.names) x parts values ∧
      values.lookup tagName = some tag ∧
      ElementKind.ofValue tag = .ok kind ∧
      (HasTextTag v → ∃ s, tag = .string s) ∧
      Selected kind (values.lookup ·) e := by
  cases v with
  | object vs =>
    rw [ofValue_object_eq_ok_iff] at decoded
    rcases decoded with ⟨tag, kind, tagged, known, once, selected⟩
    have once : ∀ name ∈ tagName :: (record kind).fields.names,
        (vs.map Prod.fst).count name ≤ 1 := by
      intro name mem
      rw [List.mem_cons, ← (record kind).fields.has_iff] at mem
      exact once name mem
    rcases exists_readFrom_object read once with ⟨l, parts, same, origin⟩
    exact ⟨l, kind, parts, vs, tag, same, origin, tagged, known,
      fun texts => texts tag (Json.mem_of_lookup_eq_some vs tagName tag tagged), selected⟩
  | array vs =>
    rw [ofValue_array_eq_ok_iff] at decoded
    rcases decoded with ⟨tag, rest, kind, rfl, known, short, values, selected, built⟩
    have short : (tag :: rest).length ≤ (tagName :: (record kind).fields.names).length :=
      Nat.succ_le_succ short
    rcases exists_readFrom_array read short with ⟨l, parts, same, origin⟩
    refine ⟨l, kind, parts, _, tag, same, origin, ?_, known, id, values, ?_, built⟩
    . rw [List.zip_cons_cons, Json.lookup_cons_eq_ite, if_pos rfl]
    . -- The tag has none of the names that are looked up.
      rw [(record kind).fields.selects_congr _
        (fun key => (((record kind).fields.names.zip rest).lookup key).map partOfValue)]
      . exact selected
      . intro name mem
        dsimp only
        rw [List.zip_cons_cons, Json.lookup_cons_eq_ite, if_neg]
        rintro rfl
        exact tagName_notMem_names kind mem
  | null => cases decoded
  | bool b => cases decoded
  | number n => cases decoded
  | string s => cases decoded

theorem isTag_of_ofValue {limit : Nat} {x : Term} {v : Value} {kind : ElementKind}
    (read : x.value? limit = some v) (known : ElementKind.ofValue v = .ok kind) {packaged : Bool}
    (text : packaged = false → ∃ s, v = .string s) : x.IsTag packaged kind := by
  cases v with
  | string s =>
    rw [ElementKind.ofValue, variant_eq_ok_iff] at known
    have mem := Json.mem_of_lookup_eq_some _ s kind known
    rw [ElementKind.choices, List.mem_map] at mem
    rcases mem with ⟨_, _, ⟨⟩⟩
    exact .inl (Term.gives_of_value? read)
  | number n =>
    have inside : packaged = true := by
      rw [← Bool.not_eq_false]
      intro outside
      rcases text outside with ⟨_, ⟨⟩⟩
    cases n with
    | integer n =>
      simp only [ElementKind.ofValue] at known
      split at known
      . cases known
      . next nonneg =>
        have whole : ((n.toNat : Nat) : Int) = n := Int.toNat_of_nonneg (Int.not_lt.mp nonneg)
        split at known
        . next listed =>
          cases known
          exact .inr ⟨inside, n.toNat, whole.symm ▸ Term.gives_of_value? read, listed⟩
        . cases known
    | double d => cases known
    | single f => cases known
  | null => cases known
  | bool b => cases known
  | array vs => cases known
  | object vs => cases known

theorem isElement_of_ofValue (limit : Nat) {x : Term} {v : Value} {e : Element}
    (read : x.value? limit = some v) (decoded : ofValue v = .ok e) {packaged : Bool}
    (text : packaged = false → HasTextTag v) : x.IsElement packaged := by
  -- A package opens an object or array, and its elements another: two levels for each step.
  induction limit using Nat.strong_induction_on generalizing x v e packaged with
  | _ limit ih =>
  rcases exists_readFrom_of_ofValue read decoded with
    ⟨l, kind, parts, values, tag, rfl, origin, tagged, known, texts, selected⟩
  have tagged : x.IsTagged packaged kind parts := by
    rcases origin.matched.exists_of_lookup_right tagged with ⟨y, tagged, read⟩
    exact ⟨origin.shape, y, tagged,
      isTag_of_ofValue read known fun outside => texts (text outside)⟩
  cases kind with
  | dataType => exact .dataType tagged
  | person => exact .person tagged
  | greeting =>
    rcases selected with ⟨_, ⟨person, _⟩, _⟩
    rcases origin.exists_of_required rfl person rfl with ⟨y, w, there, read, decoded⟩
    dsimp only at decoded
    rw [partOfValue_value] at decoded
    exact .greeting tagged there (isReference_of_ofValue read decoded)
  | entity =>
    rcases selected with ⟨_, ⟨_, features, superType, _⟩, _⟩
    refine .entity tagged ?_ ?_
    . intro y there
      rcases origin.exists_of_lookup rfl features there with ⟨w, read, decoded⟩
      dsimp only at decoded
      rw [partOfValue_value] at decoded
      rcases exists_items_of_list read decoded with ⟨_, items, _, rfl, all⟩
      refine ⟨items, rfl, ?_⟩
      intro z mem
      rcases all z mem with ⟨_, _, read, decoded⟩
      exact isFeature_of_ofValue read decoded
    . intro y there
      rcases origin.exists_of_lookup rfl superType there with ⟨w, read, decoded⟩
      dsimp only at decoded
      rw [partOfValue_value] at decoded
      exact isReference_of_optional read decoded
  | package =>
    rcases selected with ⟨_, ⟨_, elements, _⟩, _⟩
    cases there : parts.lookup "elements" with
    | none => exact .emptyPackage tagged there
    | some y =>
      rcases origin.exists_of_lookup rfl elements there with ⟨w, read, decoded⟩
      dsimp only at decoded
      rw [elements_partOfValue] at decoded
      rcases exists_items_of_list read decoded with ⟨m, items, rfl, rfl, all⟩
      refine .package tagged there ?_
      intro z mem
      rcases all z mem with ⟨_, _, read, decoded⟩
      exact ih m (by omega) read decoded (by rintro ⟨⟩)

end Element

namespace Document

theorem hasParts_of_recordMeans {names : List String} {α : Type}
    {means : List (String × Term) → α → Prop} {x : Term} {a : α}
    (h : x.RecordMeans names means a) : ∃ parts, x.HasParts names parts ∧ means parts a := by
  cases h with
  | object once meant => exact ⟨_, .object once, meant⟩
  | array short meant => exact ⟨_, .array short, meant⟩

theorem exists_of_meansOr {α : Type} {means : Term → α → Prop} {o : Option Term} {a : α}
    (h : Term.MeansOr means none o a) : ∃ x, o = some x ∧ means x a := by
  cases o with
  | none => cases h
  | some x => exact ⟨x, rfl, h⟩

theorem isDocument_of_ofText (text : String) (d : Document) (read : ofText text = .ok d) :
    ∃ x : Term, x.SpelledBy text.toList ∧ x.IsDocument := by
  rw [ofText_eq_ok_iff] at read
  rcases read with ⟨x, spelled, means⟩
  rcases hasParts_of_recordMeans means with ⟨parts, shape, meant⟩
  rcases exists_of_meansOr meant.kind with ⟨tag, tagged, isTag⟩
  rcases exists_of_meansOr meant.elements with ⟨_, there, items, rfl, all⟩
  refine ⟨x, spelled, parts, tag, items, shape, tagged, isTag, there, ?_⟩
  intro y mem
  rcases exists_of_forall₂_of_mem (Q := Eq) all (List.forall₂_refl d.elements) y mem with
    ⟨e, _, meant, _⟩
  rcases meant with ⟨v, value, text, decoded⟩
  exact Element.isElement_of_ofValue _ value decoded fun _ => text

-- Every record as an array, and a person in a package that is tagged by its number.
def positional : Document where
  elements := [
    .entity {
      name := "E"
      features := [{ name := "x", type := {}, many := false }]
      superType := none },
    .package "p" [.person ⟨"A"⟩]]

def positionalText : String :=
  "[\"Domainmodel\",null,[[\"Entity\",\"E\",[[\"x\",[]]]],[\"PackageDeclaration\",\"p\",[[3,\"A\"]]]]]"

def positionalTerm : Term :=
  .array [
    .string (some "Domainmodel"),
    .null,
    .array [
      .array [
        .string (some "Entity"),
        .string (some "E"),
        .array [.array [.string (some "x"), .array []]]],
      .array [
        .string (some "PackageDeclaration"),
        .string (some "p"),
        .array [.array [.number (some (.integer 3)), .string (some "A")]]]]]

theorem positionalTerm_spelled : positionalTerm.SpelledBy positionalText.toList := by
  rw [← Json.term?_scan_eq_some_iff]
  have chars : positionalText = String.ofList
      ['[', '"', 'D', 'o', 'm', 'a', 'i', 'n', 'm', 'o', 'd', 'e', 'l', '"', ',', 'n', 'u', 'l',
       'l', ',', '[', '[', '"', 'E', 'n', 't', 'i', 't', 'y', '"', ',', '"', 'E', '"', ',', '[',
       '[', '"', 'x', '"', ',', '[', ']', ']', ']', ']', ',', '[', '"', 'P', 'a', 'c', 'k', 'a',
       'g', 'e', 'D', 'e', 'c', 'l', 'a', 'r', 'a', 't', 'i', 'o', 'n', '"', ',', '"', 'p', '"',
       ',', '[', '[', '3', ',', '"', 'A', '"', ']', ']', ']', ']', ']'] := rfl
  rw [chars, String.toList_ofList]
  rfl

theorem ofText_positionalText : ofText positionalText = .ok positional := by
  rw [ofText_eq_ok_iff_means _ _ positionalTerm_spelled]
  exact .array (by decide)
    ⟨rfl, rfl, _, rfl, .cons ⟨_, rfl, ⟨_, rfl⟩, rfl⟩ (.cons ⟨_, rfl, ⟨_, rfl⟩, rfl⟩ .nil)⟩

theorem positionalText_not_object :
    ofText positionalText = .ok positional ∧
    positionalTerm.SpelledBy positionalText.toList ∧
    ∀ members, ¬ (Term.object members).SpelledBy positionalText.toList := by
  refine ⟨ofText_positionalText, positionalTerm_spelled, ?_⟩
  intro members spelled
  cases positionalTerm_spelled.unique spelled

theorem isDocument_of_ofText_positional :
    ofText positionalText = .ok positional ∧
    ∃ x : Term, x.SpelledBy positionalText.toList ∧ x.IsDocument :=
  ⟨ofText_positionalText, isDocument_of_ofText positionalText positional ofText_positionalText⟩

end Document

end DomainModel
