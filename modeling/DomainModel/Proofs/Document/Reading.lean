import DomainModel.Document.Decode
import DomainModel.Proofs.Json.RecordNodes

/-!
What a text means as a document. An element is read whole before it is decoded, so it means what its
plain value does, if its tag is a text. A document is what the term of a text means.
-/

namespace DomainModel

open Json (Fault Fields Items Members Node Record Term Value ReadsAs EntriesSay bind_eq_ok_iff
  pure_eq_ok_iff key_read_eq_ok_iff lookup_cons_eq_ite lookup_map lookup_filter nodup_filter_iff)

namespace Element

theorem partOfValue_value (v : Value) : (partOfValue v).value = v := by
  cases v with
  | array items => rw [partOfValue]
  | null => rfl
  | bool b => rfl
  | number n => rfl
  | string s => rfl
  | object members => rfl

theorem partsOfMembers_eq_map (members : List (String × Value)) :
    partsOfMembers members = members.map fun member => (member.1, partOfValue member.2) := by
  induction members with
  | nil => rfl
  | cons member members ih => rw [partsOfMembers, ih, List.map_cons]

theorem partsOfItems_eq_map (items : List Value) : partsOfItems items = items.map partOfValue := by
  induction items with
  | nil => rfl
  | cons item items ih => rw [partsOfItems, ih, List.map_cons]

theorem ofValues_eq_mapM (vs : List Value) : ofValues vs = vs.mapM ofValue := by
  induction vs with
  | nil => rfl
  | cons v vs ih => rw [ofValues, ih, List.mapM_cons]

theorem elements_partOfValue (v : Value) : (partOfValue v).elements () = v.list ofValue := by
  cases v with
  | array items => rw [partOfValue, Value.list, ofValues_eq_mapM]
  | null => rfl
  | bool b => rfl
  | number n => rfl
  | string s => rfl
  | object members => rfl

theorem takeTag_some_eq_ok_iff (given kind : ElementKind) (members rest : List (String × Part)) :
    takeTag (some given) members = .ok (kind, rest) ↔
      tagName ∉ members.map Prod.fst ∧ given = kind ∧ members = rest := by
  induction members generalizing kind rest with
  | nil => simp [takeTag]
  | cons member members ih =>
    rcases member with ⟨key, part⟩
    rw [takeTag, List.map_cons, List.mem_cons]
    split
    . next same => simp [same]
    . next other =>
      simp only [bind_eq_ok_iff, pure_eq_ok_iff, Prod.exists, Prod.mk.injEq, ih]
      constructor
      . rintro ⟨_, _, ⟨absent, rfl, rfl⟩, rfl, rfl⟩
        exact ⟨fun mem => mem.elim (fun same => other same.symm) absent, rfl, rfl⟩
      . rintro ⟨absent, rfl, rfl⟩
        exact ⟨_, _, ⟨fun mem => absent (.inr mem), rfl, rfl⟩, rfl, rfl⟩

theorem takeTag_eq_ok_iff (members rest : List (String × Part)) (kind : ElementKind) :
    takeTag none members = .ok (kind, rest) ↔
      ((members.map Prod.fst).filter (· == tagName)).Nodup ∧
      (∃ part, members.lookup tagName = some part ∧ ElementKind.ofValue part.value = .ok kind) ∧
      members.filter (·.1 != tagName) = rest := by
  induction members generalizing kind rest with
  | nil => simp [takeTag]
  | cons member members ih =>
    rcases member with ⟨key, part⟩
    rw [takeTag, lookup_cons_eq_ite, List.map_cons, List.filter_cons, List.filter_cons]
    by_cases same : key = tagName
    . subst same
      have untagged : members.filter (·.1 != tagName) = members ↔
          tagName ∉ members.map Prod.fst := by
        rw [List.filter_eq_self, List.mem_map]
        constructor
        . rintro all ⟨member, mem, tagged⟩
          simpa [tagged] using all member mem
        . intro absent member mem
          rw [bne_iff_ne]
          intro tagged
          exact absent ⟨member, mem, tagged⟩
      simp only [if_true, bind_eq_ok_iff, takeTag_some_eq_ok_iff, Option.isSome_none,
        Bool.false_eq_true, if_false, beq_self_eq_true, List.nodup_cons, List.mem_filter,
        Option.some.injEq, exists_eq_left', bne_self_eq_false]
      constructor
      . rintro ⟨_, known, absent, rfl, rfl⟩
        refine ⟨⟨fun mem => absent mem.1, ?_⟩, known, untagged.mpr absent⟩
        have none : (members.map Prod.fst).filter (· == tagName) = [] := by
          rw [List.filter_eq_nil_iff]
          intro name mem tagged
          rw [beq_iff_eq] at tagged
          exact absent (tagged ▸ mem)
        rw [none]
        exact List.nodup_nil
      . rintro ⟨⟨absent, _⟩, known, rfl⟩
        have absent : tagName ∉ members.map Prod.fst := fun mem => absent ⟨mem, trivial⟩
        exact ⟨kind, known, absent, rfl, (untagged.mpr absent).symm⟩
    . have other : ¬ tagName = key := fun h => same h.symm
      simp only [same, other, if_false, bind_eq_ok_iff, pure_eq_ok_iff, Prod.exists,
        Prod.mk.injEq, ih, beq_iff_eq, bne_iff_ne, ne_eq, not_false_eq_true, if_true]
      constructor
      . rintro ⟨_, _, ⟨once, known, rfl⟩, rfl, rfl⟩
        exact ⟨once, known, rfl⟩
      . rintro ⟨once, known, rfl⟩
        exact ⟨_, _, ⟨once, known, rfl⟩, rfl, rfl⟩

theorem names_nodup (kind : ElementKind) : (record kind).fields.names.Nodup := by
  cases kind with
  | dataType => decide
  | entity => decide
  | package => decide
  | person => decide
  | greeting => decide

theorem tagName_notMem_names (kind : ElementKind) : tagName ∉ (record kind).fields.names := by
  cases kind with
  | dataType => decide
  | entity => decide
  | package => decide
  | person => decide
  | greeting => decide

def Selected (kind : ElementKind) (lookup : String → Option Value) (e : Element) : Prop :=
  ∃ values,
    (record kind).fields.Selects (fun key => (lookup key).map partOfValue) values ∧
    (record kind).build values = e

theorem ofValue_object_eq_ok_iff (members : List (String × Value)) (e : Element) :
    ofValue (.object members) = .ok e ↔
      ∃ tag kind,
        members.lookup tagName = some tag ∧
        ElementKind.ofValue tag = .ok kind ∧
        (∀ key, key = tagName ∨ (record kind).fields.has key = true →
          (members.map Prod.fst).count key ≤ 1) ∧
        Selected kind (members.lookup ·) e := by
  have keys : (partsOfMembers members).map Prod.fst = members.map Prod.fst := by
    rw [partsOfMembers_eq_map, List.map_map]
    rfl
  have found (key : String) :
      (partsOfMembers members).lookup key = (members.lookup key).map partOfValue := by
    rw [partsOfMembers_eq_map, lookup_map]
  -- What is left without the tag has the same fields, each as often as before.
  have left (kind : ElementKind) :
      (record kind).ofMembers ((partsOfMembers members).filter (·.1 != tagName)) = .ok e ↔
        (∀ key, (record kind).fields.has key = true → (members.map Prod.fst).count key ≤ 1) ∧
        Selected kind (members.lookup ·) e := by
    have known (key : String) (mem : key ∈ (record kind).fields.names) :
        (key != tagName) = true := by
      rw [bne_iff_ne]
      rintro rfl
      exact tagName_notMem_names kind mem
    have same (values : (record kind).τ) :=
      (record kind).fields.selects_congr
        (((partsOfMembers members).filter (·.1 != tagName)).lookup ·)
        (fun key => (members.lookup key).map partOfValue)
        (fun key mem => by rw [lookup_filter (· != tagName) _ _ (known key mem), found]) values
    rw [Record.ofMembers_eq_ok_iff _ (names_nodup kind)]
    simp only [same, Record.Once, nodup_filter_iff, Selected]
    refine and_congr_left fun _ => forall_congr' fun key => imp_congr_right fun has => ?_
    have kept := known key (((record kind).fields.has_iff key).mp has)
    have counted := List.count_filter (p := (· != tagName))
      (l := (partsOfMembers members).map Prod.fst) kept
    rw [List.filter_map] at counted
    rw [← keys, ← counted]
    rfl
  rw [ofValue]
  simp only [bind_eq_ok_iff, Prod.exists, takeTag_eq_ok_iff, keys, found, nodup_filter_iff,
    beq_iff_eq, forall_eq]
  constructor
  . rintro ⟨kind, _, ⟨once, ⟨part, tagged, known⟩, rfl⟩, decoded⟩
    rw [left] at decoded
    rw [Option.map_eq_some_iff] at tagged
    rcases tagged with ⟨tag, tagged, rfl⟩
    rw [partOfValue_value] at known
    refine ⟨tag, kind, tagged, known, ?_, decoded.2⟩
    rintro key (rfl | has)
    . exact once
    . exact decoded.1 key has
  . rintro ⟨tag, kind, tagged, known, once, selected⟩
    refine ⟨kind, _, ⟨once tagName (.inl rfl), ⟨partOfValue tag, ?_, ?_⟩, rfl⟩, ?_⟩
    . rw [tagged]
      rfl
    . rw [partOfValue_value]
      exact known
    . rw [left]
      exact ⟨fun key has => once key (.inr has), selected⟩

theorem ofValue_array_eq_ok_iff (items : List Value) (e : Element) :
    ofValue (.array items) = .ok e ↔
      ∃ tag rest kind,
        items = tag :: rest ∧
        ElementKind.ofValue tag = .ok kind ∧
        rest.length ≤ (record kind).fields.names.length ∧
        Selected kind (((record kind).fields.names.zip rest).lookup ·) e := by
  have found (names : List String) (rest : List Value) (key : String) :
      (names.zip (rest.map partOfValue)).lookup key =
        ((names.zip rest).lookup key).map partOfValue := by
    rw [List.zip_map_right, ← lookup_map]
    rfl
  cases items with
  | nil => simp [ofValue]
  | cons tag rest =>
    rw [ofValue]
    simp only [bind_eq_ok_iff, Record.ofItems_eq_ok_iff _ (names_nodup _),
      Record.ofMembers_eq_ok_iff _ (names_nodup _), Record.once_zip _ (names_nodup _), found,
      true_and, partsOfItems_eq_map, List.length_map, List.cons.injEq]
    constructor
    . rintro ⟨kind, known, short, selected⟩
      exact ⟨tag, rest, kind, ⟨rfl, rfl⟩, known, short, selected⟩
    . rintro ⟨_, _, kind, ⟨rfl, rfl⟩, known, short, selected⟩
      exact ⟨kind, known, short, selected⟩

def HasTextTag : Value → Prop
  | .object members => ∀ v, (tagName, v) ∈ members → ∃ s, v = .string s
  | .array (tag :: _) => ∃ s, tag = .string s
  | _ => True

def Means (x : Term) (e : Element) : Prop :=
  ∃ v, x.value? (nestingLimit + 1) = some v ∧ HasTextTag v ∧ ofValue v = .ok e

theorem variant_eq_ok_iff (name : String) (kind : ElementKind) :
    Node.variant ElementKind.choices name = .ok kind ↔
      ElementKind.choices.lookup name = some kind := by
  rw [Node.variant]
  cases ElementKind.choices.lookup name with
  | none => simp
  | some found => simp

theorem identifier_eq_ok_iff (limit : Nat) (node : Node) (kind : ElementKind) :
    node.identifier ElementKind.choices = .ok kind ↔
      ∃ s, node.toValue limit = .ok (.string s) ∧ ElementKind.ofValue (.string s) = .ok kind := by
  rw [Json.ReadsAs.identifier]
  simp only [Node.toValue_eq_ok_iff, ElementKind.ofValue, variant_eq_ok_iff, Term.IsText]
  constructor
  . rintro ⟨_, said, s, rfl, known⟩
    exact ⟨s, ⟨_, said, rfl⟩, known⟩
  . rintro ⟨s, ⟨x, said, read⟩, known⟩
    exact ⟨x, said, s, Term.eq_string_of_value? read, known⟩

theorem readMembers_eq_ok_iff (tag : Option ElementKind) (members : Members) (kind : ElementKind)
    (rest : List (String × Value)) :
    readMembers tag members = .ok (kind, rest) ↔
      ∃ values,
        members.toValues nestingLimit = .ok values ∧
        (∀ v, (tagName, v) ∈ values → ∃ s, v = .string s) ∧
        takeTag tag (partsOfMembers values) = .ok (kind, partsOfMembers rest) := by
  cases members with
  | closed stop =>
    have empty : partsOfMembers rest = [] ↔ rest = [] := by
      rw [partsOfMembers_eq_map, List.map_eq_nil_iff]
    cases tag with
    | none => simp [readMembers, Members.toValues, takeTag, partsOfMembers]
    | some given =>
      simp [readMembers, Members.toValues, takeTag, partsOfMembers, @eq_comm _ [], empty]
  | broken flaw fault => simp [readMembers, Members.toValues]
  | member key node finish more =>
    have others := fun tag rest => readMembers_eq_ok_iff tag more kind rest
    rw [readMembers, Members.toValues]
    simp only [bind_eq_ok_iff, pure_eq_ok_iff]
    cases key.read with
    | error fault => simp
    | ok name =>
      simp only [Except.ok.injEq, exists_eq_left']
      -- The tag is judged where it stands; everything else waits until its kind is known.
      by_cases same : name = tagName
      . subst same
        rw [if_pos rfl]
        cases tag with
        | some given =>
          rw [Option.isSome_some, if_pos rfl]
          constructor
          . intro read
            cases read
          . rintro ⟨_, ⟨v, read, vs, readMore, rfl⟩, texts, taken⟩
            rw [partsOfMembers, takeTag, if_pos rfl, Option.isSome_some, if_pos rfl] at taken
            cases taken
        | none =>
          rw [Option.isSome_none, if_neg (by simp)]
          simp only [bind_eq_ok_iff, identifier_eq_ok_iff nestingLimit, others]
          constructor
          . rintro ⟨given, ⟨s, read, known⟩, vs, readMore, texts, taken⟩
            refine ⟨_, ⟨.string s, read, vs, readMore, rfl⟩, ?_, ?_⟩
            . intro v mem
              rw [List.mem_cons] at mem
              rcases mem with same | mem
              . cases same
                exact ⟨s, rfl⟩
              . exact texts v mem
            . rw [partsOfMembers, takeTag, if_pos rfl, Option.isSome_none, if_neg (by simp),
                partOfValue_value, bind_eq_ok_iff]
              exact ⟨given, known, taken⟩
          . rintro ⟨_, ⟨v, read, vs, readMore, rfl⟩, texts, taken⟩
            rcases texts v List.mem_cons_self with ⟨s, rfl⟩
            rw [partsOfMembers, takeTag, if_pos rfl, Option.isSome_none, if_neg (by simp),
              partOfValue_value, bind_eq_ok_iff] at taken
            rcases taken with ⟨given, known, taken⟩
            exact ⟨given, ⟨s, read, known⟩, vs, readMore,
              fun v mem => texts v (List.mem_cons_of_mem _ mem), taken⟩
      . have other : ¬ tagName = name := fun h => same h.symm
        rw [if_neg same]
        simp only [bind_eq_ok_iff, pure_eq_ok_iff, Prod.exists, Prod.mk.injEq]
        constructor
        . rintro ⟨v, read, _, rest, readRest, rfl, rfl⟩
          rcases (others tag rest).mp readRest with ⟨vs, readMore, texts, taken⟩
          refine ⟨_, ⟨v, read, vs, readMore, rfl⟩, ?_, ?_⟩
          . intro w mem
            rw [List.mem_cons, Prod.mk.injEq] at mem
            exact mem.elim (fun h => absurd h.1 other) (texts w)
          . rw [partsOfMembers, takeTag, if_neg same, bind_eq_ok_iff]
            exact ⟨_, taken, rfl⟩
        . rintro ⟨_, ⟨v, read, vs, readMore, rfl⟩, texts, taken⟩
          rw [partsOfMembers, takeTag, if_neg same, bind_eq_ok_iff] at taken
          rcases taken with ⟨⟨_, parts⟩, taken, split⟩
          rw [pure_eq_ok_iff, Prod.mk.injEq] at split
          rcases split with ⟨rfl, split⟩
          cases rest with
          | nil => cases split
          | cons member rest =>
            rcases member with ⟨_, w⟩
            rw [partsOfMembers, List.cons.injEq, Prod.mk.injEq] at split
            rcases split with ⟨⟨rfl, part⟩, rfl⟩
            have whole := congrArg Part.value part
            rw [partOfValue_value, partOfValue_value] at whole
            subst whole
            refine ⟨v, read, _, rest, ?_, rfl, rfl⟩
            rw [others]
            exact ⟨vs, readMore, fun w mem => texts w (List.mem_cons_of_mem _ mem), taken⟩
termination_by structural members

theorem ofNode_eq_ok_iff (node : Node) (e : Element) :
    ofNode node = .ok e ↔
      ∃ v, node.toValue (nestingLimit + 1) = .ok v ∧ HasTextTag v ∧ ofValue v = .ok e := by
  cases node with
  | object start members =>
    simp only [ofNode, Node.toValue, bind_eq_ok_iff, pure_eq_ok_iff, Prod.exists,
      readMembers_eq_ok_iff]
    constructor
    . rintro ⟨kind, rest, ⟨vs, read, texts, taken⟩, decoded⟩
      refine ⟨_, ⟨vs, read, rfl⟩, texts, ?_⟩
      rw [ofValue, bind_eq_ok_iff]
      exact ⟨_, taken, decoded⟩
    . rintro ⟨_, ⟨vs, read, rfl⟩, texts, decoded⟩
      rw [ofValue, bind_eq_ok_iff] at decoded
      rcases decoded with ⟨⟨kind, parts⟩, taken, decoded⟩
      have rest := taken
      rw [takeTag_eq_ok_iff] at rest
      rcases rest with ⟨_, _, rfl⟩
      rw [partsOfMembers_eq_map, List.filter_map, ← partsOfMembers_eq_map] at decoded taken
      rw [← partsOfMembers_eq_map] at taken
      exact ⟨kind, _, ⟨vs, read, texts, taken⟩, decoded⟩
  | array start items =>
    cases items with
    | closed stop =>
      simp only [ofNode, Node.toValue, Items.toValues, bind_eq_ok_iff, pure_eq_ok_iff]
      constructor
      . intro read
        cases read
      . rintro ⟨_, ⟨_, ⟨⟩, rfl⟩, _, decoded⟩
        simp [ofValue] at decoded
    | broken fault => simp [ofNode, Node.toValue, Items.toValues]
    | item tag finish more =>
      simp only [ofNode, Node.toValue, Items.toValues, bind_eq_ok_iff, pure_eq_ok_iff,
        identifier_eq_ok_iff nestingLimit]
      constructor
      . rintro ⟨kind, ⟨s, tagged, known⟩, vs, read, decoded⟩
        refine ⟨_, ⟨_, ⟨_, tagged, vs, read, rfl⟩, rfl⟩, ⟨s, rfl⟩, ?_⟩
        rw [ofValue, bind_eq_ok_iff]
        exact ⟨kind, known, decoded⟩
      . rintro ⟨_, ⟨_, ⟨tag, tagged, vs, read, rfl⟩, rfl⟩, ⟨s, rfl⟩, decoded⟩
        rw [ofValue, bind_eq_ok_iff] at decoded
        rcases decoded with ⟨kind, known, decoded⟩
        exact ⟨kind, ⟨s, tagged, known⟩, vs, read, decoded⟩
  | null start stop => simp [ofNode, Node.toValue, ofValue]
  | bool start stop b => simp [ofNode, Node.toValue, ofValue]
  | number start literal =>
    simp only [ofNode, Node.toValue, bind_eq_ok_iff, pure_eq_ok_iff]
    constructor
    . intro read
      cases read
    . rintro ⟨_, ⟨n, _, rfl⟩, _, decoded⟩
      simp [ofValue] at decoded
  | string start stop text flaw =>
    cases flaw with
    | none => simp [ofNode, Node.toValue, ofValue]
    | some flaw => simp [ofNode, Node.toValue]
  | brokenString start flaw fault => simp [ofNode, Node.toValue]
  | broken start fault => simp [ofNode, Node.toValue]

theorem readsAs_ofNode : ReadsAs ofNode Means := by
  intro node e
  simp only [ofNode_eq_ok_iff, Node.toValue_eq_ok_iff, Means]
  constructor
  . rintro ⟨v, ⟨x, said, read⟩, tagged, decoded⟩
    exact ⟨x, said, v, read, tagged, decoded⟩
  . rintro ⟨x, said, v, read, tagged, decoded⟩
    exact ⟨v, ⟨x, said, read⟩, tagged, decoded⟩

end Element

namespace Document

structure MembersMean (members : List (String × Term)) (raw : Raw) : Prop where
  kind : Term.MeansOr Term.IsText none (members.lookup "$type") raw.kind
  name : Term.MeansOr (Term.Optionally Term.IsText) (some none) (members.lookup "name") raw.name
  elements : Term.MeansOr (Term.Lists Element.Means) none (members.lookup "elements") raw.elements

def Means : Term → Raw → Prop :=
  Term.RecordMeans ["$type", "name", "elements"] MembersMean

theorem readsAs_optionalText : ReadsAs (Node.optional Node.text) (Term.Optionally Term.IsText) := by
  apply Json.readsAs_text.optional
  rintro s ⟨⟩

theorem readsAs_ofNode : ReadsAs record.ofNode Means := by
  apply record.readsAs_ofNode
  . decide
  . exact ⟨Json.readsAs_text.isSome, readsAs_optionalText.isSome,
      Element.readsAs_ofNode.list.isSome, trivial⟩
  . intro entries members all raw
    have kind := all.finds_iff { name := "$type", read := Node.text } Json.readsAs_text
    have name := all.finds_iff
      { name := "name", read := Node.optional Node.text, absent := some none } readsAs_optionalText
    have elements := all.finds_iff { name := "elements", read := Node.list Element.ofNode }
      Element.readsAs_ofNode.list
    constructor
    . rintro ⟨⟨_, _, _, _⟩, ⟨hasKind, hasName, hasElements, _⟩, rfl⟩
      exact ⟨(kind _).mp hasKind, (name _).mp hasName, (elements _).mp hasElements⟩
    . intro means
      exact ⟨(raw.kind, raw.name, raw.elements, ()),
        ⟨(kind _).mpr means.kind, (name _).mpr means.name, (elements _).mpr means.elements,
          trivial⟩,
        rfl⟩

theorem ofText_eq_ok_iff (text : String) (d : Document) :
    ofText text = .ok d ↔
      ∃ x,
        x.SpelledBy text.toList ∧
        Means x { kind := NodeKind.domainmodel.name, name := d.name, elements := d.elements } := by
  rw [← readsAs_ofNode.decode, ofText]
  cases Json.decode record.ofNode text with
  | error error => simp
  | ok raw =>
    rcases raw with ⟨kind, name, elements⟩
    rcases d with ⟨name', elements'⟩
    dsimp only
    split
    . next same => simp [same]
    . next other => simp [other]

theorem ofText_eq_ok_iff_means (text : String) (x : Term) (spelled : x.SpelledBy text.toList)
    (d : Document) :
    ofText text = .ok d ↔
      Means x { kind := NodeKind.domainmodel.name, name := d.name, elements := d.elements } := by
  rw [ofText_eq_ok_iff]
  constructor
  . rintro ⟨y, spelled', means⟩
    rw [spelled.unique spelled']
    exact means
  . intro means
    exact ⟨x, spelled, means⟩

end Document

end DomainModel
