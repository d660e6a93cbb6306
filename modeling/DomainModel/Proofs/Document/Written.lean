import DomainModel.Proofs.Document.Reading
import DomainModel.Proofs.NodePath.Grammar

/-!
How a document is written, and that it is read back. The members of an object stand in any order,
what has its default may be left out, and the text may be spelled in any way.
-/

namespace DomainModel

open Json (Field Record Term Value Matched bind_eq_ok_iff pure_eq_ok_iff mapM_eq_ok_iff)

namespace Json.Term

def IsObject (x : Term) (members : List (String × (Option Term → Prop))) : Prop :=
  ∃ written,
    x = .named written ∧
    (written.map Prod.fst).Nodup ∧
    (∀ name ∈ written.map Prod.fst, name ∈ members.map Prod.fst) ∧
    ∀ member ∈ members, member.2 (written.lookup member.1)

def ofText (s : String) : Term := .string (some s)

def Unless (default : Prop) (writes : Term → Prop) : Option Term → Prop
  | none => default
  | some x => writes x

end Json.Term

open Json.Term (Unless)

def Reference.Written (r : Reference) (x : Term) : Prop :=
  x.IsObject [
    ("$ref", (· = (r.target.map fun path => "#" ++ toString path).map Term.ofText)),
    ("$refText", (· = r.text.map Term.ofText)),
    ("$error", (· = r.error.map Term.ofText))]

def Feature.Written (f : Feature) (x : Term) : Prop :=
  x.IsObject [
    ("$type", Unless True (· = Term.ofText NodeKind.feature.name)),
    ("name", (· = some (Term.ofText f.name))),
    ("type", Unless False f.type.Written),
    ("many", Unless (f.many = false) (· = .bool f.many))]

def Reference.OptionWritten : Option Reference → Term → Prop
  | none, x => x = .null
  | some r, x => r.Written x

mutual

def Element.Written : Element → Term → Prop
  | .dataType d, x =>
    x.IsObject [
      ("$type", (· = some (Term.ofText NodeKind.dataType.name))),
      ("name", (· = some (Term.ofText d.name)))]
  | .entity e, x =>
    x.IsObject [
      ("$type", (· = some (Term.ofText NodeKind.entity.name))),
      ("name", (· = some (Term.ofText e.name))),
      ("features", Unless (e.features = []) fun y =>
        ∃ items, y = .array items ∧ List.Forall₂ Feature.Written e.features items),
      ("superType", Unless (e.superType = none) (Reference.OptionWritten e.superType))]
  | .package name elements, x =>
    x.IsObject [
      ("$type", (· = some (Term.ofText NodeKind.package.name))),
      ("name", (· = some (Term.ofText name))),
      ("elements", Unless (elements = []) fun y =>
        ∃ items, y = .array items ∧ Element.AllWritten elements items)]
  | .person p, x =>
    x.IsObject [
      ("$type", (· = some (Term.ofText NodeKind.person.name))),
      ("name", (· = some (Term.ofText p.name)))]
  | .greeting g, x =>
    x.IsObject [
      ("$type", (· = some (Term.ofText NodeKind.greeting.name))),
      ("person", Unless False g.person.Written)]
termination_by structural e => e

def Element.AllWritten : List Element → List Term → Prop
  | [], xs => xs = []
  | e :: es, xs => ∃ y ys, xs = y :: ys ∧ e.Written y ∧ Element.AllWritten es ys
termination_by structural es => es

end

def Document.Written (d : Document) (x : Term) : Prop :=
  x.IsObject [
    ("$type", (· = some (Term.ofText NodeKind.domainmodel.name))),
    ("name", Unless (d.name = none) (· = (d.name.map Term.ofText).getD .null)),
    ("elements", Unless False fun y =>
      ∃ items, y = .array items ∧ Element.AllWritten d.elements items)]

def Reference.Legible (r : Reference) : Prop :=
  ∀ path ∈ r.target, NodePath.ofText (toString path) = .ok path

structure Feature.Legible (f : Feature) : Prop where
  name : f.name ≠ ""
  type : f.type.Legible

mutual

def Element.Legible : Element → Prop
  | .dataType d => d.name ≠ ""
  | .entity e =>
    e.name ≠ "" ∧ (∀ f ∈ e.features, f.Legible) ∧ ∀ r ∈ e.superType, r.Legible
  | .package name elements => name ≠ "" ∧ Element.AllLegible elements
  | .person p => p.name ≠ ""
  | .greeting g => g.person.Legible
termination_by structural e => e

def Element.AllLegible : List Element → Prop
  | [] => True
  | e :: es => e.Legible ∧ Element.AllLegible es
termination_by structural es => es

end

def Document.Legible (d : Document) : Prop := Element.AllLegible d.elements

def Readable (writes : Option Term → Prop) : Prop :=
  ∀ y, writes (some y) → ∀ limit, y.depth ≤ limit → ∃ v, y.value? limit = some v

def WritesAs {α : Type} (writes : Option Term → Prop) (read : Value → Except Json.Fault α) (a : α) :
    Prop :=
  ∀ y, writes (some y) → ∀ limit, y.depth ≤ limit →
    ∃ v, y.value? limit = some v ∧ read v = .ok a

theorem WritesAs.readable {α : Type} {writes : Option Term → Prop}
    {read : Value → Except Json.Fault α} {a : α} (h : WritesAs writes read a) :
    Readable writes := by
  intro y written limit shallow
  rcases h y written limit shallow with ⟨v, value, _⟩
  exact ⟨v, value⟩

structure ReadBack (limit : Nat) (members : List (String × (Option Term → Prop))) (x : Term)
    (values : List (String × Value)) : Prop where
  read : x.value? (limit + 1) = some (.object values)
  distinct : (values.map Prod.fst).Nodup
  written : ∀ member ∈ members, ∃ o,
    member.2 o ∧
    Option.Rel (fun y v => y.depth ≤ limit ∧ y.value? limit = some v) o (values.lookup member.1)

theorem Json.Term.IsObject.exists_readBack {x : Term}
    {members : List (String × (Option Term → Prop))} (h : x.IsObject members) {limit : Nat}
    (shallow : x.depth ≤ limit)
    (readable : ∀ member ∈ members, Readable member.2) :
    ∃ l values, limit = l + 1 ∧ ReadBack l members x values := by
  rcases h with ⟨written, rfl, distinct, known, all⟩
  rw [Term.named, Term.depth] at shallow
  cases limit with
  | zero => cases shallow
  | succ limit =>
    rw [Nat.succ_le_succ_iff, Term.membersDepth_le_iff] at shallow
    have whole : ∀ entry ∈ written, ∃ v, entry.2.depth ≤ limit ∧ entry.2.value? limit = some v := by
      rintro ⟨name, y⟩ mem
      have isKnown := known name (List.mem_map.mpr ⟨_, mem, rfl⟩)
      rw [List.mem_map] at isKnown
      rcases isKnown with ⟨member, isKnown, rfl⟩
      have asked := all member isKnown
      rw [Json.lookup_eq_some_of_mem written distinct member.1 y mem] at asked
      rcases readable member isKnown y asked limit (shallow _ mem) with ⟨v, read⟩
      exact ⟨v, shallow _ mem, read⟩
    rcases Matched.exists_of_forall
        (R := fun y v => y.depth ≤ limit ∧ y.value? limit = some v) written whole with
      ⟨values, matched⟩
    refine ⟨limit, values, rfl, ?_, ?_, ?_⟩
    . rw [Term.value?_named_eq_some_iff]
      exact ⟨values, rfl, matched.imp fun _ _ => And.right⟩
    . rw [← matched.map_fst]
      exact distinct
    . intro member isKnown
      exact ⟨_, all member isKnown, matched.lookup member.1⟩

theorem ReadBack.finds {limit : Nat} {members : List (String × (Option Term → Prop))} {x : Term}
    {values : List (String × Value)} (h : ReadBack limit members x values) {σ α : Type}
    {field : Field σ α} {writes : Option Term → Prop} (asked : (field.name, writes) ∈ members)
    {f : Value → σ} {lookup : String → Option σ}
    (same : lookup field.name = (values.lookup field.name).map f) {a : α}
    (absent : writes none → field.absent = some a) (read : WritesAs writes (field.read <| f ·) a) :
    field.Finds lookup a := by
  rcases h.written _ asked with ⟨o, written, found⟩
  rw [Field.Finds, same]
  dsimp only at found
  generalize values.lookup field.name = v at found ⊢
  cases found with
  | none => exact absent written
  | @some y v found =>
    rcases read y written limit found.1 with ⟨w, value, done⟩
    rw [found.2] at value
    cases value
    exact done

theorem writesAs_optionalText (s : Option String) :
    WritesAs (· = s.map Term.ofText) (Value.optional Value.text) s := by
  intro y written limit _
  cases s with
  | none => cases written
  | some s =>
    cases written
    exact ⟨.string s, rfl, rfl⟩

theorem readable_text (s : String) : Readable (· = some (Term.ofText s)) :=
  (writesAs_optionalText (some s)).readable

theorem ReadBack.finds_text {limit : Nat} {members : List (String × (Option Term → Prop))}
    {x : Term} {values : List (String × Value)} (h : ReadBack limit members x values)
    (name : String) (s : Option String) (asked : (name, (· = s.map Term.ofText)) ∈ members) :
    Field.Finds { name, read := Value.optional Value.text, absent := some none } (values.lookup ·)
      s := by
  refine h.finds asked (f := id) (by simp) ?_ (writesAs_optionalText s)
  intro written
  cases s with
  | none => rfl
  | some s => cases written

theorem Reference.ofParts_written (r : Reference) (legible : r.Legible) :
    ofParts (r.target.map fun path => "#" ++ toString path) r.text r.error = r := by
  rcases r with ⟨text, target, error⟩
  cases target with
  | none => rfl
  | some path =>
    -- The mark before a path has no part in it.
    have back := (NodePath.ofText_append_eq_ok_iff "" _ path).mpr (legible path rfl)
    rw [String.empty_append] at back
    rw [ofParts]
    simp only [Option.map_some, Option.bind_some, back]
    rfl

theorem Reference.writesAs (r : Reference) (legible : r.Legible) (default : Prop) :
    WritesAs (Unless default r.Written) ofValue r := by
  intro x written limit shallow
  rw [Unless, Written] at written
  have readable := written.exists_readBack shallow (by
    simp only [List.forall_mem_cons]
    exact ⟨(writesAs_optionalText _).readable, (writesAs_optionalText _).readable,
      (writesAs_optionalText _).readable, by simp⟩)
  rcases readable with ⟨l, values, rfl, back⟩
  refine ⟨_, back.read, ?_⟩
  change (record (Value.optional Value.text)).ofMembers values = .ok r
  rw [Record.ofMembers_eq_ok_iff _ (by decide)]
  refine ⟨back.distinct.filter _,
    (r.target.map fun path => "#" ++ toString path, r.text, r.error, ()),
    ⟨?_, ?_, ?_, trivial⟩, r.ofParts_written legible⟩
  . exact back.finds_text "$ref" _ (.head _)
  . exact back.finds_text "$refText" _ (.tail _ (.head _))
  . exact back.finds_text "$error" _ (.tail _ (.tail _ (.head _)))

theorem Reference.writesAs_option (r : Option Reference) (legible : ∀ s ∈ r, s.Legible)
    (default : Prop) :
    WritesAs (Unless default (OptionWritten r)) (Value.optional ofValue) r := by
  intro x written limit shallow
  cases r with
  | none =>
    cases written
    exact ⟨.null, rfl, rfl⟩
  | some r =>
    rcases r.writesAs (legible r rfl) default x written limit shallow with ⟨v, read, decoded⟩
    refine ⟨v, read, ?_⟩
    unfold Value.optional
    split
    . cases decoded
    . rw [decoded]
      rfl

theorem writesAs_name (name : String) (given : name ≠ "") :
    WritesAs (· = some (Term.ofText name)) nameOfValue name := by
  rintro _ ⟨⟩ limit _
  refine ⟨.string name, rfl, ?_⟩
  rw [nameOfValue, Value.text]
  change nonEmpty name = .ok name
  rw [nonEmpty, if_neg]
  rw [String.isEmpty_iff]
  exact given

theorem writesAs_bool (b : Bool) (default : Prop) :
    WritesAs (Unless default (· = .bool b)) Value.boolean b := by
  rintro _ rfl limit _
  exact ⟨.bool b, rfl, rfl⟩

theorem Feature.writesAs (f : Feature) (legible : f.Legible) (default : Prop) :
    WritesAs (Unless default f.Written) record.ofValue f := by
  intro x written limit shallow
  rw [Unless, Written] at written
  have name := writesAs_name f.name legible.name
  have type := f.type.writesAs legible.type False
  have many := writesAs_bool f.many (f.many = false)
  have readable := written.exists_readBack shallow (by
    simp only [List.forall_mem_cons]
    refine ⟨?_, name.readable, type.readable, many.readable, by simp⟩
    rintro _ rfl limit _
    exact ⟨_, rfl⟩)
  rcases readable with ⟨l, values, rfl, back⟩
  refine ⟨_, back.read, ?_⟩
  change record.ofMembers values = .ok f
  rw [Record.ofMembers_eq_ok_iff _ (by decide)]
  refine ⟨back.distinct.filter _, (f.name, f.type, f.many, ()), ⟨?_, ?_, ?_, trivial⟩, rfl⟩
  . exact back.finds (f := id) (.tail _ (.head _)) (by simp) (by rintro ⟨⟩) name
  . exact back.finds (f := id) (.tail _ (.tail _ (.head _))) (by simp) (by rintro ⟨⟩) type
  . refine back.finds (f := id) (.tail _ (.tail _ (.tail _ (.head _)))) (by simp) ?_ many
    intro default
    exact congrArg some default.symm

theorem Json.Term.exists_arrayValue {items : List Term} {limit : Nat}
    (shallow : (Term.array items).depth ≤ limit) {Q : List Value → Prop}
    (h : ∀ l, (∀ y ∈ items, y.depth ≤ l) →
      ∃ vs, List.Forall₂ (fun y v => y.value? l = some v) items vs ∧ Q vs) :
    ∃ vs, (Term.array items).value? limit = some (.array vs) ∧ Q vs := by
  rw [depth] at shallow
  cases limit with
  | zero => cases shallow
  | succ limit =>
    rw [Nat.succ_le_succ_iff, itemsDepth_le_iff] at shallow
    rcases h limit shallow with ⟨vs, all, holds⟩
    refine ⟨vs, ?_, holds⟩
    rw [value?_array_eq_some_iff]
    exact ⟨vs, rfl, all⟩

theorem Feature.exists_values (fs : List Feature) (legible : ∀ f ∈ fs, f.Legible)
    (items : List Term) (written : List.Forall₂ Written fs items) (limit : Nat)
    (shallow : ∀ y ∈ items, y.depth ≤ limit) :
    ∃ vs,
      List.Forall₂ (fun y v => y.value? limit = some v) items vs ∧
      List.Forall₂ (fun v f => record.ofValue v = .ok f) vs fs := by
  induction written with
  | nil => exact ⟨[], .nil, .nil⟩
  | @cons f y fs items first _ ih =>
    rw [List.forall_mem_cons] at legible shallow
    rcases f.writesAs legible.1 False y first limit shallow.1 with ⟨v, read, decoded⟩
    rcases ih legible.2 shallow.2 with ⟨vs, all, others⟩
    exact ⟨v :: vs, .cons read all, .cons decoded others⟩

theorem Feature.writesAs_list (fs : List Feature) (legible : ∀ f ∈ fs, f.Legible)
    (default : Prop) :
    WritesAs
      (Unless default fun y => ∃ items, y = .array items ∧ List.Forall₂ Written fs items)
      (Value.list record.ofValue) fs := by
  rintro _ ⟨items, rfl, written⟩ limit shallow
  rcases Term.exists_arrayValue shallow (exists_values fs legible items written) with
    ⟨vs, read, decoded⟩
  refine ⟨.array vs, read, ?_⟩
  rw [Value.list, mapM_eq_ok_iff]
  exact decoded

theorem ElementKind.ofValue_name (kind : ElementKind) :
    ofValue (.string kind.node.name) = .ok kind := by
  cases kind with
  | dataType => rfl
  | entity => rfl
  | package => rfl
  | person => rfl
  | greeting => rfl

namespace Element

theorem writesAs_part {α : Type} {writes : Option Term → Prop}
    {read : Value → Except Json.Fault α} {a : α} (h : WritesAs writes read a) :
    WritesAs writes (fun v => read (partOfValue v).value) a := by
  simpa only [partOfValue_value] using h

theorem readBack_element {limit : Nat} {members : List (String × (Option Term → Prop))} {x : Term}
    {values : List (String × Value)} (back : ReadBack limit members x values) (kind : ElementKind)
    (tagged : ("$type", (· = some (Term.ofText kind.node.name))) ∈ members) (e : Element)
    (selected : Selected kind (values.lookup ·) e) :
    ∃ v, x.value? (limit + 1) = some v ∧ HasTextTag v ∧ ofValue v = .ok e := by
  have tag : values.lookup "$type" = some (.string kind.node.name) := by
    rcases back.written _ tagged with ⟨_, rfl, found⟩
    dsimp only at found
    generalize values.lookup "$type" = v at found ⊢
    cases found with
    | some found =>
      cases found.2
      rfl
  refine ⟨_, back.read, ?_, ?_⟩
  . intro v mem
    have found := Json.lookup_eq_some_of_mem values back.distinct _ v mem
    change values.lookup "$type" = some v at found
    rw [tag] at found
    cases found
    exact ⟨_, rfl⟩
  . rw [ofValue_object_eq_ok_iff]
    refine ⟨_, kind, tag, kind.ofValue_name, ?_, selected⟩
    intro key _
    exact List.nodup_iff_count_le_one.mp back.distinct key

mutual

theorem exists_value (e : Element) (legible : e.Legible) (x : Term) (written : e.Written x)
    (limit : Nat) (shallow : x.depth ≤ limit) :
    ∃ v, x.value? limit = some v ∧ HasTextTag v ∧ ofValue v = .ok e := by
  cases e with
  | dataType d =>
    rw [Written] at written
    rw [Legible] at legible
    have name := writesAs_name d.name legible
    have readable := written.exists_readBack shallow (by
      simp only [List.forall_mem_cons]
      exact ⟨readable_text _, name.readable, by simp⟩)
    rcases readable with ⟨l, values, rfl, back⟩
    apply readBack_element back .dataType (.head _)
    refine ⟨(d.name, ()), ⟨?_, trivial⟩, rfl⟩
    exact back.finds (.tail _ (.head _)) rfl (by rintro ⟨⟩) (writesAs_part name)
  | entity e =>
    rw [Written] at written
    rw [Legible] at legible
    have name := writesAs_name e.name legible.1
    have features := Feature.writesAs_list e.features legible.2.1 (e.features = [])
    have superType := Reference.writesAs_option e.superType legible.2.2 (e.superType = none)
    have readable := written.exists_readBack shallow (by
      simp only [List.forall_mem_cons]
      exact ⟨readable_text _, name.readable, features.readable, superType.readable, by simp⟩)
    rcases readable with ⟨l, values, rfl, back⟩
    apply readBack_element back .entity (.head _)
    refine ⟨(e.name, e.features, e.superType, ()), ⟨?_, ?_, ?_, trivial⟩, rfl⟩
    . exact back.finds (.tail _ (.head _)) rfl (by rintro ⟨⟩) (writesAs_part name)
    . refine back.finds (.tail _ (.tail _ (.head _))) rfl ?_ (writesAs_part features)
      intro default
      exact congrArg some default.symm
    . refine back.finds (.tail _ (.tail _ (.tail _ (.head _)))) rfl ?_ (writesAs_part superType)
      intro default
      exact congrArg some default.symm
  | package name elements =>
    rw [Written] at written
    rw [Legible] at legible
    have named := writesAs_name name legible.1
    have inner : WritesAs
        (Unless (elements = []) fun y => ∃ items, y = .array items ∧ AllWritten elements items)
        (fun v => (partOfValue v).elements ()) elements := by
      rintro _ ⟨items, rfl, written⟩ limit shallow
      rcases Term.exists_arrayValue shallow (exists_values elements legible.2 items written) with
        ⟨vs, read, decoded⟩
      refine ⟨.array vs, read, ?_⟩
      dsimp only
      rw [elements_partOfValue, Value.list, mapM_eq_ok_iff]
      exact decoded.imp fun _ _ => And.right
    have readable := written.exists_readBack shallow (by
      simp only [List.forall_mem_cons]
      exact ⟨readable_text _, named.readable, inner.readable, by simp⟩)
    rcases readable with ⟨l, values, rfl, back⟩
    apply readBack_element back .package (.head _)
    refine ⟨(name, elements, ()), ⟨?_, ?_, trivial⟩, rfl⟩
    . exact back.finds (.tail _ (.head _)) rfl (by rintro ⟨⟩) (writesAs_part named)
    . refine back.finds (.tail _ (.tail _ (.head _))) rfl ?_ inner
      intro default
      exact congrArg some default.symm
  | person p =>
    rw [Written] at written
    rw [Legible] at legible
    have name := writesAs_name p.name legible
    have readable := written.exists_readBack shallow (by
      simp only [List.forall_mem_cons]
      exact ⟨readable_text _, name.readable, by simp⟩)
    rcases readable with ⟨l, values, rfl, back⟩
    apply readBack_element back .person (.head _)
    refine ⟨(p.name, ()), ⟨?_, trivial⟩, rfl⟩
    exact back.finds (.tail _ (.head _)) rfl (by rintro ⟨⟩) (writesAs_part name)
  | greeting g =>
    rw [Written] at written
    rw [Legible] at legible
    have person := g.person.writesAs legible False
    have readable := written.exists_readBack shallow (by
      simp only [List.forall_mem_cons]
      exact ⟨readable_text _, person.readable, by simp⟩)
    rcases readable with ⟨l, values, rfl, back⟩
    apply readBack_element back .greeting (.head _)
    refine ⟨(g.person, ()), ⟨?_, trivial⟩, rfl⟩
    exact back.finds (.tail _ (.head _)) rfl (by rintro ⟨⟩) (writesAs_part person)
termination_by structural e

theorem exists_values (es : List Element) (legible : AllLegible es) (xs : List Term)
    (written : AllWritten es xs) (limit : Nat) (shallow : ∀ x ∈ xs, x.depth ≤ limit) :
    ∃ vs,
      List.Forall₂ (fun x v => x.value? limit = some v) xs vs ∧
      List.Forall₂ (fun v e => HasTextTag v ∧ ofValue v = .ok e) vs es := by
  cases es with
  | nil =>
    cases written
    exact ⟨[], .nil, .nil⟩
  | cons e es =>
    rcases written with ⟨y, ys, rfl, written, others⟩
    rw [List.forall_mem_cons] at shallow
    rcases exists_value e legible.1 y written limit shallow.1 with ⟨v, read, decoded⟩
    rcases exists_values es legible.2 ys others limit shallow.2 with ⟨vs, all, decodedAll⟩
    exact ⟨v :: vs, .cons read all, .cons decoded decodedAll⟩
termination_by structural es

end

end Element

theorem means_elements (es : List Element) (legible : Element.AllLegible es) (items : List Term)
    (written : Element.AllWritten es items)
    (shallow : (Term.array items).depth ≤ Element.nestingLimit + 2) :
    Term.Lists Element.Means (.array items) es := by
  rw [Term.depth, Nat.succ_le_succ_iff, Term.itemsDepth_le_iff] at shallow
  rcases Element.exists_values es legible items written _ shallow with ⟨vs, all, decoded⟩
  refine ⟨items, rfl, ?_⟩
  clear written shallow
  induction all generalizing es with
  | nil =>
    cases decoded
    exact .nil
  | cons read _ ih =>
    cases decoded with
    | cons decoded others => exact .cons ⟨_, read, decoded⟩ (ih _ legible.2 others)

namespace Document

theorem means_of_written (d : Document) (x : Term) (legible : d.Legible) (written : d.Written x)
    (shallow : x.depth ≤ Json.nestingLimit) :
    Means x { kind := NodeKind.domainmodel.name, name := d.name, elements := d.elements } := by
  rcases written with ⟨members, rfl, distinct, _, all⟩
  simp only [List.forall_mem_cons] at all
  rcases all with ⟨kind, name, elements, _⟩
  rw [Term.named, Term.depth] at shallow
  have shallow := (Term.membersDepth_le_iff members 126).mp (Nat.le_of_succ_le_succ shallow)
  rw [Means, Term.recordMeans_named_iff]
  refine ⟨fun name _ => List.nodup_iff_count_le_one.mp distinct name, ?_, ?_, ?_⟩
  . rw [kind]
    rfl
  . cases found : members.lookup "name" with
    | none =>
      rw [found] at name
      exact congrArg some name.symm
    | some y =>
      rw [found] at name
      cases given : d.name with
      | none =>
        rw [given] at name
        exact name
      | some s =>
        rw [given] at name
        exact name
  . cases found : members.lookup "elements" with
    | none =>
      rw [found] at elements
      cases elements
    | some y =>
      rw [found] at elements
      rcases elements with ⟨items, rfl, written⟩
      have inside := shallow _ (Json.mem_of_lookup_eq_some members _ _ found)
      exact means_elements d.elements legible items written inside

theorem ofText_of_written (d : Document) (x : Term) (text : String) (legible : d.Legible)
    (written : d.Written x) (shallow : x.depth ≤ Json.nestingLimit)
    (spelled : x.SpelledBy text.toList) : ofText text = .ok d := by
  rw [ofText_eq_ok_iff_means text x spelled]
  exact means_of_written d x legible written shallow

-- An entity in a package, with defaults left out, a tag that comes second and an escaped slash.
def packaged : Document where
  elements := [
    .package "p" [
      .entity {
        name := "B"
        features := []
        superType := some { target := some (NodePath.root.child "elements" 0) } }]]

def packagedText : String :=
  "\x7b\"$type\":\"Domainmodel\",\"elements\":[\x7b\"name\":\"p\",\"$type\":\"PackageDeclaration\",\"elements\":[\x7b\"$type\":\"Entity\",\"name\":\"B\",\"superType\":\x7b\"$ref\":\"#\\/elements@0\"\x7d\x7d]\x7d]\x7d"

def packagedTerm : Term :=
  .named [
    ("$type", .ofText "Domainmodel"),
    ("elements", .array [.named [
      ("name", .ofText "p"),
      ("$type", .ofText "PackageDeclaration"),
      ("elements", .array [.named [
        ("$type", .ofText "Entity"),
        ("name", .ofText "B"),
        ("superType", .named [("$ref", .ofText "#/elements@0")])]])]])]

set_option maxRecDepth 1000 in
theorem packagedTerm_spelled : packagedTerm.SpelledBy packagedText.toList := by
  rw [← Json.term?_scan_eq_some_iff]
  have chars : packagedText = String.ofList
      ['\x7b', '"', '$', 't', 'y', 'p', 'e', '"', ':', '"', 'D', 'o', 'm', 'a', 'i', 'n', 'm',
       'o', 'd', 'e', 'l', '"', ',', '"', 'e', 'l', 'e', 'm', 'e', 'n', 't', 's', '"', ':', '[',
       '\x7b', '"', 'n', 'a', 'm', 'e', '"', ':', '"', 'p', '"', ',', '"', '$', 't', 'y', 'p',
       'e', '"', ':', '"', 'P', 'a', 'c', 'k', 'a', 'g', 'e', 'D', 'e', 'c', 'l', 'a', 'r', 'a',
       't', 'i', 'o', 'n', '"', ',', '"', 'e', 'l', 'e', 'm', 'e', 'n', 't', 's', '"', ':', '[',
       '\x7b', '"', '$', 't', 'y', 'p', 'e', '"', ':', '"', 'E', 'n', 't', 'i', 't', 'y', '"',
       ',', '"', 'n', 'a', 'm', 'e', '"', ':', '"', 'B', '"', ',', '"', 's', 'u', 'p', 'e', 'r',
       'T', 'y', 'p', 'e', '"', ':', '\x7b', '"', '$', 'r', 'e', 'f', '"', ':', '"', '#', '\\',
       '/', 'e', 'l', 'e', 'm', 'e', 'n', 't', 's', '@', '0', '"', '\x7d', '\x7d', ']', '\x7d',
       ']', '\x7d'] := rfl
  rw [chars, String.toList_ofList]
  rfl

theorem packaged_legible : packaged.Legible := by
  refine ⟨⟨by decide, ⟨by decide, by simp, ?_⟩, trivial⟩, trivial⟩
  rintro _ ⟨⟩ _ ⟨⟩
  rfl

theorem packaged_written : packaged.Written packagedTerm := by
  refine ⟨_, rfl, by decide, by decide, ?_⟩
  simp only [List.forall_mem_cons]
  refine ⟨rfl, rfl, ⟨_, rfl, _, _, rfl, ?_, rfl⟩, by simp⟩
  refine ⟨_, rfl, by decide, by decide, ?_⟩
  simp only [List.forall_mem_cons]
  refine ⟨rfl, rfl, ⟨_, rfl, _, _, rfl, ?_, rfl⟩, by simp⟩
  refine ⟨_, rfl, by decide, by decide, ?_⟩
  simp only [List.forall_mem_cons]
  refine ⟨rfl, rfl, trivial, ?_, by simp⟩
  refine ⟨_, rfl, by decide, by decide, ?_⟩
  simp only [List.forall_mem_cons]
  exact ⟨rfl, rfl, rfl, by simp⟩

theorem ofText_of_written_packaged :
    packaged.Legible ∧
    packaged.Written packagedTerm ∧
    packagedTerm.depth ≤ Json.nestingLimit ∧
    packagedTerm.SpelledBy packagedText.toList ∧
    ofText packagedText = .ok packaged := by
  have shallow : packagedTerm.depth ≤ Json.nestingLimit := by decide
  exact ⟨packaged_legible, packaged_written, shallow, packagedTerm_spelled,
    ofText_of_written packaged packagedTerm packagedText packaged_legible packaged_written shallow
      packagedTerm_spelled⟩

end Document

end DomainModel
