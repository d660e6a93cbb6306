import DomainModel.Proofs.Document.Reading
import DomainModel.Proofs.Document.Revision

/-!
What a linker writes: where a reference leads, or why it leads nowhere. Two texts that differ only
in this are both read or both rejected, and what they are read as differs only in the references.
-/

namespace DomainModel

open Json (Fault Field Record Term Value Matched bind_eq_ok_iff pure_eq_ok_iff mapM_eq_ok_iff
  lookup_map_name)

def isLink (name : String) : Bool := name == "$ref" || name == "$error"

namespace Json.Value

def blank : Value → Value
  | .string _ => .string ""
  | v => v

mutual

def unlinked : Value → Value
  | .array items => .array (itemsUnlinked items)
  | .object members => .object (membersUnlinked members)
  | v => v
termination_by structural v => v

def itemsUnlinked : List Value → List Value
  | [] => []
  | v :: items => v.unlinked :: itemsUnlinked items
termination_by structural items => items

def membersUnlinked : List (String × Value) → List (String × Value)
  | [] => []
  | (name, v) :: members =>
    (name, if isLink name then v.unlinked.blank else v.unlinked) :: membersUnlinked members
termination_by structural members => members

end

def unlinkedAt (name : String) (v : Value) : Value :=
  if isLink name then v.unlinked.blank else v.unlinked

theorem unlinkedAt_congr (name : String) {v w : Value} (same : v.unlinked = w.unlinked) :
    v.unlinkedAt name = w.unlinkedAt name := by
  unfold unlinkedAt
  rw [same]

theorem itemsUnlinked_eq_map (items : List Value) : itemsUnlinked items = items.map unlinked := by
  induction items with
  | nil => rfl
  | cons v items ih => rw [itemsUnlinked, ih, List.map_cons]

theorem membersUnlinked_eq_map (members : List (String × Value)) :
    membersUnlinked members =
      members.map fun member => (member.1, member.2.unlinkedAt member.1) := by
  induction members with
  | nil => rfl
  | cons member members ih =>
    rw [membersUnlinked, ih, List.map_cons]
    rfl

theorem map_fst_membersUnlinked (members : List (String × Value)) :
    (membersUnlinked members).map Prod.fst = members.map Prod.fst := by
  rw [membersUnlinked_eq_map, List.map_map]
  rfl

theorem lookup_membersUnlinked (members : List (String × Value)) (name : String) :
    (membersUnlinked members).lookup name = (members.lookup name).map (unlinkedAt name) := by
  rw [membersUnlinked_eq_map]
  apply lookup_map_name

inductive Relinked : Value → Value → Prop where
  | same (v : Value) : Relinked v v
  | array {vs ws : List Value} (all : List.Forall₂ (fun v w => v.unlinked = w.unlinked) vs ws) :
      Relinked (.array vs) (.array ws)
  | object {vs ws : List (String × Value)} (all : membersUnlinked vs = membersUnlinked ws) :
      Relinked (.object vs) (.object ws)

theorem relinked_of_unlinked {v w : Value} (same : v.unlinked = w.unlinked) : Relinked v w := by
  cases v with
  | array vs =>
    cases w with
    | array ws =>
      simp only [unlinked, array.injEq, itemsUnlinked_eq_map] at same
      rw [← List.forall₂_eq_eq_eq, List.forall₂_map_left_iff, List.forall₂_map_right_iff] at same
      exact .array same
    | _ => cases same
  | object vs =>
    cases w with
    | object ws =>
      simp only [unlinked, object.injEq] at same
      exact .object same
    | _ => cases same
  | null =>
    cases w with
    | null => exact .same _
    | _ => cases same
  | bool b =>
    cases w with
    | bool b' =>
      cases same
      exact .same _
    | _ => cases same
  | number n =>
    cases w with
    | number n' =>
      cases same
      exact .same _
    | _ => cases same
  | string s =>
    cases w with
    | string s' =>
      cases same
      exact .same _
    | _ => cases same

theorem Relinked.eq_string {s : String} {w : Value} (h : Relinked (.string s) w) :
    w = .string s := by
  cases h with
  | same => rfl

theorem Relinked.exists_array {vs : List Value} {w : Value} (h : Relinked (.array vs) w) :
    ∃ ws, w = .array ws ∧ List.Forall₂ (fun v w => v.unlinked = w.unlinked) vs ws := by
  cases h with
  | same =>
    refine ⟨vs, rfl, ?_⟩
    rw [List.forall₂_same]
    intro v _
    rfl
  | array all => exact ⟨_, rfl, all⟩

theorem Relinked.exists_object {vs : List (String × Value)} {w : Value}
    (h : Relinked (.object vs) w) :
    ∃ ws, w = .object ws ∧ membersUnlinked vs = membersUnlinked ws := by
  cases h with
  | same => exact ⟨vs, rfl, rfl⟩
  | object all => exact ⟨_, rfl, all⟩

end Json.Value

theorem exists_forall₂_of_related {σ α β : Type} {S : σ → σ → Prop} {P : σ → α → Prop} {f : α → β}
    {as : List α} (h : ∀ a ∈ as, ∀ x y, S x y → P x a → ∃ b, P y b ∧ f a = f b) {xs ys : List σ}
    (related : List.Forall₂ S xs ys) (all : List.Forall₂ P xs as) :
    ∃ bs, List.Forall₂ P ys bs ∧ as.map f = bs.map f := by
  induction related generalizing as with
  | nil =>
    cases all
    exact ⟨[], .nil, rfl⟩
  | cons first _ ih =>
    cases all with
    | @cons _ a _ as here rest =>
      rw [List.forall_mem_cons] at h
      rcases h.1 _ _ first here with ⟨b, there, same⟩
      rcases ih h.2 rest with ⟨bs, others, sameRest⟩
      refine ⟨b :: bs, .cons there others, ?_⟩
      rw [List.map_cons, List.map_cons, same, sameRest]

def Keeps {α β : Type} (read : Value → Except Fault α) (f : α → β) : Prop :=
  ∀ a v w, v.unlinked = w.unlinked → read v = .ok a → ∃ b, read w = .ok b ∧ f a = f b

def KeepsAt {α β : Type} (name : String) (read : Value → Except Fault α) (f : α → β) : Prop :=
  ∀ a v w, v.unlinkedAt name = w.unlinkedAt name →
    read v = .ok a → ∃ b, read w = .ok b ∧ f a = f b

section Keeps

variable {α β : Type} {read : Value → Except Fault α} {f : α → β}

theorem Keeps.at (h : Keeps read f) {name : String} (other : isLink name = false) :
    KeepsAt name read f := by
  intro a v w same
  unfold Value.unlinkedAt at same
  rw [other] at same
  exact h a v w same

theorem keeps_of_scalar (array : ∀ items, ∃ fault, read (.array items) = .error fault)
    (object : ∀ members, ∃ fault, read (.object members) = .error fault) : Keeps read id := by
  intro a v w same decoded
  cases Value.relinked_of_unlinked same with
  | same => exact ⟨a, decoded, rfl⟩
  | @array vs _ _ =>
    rcases array vs with ⟨fault, refused⟩
    rw [refused] at decoded
    cases decoded
  | @object vs _ _ =>
    rcases object vs with ⟨fault, refused⟩
    rw [refused] at decoded
    cases decoded

theorem optional_eq_ok_iff {v : Value} {o : Option α} :
    v.optional read = .ok o ↔
      v = .null ∧ none = o ∨ v ≠ .null ∧ ∃ a, read v = .ok a ∧ some a = o := by
  cases v with
  | null => simp [Value.optional]
  | _ =>
    simp only [Value.optional, bind_eq_ok_iff, pure_eq_ok_iff, reduceCtorEq, false_and, false_or,
      ne_eq, not_false_eq_true, true_and]

theorem Json.Value.unlinked_eq_null_iff {v : Value} : v.unlinked = .null ↔ v = .null := by
  cases v with
  | _ => simp [unlinked]

theorem Keeps.optional (h : Keeps read f) : Keeps (Value.optional read) (Option.map f) := by
  intro o v w same decoded
  have null : v = .null ↔ w = .null := by
    rw [← Value.unlinked_eq_null_iff, same, Value.unlinked_eq_null_iff]
  rw [optional_eq_ok_iff] at decoded
  rcases decoded with ⟨isNull, rfl⟩ | ⟨notNull, a, decoded, rfl⟩
  . refine ⟨none, ?_, rfl⟩
    rw [optional_eq_ok_iff]
    exact .inl ⟨null.mp isNull, rfl⟩
  . rcases h a v w same decoded with ⟨b, decoded, related⟩
    refine ⟨some b, ?_, congrArg some related⟩
    rw [optional_eq_ok_iff]
    exact .inr ⟨mt null.mpr notNull, b, decoded, rfl⟩

theorem exists_list_of_unlinked {as : List α}
    (h : ∀ a ∈ as, ∀ v w : Value, v.unlinked = w.unlinked →
      read v = .ok a → ∃ b, read w = .ok b ∧ f a = f b) {v w : Value}
    (same : v.unlinked = w.unlinked) (decoded : v.list read = .ok as) :
    ∃ bs, w.list read = .ok bs ∧ as.map f = bs.map f := by
  cases v with
  | array vs =>
    rcases (Value.relinked_of_unlinked same).exists_array with ⟨ws, rfl, items⟩
    rw [Value.list, mapM_eq_ok_iff] at decoded
    rcases exists_forall₂_of_related h items decoded with ⟨bs, all, related⟩
    refine ⟨bs, ?_, related⟩
    rw [Value.list, mapM_eq_ok_iff]
    exact all
  | null => cases decoded
  | bool b => cases decoded
  | number n => cases decoded
  | string s => cases decoded
  | object members => cases decoded

theorem Keeps.list (h : Keeps read f) : Keeps (Value.list read) (List.map f) := by
  intro as v w same decoded
  apply exists_list_of_unlinked _ same decoded
  intro a _
  exact h a

end Keeps

theorem keeps_optionalText : Keeps (Value.optional Value.text) id :=
  keeps_of_scalar (fun _ => ⟨_, rfl⟩) fun _ => ⟨_, rfl⟩

theorem keeps_boolean : Keeps Value.boolean id :=
  keeps_of_scalar (fun _ => ⟨_, rfl⟩) fun _ => ⟨_, rfl⟩

theorem keeps_nameOfValue : Keeps nameOfValue id :=
  keeps_of_scalar (fun _ => ⟨_, rfl⟩) fun _ => ⟨_, rfl⟩

theorem ElementKind.keeps_ofValue : Keeps ofValue id :=
  keeps_of_scalar (fun _ => ⟨_, rfl⟩) fun _ => ⟨_, rfl⟩

theorem keepsAt_link {name : String} (link : isLink name = true) :
    KeepsAt name (Value.optional Value.text) fun _ => () := by
  intro o v w same decoded
  unfold Value.unlinkedAt at same
  rw [if_pos link, if_pos link] at same
  cases v with
  | string s =>
    cases w with
    | string s' => exact ⟨some s', rfl, rfl⟩
    | _ => cases same
  | null =>
    cases w with
    | null => exact ⟨none, rfl, rfl⟩
    | _ => cases same
  | _ => cases decoded

theorem membersUnlinked_zip (names : List String) {vs ws : List Value}
    (same : List.Forall₂ (fun v w => v.unlinked = w.unlinked) vs ws) :
    Value.membersUnlinked (names.zip vs) = Value.membersUnlinked (names.zip ws) := by
  rw [Value.membersUnlinked_eq_map, Value.membersUnlinked_eq_map]
  induction same generalizing names with
  | nil => rfl
  | cons first _ ih =>
    cases names with
    | nil => rfl
    | cons name names =>
      rw [List.zip_cons_cons, List.zip_cons_cons, List.map_cons, List.map_cons, ih]
      rw [Value.unlinkedAt_congr name first]

section Members

variable {vs ws : List (String × Value)} {α β : Type} {f : α → β} {a : α}

theorem map_fst_eq_of_unlinked (same : Value.membersUnlinked vs = Value.membersUnlinked ws) :
    vs.map Prod.fst = ws.map Prod.fst := by
  rw [← Value.map_fst_membersUnlinked, same, Value.map_fst_membersUnlinked]

theorem exists_lookup_of_unlinked (same : Value.membersUnlinked vs = Value.membersUnlinked ws)
    {name : String} {v : Value} (found : vs.lookup name = some v) :
    ∃ w, ws.lookup name = some w ∧ v.unlinkedAt name = w.unlinkedAt name := by
  have alike := Value.lookup_membersUnlinked ws name
  rw [← same, Value.lookup_membersUnlinked, found] at alike
  rw [Option.map_some, eq_comm, Option.map_eq_some_iff] at alike
  rcases alike with ⟨w, found, alike⟩
  exact ⟨w, found, alike.symm⟩

theorem exists_mem_of_unlinked (same : Value.membersUnlinked vs = Value.membersUnlinked ws)
    {name : String} {w : Value} (mem : (name, w) ∈ ws) :
    ∃ v, (name, v) ∈ vs ∧ v.unlinkedAt name = w.unlinkedAt name := by
  have alike : (name, w.unlinkedAt name) ∈ Value.membersUnlinked vs := by
    rw [same, Value.membersUnlinked_eq_map, List.mem_map]
    exact ⟨_, mem, rfl⟩
  rw [Value.membersUnlinked_eq_map, List.mem_map] at alike
  rcases alike with ⟨⟨_, v⟩, there, alike⟩
  rw [Prod.mk.injEq] at alike
  rcases alike with ⟨rfl, alike⟩
  exact ⟨v, there, alike⟩

theorem exists_finds_of_unlinked {σ : Type} {field : Field σ α} {source : Value → σ}
    (keeps : ∀ v w, v.unlinkedAt field.name = w.unlinkedAt field.name →
      field.read (source v) = .ok a → ∃ b, field.read (source w) = .ok b ∧ f a = f b)
    (same : Value.membersUnlinked vs = Value.membersUnlinked ws)
    (found : field.Finds (fun name => (vs.lookup name).map source) a) :
    ∃ b, field.Finds (fun name => (ws.lookup name).map source) b ∧ f a = f b := by
  have alike := Value.lookup_membersUnlinked vs field.name
  rw [same, Value.lookup_membersUnlinked] at alike
  unfold Field.Finds at found ⊢
  dsimp only at found ⊢
  generalize vs.lookup field.name = v at alike found
  generalize ws.lookup field.name = w at alike ⊢
  cases v with
  | none =>
    cases w with
    | none => exact ⟨a, found, rfl⟩
    | some w => cases alike
  | some v =>
    cases w with
    | none => cases alike
    | some w => exact keeps v w (Option.some.inj alike).symm found

theorem exists_plain_of_unlinked {field : Field Value α} (keeps : KeepsAt field.name field.read f)
    (same : Value.membersUnlinked vs = Value.membersUnlinked ws)
    (found : field.Finds (vs.lookup ·) a) : ∃ b, field.Finds (ws.lookup ·) b ∧ f a = f b := by
  have read : field.Finds (fun name => (vs.lookup name).map id) a →
      ∃ b, field.Finds (fun name => (ws.lookup name).map id) b ∧ f a = f b := by
    apply exists_finds_of_unlinked _ same
    exact keeps a
  simp only [Option.map_id_fun, id] at read
  exact read found

end Members

theorem keeps_record {α β : Type} {f : α → β} (record : Record Value α)
    (distinct : record.fields.names.Nodup)
    (keeps : ∀ vs ws, Value.membersUnlinked vs = Value.membersUnlinked ws →
      ∀ values, record.fields.Selects (vs.lookup ·) values →
        ∃ values', record.fields.Selects (ws.lookup ·) values' ∧
          f (record.build values) = f (record.build values')) :
    Keeps record.ofValue f := by
  intro a v w same decoded
  cases v with
  | object vs =>
    rcases (Value.relinked_of_unlinked same).exists_object with ⟨ws, rfl, members⟩
    rw [Record.ofValue, record.ofMembers_eq_ok_iff distinct] at decoded
    rcases decoded with ⟨once, values, selected, rfl⟩
    rcases keeps _ _ members values selected with ⟨values', selected, related⟩
    refine ⟨_, ?_, related⟩
    rw [Record.ofValue, record.ofMembers_eq_ok_iff distinct]
    unfold Record.Once at once ⊢
    rw [← map_fst_eq_of_unlinked members]
    exact ⟨once, values', selected, rfl⟩
  | array vs =>
    rcases (Value.relinked_of_unlinked same).exists_array with ⟨ws, rfl, items⟩
    rw [Record.ofValue, record.ofItems_eq_ok_iff distinct,
      record.ofMembers_eq_ok_iff distinct] at decoded
    rcases decoded with ⟨short, _, values, selected, rfl⟩
    rcases keeps _ _ (membersUnlinked_zip _ items) values selected with
      ⟨values', selected, related⟩
    refine ⟨_, ?_, related⟩
    rw [Record.ofValue, record.ofItems_eq_ok_iff distinct, record.ofMembers_eq_ok_iff distinct]
    rw [← items.length_eq]
    exact ⟨short, record.once_zip distinct ws, values', selected, rfl⟩
  | null => cases decoded
  | bool b => cases decoded
  | number n => cases decoded
  | string s => cases decoded

def Reference.unlinked (r : Reference) : Reference := { text := r.text }

def Feature.unlinked (f : Feature) : Feature := { f with type := f.type.unlinked }

def Entity.unlinked (e : Entity) : Entity where
  name := e.name
  features := e.features.map Feature.unlinked
  superType := e.superType.map Reference.unlinked

def Greeting.unlinked (g : Greeting) : Greeting := { person := g.person.unlinked }

def Element.unlinked : Element → Element := revise Entity.unlinked Greeting.unlinked

def Document.unlinked : Document → Document := revise Entity.unlinked Greeting.unlinked

theorem Reference.keeps_ofValue : Keeps ofValue unlinked := by
  apply keeps_record
  . decide
  . intro vs ws same values selected
    rcases values with ⟨target, text, error, _⟩
    rcases selected with ⟨hasTarget, hasText, hasError, _⟩
    rcases exists_plain_of_unlinked (keepsAt_link rfl) same hasTarget with ⟨target', hasTarget, _⟩
    rcases exists_plain_of_unlinked (keeps_optionalText.at rfl) same hasText with
      ⟨text', hasText, sameText⟩
    rcases exists_plain_of_unlinked (keepsAt_link rfl) same hasError with ⟨error', hasError, _⟩
    refine ⟨(target', text', error', ()), ⟨hasTarget, hasText, hasError, trivial⟩, ?_⟩
    exact congrArg (fun text => Reference.mk text none none) sameText

theorem Feature.keeps_ofValue : Keeps record.ofValue unlinked := by
  apply keeps_record
  . decide
  . intro vs ws same values selected
    rcases values with ⟨name, type, many, _⟩
    rcases selected with ⟨hasName, hasType, hasMany, _⟩
    rcases exists_plain_of_unlinked (keeps_nameOfValue.at rfl) same hasName with
      ⟨name', hasName, sameName⟩
    rcases exists_plain_of_unlinked (Reference.keeps_ofValue.at rfl) same hasType with
      ⟨type', hasType, sameType⟩
    rcases exists_plain_of_unlinked (keeps_boolean.at rfl) same hasMany with
      ⟨many', hasMany, sameMany⟩
    refine ⟨(name', type', many', ()), ⟨hasName, hasType, hasMany, trivial⟩, ?_⟩
    change Feature.mk name type.unlinked many = Feature.mk name' type'.unlinked many'
    rw [sameType]
    cases sameName
    cases sameMany
    rfl

namespace Element

theorem keepsAt_part {α β : Type} {name : String} {read : Value → Except Fault α} {f : α → β}
    (h : KeepsAt name read f) : KeepsAt name (fun v => read (partOfValue v).value) f := by
  simp only [partOfValue_value]
  exact h

-- Inside a package the same is known of the elements already, as the induction goes.
theorem exists_selected_of_unlinked (kind : ElementKind) {e : Element}
    (inner : ∀ name elements, e = .package name elements →
      ∀ v w : Value, v.unlinked = w.unlinked → v.list ofValue = .ok elements →
        ∃ others, w.list ofValue = .ok others ∧ elements.map unlinked = others.map unlinked)
    {vs ws : List (String × Value)} (same : Value.membersUnlinked vs = Value.membersUnlinked ws)
    (selected : Selected kind (vs.lookup ·) e) :
    ∃ e', Selected kind (ws.lookup ·) e' ∧ e.unlinked = e'.unlinked := by
  rcases selected with ⟨values, selected, rfl⟩
  have names : KeepsAt "name" (fun v => Part.name (partOfValue v)) id :=
    keepsAt_part (keeps_nameOfValue.at rfl)
  cases kind with
  | dataType =>
    rcases values with ⟨name, _⟩
    rcases selected with ⟨hasName, _⟩
    rcases exists_finds_of_unlinked (names _) same hasName with ⟨name', hasName, sameName⟩
    cases sameName
    exact ⟨_, ⟨(name, ()), ⟨hasName, trivial⟩, rfl⟩, rfl⟩
  | person =>
    rcases values with ⟨name, _⟩
    rcases selected with ⟨hasName, _⟩
    rcases exists_finds_of_unlinked (names _) same hasName with ⟨name', hasName, sameName⟩
    cases sameName
    exact ⟨_, ⟨(name, ()), ⟨hasName, trivial⟩, rfl⟩, rfl⟩
  | greeting =>
    rcases values with ⟨person, _⟩
    rcases selected with ⟨hasPerson, _⟩
    rcases exists_finds_of_unlinked
        (keepsAt_part (Reference.keeps_ofValue.at rfl) _) same hasPerson with
      ⟨person', hasPerson, samePerson⟩
    refine ⟨_, ⟨(person', ()), ⟨hasPerson, trivial⟩, rfl⟩, ?_⟩
    exact congrArg (fun person => Element.greeting ⟨person⟩) samePerson
  | entity =>
    rcases values with ⟨name, features, superType, _⟩
    rcases selected with ⟨hasName, hasFeatures, hasSuper, _⟩
    rcases exists_finds_of_unlinked (names _) same hasName with ⟨name', hasName, sameName⟩
    rcases exists_finds_of_unlinked
        (keepsAt_part (Feature.keeps_ofValue.list.at rfl) _) same hasFeatures with
      ⟨features', hasFeatures, sameFeatures⟩
    rcases exists_finds_of_unlinked
        (keepsAt_part (Reference.keeps_ofValue.optional.at rfl) _) same hasSuper with
      ⟨superType', hasSuper, sameSuper⟩
    refine ⟨_, ⟨(name', features', superType', ()), ⟨hasName, hasFeatures, hasSuper, trivial⟩, rfl⟩,
      ?_⟩
    cases sameName
    change Element.entity ⟨name, features.map _, superType.map _⟩ = .entity ⟨name, _, _⟩
    rw [sameFeatures, sameSuper]
  | package =>
    rcases values with ⟨name, elements, _⟩
    rcases selected with ⟨hasName, hasElements, _⟩
    rcases exists_finds_of_unlinked (names _) same hasName with ⟨name', hasName, sameName⟩
    have bodies : ∀ v w, v.unlinkedAt "elements" = w.unlinkedAt "elements" →
        (partOfValue v).elements () = .ok elements →
          ∃ others, (partOfValue w).elements () = .ok others ∧
            elements.map unlinked = others.map unlinked := by
      intro v w
      rw [elements_partOfValue, elements_partOfValue]
      exact inner name elements rfl v w
    rcases exists_finds_of_unlinked bodies same hasElements with
      ⟨elements', hasElements, sameElements⟩
    refine ⟨_, ⟨(name', elements', ()), ⟨hasName, hasElements, trivial⟩, rfl⟩, ?_⟩
    cases sameName
    change Element.package name (reviseAll _ _ elements) = .package name (reviseAll _ _ elements')
    rw [reviseAll_eq_map, reviseAll_eq_map]
    exact congrArg (Element.package name) sameElements

theorem hasTextTag_of_unlinked {v w : Value} (same : v.unlinked = w.unlinked)
    (texts : HasTextTag v) : HasTextTag w := by
  cases Value.relinked_of_unlinked same with
  | same => exact texts
  | object all =>
    intro w mem
    rcases exists_mem_of_unlinked all mem with ⟨v, mem, alike⟩
    rcases texts v mem with ⟨s, rfl⟩
    exact ⟨s, (Value.relinked_of_unlinked alike).eq_string⟩
  | array all =>
    cases all with
    | nil => trivial
    | cons first _ =>
      rcases texts with ⟨s, rfl⟩
      exact ⟨s, (Value.relinked_of_unlinked first).eq_string⟩

theorem exists_of_unlinked (e : Element)
    (inner : ∀ name elements, e = .package name elements →
      ∀ v w : Value, v.unlinked = w.unlinked → v.list ofValue = .ok elements →
        ∃ others, w.list ofValue = .ok others ∧ elements.map unlinked = others.map unlinked)
    (v w : Value) (same : v.unlinked = w.unlinked) (decoded : ofValue v = .ok e) :
    ∃ e', ofValue w = .ok e' ∧ e.unlinked = e'.unlinked := by
  cases v with
  | object vs =>
    rcases (Value.relinked_of_unlinked same).exists_object with ⟨ws, rfl, members⟩
    rw [ofValue_object_eq_ok_iff] at decoded
    rcases decoded with ⟨tag, kind, tagged, known, once, selected⟩
    rcases exists_selected_of_unlinked kind inner members selected with ⟨e', selected, related⟩
    refine ⟨e', ?_, related⟩
    rw [ofValue_object_eq_ok_iff]
    rcases exists_lookup_of_unlinked members tagged with ⟨tag', tagged', alike⟩
    rcases ElementKind.keeps_ofValue.at rfl kind tag tag' alike known with ⟨_, known', rfl⟩
    rw [map_fst_eq_of_unlinked members] at once
    exact ⟨tag', _, tagged', known', once, selected⟩
  | array vs =>
    rcases (Value.relinked_of_unlinked same).exists_array with ⟨ws, rfl, items⟩
    rw [ofValue_array_eq_ok_iff] at decoded
    rcases decoded with ⟨tag, rest, kind, rfl, known, short, selected⟩
    cases items with
    | @cons _ tag' _ rest' first others =>
      rcases exists_selected_of_unlinked kind inner (membersUnlinked_zip _ others) selected with
        ⟨e', selected, related⟩
      rcases ElementKind.keeps_ofValue kind tag tag' first known with ⟨_, known', rfl⟩
      refine ⟨e', ?_, related⟩
      rw [ofValue_array_eq_ok_iff]
      rw [others.length_eq] at short
      exact ⟨tag', rest', _, rfl, known', short, selected⟩
  | null => cases decoded
  | bool b => cases decoded
  | number n => cases decoded
  | string s => cases decoded

mutual

theorem keeps_ofValue : (e : Element) → ∀ v w : Value, v.unlinked = w.unlinked →
    ofValue v = .ok e → ∃ e', ofValue w = .ok e' ∧ e.unlinked = e'.unlinked
  | .package name elements => by
    apply exists_of_unlinked
    intro _ _ same
    cases same
    intro v w
    apply exists_list_of_unlinked
    exact keeps_all elements
  | .dataType _ | .entity _ | .person _ | .greeting _ => by
    apply exists_of_unlinked
    intro _ _ same
    cases same
termination_by structural e => e

theorem keeps_all : (elements : List Element) → ∀ e ∈ elements, ∀ v w : Value,
    v.unlinked = w.unlinked → ofValue v = .ok e → ∃ e', ofValue w = .ok e' ∧ e.unlinked = e'.unlinked
  | [] => by
    intro e mem
    cases mem
  | e :: elements => by
    intro e' mem
    rw [List.mem_cons] at mem
    rcases mem with same | mem
    . rw [same]
      exact keeps_ofValue e
    . exact keeps_all elements e' mem
termination_by structural elements => elements

end

end Element

end DomainModel
