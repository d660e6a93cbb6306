import DomainModel.Proofs.Document.Reading

/-!
Which parts of a text decide its document: the members that are known where they stand, however they
are ordered and whatever stands beside them.
-/

namespace DomainModel

open Json (Field Record Term Value Matched bind_eq_ok_iff pure_eq_ok_iff mapM_eq_ok_iff
  toOption_eq_some_iff)

inductive Role where
  | plain
  | document
  | elements
  | element
  | features
  | feature
  | reference
  deriving DecidableEq

def ElementKind.members : ElementKind → List (String × Role)
  | .dataType => [("name", .plain)]
  | .entity => [("name", .plain), ("features", .features), ("superType", .reference)]
  | .package => [("name", .plain), ("elements", .elements)]
  | .person => [("name", .plain)]
  | .greeting => [("person", .reference)]

def ElementKind.ofTag? (tag : Option Term) : Option ElementKind := do
  let v ← (← tag).value? 0
  (ofValue v).toOption

namespace Role

def members? (tag : Option Term) : Role → Option (List (String × Role))
  | .document => some [("$type", .plain), ("name", .plain), ("elements", .elements)]
  | .element =>
    some (("$type", .plain) :: ((ElementKind.ofTag? tag).map ElementKind.members).getD [])
  | .feature => some [("name", .plain), ("type", .reference), ("many", .plain)]
  | .reference => some [("$ref", .plain), ("$refText", .plain), ("$error", .plain)]
  | .plain | .elements | .features => none

def item? : Role → Option Role
  | .elements => some .element
  | .features => some .feature
  | .plain | .document | .element | .feature | .reference => none

end Role

/--
Two terms agree on everything that is known in this role. In objects without repeated names these
are the members that are known there; what else stands there can be read, as so many further arrays
and objects may be open.
-/
inductive Agrees : Nat → Role → Term → Term → Prop where
  | same (limit : Nat) (role : Role) (x : Term) : Agrees limit role x x
  | array {limit : Nat} {role item : Role} {items others : List Term}
      (known : role.item? = some item)
      (length : items.length = others.length)
      (agree : ∀ (i : Nat) (x y : Term),
        items[i]? = some x → others[i]? = some y → Agrees (limit - 1) item x y) :
      Agrees limit role (.array items) (.array others)
  | object {limit : Nat} {role : Role} {known : List (String × Role)}
      {members others : List (String × Term)}
      (found : role.members? (members.lookup "$type") = some known)
      (distinct : (members.map Prod.fst).Nodup)
      (distinct' : (others.map Prod.fst).Nodup)
      (present : ∀ name ∈ known.map Prod.fst,
        (members.lookup name).isSome = (others.lookup name).isSome)
      (agree : ∀ name role x y, (name, role) ∈ known →
        members.lookup name = some x → others.lookup name = some y → Agrees (limit - 1) role x y)
      (readable : ∀ member ∈ members ++ others,
        member.1 ∉ known.map Prod.fst → ∃ v, member.2.value? (limit - 1) = some v) :
      Agrees limit role (.named members) (.named others)

namespace Agrees

theorem eq_of_plain {limit : Nat} {x y : Term} (h : Agrees limit .plain x y) : x = y := by
  cases h with
  | same => rfl
  | array known => cases known
  | object found => cases found

theorem rel_of_present {R : Term → Term → Prop} {m o : Option Term} (present : m.isSome = o.isSome)
    (agree : ∀ x y, m = some x → o = some y → R x y) : Option.Rel R m o := by
  cases m with
  | none =>
    cases o with
    | none => exact .none
    | some y => cases present
  | some x =>
    cases o with
    | none => cases present
    | some y => exact .some (agree x y rfl rfl)

theorem tag_eq {limit : Nat} {role : Role} {known : List (String × Role)}
    {members others : List (String × Term)}
    (found : role.members? (members.lookup "$type") = some known)
    (present : ∀ name ∈ known.map Prod.fst,
      (members.lookup name).isSome = (others.lookup name).isSome)
    (agree : ∀ name role x y, (name, role) ∈ known →
      members.lookup name = some x → others.lookup name = some y → Agrees limit role x y) :
    role.members? (others.lookup "$type") = some known := by
  by_cases tagged : ("$type", Role.plain) ∈ known
  . have same := rel_of_present (present "$type" (List.mem_map.mpr ⟨_, tagged, rfl⟩))
      fun x y => agree "$type" .plain x y tagged
    rw [← found]
    generalize members.lookup "$type" = tag at same ⊢
    generalize others.lookup "$type" = tag' at same ⊢
    cases same with
    | none => rfl
    | some same => rw [same.eq_of_plain]
  . cases role with
    | element =>
      cases found
      exact absurd List.mem_cons_self tagged
    | document => exact found
    | feature => exact found
    | reference => exact found
    | plain => cases found
    | elements => cases found
    | features => cases found

theorem symm {limit : Nat} {role : Role} {x y : Term} (h : Agrees limit role x y) :
    Agrees limit role y x := by
  induction h with
  | same limit role x => exact .same limit role x
  | array known length _ ih => exact .array known length.symm fun i x y hx hy => ih i y x hy hx
  | object found distinct distinct' present agree readable ih =>
    refine .object (tag_eq found present agree) distinct' distinct ?_ ?_ ?_
    . intro name mem
      exact (present name mem).symm
    . intro name role x y mem hx hy
      exact ih name role y x mem hy hx
    . intro member mem
      rw [List.mem_append, or_comm, ← List.mem_append] at mem
      exact readable member mem

end Agrees

def Role.Alike : Role → Value → Value → Prop
  | .plain, v, w => v = w
  | .document, _, _ => True
  | .elements, v, w =>
    ∀ es, (Element.partOfValue v).elements () = .ok es →
      (Element.partOfValue w).elements () = .ok es
  | .element, v, w =>
    (Element.HasTextTag v → Element.HasTextTag w) ∧
    ∀ e, Element.ofValue v = .ok e → Element.ofValue w = .ok e
  | .features, v, w =>
    ∀ fs, v.list Feature.record.ofValue = .ok fs → w.list Feature.record.ofValue = .ok fs
  | .feature, v, w => ∀ f, Feature.record.ofValue v = .ok f → Feature.record.ofValue w = .ok f
  | .reference, v, w =>
    (∀ r, Reference.ofValue v = .ok r → Reference.ofValue w = .ok r) ∧
    ∀ r, v.optional Reference.ofValue = .ok r → w.optional Reference.ofValue = .ok r

theorem Role.alike_refl (role : Role) (v : Value) : role.Alike v v := by
  cases role with
  | plain => rfl
  | document => trivial
  | elements => exact fun _ h => h
  | element => exact ⟨fun h => h, fun _ h => h⟩
  | features => exact fun _ h => h
  | feature => exact fun _ h => h
  | reference => exact ⟨fun _ h => h, fun _ h => h⟩

theorem list_eq_ok_of_forall₂ {α : Type} {read : Value → Except Json.Fault α} {vs ws : List Value}
    (alike : List.Forall₂ (fun v w => ∀ a, read v = .ok a → read w = .ok a) vs ws) (as : List α)
    (decoded : (Value.array vs).list read = .ok as) : (Value.array ws).list read = .ok as := by
  rw [Value.list, mapM_eq_ok_iff] at decoded ⊢
  induction alike generalizing as with
  | nil => exact decoded
  | cons same _ ih =>
    cases decoded with
    | cons first rest => exact .cons (same _ first) (ih _ rest)

theorem Role.alike_array {role item : Role} (known : role.item? = some item) {vs ws : List Value}
    (alike : List.Forall₂ item.Alike vs ws) : role.Alike (.array vs) (.array ws) := by
  cases role with
  | elements =>
    cases known
    intro es
    rw [Element.elements_partOfValue, Element.elements_partOfValue]
    exact list_eq_ok_of_forall₂ (alike.imp fun v w same => same.2) es
  | features =>
    cases known
    exact list_eq_ok_of_forall₂ alike
  | plain => cases known
  | document => cases known
  | element => cases known
  | feature => cases known
  | reference => cases known

def AlikeIn (known : List (String × Role)) (vs ws : List (String × Value)) : Prop :=
  ∀ name role, (name, role) ∈ known → Option.Rel role.Alike (vs.lookup name) (ws.lookup name)

section Object

variable {vs ws : List (String × Value)}

theorem finds_plain {α : Type} {field : Field Value α}
    (same : Option.Rel Role.plain.Alike (vs.lookup field.name) (ws.lookup field.name)) (value : α)
    (found : field.Finds (vs.lookup ·) value) : field.Finds (ws.lookup ·) value := by
  refine Field.finds_of_rel same ?_ value found
  rintro v _ rfl value read
  exact read

theorem finds_part {α : Type} {field : Field Element.Part α} {role : Role}
    (same : Option.Rel role.Alike (vs.lookup field.name) (ws.lookup field.name))
    (read : ∀ v w, role.Alike v w → ∀ value,
      field.read (Element.partOfValue v) = .ok value →
        field.read (Element.partOfValue w) = .ok value)
    (value : α) (found : field.Finds (fun key => (vs.lookup key).map Element.partOfValue) value) :
    field.Finds (fun key => (ws.lookup key).map Element.partOfValue) value := by
  rw [Field.Finds] at found ⊢
  generalize vs.lookup field.name = v at same found
  generalize ws.lookup field.name = w at same ⊢
  cases same with
  | none => exact found
  | some related => exact read _ _ related value found

theorem ofMembers_of_foundIn {α : Type} (record : Record Value α)
    (names : record.fields.names.Nodup) (distinct : (ws.map Prod.fst).Nodup)
    (found : record.fields.FoundIn (vs.lookup ·) (ws.lookup ·)) (a : α)
    (decoded : record.ofMembers vs = .ok a) : record.ofMembers ws = .ok a := by
  rw [record.ofMembers_eq_ok_iff names] at decoded ⊢
  rcases decoded with ⟨_, values, selected, built⟩
  exact ⟨distinct.filter _, values, found.selects values selected, built⟩

theorem alike_reference (distinct : (ws.map Prod.fst).Nodup)
    (alike : AlikeIn [("$ref", .plain), ("$refText", .plain), ("$error", .plain)] vs ws) :
    Role.reference.Alike (.object vs) (.object ws) := by
  have decoded (r : Reference) (h : Reference.ofValue (.object vs) = .ok r) :
      Reference.ofValue (.object ws) = .ok r := by
    refine ofMembers_of_foundIn (Reference.record (Value.optional Value.text)) (by decide) distinct
      ⟨?_, ?_, ?_, trivial⟩ r h
    . exact finds_plain (alike "$ref" .plain (by simp))
    . exact finds_plain (alike "$refText" .plain (by simp))
    . exact finds_plain (alike "$error" .plain (by simp))
  refine ⟨decoded, ?_⟩
  intro r h
  simp only [Value.optional, bind_eq_ok_iff, pure_eq_ok_iff] at h ⊢
  rcases h with ⟨r, h, rfl⟩
  exact ⟨r, decoded r h, rfl⟩

theorem alike_feature (distinct : (ws.map Prod.fst).Nodup)
    (alike : AlikeIn [("name", .plain), ("type", .reference), ("many", .plain)] vs ws) :
    Role.feature.Alike (.object vs) (.object ws) := by
  intro f h
  refine ofMembers_of_foundIn Feature.record (by decide) distinct ⟨?_, ?_, ?_, trivial⟩ f h
  . exact finds_plain (alike "name" .plain (by simp))
  . exact Field.finds_of_rel (alike "type" .reference (by simp)) fun v w same => same.1
  . exact finds_plain (alike "many" .plain (by simp))

theorem finds_plainPart {α : Type} {field : Field Element.Part α}
    (same : Option.Rel Role.plain.Alike (vs.lookup field.name) (ws.lookup field.name)) (value : α)
    (found : field.Finds (fun key => (vs.lookup key).map Element.partOfValue) value) :
    field.Finds (fun key => (ws.lookup key).map Element.partOfValue) value := by
  refine finds_part same ?_ value found
  rintro v _ rfl value read
  exact read

theorem foundIn_element (kind : ElementKind) (alike : AlikeIn kind.members vs ws) :
    (Element.record kind).fields.FoundIn (fun key => (vs.lookup key).map Element.partOfValue)
      (fun key => (ws.lookup key).map Element.partOfValue) := by
  cases kind with
  | dataType =>
    exact ⟨finds_plainPart (alike "name" .plain (by simp [ElementKind.members])), trivial⟩
  | entity =>
    refine ⟨?_, ?_, ?_, trivial⟩
    . exact finds_plainPart (alike "name" .plain (by simp [ElementKind.members]))
    . apply finds_part (alike "features" .features (by simp [ElementKind.members]))
      intro v w same fs
      dsimp only
      rw [Element.partOfValue_value, Element.partOfValue_value]
      exact same fs
    . apply finds_part (alike "superType" .reference (by simp [ElementKind.members]))
      intro v w same r
      dsimp only
      rw [Element.partOfValue_value, Element.partOfValue_value]
      exact same.2 r
  | package =>
    refine ⟨?_, ?_, trivial⟩
    . exact finds_plainPart (alike "name" .plain (by simp [ElementKind.members]))
    . exact finds_part (alike "elements" .elements (by simp [ElementKind.members]))
        fun v w same => same
  | person =>
    exact ⟨finds_plainPart (alike "name" .plain (by simp [ElementKind.members])), trivial⟩
  | greeting =>
    refine ⟨?_, trivial⟩
    apply finds_part (alike "person" .reference (by simp [ElementKind.members]))
    intro v w same r
    dsimp only
    rw [Element.partOfValue_value, Element.partOfValue_value]
    exact same.1 r

theorem alike_element (tag : Option Term)
    (tags : ∀ t kind, vs.lookup "$type" = some t → ElementKind.ofValue t = .ok kind →
      ElementKind.ofTag? tag = some kind)
    (distinct : (ws.map Prod.fst).Nodup)
    (alike : AlikeIn
      (("$type", .plain) :: ((ElementKind.ofTag? tag).map ElementKind.members).getD []) vs ws) :
    Role.element.Alike (.object vs) (.object ws) := by
  have tagged := alike "$type" .plain List.mem_cons_self
  constructor
  . intro texts v mem
    have found := Json.lookup_eq_some_of_mem ws distinct "$type" v mem
    rw [found] at tagged
    generalize given : vs.lookup "$type" = t at tagged
    cases tagged with
    | some same =>
      cases same
      exact texts v (Json.mem_of_lookup_eq_some vs "$type" v given)
  . intro e decoded
    rw [Element.ofValue_object_eq_ok_iff] at decoded ⊢
    rcases decoded with ⟨t, kind, given, known, _, values, selected, built⟩
    rw [tags t kind given known] at alike
    refine ⟨t, kind, ?_, known, ?_, values, ?_, built⟩
    . change vs.lookup "$type" = some t at given
      change ws.lookup "$type" = some t
      rw [given] at tagged
      generalize ws.lookup "$type" = t' at tagged ⊢
      cases tagged with
      | some same => rw [same]
    . intro key _
      exact List.nodup_iff_count_le_one.mp distinct key
    . apply (foundIn_element kind _).selects values selected
      intro name role mem
      exact alike name role (List.mem_cons_of_mem _ mem)

end Object

theorem Role.alike_object {role : Role} {tag : Option Term} {known : List (String × Role)}
    (found : role.members? tag = some known) {vs ws : List (String × Value)}
    (tags : ∀ t kind, vs.lookup "$type" = some t → ElementKind.ofValue t = .ok kind →
      ElementKind.ofTag? tag = some kind)
    (distinct : (ws.map Prod.fst).Nodup) (alike : AlikeIn known vs ws) :
    role.Alike (.object vs) (.object ws) := by
  cases role with
  | document => trivial
  | element =>
    cases found
    exact alike_element tag tags distinct alike
  | feature =>
    cases found
    exact alike_feature distinct alike
  | reference =>
    cases found
    exact alike_reference distinct alike
  | plain => cases found
  | elements => cases found
  | features => cases found

theorem ElementKind.ofTag?_of_value? {limit : Nat} {x : Term} {t : Value} {kind : ElementKind}
    (read : x.value? limit = some t) (known : ofValue t = .ok kind) :
    ofTag? (some x) = some kind := by
  have scalar (same : x.value? 0 = some t) : ofTag? (some x) = some kind := by
    change (x.value? 0).bind _ = _
    rw [same, Option.bind_some, known]
    rfl
  apply scalar
  cases t with
  | string s =>
    have same : x = .string (some s) := Term.gives_of_value? read
    rw [same]
    rfl
  | number n =>
    have same : x = .number (some n) := Term.gives_of_value? read
    rw [same]
    rfl
  | null => cases known
  | bool b => cases known
  | array vs => cases known
  | object vs => cases known

theorem exists_forall₂ {α β : Type} {P : α → β → Prop} {Q : β → β → Prop} {as as' : List α}
    {bs : List β} (length : as.length = as'.length) (all : List.Forall₂ P as bs)
    (h : ∀ (i : Nat) (a a' : α), as[i]? = some a → as'[i]? = some a' →
      ∀ b, P a b → ∃ b', P a' b' ∧ Q b b') :
    ∃ bs', List.Forall₂ P as' bs' ∧ List.Forall₂ Q bs bs' := by
  induction all generalizing as' with
  | nil =>
    cases as' with
    | nil => exact ⟨[], .nil, .nil⟩
    | cons a' as' => cases length
  | @cons a b as bs first _ ih =>
    cases as' with
    | nil => cases length
    | cons a' as' =>
      rcases h 0 a a' rfl rfl b first with ⟨b', first', same⟩
      rcases ih (Nat.succ.inj length) fun i => h (i + 1) with ⟨bs', all', others⟩
      exact ⟨b' :: bs', .cons first' all', .cons same others⟩

theorem Agrees.exists_alike {limit : Nat} {role : Role} {x y : Term} (h : Agrees limit role x y)
    (v : Value) (read : x.value? limit = some v) :
    ∃ w, y.value? limit = some w ∧ role.Alike v w := by
  induction h generalizing v with
  | same limit role x => exact ⟨v, read, role.alike_refl v⟩
  | @array limit role item items others known length _ ih =>
    cases limit with
    | zero => cases read
    | succ limit =>
      rw [Term.value?_array_eq_some_iff] at read
      rcases read with ⟨vs, rfl, all⟩
      rcases exists_forall₂ length all ih with ⟨ws, all', alike⟩
      refine ⟨.array ws, ?_, Role.alike_array known alike⟩
      rw [Term.value?_array_eq_some_iff]
      exact ⟨ws, rfl, all'⟩
  | @object limit role known members others found distinct distinct' present agree readable ih =>
    cases limit with
    | zero => cases read
    | succ limit =>
      rw [Term.value?_named_eq_some_iff] at read
      rcases read with ⟨vs, rfl, all⟩
      -- A known member was read in the one object, so its partner can be read in the other.
      have whole : ∀ member ∈ others, ∃ w, member.2.value? limit = some w := by
        rintro ⟨name, y⟩ mem
        by_cases isKnown : name ∈ known.map Prod.fst
        . have there := Json.lookup_eq_some_of_mem others distinct' name y mem
          have here := present name isKnown
          rw [there, Option.isSome_some, Option.isSome_iff_exists] at here
          rcases here with ⟨x, here⟩
          rw [List.mem_map] at isKnown
          rcases isKnown with ⟨⟨name, role⟩, isKnown, rfl⟩
          have value := all.lookup name
          rw [here] at value
          generalize vs.lookup name = v at value
          cases value with
          | @some _ v value =>
            rcases ih name role x y isKnown here there v value with ⟨w, value', _⟩
            exact ⟨w, value'⟩
        . exact readable (name, y) (List.mem_append_right members mem) isKnown
      rcases Matched.exists_of_forall (R := fun x v => x.value? limit = some v) others whole with
        ⟨ws, all'⟩
      refine ⟨.object ws, ?_, ?_⟩
      . rw [Term.value?_named_eq_some_iff]
        exact ⟨ws, rfl, all'⟩
      . apply role.alike_object found
        . intro t kind tagged isKind
          have value := all.lookup "$type"
          rw [tagged] at value
          generalize members.lookup "$type" = tag at value ⊢
          cases value with
          | some value => exact ElementKind.ofTag?_of_value? value isKind
        . rw [← all'.map_fst]
          exact distinct'
        . intro name role isKnown
          have same := rel_of_present (present name (List.mem_map.mpr ⟨_, isKnown, rfl⟩))
            fun x y => ih name role x y isKnown
          have value := all.lookup name
          have value' := all'.lookup name
          generalize members.lookup name = x at same value
          generalize others.lookup name = y at same value'
          generalize vs.lookup name = v at value ⊢
          generalize ws.lookup name = w at value' ⊢
          cases same with
          | none =>
            cases value with
            | none =>
              cases value' with
              | none => exact .none
          | some same =>
            cases value with
            | @some _ v value =>
              cases value' with
              | @some _ w value' =>
                rcases same v value with ⟨w', other, alike⟩
                rw [Nat.add_sub_cancel, value'] at other
                cases other
                exact .some alike

namespace Document

theorem meansOr_of_rel {α : Type} {R : Term → Term → Prop} {means : Term → α → Prop}
    {absent : Option α} {a : α} {m o : Option Term} (same : Option.Rel R m o)
    (h : ∀ x y, R x y → means x a → means y a) (meant : Term.MeansOr means absent m a) :
    Term.MeansOr means absent o a := by
  cases same with
  | none => exact meant
  | some related => exact h _ _ related meant

theorem elementMeans_of_agrees {x y : Term} (agree : Agrees (Element.nestingLimit + 1) .element x y)
    (e : Element) (means : Element.Means x e) : Element.Means y e := by
  rcases means with ⟨v, read, tagged, decoded⟩
  rcases agree.exists_alike v read with ⟨w, read', alike⟩
  exact ⟨w, read', alike.1 tagged, alike.2 e decoded⟩

theorem lists_of_agrees {x y : Term} (agree : Agrees (Element.nestingLimit + 2) .elements x y)
    (es : List Element) (means : Term.Lists Element.Means x es) :
    Term.Lists Element.Means y es := by
  cases agree with
  | same => exact means
  | object found => cases found
  | @array _ _ _ items others known length agree =>
    cases known
    rcases means with ⟨_, ⟨⟩, all⟩
    refine ⟨others, rfl, ?_⟩
    rcases exists_forall₂ length all fun i x y hx hy e meant =>
        ⟨e, elementMeans_of_agrees (agree i x y hx hy) e meant, rfl⟩ with ⟨es', all', same⟩
    rw [List.forall₂_eq_eq_eq] at same
    rw [same]
    exact all'

theorem means_of_agrees {x y : Term} (agree : Agrees Json.nestingLimit .document x y) (raw : Raw)
    (means : Means x raw) : Means y raw := by
  cases agree with
  | same => exact means
  | array known => cases known
  | @object _ _ known members others found distinct distinct' present agree readable =>
    cases found
    rw [Means, Term.recordMeans_named_iff] at means ⊢
    rcases means with ⟨_, kind, name, elements⟩
    have same (name : String) (role : Role)
        (isKnown : (name, role) ∈
          [("$type", Role.plain), ("name", .plain), ("elements", .elements)]) :=
      Agrees.rel_of_present (present name (List.mem_map.mpr ⟨_, isKnown, rfl⟩))
        fun x y => agree name role x y isKnown
    refine ⟨fun name _ => List.nodup_iff_count_le_one.mp distinct' name, ?_, ?_, ?_⟩
    . exact meansOr_of_rel (same "$type" .plain (by simp)) (fun x y h => h.eq_of_plain ▸ id) kind
    . exact meansOr_of_rel (same "name" .plain (by simp)) (fun x y h => h.eq_of_plain ▸ id) name
    . exact meansOr_of_rel (same "elements" .elements (by simp)) (fun x y h => lists_of_agrees h _)
        elements

theorem ofText_eq_of_agrees (text other : String) (x y : Term) (spelled : x.SpelledBy text.toList)
    (spelled' : y.SpelledBy other.toList) (agree : Agrees Json.nestingLimit .document x y) :
    (ofText text).toOption = (ofText other).toOption := by
  ext d
  rw [toOption_eq_some_iff, toOption_eq_some_iff, ofText_eq_ok_iff_means text x spelled,
    ofText_eq_ok_iff_means other y spelled']
  exact ⟨means_of_agrees agree _, means_of_agrees agree.symm _⟩

-- A person whose members stand in another order, with another spelling and a member more.
def tagFirst : String :=
  "\x7b\"$type\":\"Domainmodel\",\"elements\":[\x7b\"$type\":\"Person\",\"name\":\"A\"\x7d]\x7d"

def tagFirstTerm : Term :=
  .named [
    ("$type", .string (some "Domainmodel")),
    ("elements", .array [.named [
      ("$type", .string (some "Person")),
      ("name", .string (some "A"))]])]

def tagLast : String :=
  "\x7b\"elements\":[\x7b\"x\":[],\"name\":\"\\u0041\",\"$type\":\"Person\"\x7d], \"$type\":\"Domainmodel\"\x7d"

def tagLastTerm : Term :=
  .named [
    ("elements", .array [.named [
      ("x", .array []),
      ("name", .string (some "A")),
      ("$type", .string (some "Person"))]]),
    ("$type", .string (some "Domainmodel"))]

theorem tagFirst_spelled : tagFirstTerm.SpelledBy tagFirst.toList := by
  rw [← Json.term?_scan_eq_some_iff]
  have chars : tagFirst = String.ofList
      ['\x7b', '"', '$', 't', 'y', 'p', 'e', '"', ':', '"', 'D', 'o', 'm', 'a', 'i', 'n', 'm',
       'o', 'd', 'e', 'l', '"', ',', '"', 'e', 'l', 'e', 'm', 'e', 'n', 't', 's', '"', ':', '[',
       '\x7b', '"', '$', 't', 'y', 'p', 'e', '"', ':', '"', 'P', 'e', 'r', 's', 'o', 'n', '"',
       ',', '"', 'n', 'a', 'm', 'e', '"', ':', '"', 'A', '"', '\x7d', ']', '\x7d'] := rfl
  rw [chars, String.toList_ofList]
  rfl

theorem tagLast_spelled : tagLastTerm.SpelledBy tagLast.toList := by
  rw [← Json.term?_scan_eq_some_iff]
  have chars : tagLast = String.ofList
      ['\x7b', '"', 'e', 'l', 'e', 'm', 'e', 'n', 't', 's', '"', ':', '[', '\x7b', '"', 'x', '"',
       ':', '[', ']', ',', '"', 'n', 'a', 'm', 'e', '"', ':', '"', '\\', 'u', '0', '0', '4', '1',
       '"', ',', '"', '$', 't', 'y', 'p', 'e', '"', ':', '"', 'P', 'e', 'r', 's', 'o', 'n', '"',
       '\x7d', ']', ',', ' ', '"', '$', 't', 'y', 'p', 'e', '"', ':', '"', 'D', 'o', 'm', 'a',
       'i', 'n', 'm', 'o', 'd', 'e', 'l', '"', '\x7d'] := rfl
  rw [chars, String.toList_ofList]
  rfl

theorem agrees_tagFirst_tagLast :
    Agrees Json.nestingLimit .document tagFirstTerm tagLastTerm := by
  refine .object rfl (by decide) (by decide) (by decide) ?_ (by simp)
  intro name role x y known hx hy
  simp only [List.mem_cons, Prod.mk.injEq, List.not_mem_nil, or_false] at known
  rcases known with ⟨rfl, rfl⟩ | ⟨rfl, rfl⟩ | ⟨rfl, rfl⟩
  . cases hx
    cases hy
    exact .same _ _ _
  . cases hx
  . cases hx
    cases hy
    refine .array rfl rfl ?_
    intro i x y hx hy
    cases i with
    | succ i => cases hx
    | zero =>
      cases hx
      cases hy
      refine .object rfl (by decide) (by decide) (by decide) ?_ ?_
      . intro name role x y known hx hy
        change (name, role) ∈ [("$type", Role.plain), ("name", Role.plain)] at known
        simp only [List.mem_cons, Prod.mk.injEq, List.not_mem_nil, or_false] at known
        rcases known with ⟨rfl, rfl⟩ | ⟨rfl, rfl⟩
        . cases hx
          cases hy
          exact .same _ _ _
        . cases hx
          cases hy
          exact .same _ _ _
      . intro member mem unknown
        simp only [List.cons_append, List.nil_append, List.mem_cons, List.not_mem_nil,
          or_false] at mem
        rcases mem with rfl | rfl | rfl | rfl | rfl
        . exact ⟨_, rfl⟩
        . exact ⟨_, rfl⟩
        . exact ⟨_, rfl⟩
        . exact ⟨_, rfl⟩
        . exact ⟨_, rfl⟩

theorem ofText_tagFirst : ofText tagFirst = .ok { elements := [.person ⟨"A"⟩] } := by
  rw [ofText_eq_ok_iff_means tagFirst _ tagFirst_spelled, Means, tagFirstTerm,
    Term.recordMeans_named_iff]
  refine ⟨by decide, rfl, rfl, _, rfl, .cons ⟨_, rfl, ?_, rfl⟩ .nil⟩
  intro v mem
  simp only [List.mem_cons, Prod.mk.injEq, List.not_mem_nil, or_false] at mem
  rcases mem with ⟨_, rfl⟩ | ⟨other, _⟩
  . exact ⟨_, rfl⟩
  . exact absurd other (by decide)

theorem ofText_eq_of_agrees_tagLast :
    tagFirstTerm.SpelledBy tagFirst.toList ∧
    tagLastTerm.SpelledBy tagLast.toList ∧
    Agrees Json.nestingLimit .document tagFirstTerm tagLastTerm ∧
    ofText tagFirst = .ok { elements := [.person ⟨"A"⟩] } ∧
    (ofText tagFirst).toOption = (ofText tagLast).toOption :=
  ⟨tagFirst_spelled, tagLast_spelled, agrees_tagFirst_tagLast, ofText_tagFirst,
    ofText_eq_of_agrees tagFirst tagLast tagFirstTerm tagLastTerm tagFirst_spelled tagLast_spelled
      agrees_tagFirst_tagLast⟩

end Document

end DomainModel
