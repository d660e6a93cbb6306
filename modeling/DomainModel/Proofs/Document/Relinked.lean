import DomainModel.Proofs.Document.Agreement
import DomainModel.Proofs.Document.Links
import DomainModel.Proofs.Document.Shape

namespace DomainModel

open Json (Term Value lookup_map_name)

namespace Json.Term

def blank : Term → Term
  | .string (some _) => .string (some "")
  | x => x

mutual

def unlinked : Term → Term
  | .array items => .array (itemsUnlinked items)
  | .object members => .object (membersUnlinked members)
  | x => x
termination_by structural x => x

def itemsUnlinked : List Term → List Term
  | [] => []
  | x :: items => x.unlinked :: itemsUnlinked items
termination_by structural items => items

def membersUnlinked : List (Option String × Term) → List (Option String × Term)
  | [] => []
  | (name, x) :: members =>
    (name, if name.any isLink then x.unlinked.blank else x.unlinked) :: membersUnlinked members
termination_by structural members => members

end

theorem value?_blank (limit : Nat) (x : Term) :
    x.blank.value? limit = (x.value? limit).map Value.blank := by
  cases x with
  | null => rfl
  | bool b => rfl
  | number n =>
    cases n with
    | none => rfl
    | some n => rfl
  | string s =>
    cases s with
    | none => rfl
    | some s => rfl
  | array items =>
    cases limit with
    | zero => rfl
    | succ limit =>
      change (Term.array items).value? (limit + 1) = _
      rw [value?]
      cases itemValues? limit items with
      | none => rfl
      | some items => rfl
  | object members =>
    cases limit with
    | zero => rfl
    | succ limit =>
      change (Term.object members).value? (limit + 1) = _
      rw [value?]
      cases memberValues? limit members with
      | none => rfl
      | some members => rfl

mutual

theorem value?_unlinked (limit : Nat) (x : Term) :
    x.unlinked.value? limit = (x.value? limit).map Value.unlinked := by
  cases x with
  | null => rfl
  | bool b => rfl
  | number n =>
    cases n with
    | none => rfl
    | some n => rfl
  | string s =>
    cases s with
    | none => rfl
    | some s => rfl
  | array items =>
    cases limit with
    | zero => rfl
    | succ limit =>
      rw [unlinked, value?, value?, itemValues?_unlinked]
      cases itemValues? limit items with
      | none => rfl
      | some items => rfl
  | object members =>
    cases limit with
    | zero => rfl
    | succ limit =>
      rw [unlinked, value?, value?, memberValues?_unlinked]
      cases memberValues? limit members with
      | none => rfl
      | some members => rfl
termination_by structural x

theorem itemValues?_unlinked (limit : Nat) (items : List Term) :
    itemValues? limit (itemsUnlinked items) =
      (itemValues? limit items).map Value.itemsUnlinked := by
  cases items with
  | nil => rfl
  | cons x items =>
    rw [itemsUnlinked, itemValues?, itemValues?, value?_unlinked, itemValues?_unlinked]
    cases x.value? limit with
    | none => rfl
    | some v =>
      cases itemValues? limit items with
      | none => rfl
      | some items => rfl
termination_by structural items

theorem memberValues?_unlinked (limit : Nat) (members : List (Option String × Term)) :
    memberValues? limit (membersUnlinked members) =
      (memberValues? limit members).map Value.membersUnlinked := by
  cases members with
  | nil => rfl
  | cons member members =>
    rcases member with ⟨name, x⟩
    have read : (if name.any isLink then x.unlinked.blank else x.unlinked).value? limit =
        (x.value? limit).map fun v =>
          if name.any isLink then v.unlinked.blank else v.unlinked := by
      split
      . rw [value?_blank, value?_unlinked, Option.map_map]
        rfl
      . exact value?_unlinked limit x
    rw [membersUnlinked, memberValues?, memberValues?, memberValues?_unlinked, read]
    cases name with
    | none => rfl
    | some name =>
      cases x.value? limit with
      | none => rfl
      | some v =>
        cases memberValues? limit members with
        | none => rfl
        | some members => rfl
termination_by structural members

end

def unlinkedAt (name : String) (x : Term) : Term :=
  if isLink name then x.unlinked.blank else x.unlinked

def MembersAlike (members others : List (String × Term)) : Prop :=
  (members.map fun member => (member.1, member.2.unlinkedAt member.1)) =
    others.map fun member => (member.1, member.2.unlinkedAt member.1)

theorem itemsUnlinked_eq_map (items : List Term) : itemsUnlinked items = items.map unlinked := by
  induction items with
  | nil => rfl
  | cons x items ih => rw [itemsUnlinked, ih, List.map_cons]

theorem exists_array_of_unlinked {items : List Term} {y : Term}
    (same : (Term.array items).unlinked = y.unlinked) :
    ∃ others, y = .array others ∧ List.Forall₂ (fun x y => x.unlinked = y.unlinked) items others := by
  cases y with
  | array others =>
    rw [unlinked, unlinked, array.injEq, itemsUnlinked_eq_map, itemsUnlinked_eq_map] at same
    rw [← List.forall₂_eq_eq_eq, List.forall₂_map_left_iff, List.forall₂_map_right_iff] at same
    exact ⟨others, rfl, same⟩
  | _ => cases same

theorem exists_members_of_unlinked {members : List (String × Term)}
    {others : List (Option String × Term)}
    (same : membersUnlinked (members.map fun member => (some member.1, member.2)) =
      membersUnlinked others) :
    ∃ named, others = named.map (fun member => (some member.1, member.2)) ∧
      MembersAlike members named := by
  induction members generalizing others with
  | nil =>
    cases others with
    | nil => exact ⟨[], rfl, rfl⟩
    | cons other others => cases same
  | cons member members ih =>
    cases others with
    | nil => cases same
    | cons other others =>
      rcases other with ⟨name, y⟩
      rw [List.map_cons, membersUnlinked, membersUnlinked, List.cons.injEq, Prod.mk.injEq] at same
      rcases same with ⟨⟨rfl, first⟩, rest⟩
      rcases ih rest with ⟨named, rfl, alike⟩
      have head : (member.1, member.2.unlinkedAt member.1) = (member.1, y.unlinkedAt member.1) :=
        congrArg (Prod.mk member.1) first
      refine ⟨(member.1, y) :: named, rfl, ?_⟩
      unfold MembersAlike at alike ⊢
      rw [List.map_cons, List.map_cons, alike, head]

theorem exists_named_of_unlinked {members : List (String × Term)} {y : Term}
    (same : (named members).unlinked = y.unlinked) :
    ∃ others, y = named others ∧ MembersAlike members others := by
  cases y with
  | object others =>
    rw [named, unlinked, unlinked, object.injEq] at same
    rcases exists_members_of_unlinked same with ⟨named, rfl, alike⟩
    exact ⟨named, rfl, alike⟩
  | _ => cases same

theorem MembersAlike.map_fst {members others : List (String × Term)}
    (h : MembersAlike members others) : members.map Prod.fst = others.map Prod.fst := by
  have names := congrArg (List.map Prod.fst) h
  rw [List.map_map, List.map_map] at names
  exact names

theorem MembersAlike.lookup {members others : List (String × Term)}
    (h : MembersAlike members others) {name : String} (other : isLink name = false) :
    Option.Rel (fun x y => x.unlinked = y.unlinked) (members.lookup name) (others.lookup name) := by
  have alike := lookup_map_name unlinkedAt members name
  unfold MembersAlike at h
  rw [h, lookup_map_name unlinkedAt] at alike
  have plain : unlinkedAt name = unlinked := by
    funext x
    unfold unlinkedAt
    rw [other]
    rfl
  rw [plain] at alike
  generalize members.lookup name = x at alike ⊢
  generalize others.lookup name = y at alike ⊢
  cases x with
  | none =>
    cases y with
    | none => exact .none
    | some y => cases alike
  | some x =>
    cases y with
    | none => cases alike
    | some y => exact .some (Option.some.inj alike).symm

theorem membersAlike_zip (names : List String) {items others : List Term}
    (same : List.Forall₂ (fun x y => x.unlinked = y.unlinked) items others) :
    MembersAlike (names.zip items) (names.zip others) := by
  unfold MembersAlike
  induction same generalizing names with
  | nil => rfl
  | cons first _ ih =>
    cases names with
    | nil => rfl
    | cons name names =>
      rw [List.zip_cons_cons, List.zip_cons_cons, List.map_cons, List.map_cons, ih]
      dsimp only [unlinkedAt]
      rw [first]

end Json.Term

theorem Element.exists_means_of_unlinked {x y : Term} (same : x.unlinked = y.unlinked) (e : Element)
    (meant : Means x e) : ∃ e', Means y e' ∧ e.unlinked = e'.unlinked := by
  rcases meant with ⟨v, read, texts, decoded⟩
  have value := x.value?_unlinked (nestingLimit + 1)
  rw [same, y.value?_unlinked, read, Option.map_some, Option.map_eq_some_iff] at value
  rcases value with ⟨w, read', alike⟩
  rcases keeps_ofValue e v w alike.symm decoded with ⟨e', decoded', related⟩
  exact ⟨e', ⟨w, read', hasTextTag_of_unlinked alike.symm texts, decoded'⟩, related⟩

theorem Element.exists_lists_of_unlinked {x y : Term} (same : x.unlinked = y.unlinked)
    (es : List Element) (meant : Term.Lists Means x es) :
    ∃ es', Term.Lists Means y es' ∧ es.map unlinked = es'.map unlinked := by
  rcases meant with ⟨items, rfl, all⟩
  rcases Term.exists_array_of_unlinked same with ⟨others, rfl, alike⟩
  have inner : ∃ es', List.Forall₂ Means others es' ∧ es.map unlinked = es'.map unlinked := by
    apply exists_forall₂_of_related _ alike all
    intro e _ x y same
    exact exists_means_of_unlinked same e
  rcases inner with ⟨es', all, related⟩
  exact ⟨es', ⟨others, rfl, all⟩, related⟩

namespace Document

theorem isText_of_unlinked {x y : Term} (same : x.unlinked = y.unlinked) (s : String)
    (meant : x.IsText s) : y.IsText s := by
  unfold Term.IsText at meant ⊢
  subst meant
  cases y with
  | string s' =>
    cases same
    rfl
  | _ => cases same

theorem optionallyText_of_unlinked {x y : Term} (same : x.unlinked = y.unlinked) (o : Option String)
    (meant : Term.Optionally Term.IsText x o) : Term.Optionally Term.IsText y o := by
  cases o with
  | none =>
    unfold Term.Optionally at meant ⊢
    subst meant
    cases y with
    | null => rfl
    | _ => cases same
  | some s => exact isText_of_unlinked same s meant

theorem exists_membersMean_of_alike {members others : List (String × Term)}
    (alike : Term.MembersAlike members others) {raw : Raw} (meant : MembersMean members raw) :
    ∃ elements,
      MembersMean others { raw with elements } ∧
      raw.elements.map Element.unlinked = elements.map Element.unlinked := by
  rcases exists_of_meansOr meant.elements with ⟨x, there, listed⟩
  have kind := alike.lookup (show isLink "$type" = false from rfl)
  have name := alike.lookup (show isLink "name" = false from rfl)
  have inside := alike.lookup (show isLink "elements" = false from rfl)
  rw [there] at inside
  generalize found : others.lookup "elements" = y at inside
  cases inside with
  | some same =>
    rcases Element.exists_lists_of_unlinked same _ listed with ⟨elements, listed, related⟩
    refine ⟨elements, ⟨?_, ?_, ?_⟩, related⟩
    . apply meansOr_of_rel kind _ meant.kind
      intro x y same
      exact isText_of_unlinked same raw.kind
    . apply meansOr_of_rel name _ meant.name
      intro x y same
      exact optionallyText_of_unlinked same raw.name
    . rw [found]
      exact listed

theorem exists_means_of_unlinked {x y : Term} (same : x.unlinked = y.unlinked) {raw : Raw}
    (meant : Means x raw) :
    ∃ elements,
      Means y { raw with elements } ∧
      raw.elements.map Element.unlinked = elements.map Element.unlinked := by
  unfold Means at meant ⊢
  cases meant with
  | object once meant =>
    rcases Term.exists_named_of_unlinked same with ⟨others, rfl, alike⟩
    rcases exists_membersMean_of_alike alike meant with ⟨elements, meant', related⟩
    rw [alike.map_fst] at once
    exact ⟨elements, .object once meant', related⟩
  | array short meant =>
    rcases Term.exists_array_of_unlinked same with ⟨others, rfl, items⟩
    rcases exists_membersMean_of_alike (Term.membersAlike_zip _ items) meant with
      ⟨elements, meant', related⟩
    rw [items.length_eq] at short
    exact ⟨elements, .array short meant', related⟩

theorem exists_ofText_of_unlinked {text other : String} {x y : Term}
    (spelled : x.SpelledBy text.toList) (spelled' : y.SpelledBy other.toList)
    (same : x.unlinked = y.unlinked) {d : Document} (read : ofText text = .ok d) :
    ∃ d', ofText other = .ok d' ∧ d.unlinked = d'.unlinked := by
  rw [ofText_eq_ok_iff_means text x spelled] at read
  rcases exists_means_of_unlinked same read with ⟨elements, meant, related⟩
  refine ⟨{ d with elements }, ?_, ?_⟩
  . rw [ofText_eq_ok_iff_means other y spelled']
    exact meant
  . exact congrArg (Document.mk d.name) related

end Document

end DomainModel
