import Mathlib.Data.List.Forall2
import Mathlib.Data.List.Nodup
import Mathlib.Data.Option.Basic

namespace DomainModel.Json

variable {κ σ σ' : Type}

theorem lookup_cons_eq_ite [BEq κ] [LawfulBEq κ] [DecidableEq κ] (key name : κ) (source : σ)
    (members : List (κ × σ)) :
    List.lookup name ((key, source) :: members) =
      if name = key then some source else members.lookup name := by
  rw [List.lookup_cons]
  cases same : name == key with
  | true => rw [if_pos (by simpa using same)]
  | false => rw [if_neg (by simpa using same)]

theorem lookup_eq_none_iff_notMem (name : String) (members : List (String × σ)) :
    members.lookup name = none ↔ name ∉ members.map Prod.fst := by
  rw [List.lookup_eq_none_iff, List.mem_map]
  constructor
  . rintro other ⟨member, mem, rfl⟩
    simpa using other member mem
  . intro absent member mem
    rw [bne_iff_ne]
    rintro rfl
    exact absent ⟨member, mem, rfl⟩

theorem lookup_map_name (f : String → σ → σ') (members : List (String × σ)) (name : String) :
    (members.map fun member => (member.1, f member.1 member.2)).lookup name =
      (members.lookup name).map (f name) := by
  induction members with
  | nil => rfl
  | cons member members ih =>
    rw [List.map_cons, lookup_cons_eq_ite, lookup_cons_eq_ite, ih]
    split
    . next here =>
      rw [here]
      rfl
    . rfl

theorem lookup_map (f : σ → σ') (members : List (String × σ)) (name : String) :
    (members.map fun member => (member.1, f member.2)).lookup name =
      (members.lookup name).map f := by
  exact lookup_map_name (fun _ => f) members name

theorem lookup_filter [BEq κ] [LawfulBEq κ] [DecidableEq κ] (keep : κ → Bool)
    (members : List (κ × σ)) (name : κ) (kept : keep name = true) :
    (members.filter fun member => keep member.1).lookup name = members.lookup name := by
  induction members with
  | nil => rfl
  | cons member members ih =>
    rw [List.filter_cons, lookup_cons_eq_ite]
    split
    . rw [lookup_cons_eq_ite, ih]
    . next dropped =>
      rw [ih, if_neg]
      rintro rfl
      exact dropped kept

theorem mem_of_lookup_eq_some (members : List (String × σ)) (name : String) (source : σ)
    (found : members.lookup name = some source) : (name, source) ∈ members := by
  rw [List.lookup_eq_some_iff] at found
  rcases found with ⟨front, back, rfl, _⟩
  simp

theorem lookup_eq_some_of_mem (members : List (String × σ))
    (distinct : (members.map Prod.fst).Nodup) (name : String) (source : σ)
    (mem : (name, source) ∈ members) : members.lookup name = some source := by
  induction members with
  | nil => cases mem
  | cons member members ih =>
    rw [List.map_cons, List.nodup_cons] at distinct
    rw [lookup_cons_eq_ite]
    rw [List.mem_cons] at mem
    rcases mem with rfl | mem
    . rw [if_pos rfl]
    . rw [if_neg, ih distinct.2 mem]
      rintro rfl
      exact distinct.1 (List.mem_map.mpr ⟨_, mem, rfl⟩)

theorem nodup_filter_iff (keep : String → Bool) (names : List String) :
    (names.filter keep).Nodup ↔ ∀ name, keep name = true → names.count name ≤ 1 := by
  rw [List.nodup_iff_count_le_one]
  constructor
  . intro once name kept
    rw [← List.count_filter kept]
    exact once name
  . intro once name
    cases kept : keep name with
    | true =>
      rw [List.count_filter kept]
      exact once name kept
    | false =>
      rw [List.count_eq_zero_of_not_mem]
      . exact Nat.zero_le 1
      . simp [kept]

def Matched (R : σ → σ' → Prop) (members : List (String × σ)) (others : List (String × σ')) :
    Prop :=
  List.Forall₂ (fun member other => member.1 = other.1 ∧ R member.2 other.2) members others

namespace Matched

variable {R : σ → σ' → Prop} {members : List (String × σ)} {others : List (String × σ')}

theorem map_fst (h : Matched R members others) : members.map Prod.fst = others.map Prod.fst := by
  induction h with
  | nil => rfl
  | cons same _ ih => rw [List.map_cons, List.map_cons, same.1, ih]

theorem imp {R' : σ → σ' → Prop} (h : Matched R members others) (imp : ∀ a b, R a b → R' a b) :
    Matched R' members others :=
  List.Forall₂.imp (fun _ _ same => ⟨same.1, imp _ _ same.2⟩) h

theorem lookup (h : Matched R members others) (name : String) :
    Option.Rel R (members.lookup name) (others.lookup name) := by
  induction h with
  | nil => exact .none
  | @cons member other _ _ same _ ih =>
    rcases member with ⟨key, source⟩
    rcases other with ⟨_, source'⟩
    rcases same with ⟨rfl, related⟩
    rw [lookup_cons_eq_ite, lookup_cons_eq_ite]
    split
    . exact .some related
    . exact ih

theorem exists_of_lookup_left (h : Matched R members others) {name : String} {source : σ}
    (found : members.lookup name = some source) :
    ∃ other, others.lookup name = some other ∧ R source other := by
  have same := h.lookup name
  rw [found] at same
  generalize others.lookup name = other at same ⊢
  cases same with
  | some related => exact ⟨_, rfl, related⟩

theorem exists_of_lookup_right (h : Matched R members others) {name : String} {other : σ'}
    (found : others.lookup name = some other) :
    ∃ source, members.lookup name = some source ∧ R source other := by
  have same := h.lookup name
  rw [found] at same
  generalize members.lookup name = source at same ⊢
  cases same with
  | some related => exact ⟨_, rfl, related⟩

theorem exists_of_mem (h : Matched R members others) :
    ∀ member ∈ members, ∃ source, R member.2 source := by
  induction h with
  | nil => simp
  | cons same _ ih =>
    rw [List.forall_mem_cons]
    exact ⟨⟨_, same.2⟩, ih⟩

theorem exists_of_forall (members : List (String × σ))
    (h : ∀ member ∈ members, ∃ source, R member.2 source) : ∃ others, Matched R members others := by
  induction members with
  | nil => exact ⟨[], .nil⟩
  | cons member members ih =>
    rw [List.forall_mem_cons] at h
    rcases h with ⟨⟨source, related⟩, h⟩
    rcases ih h with ⟨others, all⟩
    exact ⟨(member.1, source) :: others, .cons ⟨rfl, related⟩ all⟩

theorem zip (names : List String) {sources : List σ} {sources' : List σ'}
    (h : List.Forall₂ R sources sources') : Matched R (names.zip sources) (names.zip sources') := by
  induction h generalizing names with
  | nil =>
    rw [List.zip_nil_right, List.zip_nil_right]
    exact .nil
  | cons related _ ih =>
    cases names with
    | nil => exact .nil
    | cons name names => exact .cons ⟨rfl, related⟩ (ih names)

end Matched

end DomainModel.Json
