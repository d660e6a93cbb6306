import DomainModel.Proofs.Validation.Repeats
import Mathlib.Algebra.BigOperators.Group.Finset.Basic

/-!
Which items are repeated, and how they are numbered. An item is repeated when its key occurs before
it, and its number says how often it has occurred by then. Every key has one item that is not
repeated, its first, so there are as many repeats as items less the different keys. Counters in a
table, raised item by item, come to the same list.
-/

namespace DomainModel

variable [DecidableEq κ]

theorem countP_take_succ (key : α → κ) (items : List α) (index : Nat) (item : α)
    (known : items[index]? = some item) :
    (items.take (index + 1)).countP (key · = key item) =
      (items.take index).countP (key · = key item) + 1 := by
  rw [List.take_add_one, known, List.countP_append, Option.toList_some, List.countP_singleton,
    if_pos (decide_eq_true rfl)]

theorem repeats_eq_map_filter (key : α → κ) (items : List α) :
    repeats key items =
      (items.zipIdx.filter fun (item, index) =>
          ∃ earlier ∈ items.take index, key earlier = key item).map
        fun (item, index) => (item, (items.take (index + 1)).countP (key · = key item)) := by
  have counted := repeats_filterMap_zipIdx key (fun (item, _) => some item)
    (fun item => some (key item)) (fun _ _ => rfl) items
  rw [List.filterMap_eq_map', List.zipIdx_map_fst] at counted
  rw [counted, ← List.filterMap_eq_filter, List.map_filterMap]
  apply List.filterMap_congr
  intro indexed mem
  rcases indexed with ⟨item, index⟩
  rw [List.mem_zipIdx_iff_getElem?] at mem
  simp only [Option.bind_some, Option.some.injEq, Option.guard_apply]
  by_cases repeated : ∃ earlier ∈ items.take index, key earlier = key item
  . rw [if_neg, if_pos (decide_eq_true repeated), Option.map_some,
      countP_take_succ key items index item mem]
    rw [← ne_eq, ← Nat.pos_iff_ne_zero, List.countP_pos_iff]
    simpa using repeated
  . rw [if_pos, if_neg (by simpa using repeated)]
    . rfl
    . rw [List.countP_eq_zero]
      simpa using repeated

theorem count_keys_repeats (key : α → κ) (k : κ) (items : List α) :
    ((repeats key items).map (key ·.1)).count k = (items.map key).count k - 1 := by
  have numbers := congrArg List.length (numbers_repeats key k items)
  rw [List.length_map, List.length_range', ← List.countP_eq_length_filter] at numbers
  unfold List.count
  rw [List.countP_map, List.countP_map]
  exact numbers

theorem length_repeats (key : α → κ) (items : List α) :
    (repeats key items).length + (items.map key).toFinset.card = items.length := by
  have counted (k : κ) (mem : k ∈ (items.map key).toFinset) :
      ((repeats key items).map (key ·.1)).count k + 1 = (items.map key).count k := by
    rw [count_keys_repeats]
    rw [List.mem_toFinset, ← List.count_pos_iff] at mem
    exact Nat.sub_add_cancel mem
  have known (k : κ) (mem : k ∈ ((repeats key items).map (key ·.1) : Multiset κ)) :
      k ∈ (items.map key).toFinset := by
    rw [Multiset.mem_coe, ← List.count_pos_iff, count_keys_repeats] at mem
    rw [List.mem_toFinset, ← List.count_pos_iff]
    omega
  calc (repeats key items).length + (items.map key).toFinset.card
    _ = ∑ k ∈ (items.map key).toFinset, (((repeats key items).map (key ·.1)).count k + 1) := by
      have total := Multiset.sum_count_eq_card known
      simp only [Multiset.coe_count, Multiset.coe_card, List.length_map] at total
      rw [Finset.sum_add_distrib, total, Finset.card_eq_sum_ones]
    _ = ∑ k ∈ (items.map key).toFinset, (items.map key).count k := Finset.sum_congr rfl counted
    _ = items.length := by
      rw [List.sum_toFinset_count_eq_length, List.length_map]

section Tally

variable [Hashable κ]

def tally (key : α → κ) (items : List α) : List (α × Nat) :=
  go ∅ items
where
  go (counts : Std.HashMap κ Nat) : List α → List (α × Nat)
    | [] => []
    | item :: items =>
      let count := counts.getD (key item) 0 + 1
      let rest := go (counts.insert (key item) count) items
      if 1 < count then (item, count) :: rest else rest

-- The table has counted, for all keys at once, how often each of them has been seen.
theorem tally_go_eq (key : α → κ) (counts : Std.HashMap κ Nat) (seen : List κ)
    (agree : ∀ k, counts.getD k 0 = seen.count k) (items : List α) :
    tally.go key counts items = repeats.go key seen items := by
  induction items generalizing counts seen with
  | nil => rfl
  | cons item items ih =>
    rw [tally.go, repeats.go, agree]
    rw [ih _ (key item :: seen)]
    . by_cases first : seen.count (key item) = 0
      . rw [if_pos first, if_neg (by omega)]
      . rw [if_neg first, if_pos (by omega)]
    . intro k
      rw [Std.HashMap.getD_insert, agree, List.count_cons]
      split
      . next own =>
        rw [eq_of_beq own]
      . rfl

theorem tally_eq_repeats (key : α → κ) (items : List α) : tally key items = repeats key items := by
  apply tally_go_eq
  intro k
  rw [Std.HashMap.getD_empty, List.count_nil]

end Tally

theorem repeats_numbered [Hashable κ] (key : α → κ) (items : List α) :
    repeats key items =
      (items.zipIdx.filter fun (item, index) =>
          ∃ earlier ∈ items.take index, key earlier = key item).map
        (fun (item, index) => (item, (items.take (index + 1)).countP (key · = key item))) ∧
    (∀ k,
      ((repeats key items).filter (key ·.1 = k)).map (·.2) =
        List.range' 2 (items.countP (key · = k) - 1)) ∧
    (repeats key items).length + (items.map key).toFinset.card = items.length ∧
    tally key items = repeats key items := by
  refine ⟨repeats_eq_map_filter key items, ?_, length_repeats key items, tally_eq_repeats key items⟩
  intro k
  exact numbers_repeats key k items

example : repeats id ["a", "b", "a", "a", "b"] = [("a", 2), ("a", 3), ("b", 2)] := by
  decide

end DomainModel
