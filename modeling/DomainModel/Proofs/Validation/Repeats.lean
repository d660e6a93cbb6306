import DomainModel.Validation

namespace DomainModel

variable [DecidableEq κ]

-- The induction is on the items that are left; the keys seen so far are those of the items before.
theorem repeats_go_filterMap_zipIdx (key : β → κ) (item? : α × Nat → Option β) (key? : α → Option κ)
    (key_item? : ∀ a index, (item? (a, index)).map key = key? a)
    (seen : List κ) (before items : List α)
    (count_seen : ∀ k, seen.count k = before.countP (key? · = some k)) :
    repeats.go key seen ((items.zipIdx before.length).filterMap item?) =
      (items.zipIdx before.length).filterMap fun (a, index) =>
        (item? (a, index)).bind fun b =>
          let earlier := ((before ++ items).take index).countP (key? · = some (key b))
          if earlier = 0 then none else some (b, earlier + 1) := by
  induction items generalizing seen before with
  | nil => rfl
  | cons a items ih =>
    have split : before ++ a :: items = (before ++ [a]) ++ items := by simp
    have next := fun seen => ih seen (before ++ [a])
    rw [List.length_append, List.length_singleton, ← split] at next
    rw [List.zipIdx_cons, List.filterMap_cons, List.filterMap_cons]
    dsimp only
    cases known : item? (a, before.length) with
    | none =>
      have noKey := key_item? a before.length
      rw [known, Option.map_none] at noKey
      rw [Option.bind_none]
      apply next
      intro k
      simp [count_seen, ← noKey]
    | some b =>
      have ownKey := key_item? a before.length
      rw [known, Option.map_some] at ownKey
      have rest := next (key b :: seen) (by
        intro k
        simp [count_seen, ← ownKey, List.count_cons])
      rw [Option.bind_some, List.take_left, ← count_seen]
      dsimp only [repeats.go]
      rw [rest]
      split
      . rfl
      . rfl

theorem repeats_filterMap_zipIdx (key : β → κ) (item? : α × Nat → Option β) (key? : α → Option κ)
    (key_item? : ∀ a index, (item? (a, index)).map key = key? a) (items : List α) :
    repeats key (items.zipIdx.filterMap item?) =
      items.zipIdx.filterMap fun (a, index) =>
        (item? (a, index)).bind fun b =>
          let earlier := (items.take index).countP (key? · = some (key b))
          if earlier = 0 then none else some (b, earlier + 1) := by
  apply repeats_go_filterMap_zipIdx key item? key? key_item? [] []
  simp

theorem countP_take_ne_zero_iff (key? : α → Option κ) (items : List α) (j : Nat) (key : κ) :
    (items.take j).countP (key? · = some key) ≠ 0 ↔ ∃ i < j, items[i]?.bind key? = some key := by
  rw [← Nat.pos_iff_ne_zero, List.countP_pos_iff]
  simp only [decide_eq_true_eq, Option.bind_eq_some_iff]
  constructor
  . rintro ⟨a, mem, own⟩
    rw [List.mem_iff_getElem?] at mem
    rcases mem with ⟨i, known⟩
    rw [List.getElem?_take] at known
    split at known
    . next lt => exact ⟨i, lt, a, known, own⟩
    . cases known
  . rintro ⟨i, lt, a, known, own⟩
    refine ⟨a, ?_, own⟩
    rw [List.mem_iff_getElem?]
    refine ⟨i, ?_⟩
    rw [List.getElem?_take, if_pos lt]
    exact known

theorem map_repeats_go (key : α → κ) (seen : List κ) (items : List α) :
    (repeats.go key seen items).map (fun (item, n) => (key item, n)) =
      repeats.go id seen (items.map key) := by
  induction items generalizing seen with
  | nil => rfl
  | cons item items ih =>
    have rest := ih (key item :: seen)
    rw [repeats.go, List.map_cons, repeats.go]
    dsimp only [id]
    rw [← rest]
    split
    . rfl
    . rfl

theorem map_repeats (key : α → κ) (items : List α) :
    (repeats key items).map (fun (item, n) => (key item, n)) = repeats id (items.map key) := by
  apply map_repeats_go

-- Every occurrence gets the next number, so the numbers of a key run on from what has been seen.
theorem numbers_repeats_go (key : α → κ) (k : κ) (seen : List κ) (items : List α) :
    ((repeats.go key seen items).filter (key ·.1 = k)).map (·.2) =
      (List.range' (seen.count k + 1) (items.countP (key · = k))).filter (1 < ·) := by
  induction items generalizing seen with
  | nil => rfl
  | cons item items ih =>
    have rest := ih (key item :: seen)
    rw [repeats.go]
    by_cases own : key item = k
    . rw [List.countP_cons_of_pos (by simpa using own), List.range'_succ, List.filter_cons]
      subst own
      rw [List.count_cons_self] at rest
      split
      . next first =>
        rw [first] at rest ⊢
        exact rest
      . next later =>
        rw [List.filter_cons_of_pos (by simp), List.map_cons, rest, if_pos]
        rw [decide_eq_true_eq]
        omega
    . rw [List.countP_cons_of_neg (by simpa using own)]
      rw [List.count_cons_of_ne own] at rest
      split
      . exact rest
      . rw [List.filter_cons_of_neg (by simpa using own)]
        exact rest

theorem filter_range'_one (n : Nat) :
    (List.range' 1 n).filter (1 < ·) = List.range' 2 (n - 1) := by
  cases n with
  | zero => rfl
  | succ n =>
    rw [List.range'_succ, List.filter_cons_of_neg (by decide), Nat.add_sub_cancel]
    rw [List.filter_eq_self]
    intro number mem
    rw [List.mem_range'_1] at mem
    exact decide_eq_true mem.1

theorem numbers_repeats (key : α → κ) (k : κ) (items : List α) :
    ((repeats key items).filter (key ·.1 = k)).map (·.2) =
      List.range' 2 (items.countP (key · = k) - 1) := by
  rw [← filter_range'_one]
  apply numbers_repeats_go key k []

theorem count_repeats (keys : List κ) (k : κ) (n : Nat) :
    (repeats id keys).count (k, n) = if 2 ≤ n ∧ n ≤ keys.count k then 1 else 0 := by
  have own : (repeats id keys).count (k, n) =
      (((repeats id keys).filter (id ·.1 = k)).map (·.2)).count n := by
    unfold List.count
    rw [List.countP_map, List.countP_filter]
    apply List.countP_congr
    intro repetition mem
    simp [Prod.ext_iff, and_comm]
  have keyed : keys.countP (id · = k) = keys.count k := rfl
  rw [own, numbers_repeats id k keys, List.count_range_1', keyed]
  congr 1
  rw [eq_iff_iff]
  omega

theorem repeats_perm {keys others : List κ} (h : keys.Perm others) :
    (repeats id keys).Perm (repeats id others) := by
  rw [List.perm_iff_count]
  intro repetition
  rcases repetition with ⟨k, n⟩
  rw [count_repeats, count_repeats, h.count_eq]

end DomainModel
