import DomainModel.Text.Place

namespace DomainModel

theorem byteLength_append (t u : List Char) :
    byteLength (t ++ u) = byteLength t + byteLength u := by
  induction t with
  | nil => simp [byteLength]
  | cons c t ih =>
    unfold byteLength at *
    rw [List.cons_append, List.foldr_cons, List.foldr_cons, ih]
    omega

theorem byteLength_toList (s : String) : byteLength s.toList = s.utf8ByteSize := by
  have encoded (t : List Char) : t.utf8Encode.size = byteLength t := by
    induction t with
    | nil => rfl
    | cons c t ih =>
      rw [List.utf8Encode_cons, ByteArray.size_append, ih, List.utf8Encode_singleton,
        List.size_toByteArray, String.length_utf8EncodeChar]
      rfl
  rw [← encoded, String.utf8Encode_toList]
  rfl

namespace Place

def OnLine (text : List Char) (line offset : Nat) : Prop :=
  ∃ before inside after,
    text = before ++ inside ++ after ∧
    before.count '\n' + 1 = line ∧ (∀ c ∈ before.getLast?, c = '\n') ∧
    '\n' ∉ inside ∧ (∀ c ∈ after.head?, c = '\n') ∧
    byteLength before ≤ offset ∧ offset ≤ byteLength before + byteLength inside

theorem OnLine.le_byteLength {text : List Char} {line offset : Nat}
    (h : OnLine text line offset) : offset ≤ byteLength text := by
  rcases h with ⟨before, inside, after, rfl, _, _, _, _, _, upper⟩
  rw [byteLength_append, byteLength_append]
  omega

theorem line_go_bounds (line column : Nat) (text : List Char) (offset : Nat) :
    line ≤ (ofOffset.go line column text offset).line ∧
    (ofOffset.go line column text offset).line ≤ line + text.count '\n' := by
  induction text generalizing line column offset with
  | nil => simp [ofOffset.go]
  | cons c text ih =>
    rw [ofOffset.go]
    split
    . simp
    . split
      . next newline =>
        have rest := ih (line + 1) 0 (offset - c.utf8Size)
        rw [newline, List.count_cons_self]
        rw [newline] at rest
        omega
      . next other =>
        rw [List.count_cons_of_ne other]
        exact ih _ _ _

theorem line_ofOffset_bounds (text : List Char) (offset : Nat) :
    1 ≤ (ofOffset text offset).line ∧ (ofOffset text offset).line ≤ text.count '\n' + 1 := by
  have bounds := line_go_bounds 1 0 text offset
  rw [Nat.add_comm 1] at bounds
  exact bounds

theorem exists_before (lines : Nat) (text : List Char) (has : lines ≤ text.count '\n') :
    ∃ before,
      text = before ++ dropLines lines text ∧
      before.count '\n' = lines ∧ (∀ c ∈ before.getLast?, c = '\n') ∧
      byteLength before = lineStart lines text := by
  induction text generalizing lines with
  | nil =>
    cases lines with
    | zero => exact ⟨[], rfl, rfl, by simp, rfl⟩
    | succ lines => simp at has
  | cons c text ih =>
    cases lines with
    | zero => exact ⟨[], rfl, rfl, by simp, rfl⟩
    | succ lines =>
      have last_cons (before : List Char) (last : ∀ d ∈ before.getLast?, d = '\n')
          (alone : before = [] → c = '\n') : ∀ d ∈ (c :: before).getLast?, d = '\n' := by
        cases before with
        | nil => simpa using alone rfl
        | cons d before =>
          rw [List.getLast?_cons_cons]
          exact last
      rw [dropLines, lineStart]
      by_cases newline : c = '\n'
      . rw [newline, List.count_cons_self, Nat.succ_le_succ_iff] at has
        rcases ih lines has with ⟨before, split, count, last, length⟩
        rw [if_pos newline, if_pos newline, ← length]
        refine ⟨c :: before, ?_, ?_, last_cons before last fun _ => newline, rfl⟩
        . rw [List.cons_append, ← split]
        . rw [newline, List.count_cons_self, count]
      . rw [List.count_cons_of_ne newline] at has
        rcases ih (lines + 1) has with ⟨before, split, count, last, length⟩
        rw [if_neg newline, if_neg newline, ← length]
        refine ⟨c :: before, ?_, ?_, last_cons before last ?_, rfl⟩
        . rw [List.cons_append, ← split]
        . rw [List.count_cons_of_ne newline, count]
        . rintro rfl
          simp at count

theorem exists_offset?_onLine (text : List Char) (place : Place) (counted : 1 ≤ place.line)
    (has : place.line ≤ text.count '\n' + 1) :
    ∃ offset, place.offset? text = some offset ∧ OnLine text place.line offset := by
  rcases place with ⟨line, column⟩
  dsimp only at *
  cases line with
  | zero => omega
  | succ lines =>
    rcases exists_before lines text (by omega) with ⟨before, split, count, last, length⟩
    refine ⟨_, rfl, before, (dropLines lines text).takeWhile (· ≠ '\n'),
      (dropLines lines text).dropWhile (· ≠ '\n'), ?_, ?_, last, ?_, ?_, ?_, ?_⟩
    . rw [List.append_assoc, List.takeWhile_append_dropWhile]
      exact split
    . rw [count]
    . intro mem
      have other := List.all_eq_true.mp List.all_takeWhile _ mem
      simp at other
    . intro c mem
      have stop := List.head?_dropWhile_not (· ≠ '\n') (dropLines lines text)
      rw [Option.mem_def] at mem
      rw [mem] at stop
      simpa using stop
    . rw [length]
      apply Nat.le_add_right
    . rw [length]
      apply Nat.add_le_add_left
      apply Nat.min_le_right

end Place

end DomainModel
