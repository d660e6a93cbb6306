import DomainModel.Proofs.Text.Place
import Mathlib.Algebra.Ring.Nat
import Mathlib.Data.List.DropRight
import Mathlib.Data.List.SplitBy

/-!
Offsets of places. The place of a byte is counted on the bytes before it, as newlines and as bytes
since the last of them. The offset found for it is that of this byte again, inside characters, on
empty lines and at the end of the text too. A place that the text does not have is moved to one that
it has, and the text is never cut inside a character for this.
-/

namespace DomainModel

theorem byteLength_cons (c : Char) (text : List Char) :
    byteLength (c :: text) = c.utf8Size + byteLength text := rfl

theorem byteLength_takeWhile_le (keeps : Char → Bool) (text : List Char) :
    byteLength (text.takeWhile keeps) ≤ byteLength text := by
  have length := byteLength_append (text.takeWhile keeps) (text.dropWhile keeps)
  rw [List.takeWhile_append_dropWhile] at length
  omega

/-- The text can be cut at this offset, which is inside no character, and this is what follows. -/
def CutsAt (text : List Char) (offset : Nat) (rest : List Char) : Prop :=
  ∃ before, text = before ++ rest ∧ byteLength before = offset

theorem CutsAt.zero (text : List Char) : CutsAt text 0 text := ⟨[], rfl, rfl⟩

theorem CutsAt.cons {text rest : List Char} {offset : Nat} (h : CutsAt text offset rest)
    (c : Char) : CutsAt (c :: text) (c.utf8Size + offset) rest := by
  rcases h with ⟨before, rfl, rfl⟩
  exact ⟨c :: before, rfl, rfl⟩

theorem CutsAt.add_byteLength {text rest : List Char} {offset : Nat} (h : CutsAt text offset rest) :
    offset + byteLength rest = byteLength text := by
  rcases h with ⟨before, rfl, rfl⟩
  rw [byteLength_append]

def keptLines (text : List Char) : List (List Char) := text.splitBy fun c _ => c ≠ '\n'

theorem keptLines_concat (line : List Char) (within : '\n' ∉ line) (last : Char) :
    keptLines (line ++ [last]) = [line ++ [last]] := by
  have other (c : Char) (mem : c ∈ line) : decide (c ≠ '\n') = true :=
    decide_eq_true (ne_of_mem_of_not_mem mem within)
  apply List.splitBy_of_isChain (List.append_ne_nil_of_right_ne_nil _ (List.cons_ne_nil _ _))
  apply List.Pairwise.isChain
  rw [List.pairwise_append]
  refine ⟨?_, List.pairwise_singleton _ _, fun c mem _ _ => other c mem⟩
  exact List.pairwise_of_forall_mem_list fun c mem _ _ => other c mem

theorem keptLines_newline (line rest : List Char) (within : '\n' ∉ line) :
    keptLines (line ++ '\n' :: rest) = (line ++ ['\n']) :: keptLines rest := by
  have one := keptLines_concat line within '\n'
  unfold keptLines at *
  rw [List.append_cons, List.splitBy_append, one]
  . rfl
  . simp

def utf8Bytes (text : List Char) : List UInt8 := text.flatMap String.utf8EncodeChar

theorem utf8Bytes_toList (s : String) : utf8Bytes s.toList = s.toUTF8.data.toList := by
  rw [String.toUTF8_eq_toByteArray, ← s.utf8Encode_toList]
  exact List.toList_data_toByteArray.symm

theorem utf8Bytes_cons (c : Char) (text : List Char) :
    utf8Bytes (c :: text) = String.utf8EncodeChar c ++ utf8Bytes text := List.flatMap_cons

theorem utf8EncodeChar_newline : String.utf8EncodeChar '\n' = ['\n'.toUInt8] := by
  decide

theorem le_toNat_of_mem_utf8EncodeChar (c : Char) (wide : 127 < c.val.toNat) :
    ∀ byte ∈ String.utf8EncodeChar c, 128 ≤ byte.toNat := by
  have high (n : Nat) (lower : 128 ≤ n) (upper : n < 256) : 128 ≤ (UInt8.ofNat n).toNat := by
    rw [UInt8.toNat_ofNat', Nat.mod_eq_of_lt upper]
    exact lower
  unfold String.utf8EncodeChar
  dsimp only
  rw [if_neg (Nat.not_le_of_lt wide)]
  -- In two, three or four bytes, each has its mark and some bits of the code.
  split
  . simp only [List.forall_mem_cons, List.not_mem_nil, false_implies, implies_true, and_true]
    exact ⟨high _ (by omega) (by omega), high _ (by omega) (by omega)⟩
  . split
    . simp only [List.forall_mem_cons, List.not_mem_nil, false_implies, implies_true, and_true]
      exact ⟨high _ (by omega) (by omega), high _ (by omega) (by omega),
        high _ (by omega) (by omega)⟩
    . simp only [List.forall_mem_cons, List.not_mem_nil, false_implies, implies_true, and_true]
      exact ⟨high _ (by omega) (by omega), high _ (by omega) (by omega),
        high _ (by omega) (by omega), high _ (by omega) (by omega)⟩

theorem newline_notMem_utf8EncodeChar (c : Char) (other : c ≠ '\n') :
    '\n'.toUInt8 ∉ String.utf8EncodeChar c := by
  intro mem
  by_cases wide : 127 < c.val.toNat
  . have high := le_toNat_of_mem_utf8EncodeChar c wide _ mem
    exact absurd high (by decide)
  . apply other
    unfold String.utf8EncodeChar at mem
    dsimp only at mem
    rw [if_pos (by omega), List.mem_singleton] at mem
    have code := congrArg UInt8.toNat mem
    rw [UInt8.toNat_ofNat'] at code
    apply Char.ext
    apply UInt32.toNat_inj.mp
    change c.val.toNat = 10
    change 10 = _ at code
    omega

theorem newline_notMem_take_utf8EncodeChar (c : Char) (offset : Nat) (short : offset < c.utf8Size) :
    '\n'.toUInt8 ∉ (String.utf8EncodeChar c).take offset := by
  intro mem
  by_cases newline : c = '\n'
  . rw [newline] at short mem
    rw [Nat.lt_one_iff.mp short] at mem
    cases mem
  . exact newline_notMem_utf8EncodeChar c newline (List.mem_of_mem_take mem)

namespace Place

def ofBytes (before : List UInt8) : Place where
  line := before.count '\n'.toUInt8 + 1
  column := (before.rtakeWhile (· ≠ '\n'.toUInt8)).length

theorem ofBytes_newline (before : List UInt8) :
    ofBytes (before ++ ['\n'.toUInt8]) = ⟨(ofBytes before).line + 1, 0⟩ := by
  unfold ofBytes
  rw [List.count_append, List.count_singleton_self, List.rtakeWhile_concat_neg]
  . rfl
  . simp

theorem ofBytes_append (before inside : List UInt8) (within : '\n'.toUInt8 ∉ inside) :
    ofBytes (before ++ inside) =
      ⟨(ofBytes before).line, (ofBytes before).column + inside.length⟩ := by
  unfold ofBytes List.rtakeWhile
  rw [List.count_append, List.count_eq_zero_of_not_mem within, List.reverse_append,
    List.takeWhile_append_of_pos]
  . simp [Nat.add_comm]
  . intro byte mem
    rw [List.mem_reverse] at mem
    simpa using ne_of_mem_of_not_mem mem within

-- Line and column are at any time those after the bytes that have been read.
theorem go_ofBytes (before : List UInt8) (text : List Char) (offset : Nat) :
    ofOffset.go (ofBytes before).line (ofBytes before).column text offset =
      ofBytes (before ++ (utf8Bytes text).take offset) := by
  induction text generalizing before offset with
  | nil => simp [ofOffset.go, utf8Bytes]
  | cons c text ih =>
    rw [ofOffset.go, utf8Bytes_cons, List.take_append, String.length_utf8EncodeChar]
    split
    . next short =>
      rw [Nat.sub_eq_zero_of_le (Nat.le_of_lt short), List.take_zero, List.append_nil,
        ofBytes_append]
      . rw [List.length_take, String.length_utf8EncodeChar, Nat.min_eq_left (Nat.le_of_lt short)]
      . exact newline_notMem_take_utf8EncodeChar c offset short
    . next long =>
      rw [List.take_of_length_le (by rw [String.length_utf8EncodeChar]; omega), ← List.append_assoc]
      rw [← ih]
      split
      . next newline =>
        rw [newline, utf8EncodeChar_newline, ofBytes_newline]
      . next other =>
        rw [ofBytes_append, String.length_utf8EncodeChar]
        exact newline_notMem_utf8EncodeChar c other

theorem ofOffset_eq_ofBytes (text : List Char) (offset : Nat) :
    ofOffset text offset = ofBytes ((utf8Bytes text).take offset) := go_ofBytes [] text offset

structure IntoLine (text : List Char) (lines column offset : Nat) : Prop where
  start : lineStart lines text + column = offset
  held : column ≤ byteLength ((dropLines lines text).takeWhile (· ≠ '\n'))

namespace IntoLine

theorem nil : IntoLine [] 0 0 0 := ⟨rfl, Nat.zero_le _⟩

theorem inside_first (c : Char) (text : List Char) {offset : Nat} (short : offset < c.utf8Size) :
    IntoLine (c :: text) 0 offset offset := by
  constructor
  . rw [lineStart, Nat.zero_add]
  . rw [dropLines, List.takeWhile_cons]
    split
    . rw [byteLength_cons]
      omega
    . next newline =>
      rw [decide_eq_true_eq, ne_eq, not_not] at newline
      rw [newline] at short
      exact Nat.le_of_lt_succ short

variable {text : List Char} {lines column offset : Nat}

theorem newline (h : IntoLine text lines column offset) :
    IntoLine ('\n' :: text) (lines + 1) column ('\n'.utf8Size + offset) := by
  constructor
  . rw [lineStart, if_pos rfl, Nat.add_assoc, h.start]
  . rw [dropLines, if_pos rfl]
    exact h.held

theorem same_line {c : Char} (other : c ≠ '\n') (h : IntoLine text 0 column offset) :
    IntoLine (c :: text) 0 (c.utf8Size + column) (c.utf8Size + offset) := by
  rcases h with ⟨start, held⟩
  rw [lineStart, Nat.zero_add] at start
  rw [dropLines] at held
  constructor
  . rw [lineStart, Nat.zero_add, start]
  . rw [dropLines, List.takeWhile_cons_of_pos (by simpa using other), byteLength_cons]
    exact Nat.add_le_add_left held _

theorem later_line {c : Char} (other : c ≠ '\n') (h : IntoLine text (lines + 1) column offset) :
    IntoLine (c :: text) (lines + 1) column (c.utf8Size + offset) := by
  constructor
  . rw [lineStart, if_neg other, Nat.add_assoc, h.start]
  . rw [dropLines, if_neg other]
    exact h.held

theorem offset?_eq (h : IntoLine text lines column offset) :
    offset? text ⟨lines + 1, column + 1⟩ = some offset ∧
    offset? text ⟨lines + 1, column⟩ = some (if column = 0 then offset else offset - 1) := by
  rcases h with ⟨rfl, held⟩
  dsimp only [offset?]
  rw [Nat.add_sub_cancel, Nat.min_eq_left held]
  refine ⟨rfl, ?_⟩
  rw [Nat.min_eq_left (Nat.le_trans (Nat.sub_le _ _) held)]
  split
  . next first => rw [first]
  . next later => rw [Nat.add_sub_assoc (Nat.pos_of_ne_zero later)]

end IntoLine

-- Only on the line that the count starts on do its bytes add to those already counted.
theorem exists_go_intoLine (line column : Nat) (text : List Char) (offset : Nat)
    (inside : offset ≤ byteLength text) :
    ∃ lines reached,
      ofOffset.go line column text offset =
        ⟨line + lines, (if lines = 0 then column else 0) + reached⟩ ∧
      IntoLine text lines reached offset := by
  induction text generalizing line column offset with
  | nil =>
    rw [Nat.le_zero.mp inside]
    exact ⟨0, 0, rfl, .nil⟩
  | cons c text ih =>
    rw [ofOffset.go]
    split
    . next short => exact ⟨0, offset, rfl, .inside_first c text short⟩
    . next long =>
      rcases Nat.exists_eq_add_of_le (Nat.le_of_not_lt long) with ⟨left, rfl⟩
      rw [Nat.add_sub_cancel_left]
      rw [byteLength_cons] at inside
      replace inside := Nat.le_of_add_le_add_left inside
      split
      . next newline =>
        rcases ih (line + 1) 0 left inside with ⟨lines, reached, place, into⟩
        rw [newline, place]
        refine ⟨lines + 1, reached, ?_, into.newline⟩
        rw [ite_self, if_neg (Nat.succ_ne_zero lines), Nat.add_right_comm, Nat.add_assoc]
      . next other =>
        rcases ih line (column + c.utf8Size) left inside with ⟨lines, reached, place, into⟩
        rw [place]
        cases lines with
        | zero =>
          refine ⟨0, c.utf8Size + reached, ?_, into.same_line other⟩
          rw [if_pos rfl, if_pos rfl, Nat.add_assoc column]
        | succ lines => exact ⟨lines + 1, reached, rfl, into.later_line other⟩

theorem offset?_ofOffset (text : List Char) (offset : Nat) (inside : offset ≤ byteLength text) :
    offset? text ⟨(ofOffset text offset).line, (ofOffset text offset).column + 1⟩ = some offset ∧
    offset? text (ofOffset text offset) =
      some (if (ofOffset text offset).column = 0 then offset else offset - 1) := by
  rcases exists_go_intoLine 1 0 text offset inside with ⟨lines, reached, place, into⟩
  rw [ite_self, Nat.zero_add, Nat.add_comm 1] at place
  unfold ofOffset
  rw [place]
  exact into.offset?_eq

theorem cutsAt_lineStart (lines : Nat) (text : List Char) :
    CutsAt text (lineStart lines text) (dropLines lines text) := by
  induction text generalizing lines with
  | nil =>
    cases lines with
    | zero => exact .zero []
    | succ lines => exact .zero []
  | cons c text ih =>
    cases lines with
    | zero => exact .zero (c :: text)
    | succ lines =>
      rw [lineStart, dropLines]
      split
      . exact (ih lines).cons c
      . exact (ih (lines + 1)).cons c

theorem lineStart_newline (lines : Nat) (line rest : List Char) (within : '\n' ∉ line) :
    lineStart (lines + 1) (line ++ '\n' :: rest) =
      byteLength (line ++ ['\n']) + lineStart lines rest := by
  induction line with
  | nil => rfl
  | cons c line ih =>
    rw [List.mem_cons, not_or] at within
    rw [List.cons_append, lineStart, if_neg (Ne.symm within.1), ih within.2, List.cons_append,
      byteLength_cons, Nat.add_assoc]

theorem lineStart_of_notMem (lines : Nat) (text : List Char) (within : '\n' ∉ text) :
    lineStart (lines + 1) text = byteLength text := by
  induction text with
  | nil => rfl
  | cons c text ih =>
    rw [List.mem_cons, not_or] at within
    rw [lineStart, if_neg (Ne.symm within.1), ih within.2, byteLength_cons]

theorem lineStart_eq_sum (lines : Nat) (text : List Char) :
    lineStart lines text = (((keptLines text).take lines).map byteLength).sum := by
  induction lines generalizing text with
  | zero => rw [lineStart, List.take_zero, List.map_nil, List.sum_nil]
  | succ lines ih =>
    by_cases more : '\n' ∈ text
    . rcases List.eq_append_cons_of_mem more with ⟨line, rest, rfl, within⟩
      rw [lineStart_newline lines line rest within, keptLines_newline line rest within, ih,
        List.take_succ_cons, List.map_cons, List.sum_cons]
    . rw [lineStart_of_notMem lines text more]
      rcases List.eq_nil_or_concat text with rfl | ⟨line, last, rfl⟩
      . rfl
      . rw [List.concat_eq_append] at more ⊢
        have within := fun mem => more (List.mem_append_left _ mem)
        rw [keptLines_concat line within last, List.take_of_length_le (by simp),
          List.map_singleton, List.sum_singleton]

theorem offset?_le (text : List Char) (lines column : Nat) :
    lineStart lines text +
        min (column - 1) (byteLength ((dropLines lines text).takeWhile (· ≠ '\n'))) ≤
      byteLength text := by
  rw [← (cutsAt_lineStart lines text).add_byteLength]
  apply Nat.add_le_add_left
  apply Nat.le_trans (Nat.min_le_right _ _)
  apply byteLength_takeWhile_le

-- A column counted from zero leads to the byte before, but not across the start of the line.
theorem offset?_inverts_count :
    (∀ (text : String) (index : Nat), index ≤ text.utf8ByteSize →
      let place := ofBytes (text.toUTF8.data.toList.take index)
      place = ofOffset text.toList index ∧
      offset? text.toList ⟨place.line, place.column + 1⟩ = some index ∧
      offset? text.toList place = some (if place.column = 0 then index else index - 1)) ∧
    ∀ (text : String) (line column : Nat), 1 ≤ line →
      let start := (((keptLines text.toList).take (line - 1)).map byteLength).sum
      ∃ rest,
        CutsAt text.toList start rest ∧
        let offset := start + min (column - 1) (byteLength (rest.takeWhile (· ≠ '\n')))
        offset? text.toList ⟨line, column⟩ = some offset ∧
        offset ≤ text.utf8ByteSize := by
  constructor
  . intro text index inside
    rw [← byteLength_toList] at inside
    rw [← utf8Bytes_toList, ← ofOffset_eq_ofBytes]
    exact ⟨rfl, offset?_ofOffset text.toList index inside⟩
  . intro text line column counted
    rcases Nat.exists_eq_add_of_le' counted with ⟨lines, rfl⟩
    rw [Nat.add_sub_cancel, ← lineStart_eq_sum, ← byteLength_toList]
    refine ⟨dropLines lines text.toList, cutsAt_lineStart lines text.toList, rfl, ?_⟩
    exact offset?_le text.toList lines column

def mixedText : String := "é\n\n𝄞b"

-- The byte at index 6 is inside a character of four bytes, and there is no ninth line.
theorem offset?_inverts_count_mixedText :
    6 ≤ mixedText.utf8ByteSize ∧
    offset? mixedText.toList ⟨3, 3⟩ = some 6 ∧
    offset? mixedText.toList ⟨3, 2⟩ = some 5 ∧
    1 ≤ 9 ∧
    ∃ rest, CutsAt mixedText.toList 9 rest ∧ offset? mixedText.toList ⟨9, 10 ^ 20⟩ = some 9 := by
  have place : ofBytes (mixedText.toUTF8.data.toList.take 6) = ⟨3, 2⟩ := by decide
  have inverse := offset?_inverts_count.1 mixedText 6 (by decide)
  rw [place] at inverse
  have start : (((keptLines mixedText.toList).take (9 - 1)).map byteLength).sum = 9 := by decide
  rcases offset?_inverts_count.2 mixedText 9 (10 ^ 20) (by decide) with ⟨rest, cuts, found, bound⟩
  rw [start] at cuts found bound
  have last := Nat.le_antisymm bound (Nat.le_add_right 9 _)
  rw [last] at found
  exact ⟨by decide, inverse.2.1, inverse.2.2, by decide, rest, cuts, found⟩

end Place

end DomainModel
