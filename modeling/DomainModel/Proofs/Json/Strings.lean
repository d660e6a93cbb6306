import DomainModel.Json.Scan

/-!
Strings of a JSON text. Between its quotes a string is a list of pieces: characters, and escapes of
code units. Scanning takes the pieces one by one and finds what they stand for together; where half
of a surrogate pair stands alone, they stand for nothing.
-/

namespace DomainModel.Json

inductive Piece where
  | char (c : Char)
  | unit (n : Nat)

namespace Piece

inductive Written : Piece → List Char → Prop where
  | plain (c : Char) (visible : ¬ c < ' ') (noQuote : c ≠ '"') (noEscape : c ≠ '\\') :
      Written (.char c) [c]
  | escaped (c e : Char) (known : escape? e = some c) : Written (.char c) ['\\', e]
  | coded (n : Nat) (a b c d : Char) (known : codeUnit? a b c d = some n) :
      Written (.unit n) ['\\', 'u', a, b, c, d]

inductive AllWritten : List Piece → List Char → Prop where
  | nil : AllWritten [] []
  | cons {piece : Piece} {pieces : List Piece} {text body : List Char}
      (first : piece.Written text) (more : AllWritten pieces body) :
      AllWritten (piece :: pieces) (text ++ body)

def decode : List Piece → Option (List Char)
  | [] => some []
  | .char c :: pieces => (decode pieces).map (c :: ·)
  | .unit n :: pieces =>
    if isLeading n then
      match pieces with
      | .unit m :: pieces =>
        if isTrailing m then (decode pieces).map (surrogatePair n m :: ·) else none
      | _ => none
    else if isTrailing n then none
    else (decode pieces).map (Char.ofNat n :: ·)

theorem decode_unit_of_not_leading (n : Nat) (pieces : List Piece) (lone : ¬ isLeading n = true) :
    decode (.unit n :: pieces) =
      if isTrailing n then none else (decode pieces).map (Char.ofNat n :: ·) := by
  rw [decode.eq_def]
  simp [lone]

end Piece

def StringSpelled (s : Option String) (t r : List Char) : Prop :=
  ∃ pieces body,
    Piece.AllWritten pieces body ∧
    t = '"' :: (body ++ '"' :: r) ∧
    s = (Piece.decode pieces).map String.ofList

def unflawed (text : String) : Option Fault → Option String
  | none => some text
  | some _ => none

namespace StringState

-- What a string will say, with these pieces still to come.
def meaning (s : StringState) (pieces : List Piece) : Option String :=
  match s.flaw with
  | some _ => none
  | none =>
    (Piece.decode ((s.waiting.map Piece.unit).toList ++ pieces)).map fun cs =>
      String.ofList (s.taken.reverse ++ cs)

def Sound (s : StringState) : Prop := ∀ n ∈ s.waiting, isLeading n = true

theorem waiting_giveUp (s : StringState) (offset : Nat) (cause : Cause) :
    (s.giveUp offset cause).waiting = none := by
  unfold giveUp
  split
  . next alone => exact alone
  . rfl

theorem meaning_push_giveUp (s : StringState) (sound : s.Sound) (offset : Nat) (cause : Cause)
    (c : Char) (pieces : List Piece) :
    ((s.giveUp offset cause).push c).meaning pieces = s.meaning (.char c :: pieces) := by
  rcases s with ⟨waiting, flaw, taken⟩
  cases waiting with
  | none =>
    cases flaw with
    | none => simp [giveUp, push, meaning, Piece.decode, Function.comp_def]
    | some fault => rfl
  | some n =>
    have leading := sound n rfl
    cases flaw with
    | none => simp [giveUp, push, meaning, Piece.decode, leading]
    | some fault => rfl

theorem meaning_nil (s : StringState) (sound : s.Sound) (offset : Nat) (cause : Cause) :
    unflawed (String.ofList (s.giveUp offset cause).taken.reverse) (s.giveUp offset cause).flaw =
      s.meaning [] := by
  rcases s with ⟨waiting, flaw, taken⟩
  cases waiting with
  | none =>
    cases flaw with
    | none => simp [giveUp, unflawed, meaning, Piece.decode]
    | some fault => rfl
  | some n =>
    have leading := sound n rfl
    cases flaw with
    | none => simp [giveUp, unflawed, meaning, Piece.decode, leading]
    | some fault => rfl

theorem meaning_fresh (s : StringState) (alone : s.waiting = none) (offset n : Nat)
    (pieces : List Piece) :
    (pushUnit.fresh offset n s).meaning pieces = s.meaning (.unit n :: pieces) := by
  rcases s with ⟨waiting, flaw, taken⟩
  subst alone
  unfold pushUnit.fresh
  split
  . rfl
  . next notLeading =>
    split
    . next trailing =>
      cases flaw with
      | none => simp [meaning, Piece.decode_unit_of_not_leading n pieces notLeading, trailing]
      | some fault => rfl
    . next notTrailing =>
      cases flaw with
      | none =>
        rw [meaning, meaning]
        simp [push, Piece.decode_unit_of_not_leading n pieces notLeading, notTrailing,
          Function.comp_def]
      | some fault => rfl

theorem meaning_pushUnit (s : StringState) (sound : s.Sound) (offset n : Nat)
    (pieces : List Piece) :
    (s.pushUnit offset n).meaning pieces = s.meaning (.unit n :: pieces) := by
  rcases s with ⟨waiting, flaw, taken⟩
  cases waiting with
  | none =>
    apply meaning_fresh
    rfl
  | some m =>
    have leading := sound m rfl
    dsimp only [pushUnit]
    split
    . next trailing =>
      cases flaw with
      | none => simp [push, meaning, Piece.decode, leading, trailing, Function.comp_def]
      | some fault => rfl
    . next notTrailing =>
      rw [meaning_fresh _ (waiting_giveUp _ _ _)]
      cases flaw with
      | none => simp [giveUp, meaning, Piece.decode, leading, notTrailing]
      | some fault => rfl

theorem sound_pushUnit (s : StringState) (offset n : Nat) : (s.pushUnit offset n).Sound := by
  have fresh (t : StringState) (alone : t.waiting = none) :
      (pushUnit.fresh offset n t).Sound := by
    unfold pushUnit.fresh Sound
    split
    . next leading => simp [leading]
    . split
      . simp [alone]
      . simp [push, alone]
  rcases s with ⟨waiting, flaw, taken⟩
  cases waiting with
  | none => exact fresh _ rfl
  | some m =>
    dsimp only [pushUnit]
    split
    . simp [Sound, push]
    . exact fresh _ (waiting_giveUp _ _ _)

end StringState

theorem scanString_of_allWritten (pieces : List Piece) (body rest : List Char)
    (written : Piece.AllWritten pieces body) (offset : Nat) (s : StringState) (sound : s.Sound) :
    ∃ text flaw stop,
      scanString offset s (body ++ '"' :: rest) = .closed text flaw ⟨stop, rest⟩ ∧
      unflawed text flaw = s.meaning pieces := by
  -- Each step takes a piece from those still to come, and the meaning stays as it was.
  induction written generalizing offset s with
  | nil =>
    refine ⟨_, _, _, rfl, ?_⟩
    exact s.meaning_nil sound _ _
  | cons first more ih =>
    have alone (t : StringState) (stop : Nat) (cause : Cause) (c : Char) :
        ((t.giveUp stop cause).push c).Sound := by
      simp [StringState.Sound, StringState.push, StringState.waiting_giveUp]
    cases first with
    | plain c visible noQuote noEscape =>
      have next := ih (offset + c.utf8Size) ((s.giveUp (offset + 1) .unpairedEscape).push c)
        (alone _ _ _ _)
      rw [StringState.meaning_push_giveUp s sound] at next
      rw [List.singleton_append, List.cons_append, scanString]
      . rw [if_neg noQuote, if_neg visible]
        exact next
      . exact noEscape
    | escaped c e known =>
      have next := ih (offset + 2) ((s.giveUp (offset + 2) .unpairedEscape).push c)
        (alone _ _ _ _)
      rw [StringState.meaning_push_giveUp s sound] at next
      simp only [List.cons_append, List.nil_append]
      rw [scanString]
      . rw [known]
        exact next
      . rintro rfl
        cases known
    | coded n a b c d known =>
      have next := ih (offset + 6) (s.pushUnit (offset + 6) n) (s.sound_pushUnit _ _)
      rw [StringState.meaning_pushUnit s sound] at next
      simp only [List.cons_append, List.nil_append]
      rw [scanString, known]
      exact next

theorem allWritten_of_scanString (offset : Nat) (s : StringState) (t : List Char) (text : String)
    (flaw : Option Fault) (next : Cursor)
    (closed : scanString offset s t = .closed text flaw next) :
    ∃ pieces body, Piece.AllWritten pieces body ∧ t = body ++ '"' :: next.rest := by
  fun_induction scanString offset s t with
  | case1 => cases closed
  | case2 => cases closed
  | case3 offset s a b c d rest unit known ih =>
    rcases ih closed with ⟨pieces, body, written, rfl⟩
    exact ⟨_, _, .cons (.coded unit a b c d known) written, rfl⟩
  | case4 => cases closed
  | case5 => cases closed
  | case6 => cases closed
  | case7 offset s e rest _ notUnit c known ih =>
    rcases ih closed with ⟨pieces, body, written, rfl⟩
    exact ⟨_, _, .cons (.escaped c e known) written, rfl⟩
  | case8 => cases closed
  | case9 =>
    cases closed
    exact ⟨[], [], .nil, rfl⟩
  | case10 => cases closed
  | case11 offset s c rest noEscape _ noQuote visible ih =>
    rcases ih closed with ⟨pieces, body, written, rfl⟩
    exact ⟨_, _, .cons (.plain c visible noQuote noEscape) written, rfl⟩

theorem scanString_of_stringSpelled (s : Option String) (t r : List Char)
    (spelled : StringSpelled s t r) (offset : Nat) :
    ∃ text flaw stop,
      scanString offset {} (t.drop 1) = .closed text flaw ⟨stop, r⟩ ∧ unflawed text flaw = s := by
  rcases spelled with ⟨pieces, body, written, rfl, rfl⟩
  have sound : ({} : StringState).Sound := by
    simp [StringState.Sound]
  exact scanString_of_allWritten pieces body r written offset {} sound

theorem stringSpelled_of_scanString (offset : Nat) (t : List Char) (text : String)
    (flaw : Option Fault) (next : Cursor)
    (closed : scanString offset {} t = .closed text flaw next) :
    StringSpelled (unflawed text flaw) ('"' :: t) next.rest := by
  rcases allWritten_of_scanString offset {} t text flaw next closed with
    ⟨pieces, body, written, rfl⟩
  refine ⟨pieces, body, written, rfl, ?_⟩
  have sound : ({} : StringState).Sound := by
    simp [StringState.Sound]
  -- The pieces come from the scan itself, so scanning them again yields the same text and flaw.
  rcases scanString_of_allWritten pieces body next.rest written offset {} sound with
    ⟨_, _, _, again, told⟩
  rw [closed] at again
  injection again with sameText sameFlaw
  rw [sameText, sameFlaw]
  exact told

end DomainModel.Json
