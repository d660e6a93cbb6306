import DomainModel.Json.Literal
import DomainModel.Proofs.Json.Basic
import Mathlib.Data.List.TakeWhile

namespace DomainModel.Json

def AreDigits (ds : List Char) : Prop := ds ≠ [] ∧ ∀ d ∈ ds, d.isDigit = true

def EndsNumber (r : List Char) : Prop :=
  ∀ c ∈ r.head?, c.isDigit = false ∧ c ≠ '.' ∧ c ≠ 'e' ∧ c ≠ 'E'

namespace Literal

def fractionText : List Char → List Char
  | [] => []
  | ds => '.' :: ds

inductive ExponentWritten : Option (Bool × List Char) → List Char → Prop where
  | none : ExponentWritten none []
  | plain (mark : Char) (ds : List Char) (known : mark = 'e' ∨ mark = 'E') (digits : AreDigits ds) :
      ExponentWritten (some (false, ds)) (mark :: ds)
  | plus (mark : Char) (ds : List Char) (known : mark = 'e' ∨ mark = 'E') (digits : AreDigits ds) :
      ExponentWritten (some (false, ds)) (mark :: '+' :: ds)
  | minus (mark : Char) (ds : List Char) (known : mark = 'e' ∨ mark = 'E')
      (digits : AreDigits ds) : ExponentWritten (some (true, ds)) (mark :: '-' :: ds)

structure Written (literal : Literal) (text : List Char) : Prop where
  whole : AreDigits literal.whole
  noZero : literal.whole.head? = some '0' → literal.whole = ['0']
  fraction : ∀ d ∈ literal.fraction, d.isDigit = true
  text_eq : ∃ exponent,
    ExponentWritten literal.exponent exponent ∧
    text = (if literal.negative then ['-'] else []) ++
      (literal.whole ++ (fractionText literal.fraction ++ exponent))

end Literal

theorem digits_append (offset : Nat) (ds r : List Char) (digits : ∀ d ∈ ds, d.isDigit = true)
    (stop : ∀ c ∈ r.head?, c.isDigit = false) :
    (⟨offset, ds ++ r⟩ : Cursor).digits = (ds, ⟨offset + ds.length, r⟩) := by
  have taken : (ds ++ r).takeWhile Char.isDigit = ds := by
    rw [List.takeWhile_append_of_pos digits]
    cases r with
    | nil => simp
    | cons c r => simp [stop c rfl]
  have dropped : (ds ++ r).dropWhile Char.isDigit = r := by
    rw [List.dropWhile_append_of_pos digits]
    cases r with
    | nil => rfl
    | cons c r => simp [stop c rfl]
  simp only [Cursor.digits, taken, dropped]

theorem rest_of_digits (c next : Cursor) (ds : List Char) (found : c.digits = (ds, next)) :
    (∀ d ∈ ds, d.isDigit = true) ∧ c.rest = ds ++ next.rest := by
  unfold Cursor.digits at found
  injection found with taken dropped
  rw [← taken, ← dropped]
  constructor
  . intro d mem
    exact List.mem_takeWhile_imp mem
  . exact List.takeWhile_append_dropWhile.symm

namespace Literal

theorem exponentDigits_append (negative : Bool) (offset : Nat) (ds r : List Char)
    (digits : AreDigits ds) (stop : EndsNumber r) :
    scanExponent.exponentDigits negative ⟨offset, ds ++ r⟩ =
      .ok (some (negative, ds), ⟨offset + ds.length, r⟩) := by
  unfold scanExponent.exponentDigits
  rw [digits_append offset ds r digits.2 fun c mem => (stop c mem).1]
  cases ds with
  | nil => exact absurd rfl digits.1
  | cons d ds => rfl

theorem scanExponent_none (offset : Nat) (r : List Char)
    (stop : ∀ c ∈ r.head?, c ≠ 'e' ∧ c ≠ 'E') :
    scanExponent ⟨offset, r⟩ = .ok (none, ⟨offset, r⟩) := by
  unfold scanExponent
  split
  . simp_all
  . simp_all
  . simp_all
  . simp_all
  . simp_all
  . simp_all
  . rfl

theorem scanExponent_plain (offset : Nat) (mark : Char) (known : mark = 'e' ∨ mark = 'E')
    (r : List Char) (unsigned : ∀ c ∈ r.head?, c ≠ '-' ∧ c ≠ '+') :
    scanExponent ⟨offset, mark :: r⟩ = scanExponent.exponentDigits false ⟨offset + 1, r⟩ := by
  unfold scanExponent
  split
  . simp_all
  . simp_all
  . simp_all
  . simp_all
  . simp_all [Cursor.advance]
  . simp_all [Cursor.advance]
  . simp_all

theorem scanExponent_append (exponent : Option (Bool × List Char)) (text r : List Char)
    (written : ExponentWritten exponent text) (stop : EndsNumber r) (offset : Nat) :
    ∃ next, scanExponent ⟨offset, text ++ r⟩ = .ok (exponent, ⟨next, r⟩) := by
  cases written with
  | none =>
    refine ⟨offset, ?_⟩
    apply scanExponent_none
    intro c mem
    exact (stop c mem).2.2
  | plain mark ds known digits =>
    refine ⟨offset + 1 + ds.length, ?_⟩
    rw [List.cons_append, scanExponent_plain offset mark known]
    . exact exponentDigits_append false (offset + 1) ds r digits stop
    . intro c mem
      cases ds with
      | nil => exact absurd rfl digits.1
      | cons d ds =>
        cases mem
        have digit := digits.2 c List.mem_cons_self
        constructor
        . rintro rfl
          cases digit
        . rintro rfl
          cases digit
  | plus mark ds known digits =>
    refine ⟨offset + 2 + ds.length, ?_⟩
    rw [← exponentDigits_append false (offset + 2) ds r digits stop]
    rcases known with rfl | rfl
    . rfl
    . rfl
  | minus mark ds known digits =>
    refine ⟨offset + 2 + ds.length, ?_⟩
    rw [← exponentDigits_append true (offset + 2) ds r digits stop]
    rcases known with rfl | rfl
    . rfl
    . rfl

theorem scanFraction_append (ds r : List Char) (digits : ∀ d ∈ ds, d.isDigit = true)
    (stop : ∀ c ∈ r.head?, c.isDigit = false ∧ c ≠ '.') (offset : Nat) :
    ∃ next, scanFraction ⟨offset, fractionText ds ++ r⟩ = .ok (ds, ⟨next, r⟩) := by
  cases ds with
  | nil =>
    refine ⟨offset, ?_⟩
    unfold scanFraction
    split
    . simp_all [fractionText]
    . rfl
  | cons d ds =>
    refine ⟨offset + 1 + (d :: ds).length, ?_⟩
    have taken := digits_append (offset + 1) (d :: ds) r digits fun c mem => (stop c mem).1
    dsimp only [scanFraction, fractionText, List.cons_append]
    dsimp only [Cursor.advance, List.drop]
    rw [List.cons_append] at taken
    rw [taken]
    rfl

theorem scanWhole_append (ds r : List Char) (digits : AreDigits ds)
    (noZero : ds.head? = some '0' → ds = ['0']) (stop : ∀ c ∈ r.head?, c.isDigit = false)
    (offset : Nat) : ∃ next, scanWhole ⟨offset, ds ++ r⟩ = .ok (ds, ⟨next, r⟩) := by
  have taken := digits_append offset ds r digits.2 stop
  cases ds with
  | nil => exact absurd rfl digits.1
  | cons d ds =>
    by_cases zero : d = '0'
    . subst zero
      cases noZero rfl
      cases r with
      | nil => exact ⟨_, rfl⟩
      | cons c r => exact ⟨offset + 1, by simp [scanWhole, stop c rfl, Cursor.advance]⟩
    . unfold scanWhole
      split
      . simp_all
      . rw [taken]
        exact ⟨_, rfl⟩

theorem rest_of_exponentDigits (negative : Bool) (c next : Cursor)
    (exponent : Option (Bool × List Char))
    (found : scanExponent.exponentDigits negative c = .ok (exponent, next)) :
    ∃ ds, AreDigits ds ∧ exponent = some (negative, ds) ∧ c.rest = ds ++ next.rest := by
  unfold scanExponent.exponentDigits at found
  rcases taken : c.digits with ⟨ds, stop⟩
  rw [taken] at found
  cases ds with
  | nil => cases found
  | cons d ds =>
    cases found
    rcases rest_of_digits c next (d :: ds) taken with ⟨digits, same⟩
    exact ⟨d :: ds, ⟨List.cons_ne_nil d ds, digits⟩, rfl, same⟩

theorem rest_of_scanExponent (c next : Cursor) (exponent : Option (Bool × List Char))
    (found : scanExponent c = .ok (exponent, next)) :
    ∃ text, ExponentWritten exponent text ∧ c.rest = text ++ next.rest := by
  rcases c with ⟨offset, rest⟩
  -- Each form of an exponent is a mark and perhaps a sign in front of digits.
  have marked (negative : Bool) (front rest : List Char) (stop : Nat)
      (form : ∀ ds, AreDigits ds → ExponentWritten (some (negative, ds)) (front ++ ds))
      (found : scanExponent.exponentDigits negative ⟨stop, rest⟩ = .ok (exponent, next)) :
      ∃ text, ExponentWritten exponent text ∧ front ++ rest = text ++ next.rest := by
    rcases rest_of_exponentDigits negative _ next exponent found with ⟨ds, digits, rfl, same⟩
    dsimp only at same
    refine ⟨front ++ ds, form ds digits, ?_⟩
    rw [same, List.append_assoc]
  unfold scanExponent at found
  split at found
  . next rest same =>
    cases same
    exact marked true ['e', '-'] rest _ (fun ds => .minus 'e' ds (.inl rfl)) found
  . next rest same =>
    cases same
    exact marked true ['E', '-'] rest _ (fun ds => .minus 'E' ds (.inr rfl)) found
  . next rest same =>
    cases same
    exact marked false ['e', '+'] rest _ (fun ds => .plus 'e' ds (.inl rfl)) found
  . next rest same =>
    cases same
    exact marked false ['E', '+'] rest _ (fun ds => .plus 'E' ds (.inr rfl)) found
  . next rest _ _ same =>
    cases same
    exact marked false ['e'] rest _ (fun ds => .plain 'e' ds (.inl rfl)) found
  . next rest _ _ same =>
    cases same
    exact marked false ['E'] rest _ (fun ds => .plain 'E' ds (.inr rfl)) found
  . cases found
    exact ⟨[], .none, rfl⟩

theorem rest_of_scanFraction (c next : Cursor) (ds : List Char)
    (found : scanFraction c = .ok (ds, next)) :
    (∀ d ∈ ds, d.isDigit = true) ∧ c.rest = fractionText ds ++ next.rest := by
  unfold scanFraction at found
  split at found
  . next rest same =>
    rcases taken : (c.advance 1).digits with ⟨digits, stop⟩
    rw [taken] at found
    cases digits with
    | nil => cases found
    | cons d digits =>
      cases found
      rcases rest_of_digits _ next (d :: digits) taken with ⟨digits, after⟩
      refine ⟨digits, ?_⟩
      rw [Cursor.advance, same] at after
      rw [same]
      exact congrArg ('.' :: ·) after
  . cases found
    simp [fractionText]

theorem rest_of_scanWhole (c next : Cursor) (ds : List Char)
    (found : scanWhole c = .ok (ds, next)) :
    AreDigits ds ∧ (ds.head? = some '0' → ds = ['0']) ∧ c.rest = ds ++ next.rest := by
  unfold scanWhole at found
  split at found
  . next d rest same =>
    split at found
    . cases found
    . cases found
      refine ⟨⟨List.cons_ne_nil _ _, by simp⟩, fun _ => rfl, ?_⟩
      rw [Cursor.advance, same]
      rfl
  . next noZero =>
    rcases taken : c.digits with ⟨digits, stop⟩
    rw [taken] at found
    cases digits with
    | nil => cases found
    | cons d digits =>
      cases found
      rcases rest_of_digits c next (d :: digits) taken with ⟨areDigits, same⟩
      refine ⟨⟨List.cons_ne_nil d digits, areDigits⟩, ?_, same⟩
      intro zero
      cases zero
      cases digits with
      | nil => rfl
      | cons d digits => exact absurd same (noZero d _)

theorem head_exponent (exponent : Option (Bool × List Char)) (text r : List Char)
    (written : ExponentWritten exponent text) (stop : EndsNumber r) :
    ∀ c ∈ (text ++ r).head?, c.isDigit = false ∧ c ≠ '.' := by
  intro c mem
  cases written with
  | none => exact ⟨(stop c mem).1, (stop c mem).2.1⟩
  | plain mark ds known digits =>
    cases mem
    rcases known with rfl | rfl
    . decide
    . decide
  | plus mark ds known digits =>
    cases mem
    rcases known with rfl | rfl
    . decide
    . decide
  | minus mark ds known digits =>
    cases mem
    rcases known with rfl | rfl
    . decide
    . decide

theorem head_fraction (ds t : List Char) (stop : ∀ c ∈ t.head?, c.isDigit = false ∧ c ≠ '.') :
    ∀ c ∈ (fractionText ds ++ t).head?, c.isDigit = false := by
  intro c mem
  cases ds with
  | nil => exact (stop c mem).1
  | cons d ds =>
    cases mem
    rfl

theorem scan_eq_ok_iff (c next : Cursor) (literal : Literal) :
    scan c = .ok (literal, next) ↔
      ∃ afterWhole afterFraction,
        literal.negative = (c.rest.head? == some '-') ∧
        literal.stop = next.offset ∧
        scanWhole (if literal.negative then c.advance 1 else c) =
          .ok (literal.whole, afterWhole) ∧
        scanFraction afterWhole = .ok (literal.fraction, afterFraction) ∧
        scanExponent afterFraction = .ok (literal.exponent, next) := by
  unfold scan
  simp only [bind_eq_ok_iff, pure_eq_ok_iff, Prod.exists, Prod.mk.injEq]
  constructor
  . rintro ⟨whole, afterWhole, scanned, fraction, afterFraction, scannedFraction, exponent, _,
      scannedExponent, rfl, rfl⟩
    exact ⟨afterWhole, afterFraction, rfl, rfl, scanned, scannedFraction, scannedExponent⟩
  . rcases literal with ⟨negative, whole, fraction, exponent, stop⟩
    rintro ⟨afterWhole, afterFraction, rfl, rfl, scanned, scannedFraction, scannedExponent⟩
    exact ⟨whole, afterWhole, scanned, fraction, afterFraction, scannedFraction, exponent, next,
      scannedExponent, rfl, rfl⟩

theorem scan_append (literal : Literal) (text r : List Char) (written : literal.Written text)
    (stop : EndsNumber r) (offset : Nat) :
    ∃ next, scan ⟨offset, text ++ r⟩ = .ok ({ literal with stop := next }, ⟨next, r⟩) := by
  rcases literal with ⟨negative, whole, fraction, exponent, _⟩
  rcases written with ⟨digits, noZero, fractionDigits, mark, written, rfl⟩
  dsimp only at digits noZero fractionDigits written ⊢
  have tailHead := head_exponent exponent mark r written stop
  have wholeHead := head_fraction fraction (mark ++ r) tailHead
  have sign : (whole ++ (fractionText fraction ++ (mark ++ r))).head? ≠ some '-' := by
    cases whole with
    | nil => exact absurd rfl digits.1
    | cons d whole =>
      intro signed
      cases signed
      have digit := digits.2 _ List.mem_cons_self
      cases digit
  rcases scanWhole_append whole _ digits noZero wholeHead
      (if negative then offset + 1 else offset) with ⟨afterWhole, scanned⟩
  rcases scanFraction_append fraction _ fractionDigits tailHead afterWhole with
    ⟨afterFraction, scannedFraction⟩
  rcases scanExponent_append exponent mark r written stop afterFraction with
    ⟨next, scannedExponent⟩
  refine ⟨next, ?_⟩
  rw [scan_eq_ok_iff]
  refine ⟨_, _, ?_, rfl, ?_, scannedFraction, scannedExponent⟩
  . cases negative with
    | true => rfl
    | false => simpa [List.append_assoc] using sign
  . cases negative with
    | true => simpa [Cursor.advance, List.append_assoc] using scanned
    | false => simpa [List.append_assoc] using scanned

theorem rest_of_scan (c next : Cursor) (literal : Literal)
    (found : scan c = .ok (literal, next)) :
    ∃ text, literal.Written text ∧ c.rest = text ++ next.rest := by
  rw [scan_eq_ok_iff] at found
  rcases found with ⟨afterWhole, afterFraction, negative, _, scanned, scannedFraction,
    scannedExponent⟩
  rcases rest_of_scanWhole _ _ _ scanned with ⟨digits, noZero, whole_eq⟩
  rcases rest_of_scanFraction _ _ _ scannedFraction with ⟨fractionDigits, fraction_eq⟩
  rcases rest_of_scanExponent _ _ _ scannedExponent with ⟨mark, written, exponent_eq⟩
  rw [fraction_eq, exponent_eq] at whole_eq
  refine ⟨_, ⟨digits, noZero, fractionDigits, mark, written, rfl⟩, ?_⟩
  rcases c with ⟨offset, rest⟩
  cases signed : literal.negative with
  | true =>
    rw [signed] at negative whole_eq
    cases rest with
    | nil => cases negative
    | cons c rest =>
      simp only [List.head?_cons, Option.some_beq_some, Bool.true_eq, beq_iff_eq] at negative
      subst negative
      simpa [Cursor.advance] using whole_eq
  | false =>
    rw [signed] at whole_eq
    simpa using whole_eq

theorem number_withStop (literal : Literal) (stop : Nat) :
    ({ literal with stop } : Literal).number.toOption = literal.number.toOption := by
  have fractional_eq (significand leftOut : Nat) :
      (fractional { literal with stop } significand leftOut).toOption =
        (fractional literal significand leftOut).toOption := by
    unfold fractional
    dsimp only
    cases exponentPart (literal.exponent.getD (false, [])).2 0 0 with
    | ok value =>
      dsimp only
      split
      . rfl
      . rfl
    | error count =>
      dsimp only
      split
      . rfl
      . rfl
  unfold number
  dsimp only
  split
  . rfl
  . apply fractional_eq

end Literal

end DomainModel.Json
