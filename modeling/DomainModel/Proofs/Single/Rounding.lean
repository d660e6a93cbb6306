import DomainModel.Proofs.Single.Packing

/-!
How far rounding in single precision can go. A bound of the magnitude by a number that single
precision has is kept when the magnitude is rounded, and a magnitude that is too large for the
format is rounded to infinity.
-/

namespace DomainModel.Single

open Float.Model (Format UnpackedFloat totalExponent)
open Float.Model.UnpackedFloat

def ceiling (em : ExtendedMantissa) : Nat := em.mantissa + (em.roundBit || em.stickyBit).toNat

theorem mantissa_le_roundedMantissa (em : ExtendedMantissa) : em.mantissa ≤ em.roundedMantissa := by
  unfold ExtendedMantissa.roundedMantissa Accuracy.roundToNearestEven
  split
  . exact Nat.le_refl _
  . exact Nat.le_refl _
  . exact Nat.le_add_right _ _
  . exact Nat.le_add_right _ _

theorem roundedMantissa_le_ceiling (em : ExtendedMantissa) : em.roundedMantissa ≤ ceiling em := by
  rcases em with ⟨mantissa, round, sticky⟩
  have parity : mantissa % 2 ≤ 1 := by omega
  cases round with
  | false =>
    cases sticky with
    | false => exact Nat.le_refl _
    | true => exact Nat.le_add_right _ _
  | true =>
    cases sticky with
    | false => exact Nat.add_le_add_left parity _
    | true => exact Nat.le_refl _

theorem ceiling_shiftRightOne_le (em : ExtendedMantissa) (bound : Nat)
    (h : ceiling em ≤ bound * 2) : ceiling em.shiftRightOne ≤ bound := by
  rcases em with ⟨mantissa, round, sticky⟩
  unfold ceiling ExtendedMantissa.shiftRightOne at *
  dsimp only at *
  cases lost : round || sticky with
  | true =>
    rw [lost, Bool.toNat_true] at h
    rw [Bool.or_true, Bool.toNat_true]
    omega
  | false =>
    rw [lost, Bool.toNat_false] at h
    rw [Bool.or_false]
    cases odd : mantissa % 2 != 0 with
    | true =>
      rw [bne_iff_ne] at odd
      rw [Bool.toNat_true]
      omega
    | false =>
      rw [Bool.toNat_false]
      omega

theorem shiftRight_succ (em : ExtendedMantissa) (n : Nat) :
    em >>> (n + 1) = (em >>> n).shiftRightOne := rfl

theorem ceiling_shiftRight_le (em : ExtendedMantissa) (n bound : Nat)
    (h : ceiling em ≤ bound * 2 ^ n) : ceiling (em >>> n) ≤ bound := by
  induction n generalizing bound with
  | zero =>
    rw [Nat.pow_zero, Nat.mul_one] at h
    exact h
  | succ n ih =>
    rw [shiftRight_succ]
    apply ceiling_shiftRightOne_le
    apply ih
    rw [Nat.mul_assoc, ← Nat.pow_succ']
    exact h

theorem mantissa_shiftRight (em : ExtendedMantissa) (n : Nat) :
    (em >>> n).mantissa = em.mantissa / 2 ^ n := by
  induction n with
  | zero => exact (Nat.div_one _).symm
  | succ n ih =>
    rw [shiftRight_succ, ExtendedMantissa.shiftRightOne]
    dsimp only
    rw [ih, Nat.div_div_eq_div_mul, ← Nat.pow_succ]

def places (m : Nat) (e : Int) : Nat := (max (totalExponent m e - 24) (-149) - e).toNat

def truncated (m : Nat) (e : Int) : Nat :=
  (ExtendedMantissa.mk m false false >>> places m e).mantissa

/-- The mantissa to which the first of two shifts rounds; the second one drops no more than a
zero that comes from a carry. -/
def rounded (m : Nat) (e : Int) : Nat :=
  (ExtendedMantissa.mk m false false >>> places m e).roundedMantissa

theorem rounded_le {m bound : Nat} {e : Int} (h : m ≤ bound * 2 ^ places m e) :
    rounded m e ≤ bound := by
  apply Nat.le_trans (roundedMantissa_le_ceiling _)
  apply ceiling_shiftRight_le
  exact h

theorem truncated_le_rounded (m : Nat) (e : Int) : truncated m e ≤ rounded m e :=
  mantissa_le_roundedMantissa _

theorem truncated_pos {m : Nat} {e : Int} (pos : 0 < m) (low : -149 ≤ e) : 0 < truncated m e := by
  unfold truncated
  rw [mantissa_shiftRight]
  apply Nat.div_pos _ (Nat.two_pow_pos _)
  apply Nat.le_trans _ (Nat.log2_self_le (Nat.ne_of_gt pos))
  apply Nat.pow_le_pow_right (by decide)
  unfold places totalExponent
  omega

theorem roundWithAccuracy_eq (sign : Sign) (m : Nat) (e : Int) :
    roundWithAccuracy .binary32 sign m e .exact =
      if h : truncated (rounded m e) (e + places m e) = 0 then .zero sign
      else
        .finite sign (truncated (rounded m e) (e + places m e))
          (e + places m e + places (rounded m e) (e + places m e)) (Nat.pos_of_ne_zero h) := rfl

def AtMost (top : Nat) (limit : Int) (m : Nat) (e : Int) : Prop :=
  e ≤ limit ∧ m ≤ top * 2 ^ (limit - e).toNat

section

variable {top m : Nat} {limit e : Int}

theorem log2_lt_of_lt {m n : Nat} (pos : 0 < n) (h : m < 2 ^ n) : m.log2 < n := by
  cases m with
  | zero => exact pos
  | succ m => exact (Nat.log2_lt (Nat.succ_ne_zero m)).mpr h

theorem AtMost.places_le (h : AtMost top limit m e) (small : top < 2 ^ 24) (low : -149 ≤ limit) :
    e + places m e ≤ limit := by
  rcases h with ⟨le, h⟩
  have fits : m < 2 ^ (24 + (limit - e).toNat) := by
    rw [Nat.pow_add]
    apply Nat.lt_of_le_of_lt h
    exact Nat.mul_lt_mul_of_pos_right small (Nat.two_pow_pos _)
  have digits := log2_lt_of_lt (by omega) fits
  unfold places totalExponent
  omega

theorem AtMost.rounded (h : AtMost top limit m e) (small : top < 2 ^ 24) (low : -149 ≤ limit) :
    AtMost top limit (rounded m e) (e + places m e) := by
  have le := h.places_le small low
  have split : (limit - (e + places m e)).toNat + places m e = (limit - e).toNat := by omega
  refine ⟨le, rounded_le ?_⟩
  rw [Nat.mul_assoc, ← Nat.pow_add, split]
  exact h.2

theorem AtMost.of_shifted {k : Nat} (h : AtMost (top * 2 ^ k) limit m e) :
    AtMost top (limit + k) m e := by
  rcases h with ⟨le, h⟩
  have split : (limit + k - e).toNat = k + (limit - e).toNat := by omega
  refine ⟨by omega, ?_⟩
  rw [split, Nat.pow_add, ← Nat.mul_assoc]
  exact h

theorem AtMost.decreaseExponent (h : AtMost top limit m e) (target : Int) :
    AtMost top limit (decreaseExponent m e target).1 (decreaseExponent m e target).2 := by
  rcases h with ⟨le, h⟩
  unfold UnpackedFloat.decreaseExponent
  dsimp only
  have split : (limit - (e - (e - target).toNat)).toNat =
      (limit - e).toNat + (e - target).toNat := by
    omega
  refine ⟨by omega, ?_⟩
  rw [Nat.shiftLeft_eq, split, Nat.pow_add, ← Nat.mul_assoc]
  exact Nat.mul_le_mul_right _ h

theorem AtMost.mul {top' m' : Nat} {limit' e' : Int} (h : AtMost top limit m e)
    (h' : AtMost top' limit' m' e') : AtMost (top * top') (limit + limit') (m * m') (e + e') := by
  rcases h with ⟨le, h⟩
  rcases h' with ⟨le', h'⟩
  have split : (limit + limit' - (e + e')).toNat = (limit - e).toNat + (limit' - e').toNat := by
    omega
  refine ⟨by omega, ?_⟩
  rw [split, Nat.pow_add, Nat.mul_mul_mul_comm]
  exact Nat.mul_le_mul h h'

end

inductive Within (top : Nat) (limit : Int) : UnpackedFloat → Prop where
  | zero (sign : Sign) : Within top limit (.zero sign)
  | finite (sign : Sign) (m : Nat) (e : Int) (pos : 0 < m) (h : AtMost top limit m e) :
      Within top limit (.finite sign m e pos)

section

variable {top : Nat} {limit : Int}

theorem Within.isFinite {f : UnpackedFloat} (h : Within top limit f) : f.isFinite = true := by
  cases h with
  | zero sign => rfl
  | finite sign m e pos h => rfl

theorem within_roundWithAccuracy {m : Nat} {e : Int} (h : AtMost top limit m e)
    (small : top < 2 ^ 24) (low : -149 ≤ limit) (sign : Sign) :
    Within top limit (roundWithAccuracy .binary32 sign m e .exact) := by
  have first := h.rounded small low
  have last := first.rounded small low
  by_cases zero : truncated (rounded m e) (e + places m e) = 0
  . rw [roundWithAccuracy_eq, dif_pos zero]
    exact .zero sign
  . rw [roundWithAccuracy_eq, dif_neg zero]
    exact .finite _ _ _ _ ⟨last.1, Nat.le_trans (truncated_le_rounded _ _) last.2⟩

theorem within_ofNat {n : Nat} (h : AtMost top limit n 0) (small : top < 2 ^ 24)
    (low : -149 ≤ limit) : Within top limit (UnpackedFloat.ofNat .binary32 n) := by
  unfold UnpackedFloat.ofNat ofInt UnpackedFloat.normalize
  split
  . next negative =>
    rw [Int.compare_eq_lt] at negative
    omega
  . exact .zero _
  . exact within_roundWithAccuracy (h.decreaseExponent _) small low _

theorem within_mul {k : Nat} {limit' : Int} {f g : UnpackedFloat} (hf : Within (2 ^ k) limit' f)
    (hg : Within top limit g) (small : top < 2 ^ 24) (low : -149 ≤ limit' + limit + k) :
    Within top (limit' + limit + k) (mul .binary32 f g) := by
  cases hf with
  | zero sign' =>
    cases hg with
    | zero sign => exact .zero _
    | finite sign m e pos h => exact .zero _
  | finite sign' m' e' pos' h' =>
    cases hg with
    | zero sign => exact .zero _
    | finite sign m e pos h =>
      have product := h'.mul h
      rw [Nat.mul_comm (2 ^ k)] at product
      exact within_roundWithAccuracy product.of_shifted small low _

theorem Within.unpack_pack {f : UnpackedFloat} (h : Within top limit f) (low : -149 ≤ limit)
    (high : limit ≤ 104) (room : 2 ^ 23 ≤ top * 2 ^ (limit + 149).toNat) :
    Within top limit (unpack .binary32 (pack .binary32 f)) := by
  have least (sign : Sign) (mantissa : BitVec 23) :
      Within top limit (unpack .binary32 (packComponents .binary32 sign 0#8 mantissa)) := by
    rw [unpack_of_least unpackExponent_packComponents, unpackMantissa_packComponents]
    by_cases zero : mantissa = 0#23
    . rw [dif_pos zero]
      exact .zero _
    . rw [dif_neg zero]
      exact .finite _ _ _ _ ⟨low, Nat.le_trans (Nat.le_of_lt mantissa.isLt) room⟩
  cases h with
  | zero sign => exact least sign 0#23
  | finite sign m e pos h =>
    have high := Int.le_trans h.1 high
    by_cases normal : m.log2 = 23 ∧ -149 ≤ e
    . rw [Single.unpack_pack (.normal sign m e pos normal.1 normal.2 high)]
      exact .finite sign m e pos h
    . rw [pack_finite _ _ _ _ high]
      split
      . next full =>
        have zero : (e + 150).toNat = 0 := by omega
        rw [zero]
        apply least
      . apply least

end

theorem unpack_pack_of_overflow (sign : Sign) (m : Nat) (e : Int) (pos : 0 < m)
    (overflow : 104 < e) :
    unpack .binary32 (pack .binary32 (.finite sign m e pos)) = .infinity sign := by
  have infinite : pack .binary32 (.finite sign m e pos) = pack .binary32 (.infinity sign) := by
    have bias : (Format.binary32.exponentBias : Int) = 127 := rfl
    have capacity : 2 ^ Format.binary32.exponentBits = 256 := rfl
    unfold pack
    dsimp only
    rw [bias, capacity, if_pos (by omega)]
  rw [infinite]
  exact unpack_pack (.infinity sign)

theorem unpack_pack_roundWithAccuracy_of_overflow (sign : Sign) {m : Nat} {e : Int} (pos : 0 < m)
    (low : -149 ≤ e) (overflow : 128 < totalExponent m e) :
    unpack .binary32 (pack .binary32 (roundWithAccuracy .binary32 sign m e .exact)) =
      .infinity sign := by
  have shifted : 104 < e + places m e := by
    unfold places
    omega
  have first := Nat.lt_of_lt_of_le (truncated_pos pos low) (truncated_le_rounded m e)
  have last := truncated_pos first (by omega : -149 ≤ e + places m e)
  rw [roundWithAccuracy_eq, dif_neg (Nat.ne_of_gt last)]
  apply unpack_pack_of_overflow
  omega

end DomainModel.Single
