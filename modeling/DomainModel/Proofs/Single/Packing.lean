import Mathlib.Algebra.Ring.Nat

namespace DomainModel.Single

open Float.Model (Format UnpackedFloat)
open Float.Model.UnpackedFloat

theorem toNat_one_append (mantissa : BitVec 23) :
    (1#1 ++ mantissa).toNat = 2 ^ 23 + mantissa.toNat := by
  rw [BitVec.toNat_append, ← Nat.shiftLeft_add_eq_or_of_lt mantissa.isLt]
  rfl

section

variable {b : BitVec Format.binary32.numBits}

theorem unpack_of_least (least : unpackExponent b = 0#8) :
    unpack .binary32 b =
      if h : unpackMantissa b = 0#23 then .zero (.ofBitVec (unpackSign b))
      else
        .finite (.ofBitVec (unpackSign b)) (unpackMantissa b).toNat (-149)
          (by simpa [BitVec.toNat_pos, BitVec.pos_iff_ne_zero]) := by
  have notTop : unpackExponent b ≠ -1#8 := by
    rw [least]
    decide
  have value : ((unpackExponent b).toNat : Int) - ((127 : Nat) + (23 : Nat)) + 1 = -149 := by
    rw [least]
    rfl
  unfold unpack
  dsimp only
  rw [if_neg notTop, if_pos least]
  change (if h : _ then _ else UnpackedFloat.finite _ _
    (((unpackExponent b).toNat : Int) - ((127 : Nat) + (23 : Nat)) + 1) _) = _
  rw [value]

theorem unpack_of_normal (notLeast : unpackExponent b ≠ 0#8) (notTop : unpackExponent b ≠ -1#8) :
    unpack .binary32 b =
      .finite (.ofBitVec (unpackSign b)) (1#1 ++ unpackMantissa b).toNat
        ((unpackExponent b).toNat - 150) (by rw [toNat_one_append]; omega) := by
  unfold unpack
  dsimp only
  rw [if_neg notTop, if_neg notLeast]
  rfl

end

inductive Unpacked : UnpackedFloat → Prop where
  | notANumber : Unpacked .notANumber
  | infinity (sign : Sign) : Unpacked (.infinity sign)
  | zero (sign : Sign) : Unpacked (.zero sign)
  | least (sign : Sign) (m : Nat) (pos : 0 < m) (short : m < 2 ^ 23) :
      Unpacked (.finite sign m (-149) pos)
  | normal (sign : Sign) (m : Nat) (e : Int) (pos : 0 < m) (full : m.log2 = 23)
      (low : -149 ≤ e) (high : e ≤ 104) : Unpacked (.finite sign m e pos)

theorem log2_eq_iff {m : Nat} (pos : 0 < m) : m.log2 = 23 ↔ 2 ^ 23 ≤ m ∧ m < 2 ^ 24 := by
  rw [← Nat.le_log2 (Nat.ne_of_gt pos), ← Nat.log2_lt (Nat.ne_of_gt pos)]
  omega

theorem unpacked_unpack (b : BitVec Format.binary32.numBits) : Unpacked (unpack .binary32 b) := by
  have mantissa : (unpackMantissa b).toNat < 2 ^ 23 := (unpackMantissa b).isLt
  have exponent : (unpackExponent b).toNat < 256 := (unpackExponent b).isLt
  by_cases top : unpackExponent b = -1#8
  . unfold unpack
    dsimp only
    rw [if_pos top]
    split
    . exact .infinity _
    . exact .notANumber
  by_cases least : unpackExponent b = 0#8
  . rw [unpack_of_least least]
    by_cases zero : unpackMantissa b = 0#23
    . rw [dif_pos zero]
      exact .zero _
    . rw [dif_neg zero]
      exact .least _ _ _ mantissa
  . rw [unpack_of_normal least top]
    rw [← BitVec.toNat_inj] at top least
    have notTop : (unpackExponent b).toNat ≠ 255 := top
    have notLeast : (unpackExponent b).toNat ≠ 0 := least
    have full : (1#1 ++ unpackMantissa b).toNat.log2 = 23 := by
      rw [toNat_one_append, log2_eq_iff (by omega)]
      omega
    apply Unpacked.normal _ _ _ _ full
    . omega
    . omega

theorem pack_finite (sign : Sign) (m : Nat) (e : Int) (pos : 0 < m) (high : e ≤ 104) :
    pack .binary32 (.finite sign m e pos) =
      if m.log2 = 23 then
        packComponents .binary32 sign (BitVec.ofNat 8 (e + 150).toNat) (BitVec.ofNat 23 m)
      else packComponents .binary32 sign 0#8 (BitVec.ofNat 23 m) := by
  have bias : (Format.binary32.exponentBias : Int) = 127 := rfl
  have capacity : 2 ^ Format.binary32.exponentBits = 256 := rfl
  have bits : Format.binary32.mantissaBits = 23 + 1 := rfl
  have biased : e + 127 + (23 : Nat) = e + 150 := by omega
  unfold pack
  dsimp only
  rw [bias, capacity, bits, biased, if_neg (by omega)]
  simp only [Nat.add_right_cancel_iff]

theorem sign_packComponents (sign : Sign) (exponent : BitVec 8) (mantissa : BitVec 23) :
    Sign.ofBitVec (unpackSign (packComponents .binary32 sign exponent mantissa)) = sign := by
  have top : unpackSign (packComponents .binary32 sign exponent mantissa) = sign.toBitVec := by
    unfold packComponents
    rw [BitVec.append_assoc]
    exact BitVec.extractLsb'_append_eq_left
  rw [top]
  cases sign with
  | negative => rfl
  | positive => rfl

theorem unpack_pack {f : UnpackedFloat} (h : Unpacked f) :
    unpack .binary32 (pack .binary32 f) = f := by
  cases h with
  | notANumber => rfl
  | infinity sign =>
    cases sign with
    | negative => rfl
    | positive => rfl
  | zero sign =>
    cases sign with
    | negative => rfl
    | positive => rfl
  | least sign m pos short =>
    have log : m.log2 ≠ 23 := by
      apply Nat.ne_of_lt
      exact (Nat.log2_lt (Nat.ne_of_gt pos)).mpr short
    have field : (BitVec.ofNat 23 m).toNat = m := Nat.mod_eq_of_lt short
    have notZero : BitVec.ofNat 23 m ≠ 0#23 := by
      rw [Ne, ← BitVec.toNat_inj, field]
      exact Nat.ne_of_gt pos
    rw [pack_finite _ _ _ _ (by decide), if_neg log, unpack_of_least unpackExponent_packComponents]
    rw [dif_neg (by rw [unpackMantissa_packComponents]; exact notZero), UnpackedFloat.finite.injEq]
    rw [unpackMantissa_packComponents]
    exact ⟨sign_packComponents _ _ _, field, rfl⟩
  | normal sign m e pos full low high =>
    have bounds := (log2_eq_iff pos).mp full
    have field : (BitVec.ofNat 8 (e + 150).toNat).toNat = (e + 150).toNat := by
      apply Nat.mod_eq_of_lt
      omega
    have mantissa : 2 ^ 23 + (BitVec.ofNat 23 m).toNat = m := by
      rw [BitVec.toNat_ofNat]
      omega
    rw [pack_finite _ _ _ _ high, if_pos full, unpack_of_normal, UnpackedFloat.finite.injEq]
    . rw [unpackMantissa_packComponents, unpackExponent_packComponents, toNat_one_append, field]
      exact ⟨sign_packComponents _ _ _, mantissa, by omega⟩
    . rw [unpackExponent_packComponents, Ne, ← BitVec.toNat_inj, field]
      change _ ≠ 0
      omega
    . rw [unpackExponent_packComponents, Ne, ← BitVec.toNat_inj, field]
      change _ ≠ 255
      omega

end DomainModel.Single
