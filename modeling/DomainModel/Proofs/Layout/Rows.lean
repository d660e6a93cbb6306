import DomainModel.Layout.PositionCache
import DomainModel.Proofs.Single.Rounding

/-!
Which layouts have finite rows only. The index of a row has 64 bits, and in single precision the
last one is rounded to two to the power of 64. So it is the distance of two rows that decides: if it
is less than this number then all rows are finite, and otherwise the last one is not.
-/

namespace DomainModel

open Float.Model (UnpackedFloat totalExponent)
open Float.Model.UnpackedFloat

namespace Single

theorem unpacked (x : Float32) : Unpacked x.toModel.unpack := unpacked_unpack _

theorem lt_iff (x y : Float32) :
    x < y ↔ x.toModel.unpack.compare y.toModel.unpack = some .lt := by
  change decide (x.toModel.unpack.lt y.toModel.unpack = true) = true ↔ _
  rw [decide_eq_true_iff]
  apply beq_iff_eq

theorem unpacked_abs {f : UnpackedFloat} (h : Unpacked f) : Unpacked f.abs := by
  cases h with
  | notANumber => exact .notANumber
  | infinity sign => exact .infinity _
  | zero sign => exact .zero _
  | least sign m pos short => exact .least _ m pos short
  | normal sign m e pos full low high => exact .normal _ m e pos full low high

theorem unpack_abs (x : Float32) : x.abs.toModel.unpack = x.toModel.unpack.abs :=
  unpack_pack (unpacked_abs (unpacked x))

theorem within_toFloat32 (index : UInt64) :
    Within (2 ^ 23) 41 index.toFloat32.toModel.unpack := by
  have fits : AtMost (2 ^ 23) 41 index.toNat 0 := ⟨by decide, Nat.le_of_lt index.toNat_lt⟩
  apply (within_ofNat fits (by decide) (by decide)).unpack_pack
  . decide
  . decide
  . decide

/-- Two to the power of 64. -/
def rowLimit : UnpackedFloat := .finite .positive (2 ^ 23) 41 (by decide)

theorem unpack_literal : (18446744073709551616 : Float32).toModel.unpack = rowLimit := rfl

theorem unpack_last : (18446744073709551615 : UInt64).toFloat32.toModel.unpack = rowLimit := rfl

theorem within_finite_iff {sign : Sign} {m : Nat} {e : Int} {pos : 0 < m} (h : m < 2 ^ 24) :
    Within (2 ^ 24 - 1) 40 (.finite sign m e pos) ↔ e ≤ 40 := by
  constructor
  . rintro ⟨⟩
    next h => exact h.1
  . intro le
    apply Within.finite
    refine ⟨le, ?_⟩
    apply Nat.le_trans (Nat.le_sub_one_of_lt h)
    exact Nat.le_mul_of_pos_right _ (Nat.two_pow_pos _)

theorem compare_abs_rowLimit_iff {f : UnpackedFloat} (h : Unpacked f) :
    f.abs.compare rowLimit = some .lt ↔ Within (2 ^ 24 - 1) 40 f := by
  cases h with
  | notANumber =>
    constructor
    . rintro ⟨⟩
    . rintro ⟨⟩
  | infinity sign =>
    constructor
    . rintro ⟨⟩
    . rintro ⟨⟩
  | zero sign => exact iff_of_true rfl (.zero sign)
  | least sign m pos short =>
    rw [within_finite_iff (Nat.lt_trans short (by decide))]
    exact iff_of_true rfl (by decide)
  | normal sign m e pos full low high =>
    have bounds := (log2_eq_iff pos).mp full
    rw [within_finite_iff bounds.2]
    change some ((compare e 41).then (compare m (2 ^ 23))) = some .lt ↔ _
    rw [Option.some.injEq, Ordering.then_eq_lt, Int.compare_eq_lt, Nat.compare_eq_lt]
    omega

theorem isFinite_mul (index : UInt64) {x : Float32} (h : Within (2 ^ 24 - 1) 40 x.toModel.unpack) :
    (index.toFloat32 * x).isFinite = true := by
  have product := within_mul (within_toFloat32 index) h (by decide) (by decide)
  apply Within.isFinite
  apply product.unpack_pack
  . decide
  . decide
  . decide

theorem within_of_isFinite_rowLimit_mul {f : UnpackedFloat} (h : Unpacked f)
    (finite : (unpack .binary32 (pack .binary32 (mul .binary32 rowLimit f))).isFinite = true) :
    Within (2 ^ 24 - 1) 40 f := by
  cases h with
  | notANumber => cases finite
  | infinity sign =>
    have product : mul .binary32 rowLimit (.infinity sign) = .infinity _ := rfl
    rw [product, unpack_pack (.infinity _)] at finite
    cases finite
  | zero sign => exact .zero sign
  | least sign m pos short =>
    rw [within_finite_iff (Nat.lt_trans short (by decide))]
    decide
  | normal sign m e pos full low high =>
    have bounds := (log2_eq_iff pos).mp full
    rw [within_finite_iff bounds.2]
    apply Decidable.byContradiction
    intro large
    have digits : 46 ≤ (2 ^ 23 * m).log2 := by
      rw [Nat.le_log2 (by omega)]
      omega
    have overflow : 128 < totalExponent (2 ^ 23 * m) (41 + e) := by
      unfold totalExponent
      omega
    have product : mul .binary32 rowLimit (.finite sign m e pos) =
        roundWithAccuracy .binary32 _ (2 ^ 23 * m) (41 + e) .exact := rfl
    rw [product, unpack_pack_roundWithAccuracy_of_overflow _ (by omega) (by omega) overflow]
      at finite
    cases finite

theorem isFinite_rows_iff (x : Float32) :
    (∀ index : UInt64, (index.toFloat32 * x).isFinite = true) ↔ x.abs < 18446744073709551616 := by
  rw [lt_iff, unpack_abs, unpack_literal, compare_abs_rowLimit_iff (unpacked x)]
  constructor
  . intro finite
    apply within_of_isFinite_rowLimit_mul (unpacked x)
    rw [← unpack_last]
    exact finite 18446744073709551615
  . intro within index
    exact isFinite_mul index within

end Single

theorem Layout.isFinite_defaultPosition_iff (layout : Layout) :
    (∀ index, (layout.defaultPosition index).isFinite = true) ↔
      layout.originX.isFinite = true ∧ layout.rowSpacing.abs < 18446744073709551616 := by
  rw [← Single.isFinite_rows_iff]
  unfold Layout.defaultPosition Point.isFinite
  simp only [Bool.and_eq_true]
  constructor
  . intro finite
    refine ⟨(finite 0).1, ?_⟩
    intro index
    have row := (finite index.toNat).2
    rw [Nat.toUInt64, UInt64.ofNat_toNat] at row
    exact row
  . rintro ⟨finite, rows⟩ index
    exact ⟨finite, rows _⟩

theorem Layout.isFinite_defaultPosition_default (index : Nat) :
    (({} : Layout).defaultPosition index).isFinite = true := by
  apply ({} : Layout).isFinite_defaultPosition_iff.mpr
  decide

end DomainModel
