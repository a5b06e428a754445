import LineMarkup.Number.Binary
import Mathlib.Algebra.Order.Field.Power
import Mathlib.Data.Rat.Cast.Order
import Mathlib.Tactic.Positivity

/-!
# Numbers that are places

A place in a list is given by a number of 64 bits.  The question which natural number it is, if any, is
answered on its bits, by shifting the mantissa; here the answer is compared with the rational number that
the bits stand for.  Infinities and what is not a number stand for none, so they are no place.

## Main Definitions

* `Number.Binary.value` — the rational number of a form
* `Number.Denotes` — a number is a natural number, exactly

## Main Statements

* `Number.wholeIndex?_eq_some_iff` — the place of a number is the natural number that it is
-/

namespace LineMarkup.Number

/-- The rational number of a form. -/
def Binary.value (b : Binary) : ℚ :=
  (if b.negative then -1 else 1) * (b.mantissa * 2 ^ b.exponent)

/-- A number of 64 bits is a natural number, without a fraction and without rounding. -/
def Denotes (x : Float) (n : Nat) : Prop :=
  ∃ b, Binary.ofFloat? x = some b ∧ b.value = n

namespace Binary

/-- Shifting the mantissa gives the magnitude exactly if nothing is shifted out. -/
theorem magnitude_eq_natCast_iff (b : Binary) (n : Nat) :
    (b.mantissa * 2 ^ b.exponent : ℚ) = n ↔ b.isWhole = true ∧ b.wholePart = n := by
  obtain ⟨negative, mantissa, exponent⟩ := b
  cases exponent with
  | ofNat e =>
      have hshift : (mantissa * 2 ^ Int.ofNat e : ℚ) = (mantissa * 2 ^ e : Nat) := by
        rw [Int.ofNat_eq_natCast, zpow_natCast, Nat.cast_mul, Nat.cast_pow, Nat.cast_ofNat]
      rw [hshift, Nat.cast_inj]
      exact (and_iff_right rfl).symm
  | negSucc e =>
      have hpos : 0 < 2 ^ (e + 1) := Nat.two_pow_pos (e + 1)
      have hshift : (mantissa * 2 ^ Int.negSucc e : ℚ) = n ↔ mantissa = n * 2 ^ (e + 1) := by
        rw [zpow_negSucc, ← div_eq_mul_inv, div_eq_iff (by positivity)]
        norm_cast
      rw [hshift]
      show _ ↔ (mantissa % 2 ^ (e + 1) == 0) = true ∧ mantissa / 2 ^ (e + 1) = n
      rw [beq_iff_eq]
      constructor
      · rintro rfl
        exact ⟨Nat.mul_mod_left n _, Nat.mul_div_cancel n hpos⟩
      · rintro ⟨hmod, rfl⟩
        exact (Nat.div_mul_cancel (Nat.dvd_of_mod_eq_zero hmod)).symm

/-- Of the forms below zero only zero itself is a natural number. -/
theorem value_eq_natCast_iff (b : Binary) (n : Nat) :
    b.value = n ↔
      (b.isWhole = true ∧ (b.negative = false ∨ b.mantissa = 0)) ∧ b.wholePart = n := by
  have hpos : (0 : ℚ) < 2 ^ b.exponent := zpow_pos two_pos b.exponent
  have hmagnitude := magnitude_eq_natCast_iff b n
  rw [and_right_comm, ← hmagnitude, value]
  cases b.negative with
  | false => rw [if_neg Bool.false_ne_true, one_mul, and_iff_left (.inl rfl)]
  | true =>
      rw [if_pos rfl, neg_one_mul]
      constructor
      · intro h
        have hnonpos : (b.mantissa * 2 ^ b.exponent : ℚ) ≤ 0 := by
          rw [← neg_nonneg, h]
          exact Nat.cast_nonneg n
        have hzero : (b.mantissa * 2 ^ b.exponent : ℚ) = 0 :=
          le_antisymm hnonpos (mul_nonneg (Nat.cast_nonneg _) hpos.le)
        have hmantissa : (b.mantissa : ℚ) = 0 := (mul_eq_zero.mp hzero).resolve_right hpos.ne'
        exact ⟨by rw [← h, hzero, neg_zero], .inr (Nat.cast_eq_zero.mp hmantissa)⟩
      · rintro ⟨h, hsign | hsign⟩
        · cases hsign
        · rw [← h, hsign, Nat.cast_zero, zero_mul, neg_zero]

end Binary

/-- **The place of a number is the natural number that it is.** -/
theorem wholeIndex?_eq_some_iff {x : Float} {n : Nat} : wholeIndex? x = some n ↔ Denotes x n := by
  unfold wholeIndex? Denotes
  cases Binary.ofFloat? x with
  | none => simp
  | some b =>
      simp only [Option.some.injEq, exists_eq_left', Binary.value_eq_natCast_iff,
        Option.ite_none_right_eq_some, Bool.and_eq_true, Bool.or_eq_true, Bool.not_eq_true',
        beq_iff_eq]

end LineMarkup.Number
