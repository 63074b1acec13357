import Introspection.Decimal.Binary64
import Mathlib.Algebra.Group.Nat.Defs

/-!
# `Introspection.Proofs.Decimal.Binary64`: numbers that are not too large

Rounding a fraction keeps 53 bits (`quotient_lt`) and an exponent that the numerator bounds
(`exponentOf_le`). `nearest_of_lt` sums that up: a numerator below `2 ^ k` gives a number with a
mantissa below `2 ^ 53` and an exponent of at most `k - 52`, and only from `k = 1024` on can this
be too large. `exists_ofDecimal` follows for whole numbers of 64 bits.
-/

set_option autoImplicit false

namespace Introspection.Decimal

variable {num den : Nat} {e e' : Int}

/-! ### The quotient of a scaled fraction -/

/-- `num / (den * 2 ^ e)` is below `2 ^ 53`, without a division. -/
def FitsMantissa (num den : Nat) (e : Int) : Prop :=
  num * 2 ^ (-e).toNat < 2 ^ 53 * (den * 2 ^ e.toNat)

/-- A larger exponent makes the quotient smaller. -/
theorem FitsMantissa.mono (h : FitsMantissa num den e) (he : e ≤ e') : FitsMantissa num den e' := by
  have hdown : 2 ^ (-e').toNat ≤ 2 ^ (-e).toNat := Nat.pow_le_pow_right (by decide) (by omega)
  have hup : 2 ^ e.toNat ≤ 2 ^ e'.toNat := Nat.pow_le_pow_right (by decide) (by omega)
  calc num * 2 ^ (-e').toNat
      ≤ num * 2 ^ (-e).toNat := Nat.mul_le_mul_left _ hdown
    _ < 2 ^ 53 * (den * 2 ^ e.toNat) := h
    _ ≤ 2 ^ 53 * (den * 2 ^ e'.toNat) := Nat.mul_le_mul_left _ (Nat.mul_le_mul_left _ hup)

theorem scaleDown_pos (hden : 0 < den) (num : Nat) (e : Int) : 0 < (scaleDown num den e).2 := by
  unfold scaleDown
  split
  · exact Nat.mul_pos hden (Nat.two_pow_pos _)
  · exact hden

theorem fitsMantissa_iff (hden : 0 < den) (num : Nat) (e : Int) :
    FitsMantissa num den e ↔ (scaleDown num den e).1 / (scaleDown num den e).2 < 2 ^ 53 := by
  rw [Nat.div_lt_iff_lt_mul (scaleDown_pos hden num e)]
  unfold FitsMantissa scaleDown
  split
  · have hzero : (-e).toNat = 0 := by omega
    rw [hzero, Nat.pow_zero, Nat.mul_one]
    rfl
  · have hzero : e.toNat = 0 := by omega
    rw [hzero, Nat.pow_zero, Nat.mul_one]
    rfl

/-- One above the first guess the quotient has at most 53 bits. -/
theorem fitsMantissa_succ (hden : 0 < den) :
    FitsMantissa num den ((num.log2 : Int) - (den.log2 : Int) - 53 + 1) := by
  generalize he : (num.log2 : Int) - (den.log2 : Int) - 53 + 1 = e
  have hnum : num < 2 ^ (num.log2 + 1) := Nat.lt_log2_self
  have hlow : 2 ^ den.log2 ≤ den := Nat.log2_self_le (by omega)
  calc num * 2 ^ (-e).toNat
      < 2 ^ (num.log2 + 1) * 2 ^ (-e).toNat :=
        Nat.mul_lt_mul_of_pos_right hnum (Nat.two_pow_pos _)
    _ = 2 ^ 53 * (2 ^ den.log2 * 2 ^ e.toNat) := by
        rw [← Nat.pow_add, ← Nat.pow_add, ← Nat.pow_add]
        congr 1
        omega
    _ ≤ 2 ^ 53 * (den * 2 ^ e.toNat) :=
        Nat.mul_le_mul_left _ (Nat.mul_le_mul_right _ hlow)

/-- The exponent leaves a quotient of at most 53 bits. -/
theorem quotient_lt (hden : 0 < den) (num : Nat) :
    (scaleDown num den (exponentOf num den)).1 / (scaleDown num den (exponentOf num den)).2
      < 2 ^ 53 := by
  rw [← fitsMantissa_iff hden]
  unfold exponentOf
  dsimp only
  -- The smallest exponent only takes the place of smaller ones.
  refine FitsMantissa.mono ?_ (Int.le_max_left _ _)
  split
  · exact fitsMantissa_succ hden
  · rename_i hlt
    exact (fitsMantissa_iff hden _ _).mpr (Nat.lt_of_not_le hlt)

/-- The exponent grows with the number of bits of the numerator. -/
theorem exponentOf_le {k : Nat} (hnum : num ≠ 0) (h : num < 2 ^ k) :
    exponentOf num den ≤ (k : Int) - 53 := by
  have hlog : num.log2 < k := (Nat.log2_lt hnum).mpr h
  unfold exponentOf
  dsimp only
  split <;> omega

/-! ### The nearest number -/

theorem roundDiv_le (num den : Nat) : roundDiv num den ≤ num / den + 1 := by
  unfold roundDiv
  dsimp only
  split <;> omega

/-- A number whose bits are few enough is not too large. -/
theorem nearest_of_lt {k : Nat} (negative : Bool) (hden : 0 < den) (h : num < 2 ^ k)
    (hk : k ≤ 1023) : ∃ x, nearest negative num den = some x
      ∧ x.mantissa < 2 ^ 53 ∧ x.exponent ≤ (k : Int) - 52 := by
  unfold nearest
  split
  · refine ⟨.zero negative, rfl, Nat.two_pow_pos 53, ?_⟩
    show (-1074 : Int) ≤ _
    omega
  · rename_i hnum
    have he : exponentOf num den ≤ (k : Int) - 53 := exponentOf_le hnum h
    have hq := quotient_lt hden num
    dsimp only
    generalize exponentOf num den = e at he hq
    have hm := roundDiv_le (scaleDown num den e).1 (scaleDown num den e).2
    generalize roundDiv (scaleDown num den e).1 (scaleDown num den e).2 = m at hm
    generalize hrounded :
      (if m = Nat.pow 2 53 then (Nat.pow 2 52, e + 1) else (m, e) : Nat × Int) = rounded
    have hbounds : rounded.1 < 2 ^ 53 ∧ rounded.2 ≤ (k : Int) - 52 := by
      rw [← hrounded]
      split
      · have hcarried : 2 ^ 52 < 2 ^ 53 := by decide
        exact ⟨hcarried, by omega⟩
      · rename_i hcarry
        have hne : m ≠ 2 ^ 53 := hcarry
        exact ⟨by omega, by omega⟩
    rw [if_neg (by omega)]
    exact ⟨_, rfl, hbounds⟩

namespace Binary64

theorem fraction_pos (x : Binary64) : 0 < x.fraction.2 := scaleDown_pos (by decide) _ _

/-- A number with a small exponent has a small numerator. -/
theorem fraction_lt {x : Binary64} {k : Nat} (hm : x.mantissa < 2 ^ 53) (he : x.exponent ≤ k) :
    x.fraction.1 < 2 ^ (53 + k) := by
  unfold fraction scaleDown
  split
  · exact Nat.lt_of_lt_of_le hm (Nat.pow_le_pow_right (by decide) (by omega))
  · have hexp : 2 ^ (- -x.exponent).toNat ≤ 2 ^ k := Nat.pow_le_pow_right (by decide) (by omega)
    rw [Nat.pow_add]
    exact Nat.mul_lt_mul_of_lt_of_le hm hexp (Nat.two_pow_pos _)

/-- One is the power of ten without zeros. -/
theorem tenPow_zero : tenPow 0 = some ⟨false, 2 ^ 52, -52⟩ := by decide +kernel

/-- Every whole number of 64 bits has a nearest number. -/
theorem exists_ofDecimal (negative : Bool) {n : Nat} (h : n < 2 ^ 64) :
    ∃ x, ofDecimal negative n 0 = some x := by
  obtain ⟨x, hx, hm, he⟩ := nearest_of_lt false (Nat.one_pos) h (by decide)
  have hfraction : x.fraction.1 * 2 ^ 52 < 2 ^ 117 := by
    have hlt : x.fraction.1 < 2 ^ (53 + 12) := fraction_lt hm (by omega)
    omega
  obtain ⟨y, hy, -⟩ := nearest_of_lt false
    (Nat.mul_pos x.fraction_pos (Nat.two_pow_pos 52)) hfraction (by decide)
  have htimes : x.times ⟨false, 2 ^ 52, -52⟩ = some y := hy
  refine ⟨{ y with negative := negative }, ?_⟩
  rw [ofDecimal, hx, Option.bind_some, timesTenPow, if_pos (Int.le_refl 0), if_pos (by decide)]
  show (((tenPow 0).bind x.times).map _) = _
  rw [tenPow_zero, Option.bind_some, htimes, Option.map_some]

end Binary64

end Introspection.Decimal
