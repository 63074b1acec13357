/-!
# `Introspection.Proofs.Text.Letter`: letters and their case

Only the letters of ASCII have a case. Their code points are 65 to 90 for capitals and 97 to 122 for
small letters, and the two cases of a letter are 32 apart. What a change of case does to a character
is arithmetic on its code point.
-/

set_option autoImplicit false

namespace Introspection.Text

variable {c : Char}

/-! ### Code points -/

theorem isUpper_iff : c.isUpper = true ↔ 65 ≤ c.toNat ∧ c.toNat ≤ 90 :=
  decide_eq_true_iff

theorem isLower_iff : c.isLower = true ↔ 97 ≤ c.toNat ∧ c.toNat ≤ 122 := by
  show (decide (97 ≤ c.toNat) && decide (c.toNat ≤ 122)) = true ↔ _
  rw [Bool.and_eq_true, decide_eq_true_iff, decide_eq_true_iff]

theorem isAlpha_iff : c.isAlpha = true ↔ c.isUpper = true ∨ c.isLower = true :=
  Bool.or_eq_true_iff

theorem toNat_toLower :
    c.toLower.toNat = if 65 ≤ c.toNat ∧ c.toNat ≤ 90 then c.toNat + 32 else c.toNat := by
  unfold Char.toLower
  split
  next h =>
    have hcapital : 65 ≤ c.toNat ∧ c.toNat ≤ 90 := h
    rw [if_pos hcapital]
    show (c.val + ('a'.val - 'A'.val)).toNat = c.toNat + 32
    rw [UInt32.toNat_add, Char.toNat_val]
    show (c.toNat + 32) % 4294967296 = c.toNat + 32
    omega
  next h => exact (if_neg h).symm

theorem toNat_toUpper :
    c.toUpper.toNat = if 97 ≤ c.toNat ∧ c.toNat ≤ 122 then c.toNat - 32 else c.toNat := by
  unfold Char.toUpper
  split
  next h =>
    have hsmall : 97 ≤ c.toNat ∧ c.toNat ≤ 122 := h
    rw [if_pos hsmall]
    show (c.val + ('A'.val - 'a'.val)).toNat = c.toNat - 32
    rw [UInt32.toNat_add, Char.toNat_val]
    -- The difference of the letters is negative, so it is a number close to the word's end.
    show (c.toNat + 4294967264) % 4294967296 = c.toNat - 32
    omega
  next h => exact (if_neg h).symm

/-! ### The case of letters -/

theorem isLower_of_isUpper (h : c.isUpper = true) : c.isLower = false := by
  rw [isUpper_iff] at h
  rw [← Bool.not_eq_true, isLower_iff]
  omega

theorem toLower_of_isUpper (h : c.isUpper = false) : c.toLower = c := by
  rw [← Bool.not_eq_true, isUpper_iff] at h
  rw [← Char.toNat_inj, toNat_toLower, if_neg h]

theorem toUpper_of_isLower (h : c.isLower = false) : c.toUpper = c := by
  rw [← Bool.not_eq_true, isLower_iff] at h
  rw [← Char.toNat_inj, toNat_toUpper, if_neg h]

variable (c)

theorem isUpper_toLower : c.toLower.isUpper = false := by
  rw [← Bool.not_eq_true, isUpper_iff, toNat_toLower]
  split <;> omega

theorem isLower_toUpper : c.toUpper.isLower = false := by
  rw [← Bool.not_eq_true, isLower_iff, toNat_toUpper]
  split <;> omega

theorem isLower_toLower : c.toLower.isLower = c.isAlpha := by
  rw [Bool.eq_iff_iff, isAlpha_iff, isUpper_iff, isLower_iff, isLower_iff, toNat_toLower]
  split <;> omega

theorem isUpper_toUpper : c.toUpper.isUpper = c.isAlpha := by
  rw [Bool.eq_iff_iff, isAlpha_iff, isUpper_iff, isUpper_iff, isLower_iff, toNat_toUpper]
  split <;> omega

theorem isAlpha_toLower : c.toLower.isAlpha = c.isAlpha := by
  rw [Bool.eq_iff_iff, isAlpha_iff, isUpper_toLower, isLower_toLower]
  simp

theorem toLower_toLower : c.toLower.toLower = c.toLower :=
  toLower_of_isUpper (isUpper_toLower c)

theorem toUpper_toUpper : c.toUpper.toUpper = c.toUpper :=
  toUpper_of_isLower (isLower_toUpper c)

theorem toLower_toUpper : c.toUpper.toLower = c.toLower := by
  cases h : c.isLower with
  | false => rw [toUpper_of_isLower h]
  | true =>
    have hsmall : 97 ≤ c.toNat ∧ c.toNat ≤ 122 := isLower_iff.mp h
    rw [← Char.toNat_inj, toNat_toLower, toNat_toUpper, toNat_toLower, if_pos hsmall,
      if_pos (by omega), if_neg (by omega)]
    omega

end Introspection.Text
