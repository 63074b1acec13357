import Introspection.Json.Reader
import Introspection.Json.Value
import Introspection.Proofs.Support.Except

/-!
# `Introspection.Proofs.Json.Numeral`: a written whole number reads back

Whole numbers are written in decimal digits without leading zeros. `Numeral.fill` gives their
value back as long as it fits 64 bits, and `Numeral.scan` takes exactly these digits when what
follows cannot prolong a number (`EndsNumber`).

`readNumber_intDigits` is the main statement: from `-2 ^ 63` up to `2 ^ 64 - 1` every whole
number reads back as itself.
-/

set_option autoImplicit false

namespace Introspection.Json

open Introspection.Text (intDigits)

namespace Numeral

/-- What follows cannot prolong a number. -/
def EndsNumber : List Char → Prop
  | [] => True
  | c :: _ => c.isDigit = false ∧ c ≠ '.' ∧ c ≠ 'e' ∧ c ≠ 'E'

/-- The digits in front of such a text are none of its own. -/
theorem digits_append {ds rest : List Char} (hds : ∀ c ∈ ds, c.isDigit = true)
    (hrest : EndsNumber rest) : digits (ds ++ rest) = ds := by
  have hnone : rest.takeWhile Char.isDigit = [] := by
    cases rest with
    | nil => rfl
    | cons c cs => simp [hrest.1]
  rw [digits, List.takeWhile_append_of_pos hds, hnone, List.append_nil]

/-- What follows the digits is that text. -/
theorem afterDigits_append {ds rest : List Char} (hds : ∀ c ∈ ds, c.isDigit = true)
    (hrest : EndsNumber rest) : afterDigits (ds ++ rest) = rest := by
  have hall : rest.dropWhile Char.isDigit = rest := by
    cases rest with
    | nil => rfl
    | cons c cs => simp [hrest.1]
  rw [afterDigits, List.dropWhile_append_of_pos hds, hall]

/-- Decimal digits are digits. -/
theorem isDigit_toDigits (n : Nat) : ∀ c ∈ Nat.toDigits 10 n, c.isDigit = true :=
  fun _ hc => Nat.isDigit_of_mem_toDigits (by decide) (by decide) hc

/-- Only zero is written with a leading zero. -/
theorem toDigits_eq_zero_cons {n : Nat} {ds : List Char} (h : Nat.toDigits 10 n = '0' :: ds) :
    ds = [] := by
  induction n using Nat.strongRecOn generalizing ds with
  | _ n ih =>
    rcases Nat.lt_or_ge n 10 with hlt | hge
    · rw [Nat.toDigits_of_lt_base hlt] at h
      exact (List.cons.inj h).2.symm
    · -- The leading digits are those of `n / 10`, which is not zero.
      rw [Nat.toDigits_of_base_le (by decide) hge] at h
      cases hlead : Nat.toDigits 10 (n / 10) with
      | nil => exact absurd hlead Nat.toDigits_ne_nil
      | cons d ds' =>
        rw [hlead, List.cons_append] at h
        have hd : d = '0' := (List.cons.inj h).1
        have hnil : ds' = [] := ih (n / 10) (by omega) (by rw [hlead, hd])
        have hzero : Nat.toDigits 10 (n / 10) = Nat.toDigits 10 0 := by
          rw [hlead, hd, hnil, Nat.toDigits_zero]
        have hvalue := congrArg (fun ds => Nat.ofDigitChars 10 ds 0) hzero
        simp only [Nat.ofDigitChars_ten_toDigits] at hvalue
        omega

/-- The whole part of a written number is all of it. -/
theorem scanWhole_toDigits (n : Nat) {rest : List Char} (hrest : EndsNumber rest) :
    scanWhole (Nat.toDigits 10 n ++ rest) = .ok (Nat.toDigits 10 n, rest) := by
  unfold scanWhole
  rw [digits_append (isDigit_toDigits n) hrest, afterDigits_append (isDigit_toDigits n) hrest]
  split
  · rename_i h
    exact absurd h Nat.toDigits_ne_nil
  · rename_i h
    rw [h]
  · rename_i ds hne h
    exact absurd (toDigits_eq_zero_cons h) hne
  · rfl

/-- Nothing follows the whole part. -/
theorem scanFraction_of_ends {rest : List Char} (hrest : EndsNumber rest) :
    scanFraction rest = .ok ([], rest) := by
  unfold scanFraction
  split
  · exact absurd rfl hrest.2.1
  · rfl

/-- There is no exponent either. -/
theorem scanExponent_of_ends {rest : List Char} (hrest : EndsNumber rest) :
    scanExponent rest = .ok (none, rest) := by
  cases rest with
  | nil => rfl
  | cons c cs => simp [scanExponent, hrest.2.2.1, hrest.2.2.2]

/-- A written natural number is scanned as a whole part alone. -/
theorem scanUnsigned_toDigits (negative : Bool) (n : Nat) {rest : List Char}
    (hrest : EndsNumber rest) :
    scanUnsigned negative (Nat.toDigits 10 n ++ rest)
      = .ok (⟨negative, Nat.toDigits 10 n, [], none⟩, rest) := by
  simp [scanUnsigned, scanWhole_toDigits n hrest, scanFraction_of_ends hrest,
    scanExponent_of_ends hrest]

/-- The digits of a number that fits 64 bits are all taken, and spell it. -/
theorem fill_eq (ds : List Char) (start : Nat) (h : Nat.ofDigitChars 10 ds start < UInt64.size) :
    fill start ds = (Nat.ofDigitChars 10 ds start, ds.length) := by
  induction ds generalizing start with
  | nil => simp [fill]
  | cons c cs ih =>
    rw [Nat.ofDigitChars_cons] at h ⊢
    have hnext : start * 10 + digitValue c = 10 * start + (c.toNat - '0'.toNat) := by
      rw [digitValue, Nat.mul_comm]
    -- The value only grows with further digits, so that the first ones fit as well.
    have hfits : start * 10 + digitValue c < UInt64.size := by
      have hgrow : 10 * start + (c.toNat - '0'.toNat)
          ≤ Nat.ofDigitChars 10 cs (10 * start + (c.toNat - '0'.toNat)) := by
        rw [Nat.ofDigitChars_eq_ofDigitChars_zero]
        have hpow : 1 ≤ 10 ^ cs.length := Nat.one_le_pow _ _ (by decide)
        exact Nat.le_trans (Nat.le_mul_of_pos_left _ hpow) (Nat.le_add_right _ _)
      omega
    rw [← hnext] at h ⊢
    unfold fill
    rw [if_pos hfits, ih _ h]
    rfl

/-- The digits of a written number that fits 64 bits spell it. -/
theorem fill_toDigits {n : Nat} (h : n < UInt64.size) :
    fill 0 (Nat.toDigits 10 n) = (n, (Nat.toDigits 10 n).length) := by
  have hvalue : Nat.ofDigitChars 10 (Nat.toDigits 10 n) 0 = n := Nat.ofDigitChars_ten_toDigits
  rw [fill_eq _ _ (by rw [hvalue]; exact h), hvalue]

/-- A numeral of digits alone stands for the number that they spell, with its sign. -/
theorem value_toDigits {negative : Bool} {n : Nat} (hfits : n < UInt64.size)
    (hsign : negative = true → 0 < n ∧ n ≤ UInt64.size / 2) :
    value ⟨negative, Nat.toDigits 10 n, [], none⟩
      = .ok (.integer (if negative then -(n : Int) else n)) := by
  unfold value
  simp only [fill_toDigits hfits, Nat.sub_self]
  cases negative with
  | false => simp
  | true =>
    obtain ⟨hpos, hle⟩ := hsign rfl
    have hzero : (n == 0) = false := by
      rw [beq_eq_false_iff_ne]
      omega
    have hbig : decide (UInt64.size / 2 < n) = false := decide_eq_false (by omega)
    rw [hzero, hbig]
    rfl

/-- Decimal digits do not start with a minus sign. -/
theorem toDigits_ne_minus (n : Nat) (ds rest : List Char) :
    Nat.toDigits 10 n ++ rest ≠ '-' :: ds := by
  cases h : Nat.toDigits 10 n with
  | nil => exact absurd h Nat.toDigits_ne_nil
  | cons d ds' =>
    have hd : d.isDigit = true := isDigit_toDigits n d (by rw [h]; exact List.mem_cons_self)
    intro heq
    rw [List.cons_append] at heq
    rw [(List.cons.inj heq).1] at hd
    exact absurd hd (by decide)

end Numeral

open Numeral

/-- A written whole number of at most 64 bits reads back as itself. -/
theorem readNumber_intDigits {n : Int} (hlow : Int64.minValue.toInt ≤ n) (hhigh : n < UInt64.size)
    {rest : List Char} (hrest : EndsNumber rest) :
    readNumber (intDigits n ++ rest) = (.number (.ok (.integer n)), some rest) := by
  unfold readNumber intDigits
  by_cases hneg : n < 0
  · have hscan : scan ('-' :: Nat.toDigits 10 n.natAbs ++ rest)
        = .ok (⟨true, Nat.toDigits 10 n.natAbs, [], none⟩, rest) :=
      scanUnsigned_toDigits true n.natAbs hrest
    -- The magnitude of the least number with a sign is half of the numbers without one.
    have hmin : Int64.minValue.toInt = -((UInt64.size / 2 : Nat) : Int) := rfl
    have hvalue := @value_toDigits true n.natAbs (by omega) (by omega)
    rw [if_pos hneg, hscan]
    have habs : -(n.natAbs : Int) = n := by omega
    simp only [hvalue, if_true, habs]
  · have hscan : scan (Nat.toDigits 10 n.natAbs ++ rest)
        = .ok (⟨false, Nat.toDigits 10 n.natAbs, [], none⟩, rest) := by
      unfold scan
      split
      · rename_i ds heq
        exact absurd heq (toDigits_ne_minus n.natAbs ds rest)
      · exact scanUnsigned_toDigits false n.natAbs hrest
    have hvalue := @value_toDigits false n.natAbs (by omega) (by simp)
    rw [if_neg hneg, hscan]
    have habs : (n.natAbs : Int) = n := by omega
    simp only [hvalue, Bool.false_eq_true, if_false, habs]

end Introspection.Json
