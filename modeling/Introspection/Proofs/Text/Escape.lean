import Introspection.Declaration.Literal
import Introspection.Naming
import Introspection.Proofs.Text.Letter

/-!
# `Introspection.Proofs.Text.Escape`: texts without an escape character

Whatever changes the colours of a terminal starts with the escape character. `EscapeFree` says that
a text has none. Numbers never have one, a text that is quoted for a listing has none either
(`escapeFree_listed`), and a change of case makes none.
-/

set_option autoImplicit false

namespace Introspection.Text

open Introspection.Decimal

/-- The character that starts whatever changes the colours of a terminal. -/
def escape : Char := '\x1b'

/-- The text holds no escape character. -/
def EscapeFree (s : String) : Prop := escape ∉ s.toList

instance : DecidablePred EscapeFree := fun s => inferInstanceAs (Decidable (escape ∉ s.toList))

@[simp] theorem escapeFree_append {s t : String} :
    EscapeFree (s ++ t) ↔ EscapeFree s ∧ EscapeFree t := by
  simp [EscapeFree, String.toList_append]

theorem escapeFree_ofList {cs : List Char} :
    EscapeFree (String.ofList cs) ↔ escape ∉ cs := by
  simp [EscapeFree]

/-! ### Numbers -/

/-- No digit is an escape character, in bases with digits for all their remainders. -/
theorem escape_not_mem_toDigits {base : Nat} (hlow : 1 < base) (hhigh : base ≤ 16) (n : Nat) :
    escape ∉ Nat.toDigits base n := by
  have hdigit : ∀ d < 16, escape ≠ Nat.digitChar d := by decide
  induction n using Nat.strongRecOn with
  | ind n ih =>
    by_cases hlt : n < base
    · rw [Nat.toDigits_of_lt_base hlt, List.mem_singleton]
      exact hdigit n (by omega)
    · have hle : base ≤ n := Nat.le_of_not_lt hlt
      have hlast : n % base < base := Nat.mod_lt n (by omega)
      rw [Nat.toDigits_of_base_le hlow hle, List.mem_append, List.mem_singleton, not_or]
      exact ⟨ih (n / base) (Nat.div_lt_self (by omega) hlow), hdigit _ (by omega)⟩

@[simp] theorem escape_not_mem_decimal (n : Nat) : escape ∉ Nat.toDigits 10 n :=
  escape_not_mem_toDigits (by decide) (by decide) n

@[simp] theorem escapeFree_natText (n : Nat) : EscapeFree (natText n) :=
  escapeFree_ofList.mpr (escape_not_mem_decimal n)

@[simp] theorem escapeFree_intText (n : Int) : EscapeFree (intText n) := by
  have hdigits := escape_not_mem_decimal n.natAbs
  rw [intText, escapeFree_ofList, intDigits]
  split
  · exact List.not_mem_cons_of_ne_of_not_mem (by decide) hdigits
  · exact hdigits

/-- A decimal without an escape character is laid out without one. -/
theorem escape_not_mem_positional {d : Digits} (h : escape ∉ d.digits) (point : Bool) :
    escape ∉ d.positional point := by
  have hzero : escape ≠ '0' := by decide
  have hpoint : escape ≠ '.' := by decide
  have htake : ∀ k, escape ∉ d.digits.take k := fun k hk => h (List.mem_of_mem_take hk)
  have hdrop : ∀ k, escape ∉ d.digits.drop k := fun k hk => h (List.mem_of_mem_drop hk)
  unfold Digits.positional
  split
  · simp [hzero, hpoint, h, List.mem_replicate]
  · have hback := hdrop (d.exponent.toNat + 1)
    dsimp only
    generalize d.digits.drop (d.exponent.toNat + 1) = back at hback ⊢
    cases back with
    | nil => cases point <;> simp [hzero, hpoint, htake, List.mem_replicate]
    | cons c cs => simpa [hzero, hpoint, htake, List.mem_replicate] using hback

/-- The fewest digits of a number have no escape character. -/
theorem escape_not_mem_shortest (tie : Tie) (x : Binary64) : escape ∉ (shortest tie x).digits := by
  unfold shortest
  dsimp only
  generalize hfound : (List.range 17).findSome? _ = found
  cases found with
  | none => simp
  | some d =>
    obtain ⟨n, _, hn⟩ := List.exists_of_findSome?_eq_some hfound
    obtain ⟨a, _, rfl⟩ := Option.map_eq_some_iff.mp hn
    simp only [Option.getD_some, Digits.ofScaled, List.mem_reverse]
    intro hmem
    have hdigits := List.mem_reverse.mp ((List.dropWhile_sublist _).subset hmem)
    exact escape_not_mem_decimal a hdigits

@[simp] theorem escapeFree_write_plainLayout (x : Binary64) : EscapeFree (plainLayout.write x) := by
  have hplace : ∀ d, plainLayout.place d = d.positional false := fun d => rfl
  have hdigits : escape ∉ (if x.isZero then Digits.positional ⟨['0'], 0⟩ plainLayout.point
      else plainLayout.place (shortest plainLayout.tie x)) := by
    split
    · exact escape_not_mem_positional (by decide) _
    · rw [hplace]
      exact escape_not_mem_positional (escape_not_mem_shortest _ x) false
  rw [Layout.write, escapeFree_ofList]
  split
  · exact List.not_mem_cons_of_ne_of_not_mem (by decide) hdigits
  · exact hdigits

/-! ### Quoted texts -/

theorem escape_not_mem_listedEscape (c : Char) : escape ∉ listedEscape c := by
  have hhex : escape ∉ hexDigits c.toNat := escape_not_mem_toDigits (by decide) (by decide) _
  unfold listedEscape
  iterate 6 (split; · decide)
  split
  · next hshown =>
    rw [List.mem_singleton]
    rintro rfl
    exact absurd hshown (by decide)
  · simp only [List.mem_cons, List.mem_append, List.cons_append, hhex, false_or]
    decide

/-- A text between quotes for a listing has no escape character, whatever it was before. -/
@[simp] theorem escapeFree_listed (s : String) : EscapeFree (listed s) := by
  have hbody : escape ∉ s.toList.flatMap listedEscape := by
    rw [List.mem_flatMap]
    rintro ⟨c, _, hc⟩
    exact escape_not_mem_listedEscape c hc
  have hquotes : escape ≠ '"' := by decide
  rw [listed, escapeFree_ofList, List.mem_append, List.mem_cons, List.mem_singleton]
  rintro ((hfirst | hinner) | hlast)
  · exact hquotes hfirst
  · exact hbody hinner
  · exact hquotes hlast

/-! ### Changes of case -/

/-- A small letter comes from a letter. -/
theorem eq_escape_of_toLower {c : Char} (h : c.toLower = escape) : c = escape := by
  cases hupper : c.isUpper with
  | false => rwa [toLower_of_isUpper hupper] at h
  | true =>
    have hcapital : 65 ≤ c.toNat ∧ c.toNat ≤ 90 := isUpper_iff.mp hupper
    -- The escape character is number 27, below all letters.
    have hescape : c.toLower.toNat = 27 := congrArg Char.toNat h
    rw [toNat_toLower, if_pos hcapital] at hescape
    omega

theorem escapeFree_lowerCase {s : String} (h : EscapeFree s) : EscapeFree (lowerCase s) := by
  rw [lowerCase, escapeFree_ofList, List.mem_map]
  rintro ⟨c, hc, hlower⟩
  exact h (eq_escape_of_toLower hlower ▸ hc)

theorem escapeFree_lowerFirst {s : String} (h : EscapeFree s) : EscapeFree (lowerFirst s) := by
  unfold EscapeFree at h
  unfold lowerFirst
  split
  · decide
  · next c cs hs =>
    rw [hs, List.mem_cons, not_or] at h
    rw [escapeFree_ofList, List.mem_cons, not_or]
    exact ⟨fun hlower => h.1 (eq_escape_of_toLower hlower.symm).symm, h.2⟩

/-- The package of a namespace is called like the namespace but for the case. -/
theorem escapeFree_packageName {home : String} (h : EscapeFree home) :
    EscapeFree (Naming.packageName home) := by
  unfold Naming.packageName
  split
  · exact escapeFree_lowerCase h
  · exact escapeFree_lowerFirst h

end Introspection.Text
