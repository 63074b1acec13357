import Introspection.Descriptor.TypeDesc
import Introspection.Proofs.Text.Letter
import Introspection.Proofs.Text.Line
import Introspection.Text.Casing
import Introspection.Text.Digits

/-!
# `Introspection.Proofs.Text.Flat`: texts that lay out nothing

Lines, indentation and blocks of generated code are made by newlines, tabs and braces. A text
without these is `Flat`: put inside a line, it changes nothing about how the code is laid out.
Identifiers are flat, and what naming makes of flat names is flat.
-/

set_option autoImplicit false

namespace Introspection.Text

/-- Characters that lay out code: they end a line, move it to the right, or belong to a block. -/
def isLayout (c : Char) : Bool :=
  c == '\n' || c == '\r' || c == '\t' || c == '\x7b' || c == '\x7d'

/-- No character of the text lays out code. -/
def Flat (s : String) : Prop := ∀ c ∈ s.toList, isLayout c = false

instance (s : String) : Decidable (Flat s) :=
  List.decidableBAll (fun c => isLayout c = false) s.toList

@[simp] theorem flat_append_iff {s t : String} : Flat (s ++ t) ↔ Flat s ∧ Flat t := by
  unfold Flat
  rw [String.toList_append, List.forall_mem_append]

theorem flat_ofList_iff {cs : List Char} :
    Flat (String.ofList cs) ↔ ∀ c ∈ cs, isLayout c = false := by
  rw [Flat, String.toList_ofList]

/-- A flat text ends no line. -/
theorem Flat.oneLine {s : String} (h : Flat s) : OneLine s := by
  intro c hc
  have hc := h c hc
  simp only [isLayout, Bool.or_eq_false_iff, beq_eq_false_iff_ne] at hc
  exact ⟨hc.1.1.1.1, hc.1.1.1.2⟩

theorem flat_joined {separator : String} (hseparator : Flat separator) {parts : List String}
    (h : ∀ s ∈ parts, Flat s) : Flat (joined separator parts) := by
  induction parts with
  | nil => exact (by decide : Flat "")
  | cons s parts ih =>
    obtain ⟨hs, hparts⟩ := List.forall_mem_cons.mp h
    cases parts with
    | nil => exact hs
    | cons t parts => exact flat_append_iff.mpr ⟨flat_append_iff.mpr ⟨hs, hseparator⟩, ih hparts⟩

/-! ### Letters and digits -/

theorem isLayout_eq_false_iff {c : Char} : isLayout c = false ↔ c.toNat ≠ 10
    ∧ c.toNat ≠ 13 ∧ c.toNat ≠ 9 ∧ c.toNat ≠ 123 ∧ c.toNat ≠ 125 := by
  simp [isLayout, ← Char.toNat_inj, and_assoc]

/-- What a capital becomes is a small letter, which lies in front of the braces. -/
theorem isLayout_toLower {c : Char} (h : isLayout c = false) : isLayout c.toLower = false := by
  rw [isLayout_eq_false_iff] at h
  rw [isLayout_eq_false_iff, toNat_toLower]
  split <;> omega

theorem isLayout_toUpper {c : Char} (h : isLayout c = false) : isLayout c.toUpper = false := by
  rw [isLayout_eq_false_iff] at h
  rw [isLayout_eq_false_iff, toNat_toUpper]
  split <;> omega

theorem isLayout_of_mem_joinWords {cs : List Char} (h : ∀ c ∈ cs, isLayout c = false)
    (start : Bool) : ∀ c ∈ joinWords start cs, isLayout c = false := by
  induction cs generalizing start with
  | nil => exact nofun
  | cons c cs ih =>
    obtain ⟨hc, hcs⟩ := List.forall_mem_cons.mp h
    rw [joinWords]
    split
    · exact ih hcs true
    · refine List.forall_mem_cons.mpr ⟨?_, ih hcs false⟩
      cases start
      · exact isLayout_toLower hc
      · exact isLayout_toUpper hc

theorem flat_natText (n : Nat) : Flat (natText n) := by
  refine flat_ofList_iff.mpr fun c hc => ?_
  have hdigit : c.isDigit = true := Nat.isDigit_of_mem_toDigits (by decide) (by decide) hc
  rw [← Bool.not_eq_true]
  intro hlayout
  simp only [isLayout, Bool.or_eq_true, beq_iff_eq] at hlayout
  rcases hlayout with (((rfl | rfl) | rfl) | rfl) | rfl <;> revert hdigit <;> decide

theorem flat_pascalCase {s : String} (h : Flat s) : Flat (pascalCase s) := by
  refine flat_ofList_iff.mpr ?_
  unfold pascalChars
  split
  · exact h
  · exact isLayout_of_mem_joinWords h true

theorem flat_lowerCase {s : String} (h : Flat s) : Flat (lowerCase s) :=
  flat_ofList_iff.mpr (List.forall_mem_map.mpr fun c hc => isLayout_toLower (h c hc))

theorem flat_lowerFirst {s : String} (h : Flat s) : Flat (lowerFirst s) := by
  unfold lowerFirst
  split
  next => decide
  next c cs hs =>
    unfold Flat at h
    rw [hs, List.forall_mem_cons] at h
    exact flat_ofList_iff.mpr (List.forall_mem_cons.mpr ⟨isLayout_toLower h.1, h.2⟩)

end Introspection.Text

/-! ### Names -/

namespace Introspection

open Introspection.Text

theorem Naming.flat_packageName {home : String} (h : Flat home) : Flat (packageName home) := by
  unfold packageName
  split
  · exact flat_lowerCase h
  · exact flat_lowerFirst h

/-- Both names of a reference are flat. -/
structure EntityRef.Flat (r : EntityRef) : Prop where
  home : Text.Flat r.home
  name : Text.Flat r.name

instance (r : EntityRef) : Decidable r.Flat :=
  decidable_of_iff (Text.Flat r.home ∧ Text.Flat r.name)
    ⟨fun h => ⟨h.1, h.2⟩, fun h => ⟨h.home, h.name⟩⟩

theorem EntityRef.Flat.nativeName {r : EntityRef} (h : r.Flat) : Text.Flat r.nativeName := by
  unfold EntityRef.nativeName Naming.typePrefix
  refine flat_append_iff.mpr ⟨?_, h.name⟩
  split
  · decide
  · exact h.home

end Introspection
