import Introspection.Text.Search
import Mathlib.Data.List.Basic

/-!
# `Introspection.Proofs.Text.Line`: texts and their lines

A text that ends no line is `Text.OneLine`. When such texts are put together, each with a newline
behind it, `Text.lines` gives them back (`Text.lines_joined`): none is lost, joined to another one
or changed.
-/

set_option autoImplicit false

namespace Introspection.Text

/-- No character of the text ends a line, or belongs to the end of one. -/
def OneLine (s : String) : Prop := ∀ c ∈ s.toList, c ≠ '\n' ∧ c ≠ '\r'

instance (s : String) : Decidable (OneLine s) :=
  List.decidableBAll (fun c => c ≠ '\n' ∧ c ≠ '\r') s.toList

@[simp] theorem oneLine_append_iff {s t : String} :
    OneLine (s ++ t) ↔ OneLine s ∧ OneLine t := by
  unfold OneLine
  rw [String.toList_append, List.forall_mem_append]

/-! ### Texts put together -/

theorem joined_empty_cons (s : String) (texts : List String) :
    joined "" (s :: texts) = s ++ joined "" texts := by
  cases texts with
  | nil => rw [joined, joined, String.append_empty]
  | cons t texts => rw [joined, String.append_empty]

theorem joined_empty_append (xs ys : List String) :
    joined "" (xs ++ ys) = joined "" xs ++ joined "" ys := by
  induction xs with
  | nil => rw [List.nil_append, joined, String.empty_append]
  | cons s xs ih =>
    rw [List.cons_append, joined_empty_cons, joined_empty_cons, ih, String.append_assoc]

/-! ### Lines of a text -/

/-- Characters that end no line belong to the line that has been begun. -/
theorem splitLines_append {cs : List Char} (h : ∀ c ∈ cs, c ≠ '\n' ∧ c ≠ '\r')
    (line rest : List Char) :
    splitLines line (cs ++ rest) = splitLines (cs.reverse ++ line) rest := by
  -- The line that has been begun is kept backwards, so it grows at its front.
  induction cs generalizing line with
  | nil => rfl
  | cons c cs ih =>
    obtain ⟨hc, hcs⟩ := List.forall_mem_cons.mp h
    rw [List.cons_append, splitLines, ih hcs, List.reverse_cons, List.append_assoc]
    · rfl
    · exact hc.1

/-- A line without a carriage return at its end is kept as it is. -/
theorem splitLines_newline {line : List Char} (h : ∀ c ∈ line, c ≠ '\n' ∧ c ≠ '\r')
    (rest : List Char) : splitLines line ('\n' :: rest) = line.reverse :: splitLines [] rest := by
  rw [splitLines]
  rintro line' rfl
  exact absurd rfl (h '\r' List.mem_cons_self).2

/-- The first line ends at its newline. -/
theorem lines_append {s : String} (h : OneLine s) (rest : String) :
    lines (s ++ "\n" ++ rest) = s :: lines rest := by
  have hreverse : ∀ c ∈ s.toList.reverse, c ≠ '\n' ∧ c ≠ '\r' :=
    fun c hc => h c (List.mem_reverse.mp hc)
  unfold lines
  rw [String.append_assoc, String.toList_append, splitLines_append h, List.append_nil,
    String.toList_append]
  show (splitLines s.toList.reverse ('\n' :: rest.toList)).map String.ofList = _
  rw [splitLines_newline hreverse, List.map_cons, List.reverse_reverse, String.ofList_toList]

/-- Texts that are put together as lines are the lines of the whole. -/
theorem lines_joined {texts : List String} (h : ∀ s ∈ texts, OneLine s) :
    lines (joined "" (texts.map (· ++ "\n"))) = texts := by
  induction texts with
  | nil => rfl
  | cons s texts ih =>
    obtain ⟨hs, htexts⟩ := List.forall_mem_cons.mp h
    rw [List.map_cons, joined_empty_cons, lines_append hs, ih htexts]

end Introspection.Text
