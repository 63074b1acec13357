import Introspection.Proofs.Code.Token
import Introspection.Wrapper.HostFunction

/-!
# `Introspection.Proofs.Wrapper.Token`: which words of a host function stand in front of points

The text of a host function is that of its pieces with marks between them. Code that is deferred is
taken apart into lines and indented again, which moves marks only. So the words in front of points
are those of the pieces: `HostFunction.qualifiersIn_text`.
-/

set_option autoImplicit false

namespace Introspection.HostFunction

open Introspection.Code
open Introspection.Text

/-- The pieces of a host function, in the order of its text. -/
def tokens (f : HostFunction) : List Token :=
  f.receiver.toList.flatMap Variable.tokens ++ f.signature.tokens
    ++ (Stmt.tokensOf (f.conversions.flatMap (·.before)) ++ f.releases.flatMap Stmt.tokensOf
      ++ f.call.tokens ++ Stmt.tokensOf (f.conversions.reverse.flatMap (·.after))
      ++ f.results.map .plain)

/-! ### Deferred code -/

/-- Indenting lines anew moves marks only. -/
theorem qualifiersIn_reindent (depth : Nat) (texts : List String) :
    qualifiersIn (reindent depth texts) = texts.flatMap qualifiersIn := by
  rw [reindent, qualifiersIn_joined_lineAt, List.flatMap_assoc]
  simp only [flatMap_qualifiersIn_lines]

theorem qualifiersIn_deferred (releases : List (List Stmt)) :
    qualifiersIn (deferred releases) = Token.allQualifiers (releases.flatMap Stmt.tokensOf) := by
  have htexts : (releases.map (Stmt.listText 0)).flatMap qualifiersIn
      = Token.allQualifiers (releases.flatMap Stmt.tokensOf) :=
    Token.flatMap_qualifiersIn_map (Stmt.qualifiersIn_listText 0) releases
  have hliteral : qualifiersIn (lineAt 1 "defer func() \x7b"
        ++ reindent 2 (releases.map (Stmt.listText 0)) ++ lineAt 1 "\x7d()")
      = Token.allQualifiers (releases.flatMap Stmt.tokensOf) := by
    simp (disch := decide) only [qualifiersIn_behind, qualifiersIn_before, qualifiersIn_reindent,
      htexts]
  unfold deferred
  dsimp only
  split
  next h => rw [← htexts, h]; rfl
  next text h =>
    split
    · rw [← htexts, h]
      simp (disch := decide) [qualifiersIn_behind]
    · exact hliteral
  next => exact hliteral

theorem whole_deferred (releases : List (List Stmt)) : Whole (deferred releases) := by
  have hliteral : ∀ s : String, Whole (s ++ lineAt 1 "\x7d()") :=
    fun s => Or.inr (closes_lineAt ..).append
  unfold deferred
  dsimp only
  split
  next => exact Or.inl rfl
  next text h =>
    split
    · -- One deferred call is the text of one piece of code behind a keyword.
      obtain ⟨code, _, rfl⟩ := List.mem_map.mp (h ▸ List.mem_singleton_self text)
      exact .append (Or.inr (by decide)) (Stmt.whole_listText 0 code)
    · exact hliteral _
  next => exact hliteral _

/-! ### The whole function -/

theorem qualifiersIn_bodyText (f : HostFunction) :
    qualifiersIn f.bodyText = Token.allQualifiers
      (Stmt.tokensOf (f.conversions.flatMap (·.before)) ++ f.releases.flatMap Stmt.tokensOf
        ++ f.call.tokens ++ Stmt.tokensOf (f.conversions.reverse.flatMap (·.after))
        ++ f.results.map .plain) := by
  have hresults : qualifiersIn
      (if f.results.isEmpty then "" else lineAt 1 ("return " ++ joined ", " f.results))
      = f.results.flatMap qualifiersIn := by
    split
    next h => rw [List.isEmpty_iff.mp h]; rfl
    next =>
      simp (disch := decide) only [qualifiersIn_lineAt, qualifiersIn_behind, qualifiersIn_joined]
  have hbefore := Stmt.whole_listText 1 (f.conversions.flatMap (·.before))
  have hdeferred := hbefore.append (whole_deferred f.releases)
  have hcall := hdeferred.append (Or.inr (Stmt.closes_text 1 f.call))
  have hafter := hcall.append (Stmt.whole_listText 1 (f.conversions.reverse.flatMap (·.after)))
  rw [bodyText, qualifiersIn_append_of_whole hafter, qualifiersIn_append_of_whole hcall,
    qualifiersIn_append_of_whole hdeferred, qualifiersIn_append_of_whole hbefore,
    Stmt.qualifiersIn_listText, qualifiersIn_deferred, Stmt.qualifiersIn_text,
    Stmt.qualifiersIn_listText, hresults]
  simp only [Token.allQualifiers_append, Token.allQualifiers_map_plain]

/-- The words in front of points in a host function are those of its pieces. -/
theorem qualifiersIn_text (f : HostFunction) :
    qualifiersIn f.text = Token.allQualifiers f.tokens := by
  unfold text tokens
  rw [Token.allQualifiers_append, ← qualifiersIn_bodyText, Token.allQualifiers_append,
    ← Signature.qualifiersIn_text]
  cases f.receiver with
  | none =>
    simp (disch := decide) [qualifiersIn_behind, qualifiersIn_before, qualifiersIn_between]
  | some v =>
    simp (disch := decide) only [← String.append_assoc, qualifiersIn_behind, qualifiersIn_before,
      qualifiersIn_between, v.qualifiersIn_text, Option.toList_some, List.flatMap_cons,
      List.flatMap_nil, List.append_nil]

theorem closes_text (f : HostFunction) : Closes f.text := Closes.append (by decide)

end Introspection.HostFunction
