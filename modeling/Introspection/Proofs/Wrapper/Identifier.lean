import Introspection.Naming
import Mathlib.Data.List.Nodup

/-!
# `Introspection.Proofs.Wrapper.Identifier`: identifiers of parameters and of locals

`hostIdent` writes a parameter name as an identifier. It never gives a reserved word of Go or a name
of the wrapper (`isKeyword_hostIdent`, `hostIdent_not_mem_wrapperNames`), since it writes a final
`_` behind these (`escapedNames`). So two names are written the same only when one of them is such a
name and the other has the `_` already (`eq_or_escaped_of_hostIdent_eq`).

The locals of an argument are named by suffixes to its identifier. Names with different suffixes are
the same only when one identifier is the other with `_in` behind it (`eq_or_in_of_append_eq`).
-/

set_option autoImplicit false

namespace Introspection.Naming

open Introspection.Text

/-! ### Identifiers of parameters -/

/-- The names that get a final `_`: the reserved words of Go and `wrapperNames`. -/
def escapedNames : List String := keywords ++ wrapperNames

theorem isKeyword_eq_true_iff {s : String} : isKeyword s = true ↔ s ∈ keywords :=
  List.contains_iff_mem

theorem isKeyword_eq_false_iff {s : String} : isKeyword s = false ↔ s ∉ keywords := by
  rw [← Bool.not_eq_true, isKeyword_eq_true_iff]

/-- No name that is escaped ends with the `_` that escapes it. -/
theorem append_underscore_not_mem (s : String) : s ++ "_" ∉ escapedNames := by
  have hlast : ∀ name ∈ escapedNames, name.toList.getLast? ≠ some '_' := by decide
  exact fun hmem => hlast _ hmem (by simp)

theorem underscored_eq {s : String} (hs : '-' ∉ s.toList) : underscored s = s := by
  have hkept : s.toList.map (fun c => if c == '-' then '_' else c) = s.toList := by
    refine (List.map_congr_left fun c hc => ?_).trans s.toList.map_id
    have hc : c ≠ '-' := fun h => hs (h ▸ hc)
    simp [hc]
  rw [underscored, hkept, String.ofList_toList]

/-- A name without a hyphen is kept, but for the escape. -/
theorem hostIdent_eq {s : String} (hs : '-' ∉ s.toList) :
    hostIdent s = if s ∈ escapedNames then s ++ "_" else s := by
  have happended := append_underscore_not_mem s
  rw [escapedNames, List.mem_append, not_or] at happended
  rw [hostIdent, safeIdent, underscored_eq hs]
  by_cases hkeyword : s ∈ keywords
  · simp [escapedNames, isKeyword_eq_true_iff, hkeyword, happended.2]
  · by_cases hwrapper : s ∈ wrapperNames <;>
      simp [escapedNames, isKeyword_eq_true_iff, hkeyword, hwrapper]

theorem hostIdent_not_mem_escapedNames (s : String) : hostIdent s ∉ escapedNames := by
  have hsafe : safeIdent s ∉ keywords := by
    have happended := append_underscore_not_mem (underscored s)
    rw [escapedNames, List.mem_append, not_or] at happended
    unfold safeIdent
    by_cases hkeyword : underscored s ∈ keywords
    · simp [isKeyword_eq_true_iff, hkeyword, happended.1]
    · simp [isKeyword_eq_true_iff, hkeyword]
  unfold hostIdent
  by_cases hwrapper : safeIdent s ∈ wrapperNames
  · simpa [hwrapper] using append_underscore_not_mem (safeIdent s)
  · simpa [hwrapper, escapedNames] using hsafe

/-- An identifier of a parameter is no reserved word. -/
theorem isKeyword_hostIdent (s : String) : isKeyword (hostIdent s) = false :=
  isKeyword_eq_false_iff.mpr fun h =>
    hostIdent_not_mem_escapedNames s (List.mem_append_left _ h)

/-- An identifier of a parameter is no name that the wrapper declares for itself. -/
theorem hostIdent_not_mem_wrapperNames (s : String) : hostIdent s ∉ wrapperNames := fun h =>
  hostIdent_not_mem_escapedNames s (List.mem_append_right _ h)

/-- Two names are written the same when they are the same, or when one is escaped to the other. -/
theorem eq_or_escaped_of_hostIdent_eq {s t : String} (hs : '-' ∉ s.toList) (ht : '-' ∉ t.toList)
    (h : hostIdent s = hostIdent t) :
    s = t ∨ s ∈ escapedNames ∧ t = s ++ "_" ∨ t ∈ escapedNames ∧ s = t ++ "_" := by
  rw [hostIdent_eq hs, hostIdent_eq ht] at h
  by_cases hs' : s ∈ escapedNames <;> by_cases ht' : t ∈ escapedNames
  · rw [if_pos hs', if_pos ht', String.append_left_inj] at h
    exact Or.inl h
  · rw [if_pos hs', if_neg ht'] at h
    exact Or.inr (Or.inl ⟨hs', h.symm⟩)
  · rw [if_neg hs', if_pos ht'] at h
    exact Or.inr (Or.inr ⟨ht', h⟩)
  · rw [if_neg hs', if_neg ht'] at h
    exact Or.inl h

/-- A name that is escaped is written like the name that has the `_` already. -/
theorem hostIdent_append_underscore {s : String} (hs : s ∈ escapedNames)
    (hident : '-' ∉ (s ++ "_").toList) : hostIdent (s ++ "_") = hostIdent s := by
  have hplain : '-' ∉ s.toList := fun hmem => hident (by simp [hmem])
  rw [hostIdent_eq hident, hostIdent_eq hplain, if_neg (append_underscore_not_mem s), if_pos hs]

/-! ### Names of locals -/

/-- Suffixes of the locals that an argument may have besides the one that the call reads. -/
def localSuffixes : List String := ["_view", "_in", "_in_view", "_n"]

/-- The name of a local is no reserved word. -/
theorem isKeyword_real (s : String) : isKeyword ("real_" ++ s) = false := by
  have hfirst : ∀ name ∈ keywords, name.toList.take 5 ≠ "real_".toList := by decide
  refine isKeyword_eq_false_iff.mpr fun hmem => hfirst _ hmem ?_
  rw [String.toList_append]
  rfl

/-- Identifiers with suffixes are the same when identifiers and suffixes are, or when the one
identifier is that of a value passed in both ways and the other one is what it is passed in. -/
theorem eq_or_in_of_append_eq {x y s t : String} (hs : s ∈ localSuffixes) (ht : t ∈ localSuffixes)
    (h : x ++ s = y ++ t) :
    x = y ∨ s = "_in_view" ∧ y = x ++ "_in" ∨ t = "_in_view" ∧ x = y ++ "_in" := by
  have hview : ∀ name : String, name ++ "_in_view" = name ++ "_in" ++ "_view" := fun name => by
    rw [String.append_assoc]
    rfl
  -- Other suffixes are told apart from the end.
  have hback := congrArg (fun name => name.toList.reverse) h
  simp only [localSuffixes, List.mem_cons, List.not_mem_nil, or_false] at hs ht
  rcases hs with rfl | rfl | rfl | rfl <;> rcases ht with rfl | rfl | rfl | rfl
  case inl.inr.inr.inl =>
    rw [hview, String.append_left_inj] at h
    exact Or.inr (Or.inr ⟨rfl, h⟩)
  case inr.inr.inl.inl =>
    rw [hview, String.append_left_inj] at h
    exact Or.inr (Or.inl ⟨rfl, h.symm⟩)
  case inl.inl | inr.inl.inr.inl | inr.inr.inl.inr.inr.inl | inr.inr.inr.inr.inr.inr =>
    exact Or.inl ((String.append_left_inj _).mp h)
  all_goals simp [String.toList_append] at hback

end Introspection.Naming
