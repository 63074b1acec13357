import Introspection.Proofs.Text.Casing
import Mathlib.Data.List.Chain

/-!
# `Introspection.Proofs.Text.MixedCase`: the words of a name in mixed case

Nothing stands between the words of a name in mixed case: a capital begins one (`beginsWord`).
`caseWords` cuts a name in front of these capitals and nowhere else (`isCaseSplit_caseWords`), and
snake case is the words lowered, with an underscore between any two
(`snakeChars_eq_intercalate_caseWords`).

* A name is cut between two letters. So an underscore that is put there stands neither at the start
  nor next to another one (`IsCaseSplit.apart`), and a look at the end of what has been written
  would change nothing (`writeSnake_eq_append_snakeChars`).
* A name without capitals has one word, so snake case leaves alone what it has made
  (`snakeChars_eq_self`).

`snakeCase_joins_lowered_words` puts this together.
-/

set_option autoImplicit false

namespace Introspection.Text

variable {prev next : Option Char} {p c : Char} {cs w : List Char} {ws : List (List Char)}

/-! ### Where a word begins -/

theorem beginsWord_none : beginsWord none c next = false := by
  simp [beginsWord]

theorem isUpper_of_beginsWord (h : beginsWord prev c next = true) : c.isUpper = true :=
  (Bool.and_eq_true_iff.mp h).1

theorem isAlpha_of_beginsWord (h : beginsWord (some p) c next = true) : p.isAlpha = true := by
  rcases Bool.or_eq_true_iff.mp (Bool.and_eq_true_iff.mp h).2 with hlower | hupper
  · exact Bool.or_eq_true_iff.mpr (Or.inr hlower)
  · exact Bool.or_eq_true_iff.mpr (Or.inl (Bool.and_eq_true_iff.mp hupper).1)

theorem toLower_ne_underscore_of_isAlpha (h : c.isAlpha = true) : c.toLower ≠ '_' := by
  intro hc
  rw [← isAlpha_toLower, hc] at h
  revert h
  decide

/-! ### Words -/

/-- The words of a name in mixed case: a word ends in front of a capital that begins one. -/
def caseWords : List Char → List (List Char)
  | [] => []
  | [c] => [[c]]
  | p :: c :: cs =>
    if beginsWord (some p) c cs.head? then [p] :: caseWords (c :: cs)
    else (caseWords (c :: cs)).modifyHead (p :: ·)

/-- The name is cut in front of the capitals that begin a word, and nowhere else. -/
structure IsCaseSplit (cs : List Char) (ws : List (List Char)) : Prop where
  flatten_eq : ws.flatten = cs
  nil_notMem : [] ∉ ws
  /-- Where a word ends, the next one begins. -/
  isChain : ws.IsChain fun v w =>
    ∃ c, w.head? = some c ∧ beginsWord v.getLast? c w.tail.head? = true
  /-- No word begins behind the first character of another. -/
  of_suffix : ∀ w ∈ ws, ∀ p c cs, p :: c :: cs <:+ w → beginsWord (some p) c cs.head? = false

/-- The first word begins with the first character. What stands behind that is a small letter in
the word just when it is one in the name, because no word begins with a small letter. -/
theorem exists_caseWords_cons (c : Char) (cs : List Char) :
    ∃ w ws, caseWords (c :: cs) = (c :: w) :: ws
      ∧ w.head?.any Char.isLower = cs.head?.any Char.isLower := by
  induction cs generalizing c with
  | nil => exact ⟨[], [], rfl, rfl⟩
  | cons d cs ih =>
    obtain ⟨w, ws, hwords, -⟩ := ih d
    rw [caseWords, hwords]
    by_cases hbegins : beginsWord (some c) d cs.head? = true
    · -- The word is `c` alone, and the capital that follows it in the name is no small letter.
      rw [if_pos hbegins]
      have hlower : d.isLower = false :=
        isLower_of_isUpper (isUpper_of_beginsWord hbegins)
      exact ⟨[], (d :: w) :: ws, rfl, hlower.symm⟩
    · rw [if_neg hbegins]
      exact ⟨d :: w, ws, rfl, rfl⟩

/-- A character put in front of a name is a word of its own or goes on with the first word. -/
theorem exists_caseWords_cons_cons (p c : Char) (cs : List Char) :
    ∃ w ws, caseWords (c :: cs) = (c :: w) :: ws
      ∧ beginsWord (some p) c w.head? = beginsWord (some p) c cs.head?
      ∧ caseWords (p :: c :: cs)
        = if beginsWord (some p) c cs.head? then [p] :: (c :: w) :: ws
          else (p :: c :: w) :: ws := by
  obtain ⟨w, ws, hwords, hnext⟩ := exists_caseWords_cons c cs
  refine ⟨w, ws, hwords, by rw [beginsWord, beginsWord, hnext], ?_⟩
  rw [caseWords, hwords, List.modifyHead_cons]

theorem isCaseSplit_singleton : IsCaseSplit [c] [[c]] where
  flatten_eq := rfl
  nil_notMem := by simp
  isChain := .singleton [c]
  of_suffix := by
    intro w hw p d cs hsuffix
    rw [List.mem_singleton.mp hw] at hsuffix
    exact absurd hsuffix.length_le (by simp)

section

variable (h : IsCaseSplit (c :: cs) ((c :: w) :: ws))

include h

theorem IsCaseSplit.cons_word (hbegins : beginsWord (some p) c w.head? = true) :
    IsCaseSplit (p :: c :: cs) ([p] :: (c :: w) :: ws) where
  flatten_eq := congrArg (p :: ·) h.flatten_eq
  nil_notMem := by simpa using h.nil_notMem
  isChain := .cons_cons ⟨c, rfl, hbegins⟩ h.isChain
  of_suffix := List.forall_mem_cons.mpr
    ⟨isCaseSplit_singleton.of_suffix [p] (List.mem_singleton_self [p]), h.of_suffix⟩

theorem IsCaseSplit.cons_char (hbegins : beginsWord (some p) c w.head? = false) :
    IsCaseSplit (p :: c :: cs) ((p :: c :: w) :: ws) where
  flatten_eq := congrArg (p :: ·) h.flatten_eq
  nil_notMem := by simpa using h.nil_notMem
  isChain := by
    obtain ⟨hnext, hrest⟩ := List.isChain_cons.mp h.isChain
    refine List.isChain_cons.mpr ⟨fun v hv => ?_, hrest⟩
    rw [List.getLast?_cons_cons]
    exact hnext v hv
  of_suffix := by
    obtain ⟨hfirst, hrest⟩ := List.forall_mem_cons.mp h.of_suffix
    refine List.forall_mem_cons.mpr ⟨fun q d ds hsuffix => ?_, hrest⟩
    rcases List.suffix_cons_iff.mp hsuffix with heq | hsuffix
    · cases heq
      exact hbegins
    · exact hfirst q d ds hsuffix

end

theorem isCaseSplit_caseWords (cs : List Char) : IsCaseSplit cs (caseWords cs) := by
  cases cs with
  | nil => exact ⟨rfl, List.not_mem_nil, .nil, nofun⟩
  | cons c cs =>
    -- By induction on what stands behind the first character, which begins a word whatever it is.
    induction cs generalizing c with
    | nil => exact isCaseSplit_singleton
    | cons d cs ih =>
      have hsplit := ih d
      obtain ⟨w, ws, hwords, hnext, hcons⟩ := exists_caseWords_cons_cons c d cs
      rw [hwords] at hsplit
      rw [hcons, ← hnext]
      split
      next hbegins => exact hsplit.cons_word hbegins
      next hbegins => exact hsplit.cons_char (by simpa using hbegins)

example : (caseWords "DBusIOStream".toList).map String.ofList = ["D", "Bus", "IO", "Stream"] := by
  decide

/-! ### Underscores between words -/

/-- An underscore put between the words stands neither at the start nor next to another one. -/
def Apart (ws : List (List Char)) : Prop :=
  [] ∉ ws ∧ ws.IsChain fun v w => v.getLast? ≠ some '_' ∧ w.head? ≠ some '_'

/-- The characters on both sides of a cut are letters, also when they are lowered. -/
theorem IsCaseSplit.apart (h : IsCaseSplit cs ws) : Apart (ws.map (List.map Char.toLower)) := by
  refine ⟨fun hnil => ?_, ?_⟩
  · obtain ⟨w, hw, hempty⟩ := List.mem_map.mp hnil
    exact h.nil_notMem (List.map_eq_nil_iff.mp hempty ▸ hw)
  · refine (List.isChain_map _).mpr (h.isChain.imp fun v w => ?_)
    rintro ⟨c, hfirst, hbegins⟩
    -- `c` begins the word `w` behind the last character `p` of the word `v`.
    cases hlast : v.getLast? with
    | none => rw [hlast, beginsWord_none] at hbegins; cases hbegins
    | some p =>
      rw [hlast] at hbegins
      have hcapital : c.isAlpha = true :=
        Bool.or_eq_true_iff.mpr (Or.inl (isUpper_of_beginsWord hbegins))
      rw [List.getLast?_map, List.head?_map, hlast, hfirst]
      simp [toLower_ne_underscore_of_isAlpha (isAlpha_of_beginsWord hbegins),
        toLower_ne_underscore_of_isAlpha hcapital]

/-! ### Snake case -/

theorem snakeChars_cons : snakeChars prev (c :: cs)
    = (if beginsWord prev c cs.head? then ['_'] else []) ++
      c.toLower :: snakeChars (some c) cs := by
  rw [snakeChars]
  split <;> rfl

theorem snakeChars_eq_intercalate_caseWords (cs : List Char) :
    snakeChars none cs = ['_'].intercalate ((caseWords cs).map (List.map Char.toLower)) := by
  cases cs with
  | nil => rfl
  | cons c cs =>
    rw [snakeChars_cons, beginsWord_none, if_neg Bool.false_ne_true, List.nil_append]
    induction cs generalizing c with
    | nil => rfl
    | cons d cs ih =>
      obtain ⟨w, ws, hwords, -, hcons⟩ := exists_caseWords_cons_cons c d cs
      rw [snakeChars_cons, ih d, hwords, hcons]
      split
      next => simp
      -- What stands behind the first word depends on whether there is a second.
      next => cases ws <;> simp

/-- Snake case has no capitals. -/
theorem any_isUpper_snakeChars (prev : Option Char) (cs : List Char) :
    (snakeChars prev cs).any Char.isUpper = false := by
  induction cs generalizing prev with
  | nil => rfl
  | cons c cs ih =>
    rw [snakeChars_cons, List.any_append, List.any_cons, ih, isUpper_toLower]
    split <;> rfl

/-- Apart from underscores, a name is only lowered. -/
theorem filter_snakeChars (prev : Option Char) (cs : List Char) :
    (snakeChars prev cs).filter (· != '_') = (cs.map Char.toLower).filter (· != '_') := by
  induction cs generalizing prev with
  | nil => rfl
  | cons c cs ih =>
    have hput : (if beginsWord prev c cs.head? then ['_'] else []).filter (· != '_') = [] := by
      split <;> rfl
    rw [snakeChars_cons, List.filter_append, hput, List.nil_append, List.map_cons,
      List.filter_cons, List.filter_cons, ih]

/-- A name without capitals is snake case already. -/
theorem snakeChars_eq_self (h : cs.any Char.isUpper = false) : snakeChars prev cs = cs := by
  induction cs generalizing prev with
  | nil => rfl
  | cons c cs ih =>
    obtain ⟨hc, hcs⟩ := Bool.or_eq_false_iff.mp (List.any_cons ▸ h)
    have hbegins : beginsWord prev c cs.head? = false := by
      rw [beginsWord, hc, Bool.false_and]
    rw [snakeChars_cons, hbegins, if_neg Bool.false_ne_true, List.nil_append, ih hcs,
      toLower_of_isUpper hc]

/-- Snake case written behind `out`, where no underscore is put behind another. -/
def writeSnake (out : List Char) (prev : Option Char) : List Char → List Char
  | [] => out
  | c :: cs =>
    if beginsWord prev c cs.head? && out.getLast? != some '_' then
      writeSnake (out ++ ['_', c.toLower]) (some c) cs
    else writeSnake (out ++ [c.toLower]) (some c) cs

/-- No underscore is ever left out for one that has been written: where a word begins, what has
been written ends with a letter. -/
theorem writeSnake_eq_append_snakeChars {out : List Char}
    (hout : out.getLast? = prev.map Char.toLower) :
    writeSnake out prev cs = out ++ snakeChars prev cs := by
  -- What has been written ends with the character that was read last, lowered.
  induction cs generalizing out prev with
  | nil => exact (List.append_nil out).symm
  | cons c cs ih =>
    rw [writeSnake, snakeChars_cons]
    cases hbegins : beginsWord prev c cs.head? with
    | false =>
      rw [Bool.false_and, if_neg Bool.false_ne_true, if_neg Bool.false_ne_true, ih (by simp)]
      simp
    | true =>
      have hletter : out.getLast? ≠ some '_' := by
        cases prev with
        | none => rw [beginsWord_none] at hbegins; cases hbegins
        | some p =>
          rw [hout]
          simpa using toLower_ne_underscore_of_isAlpha (isAlpha_of_beginsWord hbegins)
      rw [if_pos (by simpa using hletter), if_pos rfl, ih (by simp)]
      simp

/-- Snake case only lowers a name and puts underscores between its words. It has no capitals and,
apart from underscores, the characters of the name lowered; an underscore that has been put in
stands neither at the start nor next to another one; and it is its own snake case. -/
theorem snakeCase_joins_lowered_words (s : String) :
    (∀ c ∈ (snakeCase s).toList, c.isUpper = false)
      ∧ (snakeCase s).toList.filter (· != '_') = (lowerCase s).toList.filter (· != '_')
      ∧ (∃ ws, IsCaseSplit s.toList ws ∧ Apart (ws.map (List.map Char.toLower))
        ∧ (snakeCase s).toList = ['_'].intercalate (ws.map (List.map Char.toLower)))
      ∧ snakeCase (snakeCase s) = snakeCase s := by
  unfold snakeCase lowerCase
  simp only [String.toList_ofList]
  refine ⟨fun c hc => ?_, filter_snakeChars none s.toList, ?_, ?_⟩
  · simpa using List.any_eq_false.mp (any_isUpper_snakeChars none s.toList) c hc
  · have hsplit := isCaseSplit_caseWords s.toList
    exact ⟨caseWords s.toList, hsplit, hsplit.apart, snakeChars_eq_intercalate_caseWords s.toList⟩
  · rw [snakeChars_eq_self (any_isUpper_snakeChars none s.toList)]

end Introspection.Text
