import Introspection.Proofs.Text.Letter
import Introspection.Text.Casing
import Mathlib.Data.List.Basic

/-!
# `Introspection.Proofs.Text.Casing`: what casing does to a name

A name is a row of words with separators between them (`words`). Pascal case writes the words behind
each other, each with a capital first letter and small letters behind it
(`joinWords_eq_flatMap_words`), unless the name is Pascal case already. Letters, and their case, are
those of ASCII.

* All characters but the separators are kept, in their order, up to their case
  (`map_toLower_pascalChars`). So a name of letters, digits and separators that begins with a letter
  becomes an exported name of Go (`isExported_pascalCase`).
* Pascal case is not always recognised as such, and then it is cased once more.
  `pascalCase_pascalCase_eq_iff` says of which names it is left alone: of those in which no word but
  the first begins with a letter, and of those that begin with a letter and have one inside a word.
-/

set_option autoImplicit false

namespace Introspection.Text

/-! ### Words -/

/-- The words of a name: what stands between separators, where there is something. -/
def words (cs : List Char) : List (List Char) :=
  (cs.splitOnP isSeparator).filter (!·.isEmpty)

/-- A word with its first character raised and the others lowered. -/
def capitalized : List Char → List Char
  | [] => []
  | c :: w => c.toUpper :: w.map Char.toLower

/-- The first of the pieces between separators goes on with the word that has been begun. -/
theorem joinWords_eq_flatMap_splitOnP (cs : List Char) :
    joinWords true cs = (cs.splitOnP isSeparator).flatMap capitalized
      ∧ joinWords false cs = ((cs.splitOnP isSeparator).headD []).map Char.toLower
        ++ (cs.splitOnP isSeparator).tail.flatMap capitalized := by
  induction cs with
  | nil => exact ⟨rfl, rfl⟩
  | cons c cs ih =>
    rw [List.splitOnP_cons_eq_if_modifyHead, joinWords, joinWords]
    by_cases hc : isSeparator c = true
    · simp only [if_pos hc, ih.1]
      exact ⟨rfl, rfl⟩
    · simp only [if_neg hc, ih.2]
      cases hpieces : cs.splitOnP isSeparator with
      | nil => exact absurd hpieces (List.splitOnP_ne_nil _ cs)
      | cons w ws => exact ⟨rfl, rfl⟩

/-- Pascal case puts the words behind each other, each with a capital. -/
theorem joinWords_eq_flatMap_words (cs : List Char) :
    joinWords true cs = (words cs).flatMap capitalized := by
  rw [(joinWords_eq_flatMap_splitOnP cs).1, words]
  induction cs.splitOnP isSeparator with
  | nil => rfl
  | cons w ws ih => cases w <;> simp [capitalized, ih]

/-! ### Letters and digits -/

/-- What is the same for all letters does not change when a character is lowered. -/
theorem apply_toLower {p : Char → Bool} {b : Bool} (hp : ∀ c : Char, c.isAlpha = true → p c = b)
    (c : Char) : p c.toLower = p c := by
  by_cases hc : c.isUpper = true
  · have halpha : c.isAlpha = true := isAlpha_iff.mpr (Or.inl hc)
    rw [hp c halpha, hp c.toLower (by rw [isAlpha_toLower, halpha])]
  · rw [toLower_of_isUpper (Bool.not_eq_true _ ▸ hc)]

theorem isSeparator_eq_false_of_isAlphanum {c : Char} (h : c.isAlphanum = true) :
    isSeparator c = false := by
  rw [← Bool.not_eq_true]
  intro hc
  simp only [isSeparator, Bool.or_eq_true, beq_iff_eq] at hc
  rcases hc with (rfl | rfl) | rfl <;> revert h <;> decide

theorem isAlphanum_of_isAlpha (c : Char) (h : c.isAlpha = true) : c.isAlphanum = true := by
  rw [Char.isAlphanum, h, Bool.true_or]

theorem isSeparator_of_isAlpha (c : Char) (h : c.isAlpha = true) : isSeparator c = false :=
  isSeparator_eq_false_of_isAlphanum (isAlphanum_of_isAlpha c h)

/-- Joining words drops the separators and changes the case of what is left. -/
theorem map_toLower_joinWords (start : Bool) (cs : List Char) :
    (joinWords start cs).map Char.toLower
      = (cs.filter (!isSeparator ·)).map Char.toLower := by
  induction cs generalizing start with
  | nil => rfl
  | cons c cs ih =>
    rw [joinWords]
    by_cases hc : isSeparator c = true
    · rw [if_pos hc, ih, List.filter_cons_of_neg (by simp [hc])]
    · rw [if_neg hc, List.map_cons, ih, List.filter_cons_of_pos (by simp [hc]), List.map_cons]
      cases start
      · rw [if_neg Bool.false_ne_true, toLower_toLower]
      · rw [if_pos rfl, toLower_toUpper]

theorem not_isSeparator_of_isPascal {cs : List Char} (h : isPascal cs = true) :
    ∀ c ∈ cs, isSeparator c = false := by
  simp only [isPascal, Bool.and_eq_true, Bool.not_eq_true', List.any_eq_false] at h
  exact fun c hc => by simpa using h.2 c hc

/-- Pascal case keeps all characters but the separators, up to their case. -/
theorem map_toLower_pascalChars (cs : List Char) :
    (pascalChars cs).map Char.toLower = (cs.filter (!isSeparator ·)).map Char.toLower := by
  unfold pascalChars
  split
  next h =>
    have hkept : cs.filter (!isSeparator ·) = cs :=
      List.filter_eq_self.mpr fun c hc => by rw [not_isSeparator_of_isPascal h c hc, Bool.not_false]
    rw [hkept]
  next => exact map_toLower_joinWords true cs

/-- Of what is the same for all letters, a character in Pascal case has as much as the character of
the name that it comes from. -/
theorem apply_of_mem_pascalChars {p : Char → Bool} {b : Bool}
    (hp : ∀ c : Char, c.isAlpha = true → p c = b) {cs : List Char} {d : Char}
    (hd : d ∈ pascalChars cs) : ∃ c ∈ cs, isSeparator c = false ∧ p d = p c := by
  have hmem : d.toLower ∈ (cs.filter (!isSeparator ·)).map Char.toLower := by
    rw [← map_toLower_pascalChars]
    exact List.mem_map_of_mem hd
  obtain ⟨c, hc, hcd⟩ := List.mem_map.mp hmem
  obtain ⟨hc, hsep⟩ := List.mem_filter.mp hc
  refine ⟨c, hc, by simpa using hsep, ?_⟩
  rw [← apply_toLower hp d, ← hcd, apply_toLower hp c]

/-! ### Exported names -/

/-- The name has a capital in front and only letters and digits behind it. -/
def IsExported (s : String) : Prop :=
  ∃ c cs, s.toList = c :: cs ∧ c.isUpper = true ∧ ∀ d ∈ cs, d.isAlphanum = true

/-- The first character that is no separator is raised. -/
theorem head?_joinWords (cs : List Char) :
    (joinWords true cs).head? = (cs.find? (!isSeparator ·)).map Char.toUpper := by
  induction cs with
  | nil => rfl
  | cons c cs ih =>
    rw [joinWords]
    by_cases hc : isSeparator c = true
    · rw [if_pos hc, ih, List.find?_cons_of_neg (by simp [hc])]
    · rw [if_neg hc, List.find?_cons_of_pos (by simp [hc])]
      rfl

/-- The Pascal case of a name that begins with a letter begins with a capital. -/
theorem exists_head?_pascalChars {cs : List Char} {c : Char}
    (hfirst : cs.find? (!isSeparator ·) = some c) (hc : c.isAlpha = true) :
    ∃ d, (pascalChars cs).head? = some d ∧ d.isUpper = true := by
  unfold pascalChars
  split
  next h =>
    simp only [isPascal, Bool.and_eq_true] at h
    exact (Option.any_eq_true _ _).mp h.1.1
  next =>
    rw [head?_joinWords, hfirst]
    exact ⟨c.toUpper, rfl, by rw [isUpper_toUpper, hc]⟩

/-- A name of letters, digits and separators that begins with a letter becomes an exported name,
with the letters and digits that it has, in their order. -/
theorem isExported_pascalCase {s : String}
    (hchars : ∀ c ∈ s.toList, c.isAlphanum = true ∨ isSeparator c = true)
    (hfirst : ∃ c, s.toList.find? (!isSeparator ·) = some c ∧ c.isAlpha = true) :
    IsExported (pascalCase s)
      ∧ (pascalCase s).toList.map Char.toLower
        = (s.toList.filter Char.isAlphanum).map Char.toLower := by
  have hfilter : s.toList.filter Char.isAlphanum = s.toList.filter (!isSeparator ·) := by
    refine List.filter_congr fun c hc => ?_
    rcases hchars c hc with hal | hsep
    · rw [hal, isSeparator_eq_false_of_isAlphanum hal, Bool.not_false]
    · rw [hsep, Bool.not_true, ← Bool.not_eq_true]
      intro hal
      rw [isSeparator_eq_false_of_isAlphanum hal] at hsep
      cases hsep
  have halphanum : ∀ d ∈ pascalChars s.toList, d.isAlphanum = true := by
    intro d hd
    obtain ⟨c, hc, hsep, hdc⟩ := apply_of_mem_pascalChars isAlphanum_of_isAlpha hd
    rw [hdc]
    exact (hchars c hc).resolve_right (by rw [hsep]; exact Bool.false_ne_true)
  obtain ⟨c, hfirst, hc⟩ := hfirst
  obtain ⟨d, hhead, hd⟩ := exists_head?_pascalChars hfirst hc
  obtain ⟨ds, hds⟩ := List.head?_eq_some_iff.mp hhead
  unfold pascalCase
  rw [String.toList_ofList]
  refine ⟨⟨d, ds, by rw [String.toList_ofList, hds], hd, fun e he => ?_⟩, ?_⟩
  · exact halphanum e (hds ▸ List.mem_cons_of_mem d he)
  · rw [map_toLower_pascalChars, hfilter]

/-- Separators in front are dropped, and each run of them begins one word. -/
theorem isExported_pascalCase_newWithLabel :
    IsExported "NewWithLabel2"
      ∧ "NewWithLabel2".toList.map Char.toLower
        = ("_new-with._label2".toList.filter Char.isAlphanum).map Char.toLower := by
  have hcase : pascalCase "_new-with._label2" = "NewWithLabel2" := by decide
  have hchars : "_new-with._label2".toList.all (fun c => c.isAlphanum || isSeparator c) := by decide
  rw [← hcase]
  refine isExported_pascalCase (fun c hc => ?_) ⟨'n', by decide, by decide⟩
  exact Bool.or_eq_true_iff.mp (List.all_eq_true.mp hchars c hc)

/-! ### Pascal case of Pascal case -/

/-- The first character of the word is an ASCII letter. -/
def beginsWithLetter (w : List Char) : Bool := w.head?.any Char.isAlpha

/-- A word whose first character is raised has a capital just when that is a letter. -/
theorem any_isUpper_capitalized (w : List Char) :
    (capitalized w).any Char.isUpper = beginsWithLetter w := by
  cases w with
  | nil => rfl
  | cons c w =>
    have hrest : (w.map Char.toLower).any Char.isUpper = false := by
      rw [List.any_map, List.any_eq_false]
      exact fun d _ => by rw [Function.comp_apply, isUpper_toLower]; decide
    rw [capitalized, List.any_cons, hrest, isUpper_toUpper, Bool.or_false]
    rfl

/-- The small letters of a capitalized word are the letters behind its first character. -/
theorem any_isLower_capitalized (w : List Char) :
    (capitalized w).any Char.isLower = w.tail.any Char.isAlpha := by
  cases w with
  | nil => rfl
  | cons c w =>
    rw [capitalized, List.any_cons, isLower_toUpper, Bool.false_or, List.any_map]
    exact congrArg _ (funext isLower_toLower)

theorem map_toLower_eq_self_iff {cs : List Char} :
    cs.map Char.toLower = cs ↔ cs.any Char.isUpper = false := by
  induction cs with
  | nil => simp
  | cons c cs ih =>
    have hc : c.toLower = c ↔ c.isUpper = false := by
      constructor
      · intro h
        rw [← h, isUpper_toLower]
      · intro h
        exact toLower_of_isUpper h
    rw [List.map_cons, List.cons_eq_cons, ih, hc, List.any_cons, Bool.or_eq_false_iff]

/-- A row of words without separators is Pascal case already, or only its first character is
raised. -/
theorem pascalChars_eq_self_iff {cs : List Char} (h : ∀ c ∈ cs, isSeparator c = false) :
    pascalChars cs = cs ↔ isPascal cs = true ∨ capitalized cs = cs := by
  have hjoin : joinWords true cs = capitalized cs := by
    rw [(joinWords_eq_flatMap_splitOnP cs).1, List.splitOnP_eq_singleton h, List.flatMap_singleton]
  unfold pascalChars
  split
  next hpascal => exact iff_of_true rfl (Or.inl hpascal)
  next hpascal => rw [hjoin, or_iff_right hpascal]

section

variable {ws : List (List Char)}

/-- Capitalized words make a Pascal case name when the first begins with a letter and there is a
letter inside some word. -/
theorem isPascal_flatMap_capitalized_iff (hne : ∀ w ∈ ws, w ≠ [])
    (hsep : ∀ c ∈ ws.flatMap capitalized, isSeparator c = false) :
    isPascal (ws.flatMap capitalized) = true
      ↔ ws.head?.any beginsWithLetter = true ∧ ∃ w ∈ ws, w.tail.any Char.isAlpha = true := by
  have hhead : (ws.flatMap capitalized).head?.any Char.isUpper
      = ws.head?.any beginsWithLetter := by
    cases ws with
    | nil => rfl
    | cons w ws =>
      obtain ⟨c, w, rfl⟩ := List.exists_cons_of_ne_nil (hne w List.mem_cons_self)
      exact isUpper_toUpper c
  have hlower : (ws.flatMap capitalized).any Char.isLower
      = ws.any (fun w => w.tail.any Char.isAlpha) := by
    rw [List.any_flatMap]
    exact congrArg _ (funext any_isLower_capitalized)
  have hnone : (ws.flatMap capitalized).any isSeparator = false :=
    List.any_eq_false.mpr fun c hc => by rw [hsep c hc]; exact Bool.false_ne_true
  rw [isPascal, hhead, hlower, hnone, Bool.not_false, Bool.and_true, Bool.and_eq_true,
    List.any_eq_true]

/-- Joined words are left alone when no word but the first begins with a letter. -/
theorem capitalized_flatMap_capitalized_iff (hne : ∀ w ∈ ws, w ≠ []) :
    capitalized (ws.flatMap capitalized) = ws.flatMap capitalized
      ↔ ∀ w ∈ ws.tail, beginsWithLetter w = false := by
  cases ws with
  | nil => exact iff_of_true rfl nofun
  | cons w ws =>
    obtain ⟨c, w, rfl⟩ := List.exists_cons_of_ne_nil (hne w List.mem_cons_self)
    have hlowered : (w.map Char.toLower).any Char.isUpper = false := by
      rw [← map_toLower_eq_self_iff, List.map_map]
      exact List.map_congr_left fun d _ => toLower_toLower d
    have hcapitals : (ws.flatMap capitalized).any Char.isUpper = ws.any beginsWithLetter := by
      rw [List.any_flatMap]
      exact congrArg _ (funext any_isUpper_capitalized)
    -- Behind the first character, the capitals are those that begin a word.
    rw [List.flatMap_cons, capitalized, List.cons_append, capitalized, List.cons_eq_cons,
      toUpper_toUpper, map_toLower_eq_self_iff, List.any_append, hlowered,
      hcapitals, Bool.false_or, List.any_eq_false, List.tail_cons]
    simp only [true_and, Bool.not_eq_true]

end

theorem pascalChars_eq_flatMap_words {cs : List Char} (h : ¬ isPascal cs = true) :
    pascalChars cs = (words cs).flatMap capitalized := by
  rw [pascalChars, if_neg h, joinWords_eq_flatMap_words]

/-- A name that is Pascal case already is one word. -/
theorem words_of_isPascal {cs : List Char} (h : isPascal cs = true) : words cs = [cs] := by
  have hne : cs.isEmpty = false := by
    cases cs with
    | nil => cases h
    | cons c cs => rfl
  rw [words, List.splitOnP_eq_singleton (not_isSeparator_of_isPascal h),
    List.filter_cons_of_pos (by rw [hne, Bool.not_false]), List.filter_nil]

/-- The Pascal case of a name is Pascal case of itself just when no word but the first begins with
an ASCII letter, or the first one does and there is an ASCII letter inside some word. -/
theorem pascalCase_pascalCase_eq_iff (s : String) :
    pascalCase (pascalCase s) = pascalCase s
      ↔ (∀ w ∈ (words s.toList).tail, beginsWithLetter w = false)
        ∨ (words s.toList).head?.any beginsWithLetter = true
          ∧ ∃ w ∈ words s.toList, w.tail.any Char.isAlpha = true := by
  have hchars : pascalCase (pascalCase s) = pascalCase s
      ↔ pascalChars (pascalChars s.toList) = pascalChars s.toList := by
    unfold pascalCase
    rw [String.toList_ofList]
    exact ⟨fun h => by simpa using congrArg String.toList h, fun h => by rw [h]⟩
  rw [hchars]
  by_cases hpascal : isPascal s.toList = true
  · have hkept : pascalChars s.toList = s.toList := if_pos hpascal
    rw [hkept, hkept, words_of_isPascal hpascal]
    exact iff_of_true rfl (Or.inl nofun)
  · have hsep : ∀ c ∈ pascalChars s.toList, isSeparator c = false := by
      intro d hd
      obtain ⟨c, _, hc, hdc⟩ := apply_of_mem_pascalChars isSeparator_of_isAlpha hd
      rw [hdc, hc]
    have hne : ∀ w ∈ words s.toList, w ≠ [] := fun w hw => by
      simpa using (List.mem_filter.mp hw).2
    rw [pascalChars_eq_self_iff hsep]
    rw [pascalChars_eq_flatMap_words hpascal] at hsep ⊢
    rw [isPascal_flatMap_capitalized_iff hne hsep, capitalized_flatMap_capitalized_iff hne, or_comm]

/-- Words of one letter make a name in capitals, and such a name is a word to lower: `MAX` becomes
`Max`. -/
theorem pascalCase_pascalCase_ne_ofInitials :
    pascalCase "a_b" = "AB" ∧ pascalCase (pascalCase "a_b") ≠ pascalCase "a_b" := by
  decide

end Introspection.Text
