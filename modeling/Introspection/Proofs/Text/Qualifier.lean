import Introspection.Proofs.Text.Letter
import Introspection.Text.Alphanumeric
import Introspection.Text.Search

/-!
# `Introspection.Proofs.Text.Qualifier`: words in front of points

A word is a run of letters, numbers and underscores. `Text.qualifiers` lists the words of a text
that stand in front of a point and not behind one, from left to right. A reader of Go who knows
nothing of what the text is made of takes just these words for qualifiers.

The list is computed character by character. `Text.begun` is what the computation carries from one
character to the next, so a text can be read piece by piece (`qualifiers_append`). A piece that ends
in a mark, such as a blank or a bracket, starts the rest anew (`begun_of_closes`).
-/

set_option autoImplicit false

namespace Introspection.Text

/-- Letters and numbers of every script, and the underscore. -/
def isWordChar (c : Char) : Bool := isAlphanumeric c || c == '_'

/-- Characters that are part of no word and no point. -/
def isMark (c : Char) : Bool := !(isWordChar c || c == '.')

/-- Every character of the text can be part of a word, as those of an identifier can. -/
def IsWord (s : String) : Prop := ∀ c ∈ s.toList, isWordChar c = true

instance (s : String) : Decidable (IsWord s) := List.decidableBAll _ _

/-- Goes on by one character. The word begun in front of it is `some w`, with `some []` for none;
behind a point no word begins until a mark comes, which is `none`. -/
def advance (front : Option (List Char)) (c : Char) : Option (List Char) :=
  if isWordChar c then front.map (· ++ [c]) else if c == '.' then none else some []

/-- The word begun behind some characters. -/
def begun (front : Option (List Char)) (cs : List Char) : Option (List Char) :=
  cs.foldl advance front

/-- The words in front of points, when the first of them may be begun already. -/
def qualifiers (front : Option (List Char)) : List Char → List (List Char)
  | [] => []
  | c :: cs => (if c == '.' then front.toList else []) ++ qualifiers (advance front c) cs

variable {front : Option (List Char)} {c : Char} {cs : List Char}

/-! ### Single characters -/

theorem not_isWordChar_point : isWordChar '.' = false := by decide

theorem isMark_iff : isMark c = true ↔ isWordChar c = false ∧ c ≠ '.' := by
  simp [isMark]

/-- A word goes on. -/
theorem advance_of_isWordChar (h : isWordChar c = true) : advance front c = front.map (· ++ [c]) :=
  if_pos h

/-- A mark ends what is begun. -/
theorem advance_of_isMark (h : isMark c = true) : advance front c = some [] := by
  obtain ⟨hword, hpoint⟩ := isMark_iff.mp h
  simp [advance, hword, hpoint]

@[simp] theorem advance_point : advance front '.' = none := by
  simp [advance, not_isWordChar_point]

@[simp] theorem qualifiers_nil : qualifiers front [] = [] := rfl

theorem qualifiers_cons_of_ne (h : c ≠ '.') :
    qualifiers front (c :: cs) = qualifiers (advance front c) cs := by
  simp [qualifiers, h]

@[simp] theorem qualifiers_cons_point :
    qualifiers front ('.' :: cs) = front.toList ++ qualifiers none cs := by
  simp [qualifiers]

theorem qualifiers_cons_of_isMark (h : isMark c = true) :
    qualifiers front (c :: cs) = qualifiers (some []) cs := by
  rw [qualifiers_cons_of_ne (isMark_iff.mp h).2, advance_of_isMark h]

theorem ne_point_of_isWordChar (h : isWordChar c = true) : c ≠ '.' := by
  rintro rfl
  rw [not_isWordChar_point] at h
  cases h

theorem qualifiers_cons_of_isWordChar (h : isWordChar c = true) :
    qualifiers front (c :: cs) = qualifiers (front.map (· ++ [c])) cs := by
  rw [qualifiers_cons_of_ne (ne_point_of_isWordChar h), advance_of_isWordChar h]

/-- The small letters of ASCII are letters. -/
theorem isWordChar_of_small (h : 97 ≤ c.toNat ∧ c.toNat ≤ 122) : isWordChar c = true := by
  have halphanumeric : isAlphanumeric c = true := by
    unfold isAlphanumeric alphanumericBoundaries
    -- The letters lie between the fifth boundary and the sixth.
    iterate 5 rw [withinBoundaries, if_neg (by omega)]
    rw [withinBoundaries, if_pos (by omega)]
    rfl
  simp [isWordChar, halphanumeric]

theorem isWordChar_toLower (h : isWordChar c = true) : isWordChar c.toLower = true := by
  cases hupper : c.isUpper with
  | false => rwa [toLower_of_isUpper hupper]
  | true =>
    have hcapital : 65 ≤ c.toNat ∧ c.toNat ≤ 90 := isUpper_iff.mp hupper
    refine isWordChar_of_small ?_
    rw [toNat_toLower, if_pos hcapital]
    omega

/-! ### Texts piece by piece -/

@[simp] theorem begun_append (cs ds : List Char) :
    begun front (cs ++ ds) = begun (begun front cs) ds :=
  List.foldl_append

@[simp] theorem qualifiers_append (cs ds : List Char) :
    qualifiers front (cs ++ ds) = qualifiers front cs ++ qualifiers (begun front cs) ds := by
  induction cs generalizing front with
  | nil => rfl
  | cons c cs ih => simp only [List.cons_append, qualifiers, ih, List.append_assoc, begun,
      List.foldl_cons]

/-- A word that nothing stands in front of. -/
theorem begun_of_isWord {w : List Char} (h : ∀ c ∈ cs, isWordChar c = true) :
    begun (some w) cs = some (w ++ cs) := by
  induction cs generalizing w with
  | nil => simp [begun]
  | cons c cs ih =>
    obtain ⟨hc, hcs⟩ := List.forall_mem_cons.mp h
    show begun (advance (some w) c) cs = some (w ++ c :: cs)
    rw [advance_of_isWordChar hc, Option.map_some, ih hcs, List.append_assoc]
    rfl

/-- Without a point nothing is qualified. -/
theorem qualifiers_eq_nil (h : '.' ∉ cs) : qualifiers front cs = [] := by
  induction cs generalizing front with
  | nil => rfl
  | cons c cs ih =>
    obtain ⟨hc, hcs⟩ := not_or.mp (mt List.mem_cons.mpr h)
    rw [qualifiers_cons_of_ne (Ne.symm hc), ih hcs]

theorem not_mem_point_of_isWord {s : String} (h : IsWord s) : '.' ∉ s.toList :=
  fun hmem => ne_point_of_isWordChar (h '.' hmem) rfl

/-- The text ends in a mark. -/
def closes (cs : List Char) : Bool := cs.getLast?.any isMark

/-- Behind a mark no word is begun. -/
theorem begun_of_closes (h : closes cs = true) : begun front cs = some [] := by
  obtain ⟨c, hlast, hc⟩ := (Option.any_eq_true _ _).mp h
  obtain ⟨ds, rfl⟩ := List.getLast?_eq_some_iff.mp hlast
  rw [begun_append]
  exact advance_of_isMark hc

/-! ### Texts as strings -/

/-- The words in front of points in a text that nothing stands in front of. -/
def qualifiersIn (s : String) : List (List Char) := qualifiers (some []) s.toList

/-- The text starts with a mark. -/
def Opens (s : String) : Prop := s.toList.head?.any isMark = true

/-- The text ends in a mark. -/
def Closes (s : String) : Prop := closes s.toList = true

instance (s : String) : Decidable (Opens s) := instDecidableEqBool _ _

instance (s : String) : Decidable (Closes s) := instDecidableEqBool _ _

/-- A text ends in a mark when its last part does. -/
theorem Closes.append {s t : String} (h : Closes t) : Closes (s ++ t) := by
  obtain ⟨c, hlast, hc⟩ := (Option.any_eq_true _ _).mp h
  obtain ⟨cs, hcs⟩ := List.getLast?_eq_some_iff.mp hlast
  refine (Option.any_eq_true _ _).mpr ⟨c, ?_, hc⟩
  rw [String.toList_append, hcs]
  simp

theorem qualifiersIn_eq_nil {s : String} (h : '.' ∉ s.toList) : qualifiersIn s = [] :=
  qualifiers_eq_nil h

/-- Behind a text that ends in a mark, a text is read by itself. -/
theorem qualifiersIn_append_of_closes {s t : String} (h : Closes s) :
    qualifiersIn (s ++ t) = qualifiersIn s ++ qualifiersIn t := by
  unfold qualifiersIn
  rw [String.toList_append, qualifiers_append, begun_of_closes h]

/-- The text is empty or ends in a mark, as lines do. -/
def Whole (s : String) : Prop := s = "" ∨ Closes s

theorem Whole.append {s t : String} (hs : Whole s) (ht : Whole t) : Whole (s ++ t) := by
  rcases ht with rfl | ht
  · rwa [String.append_empty]
  · exact Or.inr ht.append

/-- Behind whole lines a text is read by itself. -/
theorem qualifiersIn_append_of_whole {s t : String} (h : Whole s) :
    qualifiersIn (s ++ t) = qualifiersIn s ++ qualifiersIn t := by
  rcases h with rfl | h
  · rw [String.empty_append]
    rfl
  · exact qualifiersIn_append_of_closes h

/-- A text that starts with a mark is read by itself. -/
theorem qualifiersIn_append_of_opens {s t : String} (h : Opens t) :
    qualifiersIn (s ++ t) = qualifiersIn s ++ qualifiersIn t := by
  obtain ⟨c, hfirst, hc⟩ := (Option.any_eq_true _ _).mp h
  obtain ⟨cs, hcs⟩ := List.head?_eq_some_iff.mp hfirst
  unfold qualifiersIn
  rw [String.toList_append, qualifiers_append, hcs, qualifiers_cons_of_isMark hc,
    qualifiers_cons_of_isMark hc]

section Separators

variable {m : String} (hpoint : '.' ∉ m.toList)

include hpoint

/-- What leads up to a text with a mark does not count. -/
theorem qualifiersIn_behind (h : Closes m) (t : String) :
    qualifiersIn (m ++ t) = qualifiersIn t := by
  rw [qualifiersIn_append_of_closes h, qualifiersIn_eq_nil hpoint, List.nil_append]

/-- What goes on with a mark behind a text does not count. -/
theorem qualifiersIn_before (h : Opens m) (s : String) :
    qualifiersIn (s ++ m) = qualifiersIn s := by
  rw [qualifiersIn_append_of_opens h, qualifiersIn_eq_nil hpoint, List.append_nil]

/-- What separates two texts by marks does not count. -/
theorem qualifiersIn_between (hopens : Opens m) (hcloses : Closes m) (s t : String) :
    qualifiersIn (s ++ m ++ t) = qualifiersIn s ++ qualifiersIn t := by
  rw [qualifiersIn_append_of_closes hcloses.append, qualifiersIn_before hpoint hopens]

/-- A list of texts with separators is read text by text. -/
theorem qualifiersIn_joined (hopens : Opens m) (hcloses : Closes m) (texts : List String) :
    qualifiersIn (joined m texts) = texts.flatMap qualifiersIn := by
  induction texts with
  | nil => rfl
  | cons s texts ih =>
    cases texts with
    | nil => simp [joined]
    | cons t rest =>
      rw [joined, qualifiersIn_between hpoint hopens hcloses, ih]
      rfl

end Separators

/-- Whole lines can be read one by one. -/
theorem qualifiersIn_joined_empty {texts : List String} (h : ∀ s ∈ texts, Whole s) :
    qualifiersIn (joined "" texts) = texts.flatMap qualifiersIn := by
  induction texts with
  | nil => rfl
  | cons s texts ih =>
    obtain ⟨hs, htexts⟩ := List.forall_mem_cons.mp h
    cases texts with
    | nil => simp [joined]
    | cons t rest =>
      rw [joined, String.append_empty, qualifiersIn_append_of_whole hs, ih htexts]
      rfl

/-- What a line ends in does not count, so a text is read line by line. -/
theorem flatMap_qualifiers_splitLines (line cs : List Char) :
    (splitLines line cs).flatMap (qualifiers (some []))
      = qualifiers (some []) (line.reverse ++ cs) := by
  induction cs generalizing line with
  | nil => cases line <;> simp [splitLines]
  | cons c cs ih =>
    by_cases hc : c = '\n'
    · subst hc
      -- A carriage return in front of the newline is dropped; it is a mark like the newline.
      obtain ⟨front, hsplit, hfront⟩ : ∃ front,
          splitLines line ('\n' :: cs) = front :: splitLines [] cs
            ∧ qualifiers (some []) front = qualifiers (some []) line.reverse := by
        refine ⟨_, rfl, ?_⟩
        split
        · rw [List.reverse_cons, qualifiers_append, qualifiers_eq_nil (by decide : '.' ∉ ['\r']),
            List.append_nil]
        · rfl
      have hnewline : isMark '\n' = true := by decide
      rw [hsplit, List.flatMap_cons, hfront, ih, qualifiers_append line.reverse,
        qualifiers_cons_of_isMark hnewline]
      rfl
    · rw [splitLines, ih, List.reverse_cons, List.append_assoc]
      · rfl
      · exact hc

theorem flatMap_qualifiersIn_lines (s : String) :
    (lines s).flatMap qualifiersIn = qualifiersIn s := by
  have h := flatMap_qualifiers_splitLines [] s.toList
  unfold lines
  rw [List.flatMap_map]
  simpa [qualifiersIn] using h

/-! ### Where a word stands -/

/-- The word stands behind a mark and in front of a point. -/
def BehindMark (w cs : List Char) : Prop :=
  ∃ before c after, cs = before ++ c :: (w ++ '.' :: after) ∧ isMark c = true

theorem behindMark_cons_iff {w : List Char} : BehindMark w (c :: cs)
    ↔ (isMark c = true ∧ ∃ after, cs = w ++ '.' :: after) ∨ BehindMark w cs := by
  constructor
  · rintro ⟨before, d, after, hsplit, hd⟩
    cases before with
    | nil =>
      cases hsplit
      exact Or.inl ⟨hd, after, rfl⟩
    | cons b before =>
      cases hsplit
      exact Or.inr ⟨before, d, after, rfl, hd⟩
  · rintro (⟨hc, after, rfl⟩ | ⟨before, d, after, rfl, hd⟩)
    · exact ⟨[], c, after, rfl, hc⟩
    · exact ⟨c :: before, d, after, rfl, hd⟩

theorem behindMark_append_iff {w ds : List Char} (h : ∀ c ∈ cs, isMark c = false) :
    BehindMark w (cs ++ ds) ↔ BehindMark w ds := by
  induction cs with
  | nil => rfl
  | cons c cs ih =>
    obtain ⟨hc, hcs⟩ := List.forall_mem_cons.mp h
    rw [List.cons_append, behindMark_cons_iff, ih hcs, hc]
    simp

/-- The word is what is begun with what stands at the start, up to a point. -/
def EndsAt (front : Option (List Char)) (w cs : List Char) : Prop :=
  ∃ v u after, front = some v ∧ w = v ++ u ∧ cs = u ++ '.' :: after

theorem endsAt_cons_point_iff {w : List Char} (hw : ∀ c ∈ w, isWordChar c = true) :
    EndsAt front w ('.' :: cs) ↔ front = some w := by
  constructor
  · rintro ⟨v, u, after, rfl, rfl, hcs⟩
    cases u with
    | nil => rw [List.append_nil]
    | cons d u =>
      cases hcs
      have hpoint := hw '.' (by simp)
      rw [not_isWordChar_point] at hpoint
      cases hpoint
  · rintro rfl
    exact ⟨w, [], cs, rfl, (List.append_nil w).symm, rfl⟩

theorem endsAt_cons_iff {w : List Char} (hc : c ≠ '.') (hword : isWordChar c = true) :
    EndsAt front w (c :: cs) ↔ EndsAt (front.map (· ++ [c])) w cs := by
  constructor
  · rintro ⟨v, u, after, rfl, rfl, hcs⟩
    cases u with
    | nil =>
      cases hcs
      exact absurd rfl hc
    | cons d u =>
      cases hcs
      exact ⟨v ++ [c], u, after, rfl, by simp, rfl⟩
  · rintro ⟨v', u, after, hfront, rfl, rfl⟩
    obtain ⟨v, rfl, rfl⟩ := Option.map_eq_some_iff.mp hfront
    exact ⟨v, c :: u, after, rfl, by simp, rfl⟩

theorem not_endsAt_cons_of_isMark {w : List Char} (hw : ∀ c ∈ w, isWordChar c = true)
    (hc : isMark c = true) : ¬EndsAt front w (c :: cs) := by
  obtain ⟨hword, hpoint⟩ := isMark_iff.mp hc
  rintro ⟨v, u, after, _, rfl, hcs⟩
  cases u with
  | nil =>
    cases hcs
    exact hpoint rfl
  | cons d u =>
    cases hcs
    rw [hw c (by simp)] at hword
    cases hword

theorem endsAt_some_nil_iff {w : List Char} :
    EndsAt (some []) w cs ↔ ∃ after, cs = w ++ '.' :: after := by
  constructor
  · rintro ⟨v, u, after, hv, rfl, rfl⟩
    cases hv
    exact ⟨after, rfl⟩
  · rintro ⟨after, rfl⟩
    exact ⟨[], w, after, rfl, rfl, rfl⟩

/-- A word is listed when it stands behind a mark, or ends what is begun. -/
theorem mem_qualifiers_iff {w : List Char} (hw : ∀ c ∈ w, isWordChar c = true) :
    w ∈ qualifiers front cs ↔ EndsAt front w cs ∨ BehindMark w cs := by
  induction cs generalizing front with
  | nil => simp [EndsAt, BehindMark]
  | cons c cs ih =>
    rw [behindMark_cons_iff]
    cases hmark : isMark c with
    | true =>
      rw [qualifiers_cons_of_isMark hmark, ih, endsAt_some_nil_iff]
      simp [not_endsAt_cons_of_isMark hw hmark]
    | false =>
      by_cases hpoint : c = '.'
      · -- What is begun ends here, and behind the point nothing is begun.
        subst hpoint
        have hnone : ¬EndsAt none w cs := by
          rintro ⟨v, u, after, hv, _⟩
          cases hv
        rw [qualifiers_cons_point, List.mem_append, ih, endsAt_cons_point_iff hw]
        simp [hnone, Option.mem_toList]
      · have hword : isWordChar c = true := by simpa [isMark, hpoint] using hmark
        rw [qualifiers_cons_of_isWordChar hword, ih, endsAt_cons_iff hpoint hword]
        simp

/-- An occurrence that is found is skipped as a whole. -/
theorem occursAfter_skip (part : List Char) (allowed : Option Char → Bool) (prev : Option Char)
    (us ds : List Char) :
    occursAfter part allowed prev (us.length + 1) (us ++ '.' :: ds)
      = occursAfter part allowed (some '.') 0 ds := by
  induction us generalizing prev with
  | nil => simp [occursAfter]
  | cons u us ih => simp [occursAfter, ih]

/-- The search for a word in front of a point finds those behind marks and the one at the start. -/
theorem occursAfter_iff {w : List Char} (hw : ∀ c ∈ w, isWordChar c = true)
    {allowed : Option Char → Bool} (hallowed : ∀ c, allowed (some c) = isMark c)
    (prev : Option Char) (cs : List Char) :
    occursAfter (w ++ ['.']) allowed prev 0 cs = true
      ↔ (allowed prev = true ∧ ∃ after, cs = w ++ '.' :: after) ∨ BehindMark w cs := by
  induction hn : cs.length using Nat.strongRecOn generalizing cs prev with
  | ind n ih =>
    subst hn
    by_cases hstart : ∃ after, cs = w ++ '.' :: after
    · obtain ⟨after, rfl⟩ := hstart
      have hbehind : BehindMark w (w ++ '.' :: after) ↔ BehindMark w after := by
        have hmarks : ∀ c ∈ w ++ ['.'], isMark c = false := by
          intro c hc
          rcases List.mem_append.mp hc with hc | hc
          · simp [isMark, hw c hc]
          · rw [List.mem_singleton.mp hc]
            decide
        have happend : BehindMark w ((w ++ ['.']) ++ after) ↔ BehindMark w after :=
          behindMark_append_iff hmarks
        simpa using happend
      have hrest := ih after.length (by simp; omega) (some '.') after rfl
      rw [hallowed, show isMark '.' = false by decide] at hrest
      -- Nothing begins inside the occurrence, so the search goes on behind it.
      have hsearch : occursAfter (w ++ ['.']) allowed prev 0 (w ++ '.' :: after)
          = (allowed prev || occursAfter (w ++ ['.']) allowed (some '.') 0 after) := by
        cases w with
        | nil => simp [occursAfter]
        | cons c w =>
          have hprefix : (c :: w ++ ['.']).isPrefixOf (c :: (w ++ '.' :: after)) = true := by
            rw [List.isPrefixOf_iff_prefix]
            exact ⟨after, by simp⟩
          have hlength : (c :: w ++ ['.']).length - 1 = w.length + 1 := by simp
          show occursAfter (c :: w ++ ['.']) allowed prev 0 (c :: (w ++ '.' :: after)) = _
          rw [occursAfter, if_neg (by simp), if_pos hprefix, hlength, occursAfter_skip]
      rw [hsearch, Bool.or_eq_true, hrest, hbehind]
      simp
    · cases cs with
      | nil => simp [occursAfter, BehindMark]
      | cons c cs =>
        have hprefix : ¬(w ++ ['.']).isPrefixOf (c :: cs) = true := by
          rw [List.isPrefixOf_iff_prefix]
          rintro ⟨after, hafter⟩
          exact hstart ⟨after, by rw [← hafter]; simp⟩
        rw [occursAfter, if_neg (by simp), if_neg hprefix, ih cs.length (by simp) (some c) cs rfl,
          hallowed, behindMark_cons_iff]
        simp [hstart]

end Introspection.Text
