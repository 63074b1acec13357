import Introspection.Proofs.Json.Spacing

/-!
# `Introspection.Proofs.Json.Reading`: a written value reads back

`readNode_spaced`: the text of an exact value, with any spacing and behind any blanks, reads as
the tree of the value, and what follows it is left over. The induction is on the value. The
readers' `fuel` may be any number from twice the length of the text on: each of two calls in a
row takes a character, and `Document.ofText` provides that much.

`ofText_compact` and `ofText_pretty` say the same of whole texts, for the two written forms.
-/

set_option autoImplicit false

namespace Introspection.Json

open Value Numeral

variable (sp : Spacing)

/-! ### Blanks and first characters -/

/-- Blanks in front of a text are skipped. -/
theorem skipBlank_append {blanks cs : List Char} (h : ∀ c ∈ blanks, isJsonBlank c = true) :
    skipBlank (blanks ++ cs) = skipBlank cs := by
  rw [skipBlank, List.dropWhile_append_of_pos h, skipBlank]

/-- A character that is no blank stays. -/
theorem skipBlank_cons {c : Char} (cs : List Char) (h : isJsonBlank c = false) :
    skipBlank (c :: cs) = c :: cs := by
  rw [skipBlank, List.dropWhile_cons_of_neg (by simp [h])]

/-- A blank cannot prolong a number. -/
theorem endsNumber_of_blank {c : Char} (cs : List Char) (h : isJsonBlank c = true) :
    EndsNumber (c :: cs) := by
  simp only [isJsonBlank, Bool.or_eq_true, beq_iff_eq] at h
  rcases h with ((rfl | rfl) | rfl) | rfl <;> exact ⟨by decide, by decide⟩

/-- Blanks and a character that cannot prolong a number cannot do so together. -/
theorem endsNumber_blanks {blanks : List Char} {c : Char} (cs : List Char)
    (h : ∀ c ∈ blanks, isJsonBlank c = true) (hc : EndsNumber (c :: cs)) :
    EndsNumber (blanks ++ c :: cs) := by
  cases blanks with
  | nil => exact hc
  | cons b bs => exact endsNumber_of_blank _ (h b List.mem_cons_self)

/-- What follows an item cannot prolong a number. -/
theorem endsNumber_moreItems (level : Nat) (vs : List Value) (rest : List Char) :
    EndsNumber (moreItems sp level vs ++ rest) := by
  cases vs with
  | nil =>
    rw [moreItems, List.append_assoc]
    exact endsNumber_blanks _ (sp.inside_blank level) ⟨by decide, by decide⟩
  | cons v vs => exact ⟨by decide, by decide⟩

/-- What follows a member cannot prolong a number. -/
theorem endsNumber_moreMembers (level : Nat) (ms : List (String × Value)) (rest : List Char) :
    EndsNumber (moreMembers sp level ms ++ rest) := by
  cases ms with
  | nil =>
    rw [moreMembers, List.append_assoc]
    exact endsNumber_blanks _ (sp.inside_blank level) ⟨by decide, by decide⟩
  | cons m ms => exact ⟨by decide, by decide⟩

/-- A character that can start a value: no blank, and no closing bracket or brace. -/
def StartsValue (c : Char) : Prop := isJsonBlank c = false ∧ c ≠ ']' ∧ c ≠ '}'

/-- Digits can start a value. -/
theorem startsValue_of_isDigit {c : Char} (h : c.isDigit = true) : StartsValue c := by
  refine ⟨?_, ?_, ?_⟩
  · cases hb : isJsonBlank c with
    | false => rfl
    | true =>
      simp only [isJsonBlank, Bool.or_eq_true, beq_iff_eq] at hb
      rcases hb with ((rfl | rfl) | rfl) | rfl <;> exact absurd h (by decide)
  · rintro rfl
    exact absurd h (by decide)
  · rintro rfl
    exact absurd h (by decide)

/-- The first character of a written whole number. -/
theorem intDigits_eq_cons (n : Int) :
    ∃ c cs, Text.intDigits n = c :: cs ∧ (c = '-' ∨ c.isDigit = true) := by
  unfold Text.intDigits
  split
  · exact ⟨_, _, rfl, Or.inl rfl⟩
  · cases h : Nat.toDigits 10 n.natAbs with
    | nil => exact absurd h Nat.toDigits_ne_nil
    | cons c cs =>
      exact ⟨c, cs, rfl, Or.inr (isDigit_toDigits n.natAbs c (by rw [h]; exact List.mem_cons_self))⟩

/-- The text of an exact value starts with a character that can start a value. -/
theorem spaced_eq_cons (level : Nat) (v : Value) (h : v.Exact) :
    ∃ c cs, v.spaced sp level = c :: cs ∧ StartsValue c := by
  cases v with
  | null => exact ⟨_, _, rfl, by simp [StartsValue, isJsonBlank]⟩
  | bool b => cases b <;> exact ⟨_, _, rfl, by simp [StartsValue, isJsonBlank]⟩
  | integer n =>
    obtain ⟨c, cs, heq, hc⟩ := intDigits_eq_cons n
    refine ⟨c, cs, heq, ?_⟩
    rcases hc with rfl | hdigit
    · simp [StartsValue, isJsonBlank]
    · exact startsValue_of_isDigit hdigit
  | real x => exact absurd h (by simp [Exact])
  | string s => exact ⟨_, _, rfl, by simp [StartsValue, isJsonBlank]⟩
  | array items => cases items <;> exact ⟨_, _, rfl, by simp [StartsValue, isJsonBlank]⟩
  | object members =>
    cases members with
    | nil => exact ⟨_, _, rfl, by simp [StartsValue, isJsonBlank]⟩
    | cons m ms => exact ⟨_, _, rfl, by simp [StartsValue, isJsonBlank]⟩

/-- Blanks and the text of an exact value: the blanks are skipped, the value stays. -/
theorem skipBlank_spaced {blanks : List Char} (h : ∀ c ∈ blanks, isJsonBlank c = true)
    (level : Nat) {v : Value} (hv : v.Exact) (rest : List Char) :
    skipBlank (blanks ++ (v.spaced sp level ++ rest)) = v.spaced sp level ++ rest := by
  obtain ⟨c, cs, heq, hc, _⟩ := spaced_eq_cons sp level v hv
  rw [skipBlank_append h, heq, List.cons_append, skipBlank_cons _ hc]

/-! ### Values -/

/-- A written whole number reads back. -/
theorem readNode_integer (fuel : Nat) {n : Int} (hn : Int64.minValue.toInt ≤ n ∧ n < UInt64.size)
    {rest : List Char} (hrest : EndsNumber rest) :
    readNode (fuel + 1) (Text.intDigits n ++ rest)
      = (.number (.ok (.integer n)), some rest) := by
  have hread := readNumber_intDigits hn.1 hn.2 hrest
  obtain ⟨c, cs, heq, hc⟩ := intDigits_eq_cons n
  rw [heq, List.cons_append] at hread ⊢
  have hblank : isJsonBlank c = false := by
    rcases hc with rfl | hdigit
    · rfl
    · exact (startsValue_of_isDigit hdigit).1
  rw [readNode, skipBlank_cons _ hblank]
  have hnumber : (c == '-' || c.isDigit) = true := by
    rcases hc with rfl | hdigit
    · rfl
    · rw [hdigit, Bool.or_true]
  -- None of the other first characters is a minus sign or a digit.
  simp only
  split
  case h_7 => rw [if_pos hnumber, hread]
  all_goals exact absurd hnumber (by decide)

/-- A written text reads back. -/
theorem readNode_string (fuel : Nat) (s : String) (rest : List Char) :
    readNode (fuel + 1) (quotedChars s ++ rest) = (.string (.ok s), some rest) := by
  have hread := Quoted.read_escaped s rest
  simp only [quotedChars, List.cons_append, List.append_assoc, List.nil_append]
  rw [readNode, skipBlank_cons _ rfl]
  simp only [readString, hread]

/-- An empty array reads back. -/
theorem readNode_emptyArray (fuel : Nat) (rest : List Char) :
    readNode (fuel + 1) ('[' :: ']' :: rest) = (.array .closed, some rest) := by
  rw [readNode, skipBlank_cons _ rfl]
  simp only [skipBlank_cons _ (show isJsonBlank ']' = false from rfl)]

/-- An empty object reads back. -/
theorem readNode_emptyObject (fuel : Nat) (rest : List Char) :
    readNode (fuel + 1) ('{' :: '}' :: rest) = (.object .closed, some rest) := by
  rw [readNode, skipBlank_cons _ rfl]
  simp only [skipBlank_cons _ (show isJsonBlank '}' = false from rfl)]

/-- An opening bracket, blanks and an item: the items are read from the item on. -/
theorem readNode_openArray (fuel : Nat) {blanks : List Char}
    (h : ∀ c ∈ blanks, isJsonBlank c = true) (level : Nat) {v : Value} (hv : v.Exact)
    (rest : List Char) :
    readNode (fuel + 1) ('[' :: (blanks ++ (v.spaced sp level ++ rest)))
      = (readItems fuel (v.spaced sp level ++ rest)).map .array id := by
  obtain ⟨c, cs, heq, _, hbracket, _⟩ := spaced_eq_cons sp level v hv
  rw [readNode, skipBlank_cons _ rfl]
  simp only [skipBlank_spaced sp h level hv rest]
  rw [heq, List.cons_append]
  split
  · exact absurd ‹_› (by simp)
  · rename_i heq'
    exact absurd (List.cons.inj heq').1 hbracket
  · rename_i heq'
    rw [heq']

/-- An opening brace, blanks and a member: the members are read from the key on. -/
theorem readNode_openObject (fuel : Nat) {blanks : List Char}
    (h : ∀ c ∈ blanks, isJsonBlank c = true) (k : String) (rest : List Char) :
    readNode (fuel + 1) ('{' :: (blanks ++ (quotedChars k ++ rest)))
      = (readMembers fuel (quotedChars k ++ rest)).map .object id := by
  rw [readNode, skipBlank_cons _ rfl]
  simp only [skipBlank_append h, quotedChars, List.cons_append]
  rw [skipBlank_cons _ rfl]
  rfl

/-- The last item of an array. -/
theorem readItems_last {fuel : Nat} {cs blanks rest : List Char} {node : Node}
    (h : ∀ c ∈ blanks, isJsonBlank c = true)
    (hread : readNode fuel cs = (node, some (blanks ++ ']' :: rest))) :
    readItems (fuel + 1) cs = (.cons node .closed, some rest) := by
  rw [readItems, hread]
  simp only [skipBlank_append h, skipBlank_cons _ (show isJsonBlank ']' = false from rfl)]

/-- An item with one more behind it. -/
theorem readItems_more {fuel : Nat} {cs blanks rest : List Char} {node : Node}
    (h : ∀ c ∈ blanks, isJsonBlank c = true) (level : Nat) {v : Value} (hv : v.Exact)
    (hread : readNode fuel cs
      = (node, some (',' :: (blanks ++ (v.spaced sp level ++ rest))))) :
    readItems (fuel + 1) cs
      = (readItems fuel (v.spaced sp level ++ rest)).map (.cons node) id := by
  obtain ⟨c, ds, heq, _, hbracket, _⟩ := spaced_eq_cons sp level v hv
  rw [readItems, hread]
  simp only [skipBlank_cons _ (show isJsonBlank ',' = false from rfl),
    skipBlank_spaced sp h level hv rest]
  rw [heq, List.cons_append]
  split
  · exact absurd ‹_› (by simp)
  · rename_i heq'
    exact absurd (List.cons.inj heq').1 hbracket
  · rename_i heq'
    rw [heq']

/-- The value of a member, behind its colon and blanks. -/
theorem readMemberValue_colon (fuel : Nat) (cs : List Char) :
    readMemberValue (fuel + 1) (':' :: cs) = readNode fuel cs := by
  rw [readMemberValue, skipBlank_cons _ rfl]
  rfl

/-- Blanks in front of a value make no difference. -/
theorem readNode_append (fuel : Nat) {blanks : List Char}
    (h : ∀ c ∈ blanks, isJsonBlank c = true) (cs : List Char) :
    readNode (fuel + 1) (blanks ++ cs) = readNode (fuel + 1) cs := by
  rw [readNode, readNode, skipBlank_append h]

/-- The last member of an object. -/
theorem readMembers_last {fuel : Nat} {k : String} {cs blanks rest : List Char} {node : Node}
    (h : ∀ c ∈ blanks, isJsonBlank c = true)
    (hread : readMemberValue fuel cs = (node, some (blanks ++ '}' :: rest))) :
    readMembers (fuel + 1) (quotedChars k ++ cs) = (.cons (.ok k) node .closed, some rest) := by
  have hkey := Quoted.read_escaped k cs
  simp only [quotedChars, List.cons_append, List.append_assoc, List.nil_append]
  rw [readMembers, hkey]
  simp only [hread, skipBlank_append h, skipBlank_cons _ (show isJsonBlank '}' = false from rfl)]

/-- A member with one more behind it. -/
theorem readMembers_more {fuel : Nat} {k k' : String} {cs blanks rest : List Char} {node : Node}
    (h : ∀ c ∈ blanks, isJsonBlank c = true)
    (hread : readMemberValue fuel cs
      = (node, some (',' :: (blanks ++ (quotedChars k' ++ rest))))) :
    readMembers (fuel + 1) (quotedChars k ++ cs)
      = (readMembers fuel (quotedChars k' ++ rest)).map (.cons (.ok k) node) id := by
  have hkey := Quoted.read_escaped k cs
  have hnext : skipBlank (blanks ++ (quotedChars k' ++ rest)) = quotedChars k' ++ rest := by
    rw [skipBlank_append h]
    exact skipBlank_cons _ rfl
  simp only [quotedChars, List.cons_append, List.append_assoc, List.nil_append] at hnext hread ⊢
  rw [readMembers, hkey]
  simp only [hread, skipBlank_cons _ (show isJsonBlank ',' = false from rfl), hnext]
  rfl

/-! ### The induction over a value

`readNode_spaced` and its two companions follow the definition of `Value.spaced`. The companions
start at an item or a member and read up to the closing bracket or brace. -/

mutual

/-- The text of an exact value reads as its tree. -/
theorem readNode_spaced (level : Nat) : ∀ (v : Value) (fuel : Nat) (rest : List Char), v.Exact →
    EndsNumber rest → 2 * (v.spaced sp level).length ≤ fuel →
    readNode fuel (v.spaced sp level ++ rest) = (.ofValue v, some rest)
  | .null, fuel + 1, rest, _, _, _ => rfl
  | .bool true, fuel + 1, rest, _, _, _ => rfl
  | .bool false, fuel + 1, rest, _, _, _ => rfl
  | .integer n, fuel + 1, rest, hv, hrest, _ => readNode_integer fuel hv hrest
  | .real _, _, _, hv, _, _ => absurd hv (by simp [Exact])
  | .string s, fuel + 1, rest, _, _, _ => readNode_string fuel s rest
  | .array [], fuel + 1, rest, _, _, _ => readNode_emptyArray fuel rest
  | .array (v :: vs), fuel + 1, rest, hv, _, hfuel => by
    simp only [Exact, ExactItems] at hv
    simp only [spaced, List.length_cons, List.length_append] at hfuel
    have ih := readItems_spaced level v vs fuel rest hv.1 hv.2 (by omega)
    simp only [spaced, List.cons_append, List.append_assoc]
    rw [readNode_openArray sp fuel (sp.inside_blank _) _ hv.1, ih]
    rfl
  | .object [], fuel + 1, rest, _, _, _ => readNode_emptyObject fuel rest
  | .object ((k, v) :: ms), fuel + 1, rest, hv, _, hfuel => by
    simp only [Exact, ExactMembers] at hv
    simp only [spaced, List.length_cons, List.length_append] at hfuel
    have ih := readMembers_spaced level k v ms fuel rest hv.1 hv.2
      (by simp only [List.length_cons, List.length_append]; omega)
    simp only [spaced, List.cons_append, List.append_assoc]
    rw [readNode_openObject fuel (sp.inside_blank _), ih]
    rfl
  | v, 0, _, hv, _, hfuel => by
    -- No text is empty, so that there is fuel for it.
    obtain ⟨c, cs, heq, _⟩ := spaced_eq_cons sp level v hv
    rw [heq, List.length_cons] at hfuel
    omega
termination_by v => sizeOf v

/-- Items up to the closing bracket read as their trees. -/
theorem readItems_spaced (level : Nat) : ∀ (v : Value) (vs : List Value) (fuel : Nat)
    (rest : List Char), v.Exact → ExactItems vs →
    2 * ((v.spaced sp (level + 1)).length + (moreItems sp level vs).length) ≤ fuel →
    readItems fuel (v.spaced sp (level + 1) ++ (moreItems sp level vs ++ rest))
      = (.ofValues (v :: vs), some rest)
  | v, [], fuel + 1, rest, hv, _, hfuel => by
    simp only [moreItems, List.length_append, List.length_singleton] at hfuel
    have ih := readNode_spaced (level + 1) v fuel (moreItems sp level [] ++ rest) hv
      (endsNumber_moreItems sp level [] rest) (by omega)
    simp only [moreItems, List.append_assoc, List.cons_append, List.nil_append] at ih ⊢
    exact readItems_last (sp.inside_blank _) ih
  | v, w :: vs, fuel + 1, rest, hv, hvs, hfuel => by
    simp only [ExactItems] at hvs
    simp only [moreItems, List.length_cons, List.length_append] at hfuel
    have ihv := readNode_spaced (level + 1) v fuel (moreItems sp level (w :: vs) ++ rest) hv
      (endsNumber_moreItems sp level (w :: vs) rest) (by omega)
    have ihvs := readItems_spaced level w vs fuel rest hvs.1 hvs.2 (by omega)
    simp only [moreItems, List.append_assoc, List.cons_append] at ihv ⊢
    rw [readItems_more sp (sp.inside_blank _) _ hvs.1 ihv, ihvs]
    rfl
  | _, [], 0, _, _, _, hfuel => by
    simp only [moreItems, List.length_append, List.length_singleton] at hfuel
    omega
  | _, _ :: _, 0, _, _, _, hfuel => by
    simp only [moreItems, List.length_cons] at hfuel
    omega
termination_by v vs => sizeOf v + sizeOf vs

/-- Members up to the closing brace read as their keys and trees. -/
theorem readMembers_spaced (level : Nat) : ∀ (k : String) (v : Value)
    (ms : List (String × Value)) (fuel : Nat) (rest : List Char), v.Exact → ExactMembers ms →
    2 * (quotedChars k ++ ':' :: (sp.afterColon
      ++ (v.spaced sp (level + 1) ++ moreMembers sp level ms))).length ≤ fuel →
    readMembers fuel (quotedChars k ++ ':' :: (sp.afterColon
        ++ (v.spaced sp (level + 1) ++ (moreMembers sp level ms ++ rest))))
      = (.ofValues ((k, v) :: ms), some rest)
  | k, v, [], fuel + 3, rest, hv, _, hfuel => by
    simp only [moreMembers, List.length_append, List.length_cons] at hfuel
    have ih := readNode_spaced (level + 1) v (fuel + 1) (moreMembers sp level [] ++ rest) hv
      (endsNumber_moreMembers sp level [] rest) (by omega)
    simp only [moreMembers, List.append_assoc, List.cons_append, List.nil_append] at ih ⊢
    refine readMembers_last (sp.inside_blank level) ?_
    rw [readMemberValue_colon, readNode_append _ sp.afterColon_blank, ih]
  | k, v, (k', w) :: ms, fuel + 3, rest, hv, hms, hfuel => by
    simp only [ExactMembers] at hms
    simp only [moreMembers, List.length_append, List.length_cons] at hfuel
    have ihv := readNode_spaced (level + 1) v (fuel + 1)
      (moreMembers sp level ((k', w) :: ms) ++ rest) hv
      (endsNumber_moreMembers sp level ((k', w) :: ms) rest) (by omega)
    have ihms := readMembers_spaced level k' w ms (fuel + 2) rest hms.1 hms.2
      (by simp only [List.length_append, List.length_cons]; omega)
    simp only [moreMembers, List.append_assoc, List.cons_append] at ihv ⊢
    have hvalue := readMemberValue_colon (fuel + 1) (sp.afterColon ++ (v.spaced sp (level + 1)
      ++ ',' :: (sp.inside (level + 1) ++ (quotedChars k' ++ ':' :: (sp.afterColon
        ++ (w.spaced sp (level + 1) ++ (moreMembers sp level ms ++ rest)))))))
    rw [readNode_append _ sp.afterColon_blank, ihv] at hvalue
    rw [readMembers_more (sp.inside_blank (level + 1)) hvalue, ihms]
    rfl
  | k, _, _, 0, _, _, _, hfuel => by
    simp [quotedChars] at hfuel
  | k, _, _, 1, _, _, _, hfuel => by
    simp only [quotedChars, List.length_append, List.length_cons] at hfuel
    omega
  | k, _, _, 2, _, _, _, hfuel => by
    simp only [quotedChars, List.length_append, List.length_cons] at hfuel
    omega
termination_by _ v ms => sizeOf v + sizeOf ms

end

/-! ### Whole texts -/

/-- The text of an exact value says that value, and nothing follows it. -/
theorem ofText_spaced (level : Nat) {v : Value} (hv : v.Exact) :
    Document.ofText (String.ofList (v.spaced sp level)) = ⟨.ofValue v, false⟩ := by
  have hread := readNode_spaced sp level v (2 * (v.spaced sp level).length + 2) [] hv trivial
    (by omega)
  rw [List.append_nil] at hread
  unfold Document.ofText
  simp only [String.toList_ofList, hread]
  rfl

/-- The form on one line says the value that it was written for. -/
theorem ofText_compact {v : Value} (hv : v.Exact) :
    Document.ofText v.compact = ⟨.ofValue v, false⟩ := by
  rw [Value.compact, compactChars_eq 0 v]
  exact ofText_spaced _ 0 hv

/-- The form on many lines says the value that it was written for. -/
theorem ofText_pretty {v : Value} (hv : v.Exact) :
    Document.ofText v.pretty = ⟨.ofValue v, false⟩ := by
  rw [Value.pretty, prettyChars_eq 0 v]
  exact ofText_spaced _ 0 hv

end Introspection.Json
