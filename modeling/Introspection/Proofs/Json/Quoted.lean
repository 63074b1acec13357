import Introspection.Json.Quoted
import Introspection.Json.Value

/-!
# `Introspection.Proofs.Json.Quoted`: a written string reads back

`quotedChars` escapes the characters of a text one by one, and `Quoted.scan` takes the escapes
off one by one. `pieceOf` names the piece that one written character becomes: the control
characters without a short escape come back as code units, all others as themselves.

`read_escaped` puts the two together: behind the opening quote, the escaped characters of a text
and a closing quote read as that text, whatever follows.
-/

set_option autoImplicit false

namespace Introspection.Json.Quoted

/-- A character that needs no escape is a piece of its own. -/
theorem scan_plain {c : Char} (cs : List Char) (hquote : c ≠ '"') (hback : c ≠ '\\')
    (hcontrol : ¬ c.toNat < 0x20) :
    scan (c :: cs) = withPiece (.char c) (scan cs) := by
  rw [scan.eq_def]
  split
  case h_7 d ds _ _ _ _ _ heq =>
    cases heq
    rw [if_neg hcontrol]
  all_goals simp_all

/-- A short escape is the piece of the character that it stands for. -/
theorem scan_plainEscape {e c : Char} (cs : List Char) (h : plainEscape e = some c) :
    scan ('\\' :: e :: cs) = withPiece (.char c) (scan cs) := by
  have hu : e ≠ 'u' := by
    rintro rfl
    simp [plainEscape] at h
  rw [scan.eq_def]
  simp [hu, h]

/-- Four hexadecimal digits behind `\u` are the piece of their code unit. -/
theorem scan_unit {a b c d : Char} {n : Nat} (cs : List Char) (h : hexUnit a b c d = some n) :
    scan ('\\' :: 'u' :: a :: b :: c :: d :: cs) = withPiece (.unit n) (scan cs) := by
  rw [scan.eq_def]
  simp [h]

/-- A control character is written with four digits that spell its code point. -/
theorem hexUnit_hexPadded (n : Nat) (h : n < 0x20) :
    ∃ a b c d, Text.hexPadded 4 n = [a, b, c, d] ∧ hexUnit a b c d = some n := by
  have all : ∀ n < 0x20, Text.hexPadded 4 n
        = ['0', '0', Nat.digitChar (n / 16), Nat.digitChar (n % 16)]
      ∧ hexUnit '0' '0' (Nat.digitChar (n / 16)) (Nat.digitChar (n % 16)) = some n := by
    decide
  exact ⟨_, _, _, _, (all n h).1, (all n h).2⟩

/-- Whether a character is written by its code point. -/
def isUnitEscaped (c : Char) : Bool :=
  c.toNat < 0x20 && c != '\x08' && c != '\x0c' && c != '\n' && c != '\r' && c != '\t'

/-- The piece that a written character is read as. -/
def pieceOf (c : Char) : Piece := if isUnitEscaped c then .unit c.toNat else .char c

/-- One written character is read as its piece. -/
theorem scan_escapeChar (c : Char) (cs : List Char) :
    scan (escapeChar c ++ cs) = withPiece (pieceOf c) (scan cs) := by
  unfold escapeChar
  -- The seven short escapes come first, in the order of the definition.
  by_cases hquote : c = '"'
  · subst hquote
    exact scan_plainEscape cs rfl
  by_cases hback : c = '\\'
  · subst hback
    exact scan_plainEscape cs rfl
  by_cases hb : c = '\x08'
  · subst hb
    exact scan_plainEscape cs rfl
  by_cases hf : c = '\x0c'
  · subst hf
    exact scan_plainEscape cs rfl
  by_cases hn : c = '\n'
  · subst hn
    exact scan_plainEscape cs rfl
  by_cases hr : c = '\r'
  · subst hr
    exact scan_plainEscape cs rfl
  by_cases ht : c = '\t'
  · subst ht
    exact scan_plainEscape cs rfl
  simp only [beq_iff_eq, hquote, hback, hb, hf, hn, hr, ht, if_false]
  by_cases hcontrol : c.toNat < 0x20
  · obtain ⟨x, y, z, w, hpadded, hunit⟩ := hexUnit_hexPadded c.toNat hcontrol
    have hpiece : pieceOf c = .unit c.toNat := by
      simp [pieceOf, isUnitEscaped, hcontrol, hb, hf, hn, hr, ht]
    rw [if_pos hcontrol, hpadded, hpiece]
    exact scan_unit cs hunit
  · have hpiece : pieceOf c = .char c := by
      simp [pieceOf, isUnitEscaped, hcontrol]
    rw [if_neg hcontrol, hpiece]
    exact scan_plain cs hquote hback hcontrol

/-- The escaped characters of a text and a closing quote are scanned as the pieces of the text. -/
theorem scan_escaped (text rest : List Char) :
    scan (text.flatMap escapeChar ++ '"' :: rest) = (text.map pieceOf, .ok rest) := by
  induction text with
  | nil => simp [scan]
  | cons c cs ih =>
    rw [List.flatMap_cons, List.append_assoc, scan_escapeChar, ih]
    rfl

/-- The piece of a written character stands for that character: no control character is half of
a surrogate pair. -/
theorem decode_pieceOf (c : Char) (pieces : List Piece) {cs : List Char}
    (h : decode none pieces = .ok cs) : decode none (pieceOf c :: pieces) = .ok (c :: cs) := by
  unfold pieceOf
  split
  · rename_i hunit
    have hlt : c.toNat < 0x20 := by
      simp only [isUnitEscaped, Bool.and_eq_true, decide_eq_true_eq] at hunit
      exact hunit.1.1.1.1.1
    have htrail : isTrail c.toNat = false := by
      simp only [isTrail, Bool.and_eq_false_iff, decide_eq_false_iff_not]
      omega
    have hlead : isLead c.toNat = false := by
      simp only [isLead, Bool.and_eq_false_iff, decide_eq_false_iff_not]
      omega
    rw [decode.eq_def]
    simp [htrail, hlead, h, Char.ofNat_toNat, bind, Except.bind, pure, Except.pure]
  · rw [decode.eq_def]
    simp [h, bind, Except.bind, pure, Except.pure]

/-- The pieces of a text stand for the text. -/
theorem decode_pieces (text : List Char) : decode none (text.map pieceOf) = .ok text := by
  induction text with
  | nil => rfl
  | cons c cs ih => exact decode_pieceOf c _ ih

/-- Behind the opening quote, the escaped characters of a text and a closing quote read as that
text. -/
theorem read_escaped (s : String) (rest : List Char) :
    read (s.toList.flatMap escapeChar ++ '"' :: rest) = .ok (.ok s, rest) := by
  unfold read
  rw [scan_escaped]
  simp [decode_pieces, Except.map]

end Introspection.Json.Quoted
