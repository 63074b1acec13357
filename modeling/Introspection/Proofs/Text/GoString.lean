import Introspection.Json.Quoted
import Introspection.Text.Quoting

/-!
# `Introspection.Proofs.Text.GoString`: the bytes that a Go string literal stands for

An interpreted string literal of Go stands for bytes. `GoString.value?` finds them as the Go
specification says: a scanner goes over the literal character by character (`GoString.step`) and
refuses whatever is no literal. The characters of a literal stand for their bytes in UTF-8, and so
do code points behind `\u` and `\U`, while the digits behind `\x` are those of one byte.

`goLiteral` gives a literal for every text (`GoString.value_goLiteral`). It writes control
characters by their code points behind `\x`. From U+0080 to U+009F these are no bytes of theirs, so
the literal stands for the text only if none of them occurs.
-/

set_option autoImplicit false

namespace Introspection.Text

open Introspection.Json.Quoted (hexValue)

namespace GoString

/-! ### Literals -/

/-- The byte that a letter behind a backslash stands for. -/
def shortEscape? : Char → Option UInt8
  | 'a' => some 0x07
  | 'b' => some 0x08
  | 't' => some 0x09
  | 'n' => some 0x0A
  | 'v' => some 0x0B
  | 'f' => some 0x0C
  | 'r' => some 0x0D
  | '"' => some 0x22
  | '\\' => some 0x5C
  | _ => none

/-- What the digits of an escape give the number of. -/
inductive Numbered
  | byte
  | codePoint

/-- The bytes that a number stands for. -/
def Numbered.bytes? : Numbered → Nat → Option (List UInt8)
  | byte, n => if n < 256 then some [UInt8.ofNat n] else none
  | codePoint, n => if n.isValidChar then some (String.utf8EncodeChar (Char.ofNat n)) else none

/-- Places in a literal. -/
inductive State
  /-- In front of a character, an escape or the closing quote. -/
  | content
  /-- Behind a backslash. -/
  | escape
  /-- In front of a digit that `more` others follow; those so far make up `n`. -/
  | digit (numbered : Numbered) (base more n : Nat)
  /-- Behind the closing quote. -/
  | closed

/-- A step over a digit: the bytes that end there, and the place behind it. -/
def stepDigit (numbered : Numbered) (base more n : Nat) (c : Char) :
    Option (List UInt8 × State) :=
  match hexValue c with
  | none => none
  | some d =>
    if d < base then
      match more with
      | 0 => (numbered.bytes? (n * base + d)).map fun bytes => (bytes, .content)
      | more + 1 => some ([], .digit numbered base more (n * base + d))
    else none

/-- A step over one character: the bytes that end there, and the place behind it. -/
def step : State → Char → Option (List UInt8 × State)
  | .content, c =>
    if c = '"' then some ([], .closed)
    else if c = '\\' then some ([], .escape)
    else if c = '\n' then none
    else some (String.utf8EncodeChar c, .content)
  | .escape, c =>
    match shortEscape? c with
    | some b => some ([b], .content)
    | none =>
      if c = 'x' then some ([], .digit .byte 16 1 0)
      else if c = 'u' then some ([], .digit .codePoint 16 3 0)
      else if c = 'U' then some ([], .digit .codePoint 16 7 0)
      else stepDigit .byte 8 2 0 c
  | .digit numbered base more n, c => stepDigit numbered base more n c
  | .closed, _ => none

/-- The bytes that the rest of a literal stands for. -/
def scan : State → List Char → Option (List UInt8)
  | .closed, [] => some []
  | _, [] => none
  | s, c :: cs => (step s c).bind fun (bytes, next) => (scan next cs).map (bytes ++ ·)

/-- The bytes that a literal stands for. -/
def value? (literal : String) : Option (List UInt8) :=
  match literal.toList with
  | '"' :: cs => scan .content cs
  | _ => none

theorem scan_of_step {s next : State} {c : Char} {bytes : List UInt8} (cs : List Char)
    (h : step s c = some (bytes, next)) :
    scan s (c :: cs) = (scan next cs).map (bytes ++ ·) := by
  rw [scan, h, Option.bind_some]

/-- Where a step ends no bytes, the rest of the literal stands for the same. -/
theorem scan_of_silent {s next : State} {c : Char} (cs : List Char)
    (h : step s c = some ([], next)) : scan s (c :: cs) = scan next cs := by
  rw [scan_of_step cs h]
  cases scan next cs <;> rfl

/-- A backslash opens an escape. -/
theorem scan_backslash (cs : List Char) : scan .content ('\\' :: cs) = scan .escape cs :=
  scan_of_silent cs rfl

/-- No step leads over the end of a line. -/
theorem step_newline (s : State) : step s '\n' = none := by
  cases s with
  | content => rfl
  | escape => rfl
  | digit numbered base more n => rfl
  | closed => rfl

/-- A literal is on one line. -/
theorem newline_not_mem_of_scan {s : State} {cs : List Char} {bytes : List UInt8}
    (h : scan s cs = some bytes) : '\n' ∉ cs := by
  induction cs generalizing s bytes with
  | nil => exact List.not_mem_nil
  | cons c cs ih =>
    rw [scan] at h
    obtain ⟨⟨here, next⟩, hstep, hrest⟩ := Option.bind_eq_some_iff.mp h
    obtain ⟨bytes', hscan, -⟩ := Option.map_eq_some_iff.mp hrest
    rw [List.mem_cons, not_or]
    refine ⟨?_, ih hscan⟩
    rintro rfl
    rw [step_newline] at hstep
    cases hstep

/-! ### Escaped characters -/

theorem isControl_iff {c : Char} :
    isControl c = true ↔ c.toNat < 0x20 ∨ 0x7F ≤ c.toNat ∧ c.toNat < 0xA0 := by
  simp only [isControl, Bool.or_eq_true, Bool.and_eq_true, decide_eq_true_eq]

/-- The bytes that a character is written as. -/
def writtenBytes (c : Char) : List UInt8 :=
  if isControl c then [UInt8.ofNat c.toNat] else String.utf8EncodeChar c

/-- A number below 256 has two hexadecimal digits, its quotient and its remainder. -/
theorem hexPadded_of_lt {n : Nat} (hn : n < 256) :
    hexPadded 2 n = [Nat.digitChar (n / 16), Nat.digitChar (n % 16)] := by
  have hquotient : n / 16 < 16 := by omega
  rw [hexPadded, hexDigits]
  by_cases hsmall : n < 16
  · rw [Nat.toDigits_of_lt_base hsmall, Nat.div_eq_of_lt hsmall, Nat.mod_eq_of_lt hsmall]
    rfl
  · rw [Nat.toDigits_of_base_le (by decide) (Nat.le_of_not_lt hsmall),
      Nat.toDigits_of_lt_base hquotient]
    rfl

/-- A byte in two hexadecimal digits is scanned as that byte. -/
theorem scan_hexPadded {n : Nat} (hn : n < 256) (cs : List Char) :
    scan (.digit .byte 16 1 0) (hexPadded 2 n ++ cs)
      = (scan .content cs).map ([UInt8.ofNat n] ++ ·) := by
  have hdigit : ∀ d < 16, hexValue (Nat.digitChar d) = some d := by decide
  have hquotient : n / 16 < 16 := by omega
  have hremainder : n % 16 < 16 := by omega
  have hhigh : step (.digit .byte 16 1 0) (Nat.digitChar (n / 16))
      = some ([], .digit .byte 16 0 (n / 16)) := by
    simp only [step, stepDigit, hdigit _ hquotient, if_pos hquotient, Nat.zero_mul, Nat.zero_add]
  have hlow : step (.digit .byte 16 0 (n / 16)) (Nat.digitChar (n % 16))
      = some ([UInt8.ofNat n], .content) := by
    simp only [step, stepDigit, hdigit _ hremainder, if_pos hremainder, Nat.div_add_mod',
      Numbered.bytes?, if_pos hn, Option.map_some]
  rw [hexPadded_of_lt hn, List.cons_append, List.cons_append, List.nil_append,
    scan_of_silent _ hhigh, scan_of_step _ hlow]

/-- A letter behind a backslash is scanned as the byte that it stands for. -/
theorem scan_shortEscape {e : Char} {b : UInt8} (h : shortEscape? e = some b) (cs : List Char) :
    scan .content ('\\' :: e :: cs) = (scan .content cs).map ([b] ++ ·) := by
  have hletter : step .escape e = some ([b], .content) := by
    rw [step, h]
  rw [scan_backslash, scan_of_step _ hletter]

/-- A character that needs no escape is scanned as its own bytes. -/
theorem scan_plain {c : Char} (hquote : c ≠ '"') (hback : c ≠ '\\') (hnewline : c ≠ '\n')
    (cs : List Char) :
    scan .content (c :: cs) = (scan .content cs).map (String.utf8EncodeChar c ++ ·) := by
  have hstep : step .content c = some (String.utf8EncodeChar c, .content) := by
    rw [step, if_neg hquote, if_neg hback, if_neg hnewline]
  exact scan_of_step cs hstep

/-- An escaped character is scanned as the bytes it is written as. -/
theorem scan_goEscape (c : Char) (cs : List Char) :
    scan .content (goEscape c ++ cs) = (scan .content cs).map (writtenBytes c ++ ·) := by
  unfold goEscape
  -- The five short escapes come first, in the order of the definition.
  by_cases hquote : c = '"'
  · subst hquote
    exact scan_shortEscape rfl cs
  by_cases hback : c = '\\'
  · subst hback
    exact scan_shortEscape rfl cs
  by_cases hnewline : c = '\n'
  · subst hnewline
    exact scan_shortEscape rfl cs
  by_cases hreturn : c = '\r'
  · subst hreturn
    exact scan_shortEscape rfl cs
  by_cases htab : c = '\t'
  · subst htab
    exact scan_shortEscape rfl cs
  simp only [beq_iff_eq, hquote, hback, hnewline, hreturn, htab, if_false, writtenBytes]
  cases hcontrol : isControl c with
  | true =>
    -- All control characters are below U+00A0, so that two digits are enough.
    have hrange := isControl_iff.mp hcontrol
    have hbyte : c.toNat < 256 := by omega
    have hdigits : step .escape 'x' = some ([], .digit .byte 16 1 0) := rfl
    rw [if_pos rfl, if_pos rfl]
    show scan .content ('\\' :: 'x' :: (hexPadded 2 c.toNat ++ cs)) = _
    rw [scan_backslash, scan_of_silent _ hdigits, scan_hexPadded hbyte]
  | false => exact scan_plain hquote hback hnewline cs

/-- The escaped characters of a text and a closing quote are scanned as the bytes that the
characters are written as. -/
theorem scan_flatMap_goEscape (text : List Char) :
    scan .content (text.flatMap goEscape ++ ['"']) = some (text.flatMap writtenBytes) := by
  induction text with
  | nil => rfl
  | cons c cs ih =>
    rw [List.flatMap_cons, List.append_assoc, scan_goEscape, ih]
    rfl

/-! ### Texts -/

/-- The bytes of a text in UTF-8. -/
def encoded (s : String) : List UInt8 := s.toUTF8.data.toList

theorem encoded_eq (s : String) : encoded s = s.toList.flatMap String.utf8EncodeChar := by
  rw [encoded, String.toUTF8, ← String.utf8Encode_toList, List.utf8Encode,
    List.toList_data_toByteArray]

/-- Control characters with two bytes. -/
def IsHighControl (c : Char) : Prop := 0x80 ≤ c.toNat ∧ c.toNat < 0xA0

/-- All other characters are written as their own bytes. -/
theorem writtenBytes_of_not_isHighControl {c : Char} (h : ¬IsHighControl c) :
    writtenBytes c = String.utf8EncodeChar c := by
  unfold writtenBytes
  split
  · next hcontrol =>
    have hrange := isControl_iff.mp hcontrol
    have hone : c.toNat ≤ 127 := by
      unfold IsHighControl at h
      omega
    rw [String.utf8EncodeChar, Char.toNat_val, if_pos hone]
  · rfl

/-- A control character with two bytes is written as the second of them, the first one is 0xC2. -/
theorem bytes_of_isHighControl {c : Char} (h : IsHighControl c) :
    writtenBytes c = [UInt8.ofNat c.toNat]
      ∧ String.utf8EncodeChar c = [0xC2, UInt8.ofNat c.toNat] := by
  obtain ⟨hlow, hhigh⟩ := h
  constructor
  · have hcontrol : isControl c = true := isControl_iff.mpr (by omega)
    rw [writtenBytes, if_pos hcontrol]
  · have hfirst : c.toNat / 64 % 32 + 192 = 0xC2 := by omega
    have hsecond : c.toNat % 64 + 128 = c.toNat := by omega
    show String.utf8EncodeChar c = [UInt8.ofNat 0xC2, UInt8.ofNat c.toNat]
    rw [← hfirst, ← hsecond, String.utf8EncodeChar]
    simp only [Char.toNat_val]
    rw [if_neg (by omega), if_pos (by omega), hsecond]

/-- Characters are written as their own bytes if none of them is a control character with two. -/
theorem flatMap_writtenBytes_eq_iff (text : List Char) :
    text.flatMap writtenBytes = text.flatMap String.utf8EncodeChar
      ↔ ∀ c ∈ text, ¬IsHighControl c := by
  induction text with
  | nil => exact ⟨fun _ => nofun, fun _ => rfl⟩
  | cons c cs ih =>
    rw [List.flatMap_cons, List.flatMap_cons, List.forall_mem_cons]
    by_cases hc : IsHighControl c
    · -- The two sides differ in the first byte.
      obtain ⟨hwritten, hown⟩ := bytes_of_isHighControl hc
      refine iff_of_false (fun h => ?_) (fun h => h.1 hc)
      rw [hwritten, hown] at h
      have hbyte : (UInt8.ofNat c.toNat).toNat = 0xC2 := congrArg UInt8.toNat (List.cons.inj h).1
      rw [UInt8.toNat_ofNat'] at hbyte
      have hrange := hc.2
      omega
    · rw [writtenBytes_of_not_isHighControl hc, List.append_cancel_left_eq, ih]
      exact (and_iff_right hc).symm

/-- The literal for a text stands for the bytes that its characters are written as. It is on one
line, and it stands for the text itself unless that has control characters with two bytes. -/
theorem value_goLiteral (s : String) :
    value? (goLiteral s) = some (s.toList.flatMap writtenBytes)
      ∧ '\n' ∉ (goLiteral s).toList
      ∧ (value? (goLiteral s) = some (encoded s) ↔ ∀ c ∈ s.toList, ¬IsHighControl c) := by
  have hscan := scan_flatMap_goEscape s.toList
  have hchars : (goLiteral s).toList = '"' :: (s.toList.flatMap goEscape ++ ['"']) := by
    rw [goLiteral, String.toList_ofList, List.cons_append]
  have hvalue : value? (goLiteral s) = some (s.toList.flatMap writtenBytes) := by
    rw [value?, hchars]
    exact hscan
  refine ⟨hvalue, ?_, ?_⟩
  · rw [hchars, List.mem_cons, not_or]
    exact ⟨by decide, newline_not_mem_of_scan hscan⟩
  · rw [hvalue, encoded_eq, Option.some.injEq]
    exact flatMap_writtenBytes_eq_iff s.toList

/-- The character U+0085 has the bytes 0xC2 and 0x85, and its literal stands for the latter. -/
example : value? (goLiteral "\u0085") = some [0x85] ∧ encoded "\u0085" = [0xC2, 0x85] := by
  decide

end GoString

end Introspection.Text
