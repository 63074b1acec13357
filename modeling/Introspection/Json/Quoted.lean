import Introspection.Json.Node

/-!
# `Introspection.Json.Quoted`: strings in a text

`scan` takes the inside of a string off the front of a text, as pieces; `decode` joins the
pieces to characters. A character beyond U+FFFF may be written as two escapes, which must be a
leading and a trailing surrogate in that order. Only a reader of the content minds a surrogate
without its partner.
-/

set_option autoImplicit false

namespace Introspection.Json.Quoted

/-- A part of a string: a character, or a code unit written in hexadecimal. -/
inductive Piece
  | char (c : Char)
  | unit (n : Nat)

/-- How a string stops without its closing quote. -/
inductive Stop
  | endOfText
  | control
  | badEscape
  | badHex

/-- The defect at the place where the string stops. -/
def Stop.defect : Stop → Defect
  | .endOfText => .endInString
  | .control => .controlInString
  | .badEscape => .badEscape
  | .badHex => .badEscape

/-- The defect when the last piece is a leading surrogate, which needs one more escape. -/
def Stop.afterLead : Stop → Defect
  | .endOfText => .endInString
  | .control => .unfinishedSurrogate
  | .badEscape => .unfinishedSurrogate
  | .badHex => .badEscape

/-- The value of a hexadecimal digit. -/
def hexValue (c : Char) : Option Nat :=
  if c.isDigit then some (c.toNat - '0'.toNat)
  else if 'a' ≤ c && c ≤ 'f' then some (c.toNat - 'a'.toNat + 10)
  else if 'A' ≤ c && c ≤ 'F' then some (c.toNat - 'A'.toNat + 10)
  else none

/-- The code unit that four hexadecimal digits spell. -/
def hexUnit (a b c d : Char) : Option Nat := do
  let a ← hexValue a
  let b ← hexValue b
  let c ← hexValue c
  let d ← hexValue d
  return ((a * 16 + b) * 16 + c) * 16 + d

/-- The character that a letter behind a backslash stands for. -/
def plainEscape (c : Char) : Option Char :=
  match c with
  | '"' => some '"'
  | '\\' => some '\\'
  | '/' => some '/'
  | 'b' => some '\x08'
  | 'f' => some '\x0c'
  | 'n' => some '\n'
  | 'r' => some '\r'
  | 't' => some '\t'
  | _ => none

/-- Bytes that the characters take in UTF-8. -/
def byteCount (cs : List Char) : Nat := cs.foldl (fun n c => n + c.utf8Size) 0

/-- Puts a piece in front of a scanned string. -/
def withPiece (p : Piece) (r : List Piece × Except Stop (List Char)) :
    List Piece × Except Stop (List Char) :=
  (p :: r.1, r.2)

/-- The pieces of a string whose opening quote is already taken, and what follows its closing
quote. A code unit takes four bytes of text: where fewer are left the text ends inside it. -/
def scan : List Char → List Piece × Except Stop (List Char)
  | [] => ([], .error .endOfText)
  | '"' :: cs => ([], .ok cs)
  | '\\' :: [] => ([], .error .endOfText)
  | '\\' :: 'u' :: a :: b :: c :: d :: cs =>
    match hexUnit a b c d with
    | some n => withPiece (.unit n) (scan cs)
    | none => ([], .error .badHex)
  | '\\' :: 'u' :: short => ([], .error (if byteCount short < 4 then .endOfText else .badHex))
  | '\\' :: e :: cs =>
    match plainEscape e with
    | some c => withPiece (.char c) (scan cs)
    | none => ([], .error .badEscape)
  | c :: cs => if c.toNat < 0x20 then ([], .error .control) else withPiece (.char c) (scan cs)

/-- Code units that open a pair of surrogates. -/
def isLead (n : Nat) : Bool := 0xD800 ≤ n && n < 0xDC00

/-- Code units that close a pair of surrogates. -/
def isTrail (n : Nat) : Bool := 0xDC00 ≤ n && n < 0xE000

/-- The character that a pair of surrogates stands for. -/
def joinSurrogates (lead trail : Nat) : Char :=
  Char.ofNat (0x10000 + (lead - 0xD800) * 0x400 + (trail - 0xDC00))

/-- The characters that the pieces stand for; `stop` tells how the string stops, if it is not
closed. -/
def decode (stop : Option Stop) : List Piece → Except Defect (List Char)
  | [] =>
    match stop with
    | none => .ok []
    | some s => .error s.defect
  | .char c :: rest => do return c :: (← decode stop rest)
  | .unit n :: rest =>
    if isTrail n then .error .loneSurrogate
    else if isLead n then
      match rest with
      | .unit m :: rest =>
        if isTrail m then do return joinSurrogates n m :: (← decode stop rest)
        else .error .loneSurrogate
      | .char _ :: _ => .error .unfinishedSurrogate
      | [] =>
        match stop with
        | none => .error .unfinishedSurrogate
        | some s => .error s.afterLead
    else do return Char.ofNat n :: (← decode stop rest)

/-- A string whose opening quote is already taken: its text and what follows it. The text may
be defective although the string is closed. -/
def read (cs : List Char) : Except Break (Except Defect String × List Char) :=
  match scan cs with
  | (pieces, .ok rest) => .ok ((decode none pieces).map String.ofList, rest)
  | (pieces, .error stop) =>
    let d := match decode (some stop) pieces with
      | .ok _ => stop.defect
      | .error d => d
    .error { read := d, skipped := stop.defect, choice := d }

end Introspection.Json.Quoted
