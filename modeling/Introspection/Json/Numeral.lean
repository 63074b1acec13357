import Introspection.Json.Node

/-!
# `Introspection.Json.Numeral`: numbers in a text

`Numeral.scan` takes a number off the front of a text, `Numeral.value` says what it stands for.

Whole numbers that fit 64 bits are exact. All others become binary64 numbers: at most the
digits that fit an unsigned 64-bit word are used, further digits before the point count as
zeros and further digits behind it are dropped. A negative zero is a binary64 number too.
-/

set_option autoImplicit false

namespace Introspection.Json

open Introspection.Decimal

/-- The parts of a number, as they are written. -/
structure Numeral where
  negative : Bool
  /-- Digits before the point, at least one. -/
  whole : List Char
  /-- Digits behind the point, none when there is no point. -/
  fraction : List Char
  /-- Sign and digits of the exponent. -/
  exponent : Option (Bool × List Char)

/-- A number that breaks off: when the text ends there a reader tells so. -/
def numberBreak (rest : List Char) : Break :=
  { read := if rest.isEmpty then .endInValue else .badNumber
    skipped := .badNumber
    choice := .valueExpected }

namespace Numeral

/-- The digits in front of a number's rest. -/
def digits (cs : List Char) : List Char := cs.takeWhile Char.isDigit

/-- What follows the digits. -/
def afterDigits (cs : List Char) : List Char := cs.dropWhile Char.isDigit

/-- Digits before the point: a single zero, or digits that do not start with one. -/
def scanWhole (cs : List Char) : Except Break (List Char × List Char) :=
  match digits cs with
  | [] => .error (numberBreak cs)
  | ['0'] => .ok (['0'], afterDigits cs)
  | '0' :: _ => .error (numberBreak cs)
  | ds => .ok (ds, afterDigits cs)

/-- A point and the digits behind it, if there is a point. -/
def scanFraction : List Char → Except Break (List Char × List Char)
  | '.' :: cs =>
    match digits cs with
    | [] => .error (numberBreak cs)
    | ds => .ok (ds, afterDigits cs)
  | cs => .ok ([], cs)

/-- The digits of an exponent. -/
def scanExponentDigits (negative : Bool) (cs : List Char) :
    Except Break (Option (Bool × List Char) × List Char) :=
  match digits cs with
  | [] => .error (numberBreak cs)
  | ds => .ok (some (negative, ds), afterDigits cs)

/-- An exponent, if there is one. -/
def scanExponent : List Char → Except Break (Option (Bool × List Char) × List Char)
  | [] => .ok (none, [])
  | c :: cs =>
    if c == 'e' || c == 'E' then
      match cs with
      | '-' :: cs => scanExponentDigits true cs
      | '+' :: cs => scanExponentDigits false cs
      | cs => scanExponentDigits false cs
    else .ok (none, c :: cs)

/-- The number without its sign. -/
def scanUnsigned (negative : Bool) (cs : List Char) : Except Break (Numeral × List Char) := do
  let (whole, cs) ← scanWhole cs
  let (fraction, cs) ← scanFraction cs
  let (exponent, cs) ← scanExponent cs
  return (⟨negative, whole, fraction, exponent⟩, cs)

/-- Takes a number off the front of a text. -/
def scan : List Char → Except Break (Numeral × List Char)
  | '-' :: cs => scanUnsigned true cs
  | cs => scanUnsigned false cs

/-- The digit a character stands for. -/
def digitValue (c : Char) : Nat := c.toNat - '0'.toNat

/-- Appends digits to a significand as long as it fits 64 bits; the second part counts the
digits that were taken. -/
def fill (significand : Nat) : List Char → Nat × Nat
  | [] => (significand, 0)
  | c :: cs =>
    let next := significand * 10 + digitValue c
    if next < UInt64.size then
      let more := fill next cs
      (more.1, more.2 + 1)
    else (significand, 0)

/-- The number that the digits of an exponent spell. -/
def exponentValue : Option (Bool × List Char) → Int
  | none => 0
  | some (negative, ds) =>
    let n : Nat := ds.foldl (fun n c => n * 10 + digitValue c) 0
    if negative then -(n : Int) else n

/-- What a numeral stands for. -/
def value (n : Numeral) : Except Defect Number :=
  let whole := fill 0 n.whole
  let surplus := n.whole.length - whole.2
  if n.fraction.isEmpty && n.exponent.isNone && surplus == 0
      && !(n.negative && (whole.1 == 0 || UInt64.size / 2 < whole.1)) then
    .ok (.integer (if n.negative then -(whole.1 : Int) else whole.1))
  else
    let all := fill whole.1 n.fraction
    let places : Int := (surplus : Int) - (all.2 : Int) + exponentValue n.exponent
    match Binary64.ofDecimal n.negative all.1 places with
    | some x => .ok (.real x)
    | none => .error .numberTooLarge

end Numeral

end Introspection.Json
