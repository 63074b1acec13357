/-!
# `Introspection.Text.Digits`: numbers as text

Decimal and hexadecimal digits, without separators and without leading zeros unless asked for.
-/

set_option autoImplicit false

namespace Introspection.Text

/-- A natural number in decimal digits. -/
def natText (n : Nat) : String := String.ofList (Nat.toDigits 10 n)

/-- Decimal digits of an integer, with a minus sign when it is negative. -/
def intDigits (n : Int) : List Char :=
  if n < 0 then '-' :: Nat.toDigits 10 n.natAbs else Nat.toDigits 10 n.natAbs

/-- An integer in decimal digits. -/
def intText (n : Int) : String := String.ofList (intDigits n)

/-- Digits of `n` in base 16, small letters. -/
def hexDigits (n : Nat) : List Char := Nat.toDigits 16 n

/-- Digits of `n` in base 16, with zeros in front up to `width` digits. -/
def hexPadded (width n : Nat) : List Char :=
  List.replicate (width - (hexDigits n).length) '0' ++ hexDigits n

end Introspection.Text
