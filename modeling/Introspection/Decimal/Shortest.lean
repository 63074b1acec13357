import Introspection.Decimal.Binary64

/-!
# `Introspection.Decimal.Shortest`: the fewest digits that read back

Every binary64 number is the nearest one to an interval of reals around it. Among the decimals
in that interval `shortest` takes one with the fewest digits and, of those, the nearest to the
number itself. Each length from 1 to 17 digits is tried in turn: on the grid of decimals with
that many digits only the two neighbours of the number can qualify.
-/

set_option autoImplicit false

namespace Introspection.Decimal

/-- Which of two equally near decimals is taken. -/
inductive Tie
  /-- The larger one. -/
  | up
  /-- The one with an even last digit. -/
  | even
  deriving DecidableEq

/-- A positive number with the interval of reals that round to it, all multiplied by the common
factor `scale`. -/
structure Interval where
  low : Nat
  value : Nat
  high : Nat
  scale : Nat
  /-- Whether the ends round to the number too. -/
  closed : Bool

/-- The interval of reals that round to the absolute value of `x`. Below a power of two the
numbers lie half as far apart as above it. -/
def Interval.around (x : Binary64) : Interval :=
  let below := if x.mantissa = Nat.pow 2 52 && x.exponent > -1074 then 1 else 2
  let e := x.exponent - 2
  let up := if 0 ≤ e then Nat.pow 2 e.toNat else 1
  { low := (4 * x.mantissa - below) * up
    value := 4 * x.mantissa * up
    high := (4 * x.mantissa + 2) * up
    scale := if 0 ≤ e then 1 else Nat.pow 2 (-e).toNat
    closed := x.mantissa % 2 == 0 }

/-- The exponent `e` with `10 ^ e ≤ num / den < 10 ^ (e + 1)`, for a positive fraction. -/
def decimalExponent (num den : Nat) : Int :=
  if den ≤ num then ((Nat.toDigits 10 (num / den)).length : Int) - 1
  else -((Nat.toDigits 10 ((den + num - 1) / num - 1)).length : Int)

/-- The multiple of `10 ^ k` in the interval that is nearest to its value, as the factor. -/
def Interval.onGrid (i : Interval) (tie : Tie) (k : Int) : Option Nat :=
  let unit := (if 0 ≤ k then Nat.pow 10 k.toNat else 1) * i.scale
  let factor := if 0 ≤ k then 1 else Nat.pow 10 (-k).toNat
  let inside := fun (a : Nat) =>
    if i.closed then i.low * factor ≤ a * unit && a * unit ≤ i.high * factor
    else i.low * factor < a * unit && a * unit < i.high * factor
  let value := i.value * factor
  let a := value / unit
  let twice := 2 * (value % unit)
  let upper := unit < twice || (twice == unit && (tie == .up || a % 2 == 1))
  match inside a, inside (a + 1) with
  | true, true => some (if upper then a + 1 else a)
  | true, false => some a
  | false, true => some (a + 1)
  | false, false => none

/-- Digits of a decimal, the first of them not zero, and the exponent of ten that belongs to
the first. -/
structure Digits where
  digits : List Char
  exponent : Int

/-- The digits of `a * 10 ^ k` without zeros at the end. -/
def Digits.ofScaled (a : Nat) (k : Int) : Digits :=
  let all := Nat.toDigits 10 a
  { digits := (all.reverse.dropWhile (· == '0')).reverse
    exponent := k + (all.length : Int) - 1 }

/-- The shortest decimal that reads back to the absolute value of `x`, which is not zero. -/
def shortest (tie : Tie) (x : Binary64) : Digits :=
  let i := Interval.around x
  let e := decimalExponent i.value i.scale
  ((List.range 17).findSome? fun (n : Nat) =>
    (i.onGrid tie (e - n)).map fun a => Digits.ofScaled a (e - n)).getD ⟨[], 0⟩

/-- How a format lays out the digits of a number. -/
structure Layout where
  tie : Tie
  /-- Smallest exponent of ten written without an exponent mark; all of them when absent. -/
  least : Option Int
  /-- Largest exponent of ten written without an exponent mark; all of them when absent. -/
  most : Option Int
  /-- Whether a whole number keeps a point and one zero. -/
  point : Bool

/-- The digits with a point at the place that the exponent tells. -/
def Digits.positional (d : Digits) (point : Bool) : List Char :=
  if d.exponent < 0 then
    '0' :: '.' :: List.replicate ((-d.exponent).toNat - 1) '0' ++ d.digits
  else
    let whole := d.exponent.toNat + 1
    let front := d.digits.take whole ++ List.replicate (whole - d.digits.length) '0'
    match d.digits.drop whole with
    | [] => if point then front ++ ['.', '0'] else front
    | back => front ++ '.' :: back

/-- The digits with a point after the first and an exponent with its sign. -/
def Digits.scientific (d : Digits) : List Char :=
  let mantissa := match d.digits with
    | c :: c' :: rest => c :: '.' :: c' :: rest
    | short => short
  mantissa ++ 'e' :: (if d.exponent < 0 then '-' else '+') :: Nat.toDigits 10 d.exponent.natAbs

/-- The digits as the layout asks. -/
def Layout.place (l : Layout) (d : Digits) : List Char :=
  if l.least.all (· ≤ d.exponent) && l.most.all (d.exponent ≤ ·) then d.positional l.point
  else d.scientific

/-- A number as text. -/
def Layout.write (l : Layout) (x : Binary64) : String :=
  let digits :=
    if x.isZero then Digits.positional ⟨['0'], 0⟩ l.point else l.place (shortest l.tie x)
  String.ofList (if x.negative then '-' :: digits else digits)

end Introspection.Decimal
