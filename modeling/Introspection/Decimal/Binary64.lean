/-!
# `Introspection.Decimal.Binary64`: finite binary64 numbers

A number is a sign and `mantissa * 2 ^ exponent`. All arithmetic is exact arithmetic on natural
numbers followed by one rounding (`nearest`): to the nearest representable number, a half going
to the even mantissa.

`ofDecimal` reads a significand and a power of ten. Significand and power are each rounded, then
multiplied or divided with one more rounding, at most 308 decimal places at a time; so the
result can differ from the nearest number in the last place.
-/

set_option autoImplicit false

namespace Introspection.Decimal

/-- A finite binary64 number. The mantissa is below `2 ^ 53`, and below `2 ^ 52` only when the
exponent is the smallest one, `-1074`. Zero has a sign. -/
structure Binary64 where
  negative : Bool
  mantissa : Nat
  exponent : Int
  deriving DecidableEq

namespace Binary64

/-- Zero with the given sign. -/
def zero (negative : Bool) : Binary64 := ⟨negative, 0, -1074⟩

/-- Whether the number is zero, of either sign. -/
def isZero (x : Binary64) : Bool := x.mantissa == 0

end Binary64

/-- The quotient rounded to the nearest natural number, a half going to the even one. -/
def roundDiv (num den : Nat) : Nat :=
  let q := num / den
  let twice := 2 * (num % den)
  if twice > den || (twice == den && q % 2 == 1) then q + 1 else q

/-- The fraction `num / (den * 2 ^ e)`, as numerator and denominator. -/
def scaleDown (num den : Nat) (e : Int) : Nat × Nat :=
  if 0 ≤ e then (num, den * Nat.pow 2 e.toNat) else (num * Nat.pow 2 (-e).toNat, den)

/-- The exponent at which `num / den` has a mantissa of 53 bits, or the smallest exponent when
that one is larger. -/
def exponentOf (num den : Nat) : Int :=
  let e : Int := (num.log2 : Int) - (den.log2 : Int) - 53
  let scaled := scaleDown num den e
  max (if Nat.pow 2 53 ≤ scaled.1 / scaled.2 then e + 1 else e) (-1074)

/-- The number nearest to `num / den`, or nothing when it is too large. -/
def nearest (negative : Bool) (num den : Nat) : Option Binary64 :=
  if num = 0 then some (.zero negative)
  else
    let e := exponentOf num den
    let scaled := scaleDown num den e
    let m := roundDiv scaled.1 scaled.2
    -- Rounding up can carry into a 54th bit.
    let rounded : Nat × Int := if m = Nat.pow 2 53 then (Nat.pow 2 52, e + 1) else (m, e)
    if rounded.2 > 971 then none else some ⟨negative, rounded.1, rounded.2⟩

namespace Binary64

/-- The absolute value as a fraction. -/
def fraction (x : Binary64) : Nat × Nat := scaleDown x.mantissa 1 (-x.exponent)

/-- The rounded product of two absolute values. -/
def times (x y : Binary64) : Option Binary64 :=
  nearest false (x.fraction.1 * y.fraction.1) (x.fraction.2 * y.fraction.2)

/-- The rounded quotient of two absolute values, the second of them not zero. -/
def dividedBy (x y : Binary64) : Option Binary64 :=
  nearest false (x.fraction.1 * y.fraction.2) (x.fraction.2 * y.fraction.1)

/-- The number nearest to `10 ^ k`. -/
def tenPow (k : Nat) : Option Binary64 := nearest false (Nat.pow 10 k) 1

/-- The absolute value times `10 ^ k`, by way of rounded powers up to `10 ^ 308`. -/
def timesTenPow (x : Binary64) (k : Int) : Option Binary64 :=
  if 0 ≤ k then
    if k ≤ 308 then (tenPow k.toNat).bind x.times
    else if x.isZero then some x
    else none
  else if -308 ≤ k then (tenPow (-k).toNat).bind x.dividedBy
  else if x.isZero then some x
  else (tenPow 308).bind fun p => (x.dividedBy p).bind fun y => y.timesTenPow (k + 308)
termination_by (-k).toNat
decreasing_by omega

/-- The number that `significand * 10 ^ k` stands for, or nothing when it is too large. -/
def ofDecimal (negative : Bool) (significand : Nat) (k : Int) : Option Binary64 :=
  (nearest false significand 1).bind fun x =>
    (x.timesTenPow k).map fun y => { y with negative := negative }

end Binary64

end Introspection.Decimal
