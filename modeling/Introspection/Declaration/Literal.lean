import Introspection.Decimal.Shortest
import Introspection.Entity.Registered
import Introspection.Generation.Error
import Introspection.Text.Digits
import Introspection.Text.Quoting

/-!
# `Introspection.Declaration.Literal`: literals of constants

The value of a constant as Go spells it. A constant has a literal only if its value is of the
kind that its type asks for: a truth value, a number for a numeric type, or a text.
-/

set_option autoImplicit false

namespace Introspection

open Introspection.Decimal

/-- Numbers are written in full, without an exponent and without a point in whole numbers. -/
def plainLayout : Layout := { tie := .up, least := none, most := none, point := false }

namespace ConstantValue

/-- The value as a Go literal. -/
def literal : ConstantValue → String
  | bool true => "true"
  | bool false => "false"
  | int n => Text.intText n.toInt
  | float x => plainLayout.write x
  | string s => Text.goLiteral s

/-- Whether a type of that class can hold the value. -/
def fits : ConstantValue → TagClass → Bool
  | bool _, .boolean => true
  | int _, .basic _ => true
  | float _, .basic _ => true
  | string _, .string => true
  | _, _ => false

end ConstantValue

/-- The value of a constant whose type can hold it. -/
def Constant.typedValue (c : Constant) : Generated ConstantValue :=
  if c.value.fits c.type.view then .ok c.value else unsupported .constant c.type

end Introspection
