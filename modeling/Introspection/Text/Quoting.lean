import Introspection.Text.Digits
import Introspection.Text.Printable

/-!
# `Introspection.Text.Quoting`: quoted texts

Two ways to put a text between double quotes:

* `goLiteral`, an interpreted string literal of Go. Quotes, backslashes and control characters
  are escaped; a control character is written by its code point in two hexadecimal digits.
* `listed`, the form of listings and error messages. Whatever does not show by itself is
  written by its code point.
-/

set_option autoImplicit false

namespace Introspection.Text

/-- One character inside a Go string literal. -/
def goEscape (c : Char) : List Char :=
  if c == '"' then ['\\', '"']
  else if c == '\\' then ['\\', '\\']
  else if c == '\n' then ['\\', 'n']
  else if c == '\r' then ['\\', 'r']
  else if c == '\t' then ['\\', 't']
  else if isControl c then '\\' :: 'x' :: hexPadded 2 c.toNat
  else [c]

/-- A text as a Go string literal. -/
def goLiteral (s : String) : String :=
  String.ofList ('"' :: s.toList.flatMap goEscape ++ ['"'])

/-- One character inside a listed text. -/
def listedEscape (c : Char) : List Char :=
  if c == '\x00' then ['\\', '0']
  else if c == '\t' then ['\\', 't']
  else if c == '\r' then ['\\', 'r']
  else if c == '\n' then ['\\', 'n']
  else if c == '"' then ['\\', '"']
  else if c == '\\' then ['\\', '\\']
  else if isPrintable c then [c]
  else '\\' :: 'u' :: '{' :: hexDigits c.toNat ++ ['}']

/-- A text between quotes for a listing. -/
def listed (s : String) : String :=
  String.ofList ('"' :: s.toList.flatMap listedEscape ++ ['"'])

end Introspection.Text
