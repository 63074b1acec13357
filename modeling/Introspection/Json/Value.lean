import Introspection.Decimal.Shortest
import Introspection.Text.Digits

/-!
# `Introspection.Json.Value`: JSON values and their written forms

A value keeps the order of its members. It has two written forms: `compact`, on one line
without blanks, and `pretty`, one member or item a line with two blanks for each level.
Both escape quotes, backslashes and the characters below U+0020 inside strings and nothing
else.
-/

set_option autoImplicit false

namespace Introspection.Json

open Introspection.Decimal
open Introspection.Text (intDigits hexPadded)

/-- A JSON value. Whole numbers and binary64 numbers are kept apart. -/
inductive Value
  | null
  | bool (b : Bool)
  | integer (n : Int)
  | real (x : Binary64)
  | string (s : String)
  | array (items : List Value)
  | object (members : List (String × Value))

/-- Written numbers keep a point, and get an exponent mark below `1e-5` and from `1e16` on. -/
def realLayout : Layout := { tie := .even, least := some (-5), most := some 15, point := true }

/-- One character inside a JSON string. -/
def escapeChar (c : Char) : List Char :=
  if c == '"' then ['\\', '"']
  else if c == '\\' then ['\\', '\\']
  else if c == '\x08' then ['\\', 'b']
  else if c == '\x0c' then ['\\', 'f']
  else if c == '\n' then ['\\', 'n']
  else if c == '\r' then ['\\', 'r']
  else if c == '\t' then ['\\', 't']
  else if c.toNat < 0x20 then '\\' :: 'u' :: hexPadded 4 c.toNat
  else [c]

/-- A JSON string with its quotes. -/
def quotedChars (s : String) : List Char := '"' :: s.toList.flatMap escapeChar ++ ['"']

namespace Value

/-- The written form of a value that is neither an array nor an object. -/
def scalarChars : Value → List Char
  | .null => ['n', 'u', 'l', 'l']
  | .bool true => ['t', 'r', 'u', 'e']
  | .bool false => ['f', 'a', 'l', 's', 'e']
  | .integer n => intDigits n
  | .real x => (realLayout.write x).toList
  | .string s => quotedChars s
  | .array _ => []
  | .object _ => []

mutual

/-- The characters of the form on one line. -/
def compactChars : Value → List Char
  | .array items => '[' :: compactItems items ++ [']']
  | .object members => '{' :: compactMembers members ++ ['}']
  | v => v.scalarChars

/-- Items with commas between them. -/
def compactItems : List Value → List Char
  | [] => []
  | [v] => v.compactChars
  | v :: w :: rest => v.compactChars ++ ',' :: compactItems (w :: rest)

/-- Members with commas between them. -/
def compactMembers : List (String × Value) → List Char
  | [] => []
  | [(k, v)] => quotedChars k ++ ':' :: v.compactChars
  | (k, v) :: m :: rest =>
    quotedChars k ++ ':' :: v.compactChars ++ ',' :: compactMembers (m :: rest)

end

/-- A new line at the given level. -/
def lineBreak (level : Nat) : List Char := '\n' :: List.replicate (2 * level) ' '

mutual

/-- The characters of the form on many lines, `level` levels deep. -/
def prettyChars (level : Nat) : Value → List Char
  | .array [] => ['[', ']']
  | .array (v :: rest) => '[' :: prettyItems (level + 1) (v :: rest) ++ lineBreak level ++ [']']
  | .object [] => ['{', '}']
  | .object (m :: rest) =>
    '{' :: prettyMembers (level + 1) (m :: rest) ++ lineBreak level ++ ['}']
  | v => v.scalarChars

/-- Items, each on a line of its own. -/
def prettyItems (level : Nat) : List Value → List Char
  | [] => []
  | [v] => lineBreak level ++ v.prettyChars level
  | v :: w :: rest => lineBreak level ++ v.prettyChars level ++ ',' :: prettyItems level (w :: rest)

/-- Members, each on a line of its own. -/
def prettyMembers (level : Nat) : List (String × Value) → List Char
  | [] => []
  | [(k, v)] => lineBreak level ++ quotedChars k ++ ':' :: ' ' :: v.prettyChars level
  | (k, v) :: m :: rest =>
    lineBreak level ++ quotedChars k ++ ':' :: ' ' :: v.prettyChars level
      ++ ',' :: prettyMembers level (m :: rest)

end

/-- The value on one line. -/
def compact (v : Value) : String := String.ofList v.compactChars

/-- The value on as many lines as it has members and items. -/
def pretty (v : Value) : String := String.ofList (v.prettyChars 0)

/-- The first member of that name, if the value is an object with one. -/
def member? (v : Value) (name : String) : Option Value :=
  match v with
  | .object members => members.lookup name
  | _ => none

end Value

end Introspection.Json
