import Introspection.Decimal.Binary64

/-!
# `Introspection.Json.Node`: what a text says up to its first defect

Reading a JSON text never fails: it gives a tree (`Node`) of what was found. Where the text
stops being JSON the tree carries the defect, and nothing behind it is read. Whoever then takes
the tree apart meets wrong types and defects in the order in which they stand in the text.

Some defects are told differently when the value is read for its content, when it is skipped
because nobody asked for it, and when one of several names is expected. Some are no defect at
all for a value that is skipped: a string with a lone surrogate, a number that is too large.
-/

set_option autoImplicit false

namespace Introspection.Json

open Introspection.Decimal

/-- Ways in which a text is not JSON. -/
inductive Defect
  | endInValue
  | endInArray
  | endInObject
  | endInString
  | colonExpected
  | arrayCommaExpected
  | objectCommaExpected
  | literalExpected
  | valueExpected
  | keyExpected
  | trailingComma
  | trailingText
  | badEscape
  | badNumber
  | numberTooLarge
  | controlInString
  | loneSurrogate
  | unfinishedSurrogate
  | tooDeep
  deriving DecidableEq

/-- What a defect is called in a message. -/
def Defect.message : Defect → String
  | .endInValue => "EOF while parsing a value"
  | .endInArray => "EOF while parsing a list"
  | .endInObject => "EOF while parsing an object"
  | .endInString => "EOF while parsing a string"
  | .colonExpected => "expected `:`"
  | .arrayCommaExpected => "expected `,` or `]`"
  | .objectCommaExpected => "expected `,` or `\x7d`"
  | .literalExpected => "expected ident"
  | .valueExpected => "expected value"
  | .keyExpected => "key must be a string"
  | .trailingComma => "trailing comma"
  | .trailingText => "trailing characters"
  | .badEscape => "invalid escape"
  | .badNumber => "invalid number"
  | .numberTooLarge => "number out of range"
  | .controlInString => "control character (\\u0000-\\u001F) found while parsing a string"
  | .loneSurrogate => "lone leading surrogate in hex escape"
  | .unfinishedSurrogate => "unexpected end of hex escape"
  | .tooDeep => "recursion limit exceeded"

/-- A number as it was read. -/
inductive Number
  /-- A whole number from `-2 ^ 63` up to `2 ^ 64 - 1`. -/
  | integer (n : Int)
  | real (x : Binary64)
  deriving DecidableEq

/-- A defect in the place of a value, as the three kinds of readers tell it. -/
structure Break where
  /-- For a reader that wants the value. -/
  read : Defect
  /-- For a reader that passes over the value. -/
  skipped : Defect
  /-- For a reader that expects one of several names. -/
  choice : Defect

/-- A defect that all readers tell alike. -/
def Break.always (d : Defect) : Break := ⟨d, d, d⟩

/-- How an array stops without its closing bracket. -/
inductive ArrayBreak
  | unclosed
  | commaMissing
  | bracketAfterComma
  | endAfterComma

/-- For a reader that looks for one more item. -/
def ArrayBreak.read : ArrayBreak → Defect
  | .unclosed => .endInArray
  | .commaMissing => .arrayCommaExpected
  | .bracketAfterComma => .trailingComma
  | .endAfterComma => .endInValue

/-- For a reader that passes over the array. -/
def ArrayBreak.skipped : ArrayBreak → Defect
  | .unclosed => .endInArray
  | .commaMissing => .arrayCommaExpected
  | .bracketAfterComma => .valueExpected
  | .endAfterComma => .endInValue

/-- For a reader that has all the items it wants. -/
def ArrayBreak.atEnd : ArrayBreak → Defect
  | .unclosed => .endInArray
  | .commaMissing => .trailingText
  | .bracketAfterComma => .trailingComma
  | .endAfterComma => .trailingText

/-- How an object stops without its closing brace. -/
inductive ObjectBreak
  | unclosed
  | commaMissing
  | braceAfterComma
  | endAfterComma
  /-- The quoted key of the next member is defective. -/
  | inKey (d : Break)

/-- For a reader that looks for one more member. -/
def ObjectBreak.read : ObjectBreak → Defect
  | .unclosed => .endInObject
  | .commaMissing => .objectCommaExpected
  | .braceAfterComma => .trailingComma
  | .endAfterComma => .endInValue
  | .inKey d => d.read

/-- For a reader that passes over the object. -/
def ObjectBreak.skipped : ObjectBreak → Defect
  | .unclosed => .endInObject
  | .commaMissing => .objectCommaExpected
  | .braceAfterComma => .keyExpected
  | .endAfterComma => .endInObject
  | .inKey d => d.skipped

mutual

/-- A value as far as it could be read. -/
inductive Node
  | null
  | bool (b : Bool)
  | number (n : Except Defect Number)
  | string (s : Except Defect String)
  | array (items : Items)
  | object (members : Members)
  | broken (d : Break)

/-- The items of an array and how it ends. -/
inductive Items
  | closed
  | broken (d : ArrayBreak)
  | cons (item : Node) (rest : Items)

/-- The members of an object and how it ends. -/
inductive Members
  | closed
  | broken (d : ObjectBreak)
  /-- A member that starts with something other than a quoted key. -/
  | keyless
  | cons (key : Except Defect String) (value : Node) (rest : Members)

end

mutual

/-- Passes over a value that nobody asked for. -/
def Node.skip : Node → Except Defect Unit
  | .array items => items.skip
  | .object members => members.skip
  | .broken d => .error d.skipped
  | _ => .ok ()

/-- Passes over the items of an array. -/
def Items.skip : Items → Except Defect Unit
  | .closed => .ok ()
  | .broken d => .error d.skipped
  | .cons item rest => do
    item.skip
    rest.skip

/-- Passes over the members of an object. -/
def Members.skip : Members → Except Defect Unit
  | .closed => .ok ()
  | .broken d => .error d.skipped
  | .keyless => .error .keyExpected
  | .cons _ value rest => do
    value.skip
    rest.skip

end

end Introspection.Json
