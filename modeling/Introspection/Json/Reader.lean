import Introspection.Json.Numeral
import Introspection.Json.Quoted

/-!
# `Introspection.Json.Reader`: from text to tree

`Document.ofText` reads a whole text. Each reading function takes what it can off the front of
the characters and returns the characters that follow, or nothing when it met a defect and
reading stops.

The `fuel` of the mutually recursive readers only bounds their recursion. Of two calls in a row
at least one takes a character, so twice the number of characters is enough.
-/

set_option autoImplicit false

namespace Introspection.Json

/-- Blanks that JSON allows between its parts. -/
def isJsonBlank (c : Char) : Bool := c == ' ' || c == '\n' || c == '\t' || c == '\r'

/-- Drops the blanks in front. -/
def skipBlank (cs : List Char) : List Char := cs.dropWhile isJsonBlank

/-- Something read, with the characters that follow unless reading stopped. -/
abbrev Reading (α : Type) := α × Option (List Char)

/-- Reading stops at a defect. -/
def Reading.stop (d : Break) : Reading Node := (.broken d, none)

/-- The rest of a literal, letter by letter. -/
def readLiteral (node : Node) : List Char → List Char → Reading Node
  | [], cs => (node, some cs)
  | _ :: _, [] => .stop ⟨.endInValue, .endInValue, .valueExpected⟩
  | e :: es, c :: cs =>
    if e == c then readLiteral node es cs
    else .stop ⟨.literalExpected, .literalExpected, .valueExpected⟩

/-- A string whose opening quote is taken. -/
def readString (cs : List Char) : Reading Node :=
  match Quoted.read cs with
  | .ok (text, rest) => (.string text, some rest)
  | .error d => .stop d

/-- A number. -/
def readNumber (cs : List Char) : Reading Node :=
  match Numeral.scan cs with
  | .ok (n, rest) => (.number n.value, some rest)
  | .error d => .stop d

mutual

/-- A value. -/
def readNode : Nat → List Char → Reading Node
  | 0, _ => .stop (.always .endInValue)
  | fuel + 1, cs =>
    match skipBlank cs with
    | [] => .stop (.always .endInValue)
    | c :: cs =>
      match c with
      | 'n' => readLiteral .null ['u', 'l', 'l'] cs
      | 't' => readLiteral (.bool true) ['r', 'u', 'e'] cs
      | 'f' => readLiteral (.bool false) ['a', 'l', 's', 'e'] cs
      | '"' => readString cs
      | '[' =>
        match skipBlank cs with
        | [] => (.array (.broken .unclosed), none)
        | ']' :: cs => (.array .closed, some cs)
        | c :: cs => (readItems fuel (c :: cs)).map .array id
      | '{' =>
        match skipBlank cs with
        | [] => (.object (.broken .unclosed), none)
        | '}' :: cs => (.object .closed, some cs)
        | c :: cs => (readMembers fuel (c :: cs)).map .object id
      | c =>
        if c == '-' || c.isDigit then readNumber (c :: cs)
        else .stop (.always .valueExpected)

/-- An item and what follows it up to the end of its array. -/
def readItems : Nat → List Char → Reading Items
  | 0, _ => (.broken .unclosed, none)
  | fuel + 1, cs =>
    match readNode fuel cs with
    | (item, none) => (.cons item (.broken .unclosed), none)
    | (item, some cs) =>
      match skipBlank cs with
      | [] => (.cons item (.broken .unclosed), none)
      | ']' :: cs => (.cons item .closed, some cs)
      | ',' :: cs =>
        match skipBlank cs with
        | [] => (.cons item (.broken .endAfterComma), none)
        | ']' :: _ => (.cons item (.broken .bracketAfterComma), none)
        | c :: cs => (readItems fuel (c :: cs)).map (.cons item) id
      | _ :: _ => (.cons item (.broken .commaMissing), none)

/-- A member and what follows it up to the end of its object. -/
def readMembers : Nat → List Char → Reading Members
  | 0, _ => (.broken .unclosed, none)
  | fuel + 1, '"' :: cs =>
    match Quoted.read cs with
    | .error d => (.broken (.inKey d), none)
    | .ok (key, cs) =>
      match readMemberValue fuel cs with
      | (value, none) => (.cons key value (.broken .unclosed), none)
      | (value, some cs) =>
        match skipBlank cs with
        | [] => (.cons key value (.broken .unclosed), none)
        | '}' :: cs => (.cons key value .closed, some cs)
        | ',' :: cs =>
          match skipBlank cs with
          | [] => (.cons key value (.broken .endAfterComma), none)
          | '}' :: _ => (.cons key value (.broken .braceAfterComma), none)
          | c :: cs => (readMembers fuel (c :: cs)).map (.cons key value) id
        | _ :: _ => (.cons key value (.broken .commaMissing), none)
  | _ + 1, _ => (.keyless, none)

/-- The colon behind a key, and the value. -/
def readMemberValue : Nat → List Char → Reading Node
  | 0, _ => .stop (.always .endInValue)
  | fuel + 1, cs =>
    match skipBlank cs with
    | [] => .stop (.always .endInObject)
    | ':' :: cs => readNode fuel cs
    | _ :: _ => .stop (.always .colonExpected)

end

/-- What a whole text says. -/
structure Document where
  root : Node
  /-- Whether something other than blanks follows the root. -/
  trailing : Bool

/-- Reads a text. -/
def Document.ofText (s : String) : Document :=
  let cs := s.toList
  match readNode (2 * cs.length + 2) cs with
  | (root, rest) => ⟨root, !(skipBlank (rest.getD [])).isEmpty⟩

end Introspection.Json
