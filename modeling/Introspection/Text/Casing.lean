/-!
# `Introspection.Text.Casing`: casing of ASCII names

Native names come in snake case, kebab case or Pascal case; host names are Pascal case and
native constants are upper snake case.

* `pascalCase` joins the words of a name, each with a capital first letter. A name that is
  already Pascal case (`isPascal`) is left alone.
* `snakeCase` lowers a Pascal case name and puts an underscore between its words; a run of
  capitals counts as one word.

Only ASCII letters have a case here: every other character is carried over as it is.
-/

set_option autoImplicit false

namespace Introspection.Text

/-- Characters that stand between the words of a name. -/
def isSeparator (c : Char) : Bool := c == '_' || c == '-' || c == '.'

/-- Starts with a capital, has a small letter somewhere and no separator. -/
def isPascal (cs : List Char) : Bool :=
  cs.head?.any Char.isUpper && cs.any Char.isLower && !cs.any isSeparator

/-- Drops the separators, raises the first character of each word and lowers the others;
`start` tells whether the next character begins a word. -/
def joinWords (start : Bool) : List Char → List Char
  | [] => []
  | c :: cs =>
    if isSeparator c then joinWords true cs
    else (if start then c.toUpper else c.toLower) :: joinWords false cs

/-- Pascal case of a list of characters. -/
def pascalChars (cs : List Char) : List Char :=
  if isPascal cs then cs else joinWords true cs

/-- Pascal case: `new_with_label` becomes `NewWithLabel`. -/
def pascalCase (s : String) : String := String.ofList (pascalChars s.toList)

/-- A capital begins a word after a small letter, and after a capital when a small letter
follows it. `prev` is the character in front, `next` the one behind. -/
def beginsWord (prev : Option Char) (c : Char) (next : Option Char) : Bool :=
  c.isUpper && (prev.any Char.isLower || (prev.any Char.isUpper && next.any Char.isLower))

/-- Snake case of the characters that follow `prev`. -/
def snakeChars (prev : Option Char) : List Char → List Char
  | [] => []
  | c :: cs =>
    if beginsWord prev c cs.head? then '_' :: c.toLower :: snakeChars (some c) cs
    else c.toLower :: snakeChars (some c) cs

/-- Snake case: `WindowType` becomes `window_type`, `IOCondition` becomes `io_condition`. -/
def snakeCase (s : String) : String := String.ofList (snakeChars none s.toList)

/-- Every ASCII letter raised. -/
def upperCase (s : String) : String := String.ofList (s.toList.map Char.toUpper)

/-- Every ASCII letter lowered. -/
def lowerCase (s : String) : String := String.ofList (s.toList.map Char.toLower)

/-- The first character lowered: `Clickable` becomes `clickable`. -/
def lowerFirst (s : String) : String :=
  match s.toList with
  | [] => ""
  | c :: cs => String.ofList (c.toLower :: cs)

/-- The characters up to the second word of a Pascal case name: `WindowType` gives `Window`. -/
def firstWord (s : String) : String :=
  match s.toList with
  | [] => ""
  | c :: cs => String.ofList (c :: cs.takeWhile fun d => !d.isUpper)

/-- Every `-` written as `_`. -/
def underscored (s : String) : String :=
  String.ofList (s.toList.map fun c => if c == '-' then '_' else c)

end Introspection.Text
