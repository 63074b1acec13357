/-!
# `Introspection.Text.Search`: looking into generated text

Substrings, lines and trailing blanks of a finished text.
-/

set_option autoImplicit false

namespace Introspection.Text

/-- Whether `part` stands somewhere in the text. -/
def occursIn (part : List Char) : List Char → Bool
  | [] => part.isEmpty
  | c :: cs => part.isPrefixOf (c :: cs) || occursIn part cs

/-- Whether `part` stands somewhere in `s`. -/
def contains (s part : String) : Bool := occursIn part.toList s.toList

/-- Whether an occurrence of `part` is preceded by a character that `allowed` accepts (`none`
at the start). Occurrences are taken from the left and do not overlap: `skip` characters
still belong to the last one. `prev` is the character in front. -/
def occursAfter (part : List Char) (allowed : Option Char → Bool) (prev : Option Char)
    (skip : Nat) : List Char → Bool
  | [] => false
  | c :: cs =>
    if skip > 0 then occursAfter part allowed (some c) (skip - 1) cs
    else if part.isPrefixOf (c :: cs) then
      allowed prev || occursAfter part allowed (some c) (part.length - 1) cs
    else occursAfter part allowed (some c) 0 cs

/-- The lines of a text, each ended by a newline (with or without a carriage return in front)
or by the end of the text. `line` holds the reversed characters of the line begun. -/
def splitLines (line : List Char) : List Char → List (List Char)
  | [] => if line.isEmpty then [] else [line.reverse]
  | '\n' :: cs =>
    (match line with
      | '\r' :: rest => rest.reverse
      | _ => line.reverse) :: splitLines [] cs
  | c :: cs => splitLines (c :: line) cs

/-- The lines of `s`, without what ends them. -/
def lines (s : String) : List String := (splitLines [] s.toList).map String.ofList

/-- Drops the longest tail of characters that satisfy `p`. -/
def dropEndWhile (p : Char → Bool) (s : String) : String :=
  String.ofList (s.toList.reverse.dropWhile p).reverse

/-- Drops the leading characters that satisfy `p`. -/
def dropStartWhile (p : Char → Bool) (s : String) : String :=
  String.ofList (s.toList.dropWhile p)

/-- Puts `separator` between the parts. -/
def joined (separator : String) : List String → String
  | [] => ""
  | [s] => s
  | s :: t :: rest => s ++ separator ++ joined separator (t :: rest)

/-- Adds a text to a strictly increasing list of texts, unless it is there. -/
def insertSorted (s : String) : List String → List String
  | [] => [s]
  | t :: rest =>
    if s < t then s :: t :: rest
    else if s = t then t :: rest
    else t :: insertSorted s rest

/-- The texts in increasing order of code points, each once. -/
def sortedDistinct (texts : List String) : List String :=
  texts.foldr insertSorted []

end Introspection.Text
