import Introspection.Declaration.Emission
import Introspection.Source.Header
import Introspection.Text.CharSet

/-!
# `Introspection.Source.Basic`: the generated file

A source file is a header above the fragments of a namespace. Blank lines separate the fragments,
but for constants, which stand together. The text ends in exactly one newline.
-/

set_option autoImplicit false

namespace Introspection

/-- What stands between two fragments. -/
def Fragment.separator (f g : Fragment) : String :=
  if f.declaration.isConstant && g.declaration.isConstant then "" else "\n"

/-- The text of fragments in a row. -/
def Fragment.bodyText : List Fragment → String
  | [] => ""
  | [f] => f.text
  | f :: g :: rest => f.text ++ f.separator g ++ bodyText (g :: rest)

/-- A generated file. -/
structure Source where
  header : Header
  fragments : List Fragment

namespace Source

/-- The text of a file. -/
def text (s : Source) : String :=
  let body := Fragment.bodyText s.fragments
  Text.dropEndWhile Text.isBlank
    (s.header.text ++ if body.isEmpty then "" else "\n" ++ body) ++ "\n"

end Source

/-- The file with all declarations of a namespace. -/
def Namespace.source (ns : Namespace) (options : Options) : Generated Source := do
  let fragments ← ns.fragments options
  return ⟨Header.ofBody ns options (Fragment.bodyText fragments), fragments⟩

/-- The text of the file with all declarations of a namespace. -/
def Namespace.generate (ns : Namespace) (options : Options) : Generated String := do
  return (← ns.source options).text

end Introspection
