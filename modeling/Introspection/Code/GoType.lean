/-!
# `Introspection.Code.GoType`: Go types

Types as generated code spells them. The types of the C library are the names of the pseudo
package `C`.
-/

set_option autoImplicit false

namespace Introspection.Code

/-- A Go type in generated code. -/
inductive GoType
  /-- No value, hence no type: it prints nothing. -/
  | void
  /-- A predeclared type, or one that the generated package declares. -/
  | plain (name : String)
  /-- A type of another package. -/
  | qualified (package name : String)
  | pointer (target : GoType)
  | slice (element : GoType)
  | map (key value : GoType)
  deriving DecidableEq

namespace GoType

/-- The spelling of a type. -/
def text : GoType → String
  | void => ""
  | plain name => name
  | qualified package name => package ++ "." ++ name
  | pointer target => "*" ++ target.text
  | slice element => "[]" ++ element.text
  | map key value => "map[" ++ key.text ++ "]" ++ value.text

/-- A type of the C library. -/
def native (name : String) : GoType := qualified "C" name

/-- An untyped pointer of the C library. -/
def gpointer : GoType := native "gpointer"

/-- An untyped pointer of Go. -/
def unsafePointer : GoType := qualified "unsafe" "Pointer"

/-- Behind one indirection if asked for. -/
def pointerIf (indirect : Bool) (t : GoType) : GoType := if indirect then pointer t else t

/-- Whether the spelling starts with a star. -/
def isPointer : GoType → Bool
  | pointer _ => true
  | _ => false

end GoType

end Introspection.Code
