import Introspection.Code.GoType
import Introspection.Text.Search

/-!
# `Introspection.Code.Expr`: Go expressions

Expressions that generated code is made of. Identifiers keep apart what the signature of the
wrapper declares (`host`), what its body declares (`inner`), what Go predeclares (`plain`) and
what another package provides (`qualified`).
-/

set_option autoImplicit false

namespace Introspection.Code

/-- A Go expression in generated code. -/
inductive Expr
  /-- A receiver, parameter or result of the wrapper. -/
  | host (name : String)
  /-- A variable that the wrapper's body declares. -/
  | inner (name : String)
  /-- A predeclared name, a literal, or a function of the generated package. -/
  | plain (name : String)
  /-- A name of another package. -/
  | qualified (package name : String)
  /-- A type in the place of an argument. -/
  | typed (t : GoType)
  | member (e : Expr) (name : String)
  | index (e i : Expr)
  | call (f : Expr) (args : List Expr)
  /-- A conversion `T(e)`. -/
  | convert (t : GoType) (e : Expr)
  /-- A conversion `(T)(e)`. -/
  | cast (t : GoType) (e : Expr)
  | deref (e : Expr)
  | address (e : Expr)
  | paren (e : Expr)
  | not (e : Expr)
  /-- One more than a number. -/
  | succ (e : Expr)
  /-- Two operands with an operator between them. -/
  | binary (op : String) (a b : Expr)

namespace Expr

mutual

/-- The spelling of an expression. -/
def text : Expr → String
  | host name => name
  | inner name => name
  | plain name => name
  | qualified package name => package ++ "." ++ name
  | typed t => t.text
  | member e name => e.text ++ "." ++ name
  | index e i => e.text ++ "[" ++ i.text ++ "]"
  | call f args => f.text ++ "(" ++ argsText args ++ ")"
  | convert t e => t.text ++ "(" ++ e.text ++ ")"
  | cast t e => "(" ++ t.text ++ ")(" ++ e.text ++ ")"
  | deref e => "*" ++ e.text
  | address e => "&" ++ e.text
  | paren e => "(" ++ e.text ++ ")"
  | not e => "!(" ++ e.text ++ ")"
  | succ e => e.text ++ "+1"
  | binary op a b => a.text ++ " " ++ op ++ " " ++ b.text

/-- The spelling of arguments. -/
def argsText : List Expr → String
  | [] => ""
  | [e] => e.text
  | e :: f :: rest => e.text ++ ", " ++ argsText (f :: rest)

end

/-- A call of a function of the C library. -/
def native (name : String) (args : List Expr) : Expr := call (qualified "C" name) args

/-- A call of a predeclared function. -/
def builtin (name : String) (args : List Expr) : Expr := call (plain name) args

/-- A method call without arguments. -/
def invoke (e : Expr) (method : String) : Expr := call (member e method) []

/-- The null value. -/
def nil : Expr := plain "nil"

/-- A constant of the C library. -/
def nativeConst (name : String) : Expr := qualified "C" name

/-- Conversion to an untyped pointer of Go. -/
def toUnsafe (e : Expr) : Expr := convert GoType.unsafePointer e

/-- Conversion to an untyped pointer of the C library. -/
def toGpointer (e : Expr) : Expr := convert GoType.gpointer e

/-- Conversion to a type of the C library. -/
def toNative (name : String) (e : Expr) : Expr := convert (GoType.native name) e

/-- Conversion to a word as wide as a pointer. -/
def toWord (e : Expr) : Expr := convert (.plain "uintptr") e

/-- A truth value of the C library. -/
def gboolean (b : Bool) : Expr := toNative "gboolean" (nativeConst (if b then "TRUE" else "FALSE"))

/-- Number of elements of a slice or map. -/
def len (e : Expr) : Expr := builtin "len" [e]

/-- Comparison for inequality. -/
def differs (a b : Expr) : Expr := binary "!=" a b

/-- Comparison with null. -/
def notNil (e : Expr) : Expr := differs e nil

/-- Size in bytes of a value. -/
def sizeOf (e : Expr) : Expr := call (qualified "unsafe" "Sizeof") [e]

/-- Size in bytes of a value of a type. -/
def sizeOfType (t : GoType) : Expr := sizeOf (deref (builtin "new" [typed t]))

/-- The elements behind a pointer, as a slice. -/
def slice (pointer count : Expr) : Expr := call (qualified "unsafe" "Slice") [pointer, count]

/-- A Go string copied from a native one. -/
def goString (e : Expr) : Expr := native "GoString" [e]

/-- A native copy of a Go string. -/
def cString (e : Expr) : Expr := native "CString" [e]

/-- A place that can be followed by an index. -/
def indexable : Expr → Expr
  | deref e => paren (deref e)
  | e => e

end Expr

end Introspection.Code
