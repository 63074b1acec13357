import Introspection.Code.Expr
import Introspection.Generation.Package

/-!
# `Introspection.Generation.Scope`: names in generated code

A `Scope` knows the namespace at home in the generated file, and the package that the file belongs
to. Names of the namespace need no qualifier; names of another namespace get the name of that
namespace's package in front.
-/

set_option autoImplicit false

namespace Introspection

open Introspection.Code
open Introspection.Naming

/-- Where generated code stands. -/
structure Scope where
  /-- The namespace whose names need no qualifier. -/
  home : String
  package : Package
  deriving DecidableEq

namespace Scope

/-- A namespace of which nothing but its name is known. -/
def ofHome (home : String) : Scope := ⟨home, ⟨packageName home, none⟩⟩

/-- Whether names of a namespace need no qualifier. -/
def isLocal (scope : Scope) (home : String) : Bool := home == scope.home

/-- A type that the package of a namespace declares. -/
def typeName (scope : Scope) (home name : String) : GoType :=
  if scope.isLocal home then .plain name else .qualified (packageName home) name

/-- The function that wraps a native handle of a registered type. -/
def wrapFunction (scope : Scope) (r : EntityRef) : Expr :=
  if scope.isLocal r.home then .plain ("Wrap" ++ r.name)
  else .qualified (packageName r.home) ("Wrap" ++ r.name)

/-- A call that wraps a native handle of a registered type. -/
def wrap (scope : Scope) (r : EntityRef) (handle : Expr) : Expr :=
  .call (scope.wrapFunction r) [handle]

end Scope

/-- Where the code of a namespace stands under options. -/
def Namespace.scope (ns : Namespace) (options : Options) : Scope :=
  ⟨ns.name, Package.ofNamespace ns options⟩

end Introspection
