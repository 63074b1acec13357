import Introspection.Generation.Options
import Introspection.Namespace.Basic
import Introspection.Text.Search

/-!
# `Introspection.Generation.Package`: the generated package and its siblings

Each namespace has a package of its own. The packages of other namespaces are imported from a
common path, or by their bare names when no path is given.
-/

set_option autoImplicit false

namespace Introspection

open Introspection.Naming

/-- The generated package and the place of its siblings. -/
structure Package where
  name : String
  /-- Path under which the packages of other namespaces live. -/
  siblings : Option String
  deriving DecidableEq

namespace Package

/-- The package of a namespace under options. -/
def ofNamespace (ns : Namespace) (options : Options) : Package :=
  ⟨options.package.getD (packageName ns.name), options.importPath⟩

/-- Import path of the package of another namespace. Slashes at the end of the common path do
not count. -/
def importPath (p : Package) (home : String) : String :=
  match p.siblings with
  | some path => Text.dropEndWhile (· == '/') path ++ "/" ++ packageName home
  | none => packageName home

end Package

end Introspection
