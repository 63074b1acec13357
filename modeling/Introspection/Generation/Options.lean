/-!
# `Introspection.Generation.Options`: options of a generated file

What a user may choose, with the choices that hold when nothing is said.
-/

set_option autoImplicit false

namespace Introspection

/-- What a user may choose. -/
structure Options where
  /-- Name of the generated package; derived from the namespace when absent. -/
  package : Option String
  /-- C headers to include. -/
  includes : List String
  /-- Packages whose compiler flags are looked up. -/
  pkgConfig : List String
  /-- Path under which the packages of other namespaces live. -/
  importPath : Option String
  /-- Whether fields of structs and unions get getters. -/
  fieldGetters : Bool
  /-- Whether deprecated items are left out. -/
  skipDeprecated : Bool
  /-- Whether listings are coloured. -/
  colored : Bool

/-- No choice made: getters, deprecated items and no colour. -/
def Options.default : Options := ⟨none, [], [], none, true, false, false⟩

/-- Whether an item is left out because it is deprecated. -/
def Options.skips (options : Options) (deprecated : Bool) : Bool :=
  deprecated && options.skipDeprecated

end Introspection
