import Introspection.Namespace.Basic
import Introspection.Text.Casing

/-!
# `Introspection.Declaration.ValueName`: names of enumeration values

The values of all enumerations share one scope of the generated package. When the name of any
value of an enumeration comes more than once in the namespace, all its values get the first word
of the enumeration's name in front.
-/

set_option autoImplicit false

namespace Introspection

open Introspection.Text

/-- Host and native name of a value. -/
structure ValueName where
  host : String
  native : String

/-- Host name of a value before ambiguities are resolved. -/
def EnumValue.bareName (v : EnumValue) : String := pascalCase v.name

namespace Namespace

/-- Bare names of all values of the namespace, as often as they come. -/
def bareValueNames (ns : Namespace) : List String :=
  ns.enums.entries.flatMap fun e => e.values.map EnumValue.bareName

/-- Whether the bare name of a value comes more than once. -/
def isAmbiguous (ns : Namespace) (v : EnumValue) : Bool :=
  ns.bareValueNames.count v.bareName > 1

/-- What the host names of an enumeration's values start with. -/
def valueStem (ns : Namespace) (e : Enumeration) : String :=
  if e.values.any ns.isAmbiguous then firstWord e.name else ""

/-- The names of a value of an enumeration whose host names start with `stem`. -/
def valueName (ns : Namespace) (e : Enumeration) (stem : String) (v : EnumValue) : ValueName :=
  ⟨stem ++ v.bareName, v.symbol.getD (Naming.valueSymbol ns.name e.name v.name)⟩

/-- The names of some values of an enumeration. -/
def valueNames (ns : Namespace) (e : Enumeration) (values : List EnumValue) : List ValueName :=
  values.map (ns.valueName e (ns.valueStem e))

end Namespace

end Introspection
