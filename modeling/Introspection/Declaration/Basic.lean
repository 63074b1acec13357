import Introspection.Declaration.Literal
import Introspection.Declaration.ValueName
import Introspection.Generation.Scope
import Introspection.Wrapper.HostFunction

/-!
# `Introspection.Declaration.Basic`: declarations of the generated package

A `Declaration` is one block of the generated package, a `Fragment` a declaration with the item
of the namespace that it belongs to.

Values of registered types are handles: structs around an untyped native pointer, which `Native`
gives back and `Wrap<Name>` makes. An interface has a private struct, the carrier, that stands in
for any implementor. Every object has an interface `I<Name>` of its methods, its method set, so
that a subclass can be passed in its place.
-/

set_option autoImplicit false

namespace Introspection

open Introspection.Code

/-- One entry of an interface type. -/
inductive InterfaceEntry
  /-- The accessor of the native pointer. -/
  | handle
  /-- All methods of another interface type. -/
  | embedded (t : GoType)
  | method (s : Signature)

/-- The spelling of an entry. -/
def InterfaceEntry.text : InterfaceEntry → String
  | handle => "Native() unsafe.Pointer"
  | embedded t => t.text
  | method s => s.text

/-- Method that reads one field of a struct or union. -/
structure FieldGetter where
  owner : EntityRef
  signature : Signature
  /-- Assigns the result from the field. -/
  reading : List Stmt

/-- One block of the generated package. -/
inductive Declaration
  | constant (name : String) (type : GoType) (value : ConstantValue)
  | enumeration (name : String) (storage : GoType) (values : List ValueName)
  /-- An interface type with its carrier. -/
  | interface (name : String) (entries : List InterfaceEntry)
  /-- The type of an object without parent, of a struct or of a union. -/
  | handle (name : String)
  /-- The type of an object with a parent: `base` is embedded and made by `wrapBase`. -/
  | derived (name : String) (parent : EntityRef) (base : GoType) (wrapBase : Expr)
  /-- The interface type of an object's methods. -/
  | methodSet (name : String) (entries : List InterfaceEntry)
  | method (f : HostFunction)
  | function (f : HostFunction)
  | getter (g : FieldGetter)

/-- The struct around a native pointer. -/
def handleText (name : String) : String :=
  "type " ++ name ++ " struct \x7b\n\tnative unsafe.Pointer\n\x7d\n\nfunc (this *" ++ name
    ++ ") Native() unsafe.Pointer \x7b\n\treturn this.native\n\x7d\n"

/-- The function that makes a value of a type from a native pointer; `made` is the type of what
it makes and `content` fills its only field. -/
def wrapText (name result made content : String) : String :=
  "\nfunc Wrap" ++ name ++ "(p unsafe.Pointer) " ++ result ++ " \x7b\n\treturn &" ++ made
    ++ "\x7b" ++ content ++ "\x7d\n\x7d\n"

/-- An interface type. -/
def interfaceText (name : String) (entries : List InterfaceEntry) : String :=
  "type " ++ name ++ " interface \x7b\n"
    ++ Text.joined "" (entries.map fun e => lineAt 1 e.text) ++ "\x7d\n"

/-- The constants of an enumeration. -/
def valuesText (name : String) (values : List ValueName) : String :=
  if values.isEmpty then ""
  else
    "\nconst (\n"
      ++ Text.joined "" (values.map fun v =>
          lineAt 1 (v.host ++ " " ++ name ++ " = C." ++ v.native))
      ++ ")\n"

/-- The text of a getter. -/
def FieldGetter.text (g : FieldGetter) : String :=
  "func (this *" ++ g.owner.name ++ ") " ++ g.signature.text ++ " \x7b\n"
    ++ Stmt.listText 1 g.reading ++ lineAt 1 "return ret" ++ "\x7d\n"

/-- The text of a declaration. -/
def Declaration.text : Declaration → String
  | constant name type value =>
    "const " ++ name ++ " " ++ type.text ++ " = " ++ value.literal ++ "\n"
  | enumeration name storage values =>
    "type " ++ name ++ " " ++ storage.text ++ "\n" ++ valuesText name values
  | interface name entries =>
    let carrier := Text.lowerFirst name
    interfaceText name entries ++ "\n" ++ handleText carrier
      ++ wrapText name name carrier "native: p"
  | handle name => handleText name ++ wrapText name ("*" ++ name) name "native: p"
  | derived name parent base wrapBase =>
    "type " ++ name ++ " struct \x7b\n" ++ lineAt 1 base.text ++ "\x7d\n"
      ++ wrapText name ("*" ++ name) name (parent.name ++ ": " ++ (Expr.deref wrapBase).text)
  | methodSet name entries => interfaceText ("I" ++ name) entries
  | method f => f.text
  | function f => f.text
  | getter g => g.text

/-- Whether a declaration is that of a constant. -/
def Declaration.isConstant : Declaration → Bool
  | constant _ _ _ => true
  | _ => false

/-- The item of a namespace that a declaration belongs to. -/
inductive Origin
  /-- A constant or a free function. -/
  | item (home name : String)
  | type (r : EntityRef)
  /-- A method or field of a type. -/
  | member (r : EntityRef) (name : String)

/-- Dotted name of an item: `Gtk.Button.set_label`. -/
def Origin.path : Origin → String
  | item home name => home ++ "." ++ name
  | type r => r.text
  | member r name => r.text ++ "." ++ name

/-- A declaration with the item that it belongs to. -/
structure Fragment where
  origin : Origin
  /-- Whether the declaration says that the item is deprecated. -/
  noted : Bool
  declaration : Declaration

/-- The text of a fragment, under a note if there is one. -/
def Fragment.text (f : Fragment) : String :=
  (if f.noted then "// Deprecated.\n" else "") ++ f.declaration.text

end Introspection
