import Introspection.Text.Casing

/-!
# `Introspection.Naming`: names of packages, native symbols and host identifiers

Rules that turn a name of the introspected library into a name of the generated file: the
package of a namespace, the prefix of its native types and symbols, and identifiers that stay
clear of the reserved words of Go.
-/

set_option autoImplicit false

namespace Introspection.Naming

open Introspection.Text

/-- Namespaces of the base libraries. They share the native prefix `G`. -/
def baseNamespaces : List String := ["GLib", "GObject", "GModule", "Gio", "GIRepository"]

/-- Package that holds the bindings of a namespace: `Gtk` becomes `gtk`, `GObject` becomes
`gobject`. -/
def packageName (home : String) : String :=
  if home ∈ baseNamespaces then lowerCase home else lowerFirst home

/-- What the native type names of a namespace start with. -/
def typePrefix (home : String) : String :=
  if home ∈ baseNamespaces then "G" else home

/-- What the native constants of a namespace start with: `Gtk` becomes `GTK`. -/
def symbolPrefix (home : String) : String :=
  if home ∈ baseNamespaces then "G" else upperCase (snakeCase home)

/-- Native constant of an enumeration member that names none itself:
`GTK_WINDOW_TYPE_TOPLEVEL`. -/
def valueSymbol (home enumeration value : String) : String :=
  symbolPrefix home ++ "_" ++ upperCase (snakeCase enumeration) ++ "_"
    ++ underscored (upperCase value)

/-- The reserved words of Go. -/
def keywords : List String :=
  ["break", "case", "chan", "const", "continue", "default", "defer", "else", "fallthrough",
    "for", "func", "go", "goto", "if", "import", "interface", "map", "package", "range",
    "return", "select", "struct", "switch", "type", "var"]

/-- Whether Go reserves the word. -/
def isKeyword (s : String) : Bool := keywords.contains s

/-- A parameter name as an identifier: no `-`, and a reserved word gets a final `_`. -/
def safeIdent (name : String) : String :=
  let ident := underscored name
  if isKeyword ident then ident ++ "_" else ident

/-- Names that every generated function declares for itself. -/
def wrapperNames : List String := ["this", "ret", "err"]

/-- Host identifier of a native parameter, clear of reserved words and of `wrapperNames`. -/
def hostIdent (name : String) : String :=
  let ident := safeIdent name
  if ident ∈ wrapperNames then ident ++ "_" else ident

/-- Name under which a native field is reached; a reserved word gets a leading `_`. -/
def fieldName (name : String) : String :=
  if isKeyword name then "_" ++ name else name

end Introspection.Naming
