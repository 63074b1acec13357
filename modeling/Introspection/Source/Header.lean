import Introspection.Generation.Scope
import Introspection.Source.Import

/-!
# `Introspection.Source.Header`: what precedes the declarations

A generated file starts with a note, the package clause, a preamble for the C compiler, the list
of imported packages, and helper functions that its declarations call. What the header needs is
read off the text of the declarations.
-/

set_option autoImplicit false

namespace Introspection

open Introspection.Text (joined)

/-- Native function that makes a hash table with texts as keys. -/
def hashTableHelper : String := "girgen_str_hash_table_new"

/-- Function that turns a truth value into a native one. -/
def booleanHelper : String := "toGboolean"

/-- What precedes the declarations of a generated file. -/
structure Header where
  package : String
  /-- Packages whose compiler flags are looked up. -/
  pkgConfig : List String
  /-- C headers to include. -/
  includes : List String
  hasHashTableHelper : Bool
  imports : List String
  hasBooleanHelper : Bool

namespace Header

/-- The header that goes with the text of the declarations. -/
def ofBody (ns : Namespace) (options : Options) (body : String) : Header :=
  let p := (ns.scope options).package
  { package := p.name
    pkgConfig := options.pkgConfig
    includes := options.includes
    hasHashTableHelper := Text.contains body hashTableHelper
    imports := ns.imports p body
    hasBooleanHelper := Text.contains body (booleanHelper ++ "(") }

/-- The operand of an include line: a bare name gets brackets. -/
def includeOperand (header : String) : String :=
  match header.toList.head? with
  | some '<' => header
  | some '"' => header
  | _ => "<" ++ header ++ ">"

/-- The preamble for the C compiler. -/
def preamble (h : Header) : String :=
  "/*\n"
    ++ (if h.pkgConfig.isEmpty then ""
      else "#cgo pkg-config: " ++ joined " " h.pkgConfig ++ "\n")
    ++ joined "" (h.includes.map fun i => "#include " ++ includeOperand i ++ "\n")
    ++ "#include <stdlib.h>\n"
    ++ (if h.hasHashTableHelper then
        "\nstatic GHashTable *" ++ hashTableHelper
          ++ "(void)\n\x7b\n\treturn g_hash_table_new(g_str_hash, g_str_equal);\n\x7d\n"
      else "")
    ++ "*/\nimport \"C\"\n"

/-- Lines of an import clause. -/
def importLines (paths : List String) : String :=
  joined "" (paths.map fun path => "\t\"" ++ path ++ "\"\n")

/-- The import clause. Standard packages stand apart from the others. -/
def importClause (h : Header) : String :=
  let standard := h.imports.filter (standardPackages.contains ·)
  let foreign := h.imports.filter (!standardPackages.contains ·)
  if h.imports.isEmpty then ""
  else
    "\nimport (\n" ++ importLines standard
      ++ (if standard.isEmpty || foreign.isEmpty then "" else "\n")
      ++ importLines foreign ++ ")\n"

/-- The helper function for truth values. -/
def booleanHelperText : String :=
  "\nfunc " ++ booleanHelper ++ "(b bool) C.gboolean \x7b\n\tif b \x7b\n"
    ++ "\t\treturn C.gboolean(C.TRUE)\n\t\x7d\n\treturn C.gboolean(C.FALSE)\n\x7d\n"

/-- The text of a header. -/
def text (h : Header) : String :=
  "// Code generated by girgen. DO NOT EDIT.\n\npackage " ++ h.package ++ "\n\n"
    ++ h.preamble ++ h.importClause
    ++ if h.hasBooleanHelper then booleanHelperText else ""

end Header

end Introspection
