import Introspection.Declaration.Literal
import Introspection.Generation.Scope
import Introspection.Listing.Palette
import Introspection.Resolution.Host
import Introspection.Resolution.Native

/-!
# `Introspection.Listing.Basic`: listing a namespace

A listing shows a namespace to a reader: one block for each entity, in the order of the generated
file, and nothing left out. Every type is shown as the C side and as the Go side spell it, or with
the error that keeps it from being resolved.

A `Printer` writes a listing line by line, each behind what is written already. It puts the colours
of its palette around names, types and keywords as it goes.
-/

set_option autoImplicit false

namespace Introspection

open Introspection.Text (natText intText)

/-- The value of a constant as a listing shows it. -/
def ConstantValue.listed : ConstantValue → String
  | .string s => Text.listed s
  | v => v.literal

namespace Listing

/-- A spelling, or a word that stands in for none. -/
def orVoid (s : String) : String := if s.isEmpty then "void" else s

/-- What a function is called. -/
def functionWord (f : Function) : String :=
  if f.flags.isConstructor then "constructor" else if f.isMethod then "method" else "function"

/-- How a field may be accessed, unless there is no restriction. -/
def accessText : (readable writable : Bool) → String
  | true, true => ""
  | true, false => " (read-only)"
  | false, true => " (write-only)"
  | false, false => " (private)"

/-- A word at the end of a line about something deprecated. -/
def deprecatedText (deprecated : Bool) : String := if deprecated then " (deprecated)" else ""

/-- Two blanks for each level. -/
def indent (depth : Nat) : String := String.ofList (List.replicate (2 * depth) ' ')

/-- Writes a line behind `out`. -/
def putLine (depth : Nat) (text : String) (out : String) : String :=
  out ++ indent depth ++ text ++ "\n"

/-- Writes a blank line behind `out`, unless nothing is written yet. -/
def putGap (out : String) : String := if out.isEmpty then out else out ++ "\n"

/-- Writes items one after another. -/
def putAll {α : Type} (put : α → String → String) (items : List α) (out : String) : String :=
  items.foldl (fun out a => put a out) out

/-- What lines are written with. -/
structure Printer where
  scope : Scope
  palette : Palette

namespace Printer

variable (p : Printer)

def name (s : String) : String := p.palette.name ++ s ++ p.palette.reset

def keyword (s : String) : String := p.palette.dim ++ s ++ p.palette.reset

/-- A keyword behind a blank, if it applies. -/
def flag (applies : Bool) (word : String) : String :=
  if applies then " " ++ p.keyword word else ""

/-- Both spellings of a type. -/
def type (t : TypeDesc) (isArg : Bool) : String :=
  let c := p.palette
  match resolveNative t, resolveHost p.scope t isArg with
  | .ok native, .ok host =>
    c.native ++ orVoid native.text ++ c.reset ++ " " ++ c.dim ++ "/" ++ c.reset ++ " "
      ++ c.host ++ orVoid host.text ++ c.reset
  | .error e, _ => c.dim ++ "<" ++ e.message ++ ">" ++ c.reset
  | _, .error e => c.dim ++ "<" ++ e.message ++ ">" ++ c.reset

/-- A line with a keyword and a text. -/
def putLabelled (depth : Nat) (word text : String) : String → String :=
  putLine depth (p.keyword word ++ " " ++ text)

/-- The line of a parameter. -/
def putParameter (depth : Nat) (a : Parameter) : String → String :=
  putLine depth (p.keyword a.direction.name ++ " " ++ a.name ++ ": "
    ++ p.type a.type (a.direction == .input) ++ p.flag a.skip "skip")

/-- The lines of parameters and of a result. -/
def putSignature (depth : Nat) (params : List Parameter) (result : TypeDesc) (out : String) :
    String :=
  let out := putAll (p.putParameter depth) params out
  if result.isVoid then out
  else putLine depth (p.keyword "return" ++ " " ++ p.type result false) out

/-- The lines of a function. -/
def putFunction (depth : Nat) (f : Function) (out : String) : String :=
  let title := p.keyword (functionWord f) ++ " " ++ p.name f.name ++ " "
    ++ p.keyword ("(" ++ f.symbol ++ ")")
  p.putSignature (depth + 1) f.params f.returnType
    (putLine depth (title ++ p.flag f.flags.throws "throws" ++ deprecatedText f.deprecated) out)

/-- The line of a field. -/
def putField (f : FieldDecl) : String → String :=
  putLine 1 (p.keyword "field" ++ " " ++ f.name ++ ": " ++ p.type f.type false
    ++ accessText f.readable f.writable)

/-- The line of a property. -/
def putProperty (property : Property) : String → String :=
  putLine 1 (p.keyword "property" ++ " " ++ property.name ++ ": " ++ p.type property.type false)

/-- The lines of a signal. -/
def putSignal (s : Signal) (out : String) : String :=
  p.putSignature 2 s.params s.returnType
    (putLine 1 (p.keyword "signal" ++ " " ++ s.name ++ deprecatedText s.deprecated) out)

/-- The lines of a virtual function slot. -/
def putSlot (s : VirtualSlot) (out : String) : String :=
  let invoker := match s.invoker with
    | some i => " " ++ p.keyword "invoked by" ++ " " ++ i
    | none => ""
  p.putSignature 2 s.params s.returnType
    (putLine 1 (p.keyword "vfunc" ++ " " ++ s.name ++ invoker) out)

/-- The lines of the members that interfaces and objects share. -/
def putMembers (methods : List Function) (properties : List Property) (signals : List Signal)
    (slots : List VirtualSlot) (out : String) : String :=
  let out := putAll p.putProperty properties out
  let out := putAll (p.putFunction 1) methods out
  let out := putAll p.putSignal signals out
  putAll p.putSlot slots out

/-- The lines of the namespace itself. -/
def putHead (ns : Namespace) (out : String) : String :=
  let out := putLine 0 (p.keyword "namespace" ++ " " ++ p.name ns.name) out
  let out := putAll (p.putLabelled 1 "version") ns.version.toList out
  let out := p.putLabelled 1 "package" p.scope.package.name out
  putAll (p.putLabelled 1 "depends") ns.dependencies out

/-- The block of a constant. -/
def putConstant (c : Constant) (out : String) : String :=
  putLine 0 ("constant " ++ p.name c.name ++ ": " ++ p.type c.type false ++ " = "
    ++ c.value.listed) (putGap out)

/-- The line of an enumeration value. -/
def putValue (v : EnumValue) : String → String :=
  putLine 1 (v.name ++ " = " ++ intText v.value.toInt ++ deprecatedText v.deprecated)

/-- The block of an enumeration. -/
def putEnum (e : Enumeration) (out : String) : String :=
  let word := if e.isFlags then "flags" else "enum"
  let out := putLine 0 (p.keyword word ++ " " ++ p.name e.name ++ ": "
    ++ p.type (.ofTag e.storage) false) (putGap out)
  let out := putAll (p.putLabelled 1 "error domain") e.errorDomain.toList out
  let out := putAll putValue e.values out
  putAll (p.putFunction 1) e.methods out

/-- The block of an interface. -/
def putInterface (i : Interface) (out : String) : String :=
  let out := putLine 0 (p.keyword "interface" ++ " " ++ p.name i.name
    ++ deprecatedText i.deprecated) (putGap out)
  let out := putAll (fun r => p.putLabelled 1 "requires" (EntityRef.text r)) i.prerequisites out
  p.putMembers i.methods i.properties i.signals i.slots out

/-- The block of an object. -/
def putObject (o : Object) (out : String) : String :=
  let parent := match o.parent with
    | some r => ": " ++ r.text
    | none => ""
  let out := putLine 0 (p.keyword "object" ++ " " ++ p.name o.name ++ parent
    ++ p.flag o.isAbstract "abstract" ++ deprecatedText o.deprecated) (putGap out)
  let out := putAll (fun r => p.putLabelled 1 "implements" (EntityRef.text r)) o.interfaces out
  let out := putAll p.putField o.fields out
  p.putMembers o.methods o.properties o.signals o.slots out

/-- The block of a struct or union. -/
def putRecord (word title : String) (size : UInt64) (isClass deprecated : Bool)
    (fields : List FieldDecl) (methods : List Function) (out : String) : String :=
  let out := putLine 0 (p.keyword word ++ " " ++ p.name title ++ " "
    ++ p.keyword ("(" ++ natText size.toNat ++ " bytes)") ++ p.flag isClass "class"
    ++ deprecatedText deprecated) (putGap out)
  let out := putAll p.putField fields out
  putAll (p.putFunction 1) methods out

/-- The block of a struct. -/
def putStruct (s : Struct) : String → String :=
  p.putRecord "struct" s.name s.size s.isClassStruct s.deprecated s.fields s.methods

/-- The block of a union. -/
def putUnion (u : Union) : String → String :=
  p.putRecord "union" u.name u.size false u.deprecated u.fields u.methods

/-- The block of a free function. -/
def putFree (f : Function) (out : String) : String := p.putFunction 0 f (putGap out)

/-- All blocks of a namespace. -/
def print (ns : Namespace) : String :=
  let out := p.putHead ns ""
  let out := putAll p.putConstant ns.constants.entries out
  let out := putAll p.putEnum ns.enums.entries out
  let out := putAll p.putInterface ns.interfaces.entries out
  let out := putAll p.putObject ns.objects.entries out
  let out := putAll p.putStruct ns.structs.entries out
  let out := putAll p.putUnion ns.unions.entries out
  putAll p.putFree ns.functions.entries out

end Printer

end Listing

/-- The listing of a namespace, coloured if the options say so. -/
def Namespace.listing (ns : Namespace) (options : Options) : String :=
  Listing.Printer.print ⟨ns.scope options, .select options.colored⟩ ns

end Introspection
