import Introspection.Declaration.Getter
import Introspection.Declaration.Method

/-!
# `Introspection.Declaration.Emission`: all declarations of a namespace

`Namespace.fragments` lists the declarations of the package of a namespace: constants,
enumerations, interfaces, objects, structs, unions and free functions, each in the order of its
table. The first error ends it.

Class structs have no declarations. Deprecated items have none if the options say so.
-/

set_option autoImplicit false

namespace Introspection

open Introspection.Code

namespace Namespace

/-- The fragment of a constant. -/
def constantFragment (ns : Namespace) (options : Options) (c : Constant) : Generated Fragment :=
  let origin := Origin.item ns.name c.name
  Generated.within origin.path do
    let type ← resolveHost (ns.scope options) c.type false
    return ⟨origin, c.deprecated, .constant (Text.pascalCase c.name) type (← c.typedValue)⟩

/-- The fragments of an enumeration: its type with its values, and its functions. -/
def enumFragments (ns : Namespace) (options : Options) (e : Enumeration) :
    Generated (List Fragment) := do
  let r := ns.reference .enum e.name
  let storage ← Generated.within r.text (resolveHost (ns.scope options) (.ofTag e.storage) false)
  let values := e.values.filter fun v => !options.skips v.deprecated
  let type : Fragment :=
    ⟨.type r, e.deprecated, .enumeration e.name storage (ns.valueNames e values)⟩
  return type :: (← ns.functionFragments options (some r) e.methods)

/-- Entries that embed interfaces of the namespace. -/
def embeddedEntries (refs : List EntityRef) : List InterfaceEntry :=
  refs.map fun r => .embedded (.plain r.name)

/-- The fragments of an interface: its type, its functions, and on its carrier the methods of
the interfaces behind it. -/
def interfaceFragments (ns : Namespace) (options : Options) (i : Interface) :
    Generated (List Fragment) := do
  let r := ns.reference .interface i.name
  let entries ← ns.methodEntries options r i.methods
  let embedded := embeddedEntries (ns.knownInterfaces i.prerequisites)
  let type : Fragment := ⟨.type r, i.deprecated, .interface i.name (.handle :: embedded ++ entries)⟩
  return type :: (← ns.memberFragments options r i.methods (ns.closure i))

/-- The type of an object. -/
def objectDeclaration (ns : Namespace) (options : Options) (o : Object) : Declaration :=
  let scope := ns.scope options
  match o.parent with
  | some p =>
    .derived o.name p (scope.typeName p.home p.name) (scope.wrap p (.plain "p"))
  | none => .handle o.name

/-- What the method set of an object starts with. -/
def methodSetBase (ns : Namespace) (options : Options) (o : Object) : InterfaceEntry :=
  match o.parent with
  | some p => .embedded ((ns.scope options).typeName p.home ("I" ++ p.name))
  | none => .handle

/-- The fragments of an object: its type, its method set, its functions, and the methods of the
interfaces it implements. -/
def objectFragments (ns : Namespace) (options : Options) (o : Object) :
    Generated (List Fragment) := do
  let r := ns.reference .object o.name
  let interfaces := ns.knownInterfaces o.interfaces
  let entries ← ns.methodEntries options r o.methods
  let type : Fragment := ⟨.type r, o.deprecated, ns.objectDeclaration options o⟩
  let methodSet : Fragment :=
    ⟨.type r, false,
      .methodSet o.name (ns.methodSetBase options o :: embeddedEntries interfaces ++ entries)⟩
  return type :: methodSet :: (← ns.memberFragments options r o.methods interfaces)

/-- The fragments of a struct or union: its type, its functions, and its getters. -/
def recordFragments (ns : Namespace) (options : Options) (r : EntityRef) (deprecated : Bool)
    (fields : List FieldDecl) (methods : List Function) : Generated (List Fragment) := do
  let functions ← ns.functionFragments options (some r) methods
  let getters :=
    if options.fieldGetters then
      getterFragments (ns.scope options) r ("Native" :: methodNames methods) fields
    else []
  let type : Fragment := ⟨.type r, deprecated, .handle r.name⟩
  return type :: functions ++ getters

/-- The fragments of a struct; class structs have none. -/
def structFragments (ns : Namespace) (options : Options) (s : Struct) :
    Generated (List Fragment) :=
  if s.isClassStruct then .ok []
  else ns.recordFragments options (ns.reference .struct s.name) s.deprecated s.fields s.methods

/-- The fragments of a union. -/
def unionFragments (ns : Namespace) (options : Options) (u : Union) :
    Generated (List Fragment) :=
  ns.recordFragments options (ns.reference .union u.name) u.deprecated u.fields u.methods

/-- The fragments of a registered type. -/
def entityFragments (ns : Namespace) (options : Options) : Entity → Generated (List Fragment)
  | .enum e => ns.enumFragments options e
  | .interface i => ns.interfaceFragments options i
  | .object o => ns.objectFragments options o
  | .struct s => ns.structFragments options s
  | .union u => ns.unionFragments options u

/-- All declarations of the package of a namespace, in order. -/
def fragments (ns : Namespace) (options : Options) : Generated (List Fragment) := do
  let constants ←
    (ns.constants.entries.filter fun c => !options.skips c.deprecated).mapM
      (ns.constantFragment options)
  let types ←
    (ns.entities.filter fun e => !options.skips e.deprecated).mapM (ns.entityFragments options)
  let functions ← ns.functionFragments options none ns.functions.entries
  return constants ++ types.flatten ++ functions

end Namespace

end Introspection
