import Introspection.Declaration.Basic
import Introspection.Declaration.Fresh
import Introspection.Declaration.Prerequisite
import Introspection.Generation.Options

/-!
# `Introspection.Declaration.Method`: methods of generated types

Functions become fragments one by one. A type that implements interfaces gets their methods too,
after its own. Methods are told apart by their host names: a method whose name the type has
already, be it its own or that of an earlier interface, is not added again.
-/

set_option autoImplicit false

namespace Introspection

open Introspection.Code

/-- Host name of a method. -/
def Function.methodName (f : Function) : String := Text.pascalCase f.name

/-- Host names of the instance methods among functions. -/
def methodNames (fs : List Function) : List String :=
  (fs.filter Function.isMethod).map Function.methodName

/-- The instance methods among functions that are not left out. -/
def Options.instanceMethods (options : Options) (fs : List Function) : List Function :=
  fs.filter fun f => f.isMethod && !options.skips f.deprecated

/-- A method with the interface that declares it. -/
structure Inherited where
  via : EntityRef
  method : Function

namespace Namespace

/-- The methods of an interface that are not left out. -/
def interfaceMethods (ns : Namespace) (options : Options) (via : EntityRef) : List Inherited :=
  match ns.interface? via with
  | some i => (options.instanceMethods i.methods).map (⟨via, ·⟩)
  | none => []

/-- The methods that a type with functions of its own gets from interfaces. -/
def inherited (ns : Namespace) (options : Options) (own : List Function)
    (interfaces : List EntityRef) : List Inherited :=
  freshBy (·.method.methodName) (methodNames own)
    (interfaces.flatMap (ns.interfaceMethods options))

/-- The item a function is: a member of `owner`, or an item of the namespace. -/
def originOf (ns : Namespace) (owner : Option EntityRef) (f : Function) : Origin :=
  match owner with
  | some r => .member r f.name
  | none => .item ns.name f.name

/-- The fragment of a function that is declared on `owner`, if on any type. -/
def functionFragment (ns : Namespace) (options : Options) (owner : Option EntityRef)
    (f : Function) : Generated Fragment := do
  let host ← synthesize (ns.scope options) f owner none
  return ⟨ns.originOf owner f, f.deprecated, if f.isMethod then .method host else .function host⟩

/-- The fragments of functions that are declared on `owner`. -/
def functionFragments (ns : Namespace) (options : Options) (owner : Option EntityRef)
    (fs : List Function) : Generated (List Fragment) :=
  (fs.filter fun f => !options.skips f.deprecated).mapM (ns.functionFragment options owner)

/-- The fragment of a method that `owner` gets from an interface. -/
def inheritedFragment (ns : Namespace) (options : Options) (owner : EntityRef) (m : Inherited) :
    Generated Fragment := do
  let host ← synthesize (ns.scope options) m.method (some owner) (some m.via)
  return ⟨.member owner m.method.name, m.method.deprecated, .method host⟩

/-- The fragments of the functions of a type, and of the methods it gets from interfaces. -/
def memberFragments (ns : Namespace) (options : Options) (owner : EntityRef)
    (own : List Function) (interfaces : List EntityRef) : Generated (List Fragment) := do
  let ofOwn ← ns.functionFragments options (some owner) own
  let ofInterfaces ←
    (ns.inherited options own interfaces).mapM (ns.inheritedFragment options owner)
  return ofOwn ++ ofInterfaces

/-- The signatures of instance methods as entries of an interface type. -/
def methodEntries (ns : Namespace) (options : Options) (owner : EntityRef)
    (fs : List Function) : Generated (List InterfaceEntry) :=
  (options.instanceMethods fs).mapM fun f => do
    let w ← Wrapper.ofFunction (ns.scope options) f (some owner) none
    return .method (← w.signature)

end Namespace

end Introspection
