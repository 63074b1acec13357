import Introspection.Conversion.Basic

/-!
# `Introspection.Wrapper.Basic`: one native function prepared for wrapping

A `Wrapper` holds the arguments of one native function in the order in which it takes them: the
instance of a method, the parameters, the error slot, and last the result.

An array whose descriptor names the argument that carries its length is coupled to it: the
length argument disappears from the host signature, and the array's code uses the length's
native local. Couplings are applied one after another, parameters first and the result last.
-/

set_option autoImplicit false

namespace Introspection

open Introspection.Code

namespace Argument

/-- The argument with the native local that holds its number of elements. -/
def withLength (a : Argument) (length : String) : Argument :=
  match a.role with
  | .receiver _ => a
  | .param p => { a with role := .param { p with length := some length } }
  | .result r => { a with role := .result { r with length := some length } }

/-- The argument as the number of elements of an array. -/
def asLengthOf (a : Argument) (array : Expr) : Argument :=
  match a.role with
  | .param p => { a with role := .param { p with hidden := some (.lengthOf array) } }
  | _ => a

end Argument

/-- Positions of an array and of the argument that carries its length. -/
structure Coupling where
  array : Nat
  length : Nat

/-- Applies a coupling to the arguments at its positions. -/
def Coupling.apply (args : List Argument) (c : Coupling) : List Argument :=
  match args[c.array]?, args[c.length]? with
  | some array, some length =>
    (args.modify c.array (·.withLength length.nativeLocal)).modify c.length
      (·.asLengthOf array.hostValue)
  | _, _ => args

/-- One native function prepared for wrapping. -/
structure Wrapper where
  scope : Scope
  function : Function
  /-- The type that the host function is declared on. -/
  owner : Option EntityRef
  args : List Argument

namespace Wrapper

/-- The instance a function takes, when it is a method of `owner`. -/
def receivers (f : Function) (owner via : Option EntityRef) : List Argument :=
  if f.isMethod then (owner.map fun o => Argument.receiver o via).toList else []

/-- The arguments of a function before arrays and lengths are coupled. -/
def rawArgs (f : Function) (owner via : Option EntityRef) : List Argument :=
  receivers f owner via ++ f.params.map Argument.ofParameter
    ++ (if f.flags.throws then [Argument.errorSlot] else []) ++ [Argument.ofResult f]

/-- The coupling that an array type asks for, when its argument stands at `position`. The length
is one of `count` parameters, the first of which stands at `first`. -/
def couplingOf (first count position : Nat) (t : TypeDesc) : Generated (List Coupling) :=
  match t.array.bind (·.length) with
  | none => .ok []
  | some index =>
    if index.toNat < count then .ok [⟨position, first + index.toNat⟩]
    else .error (.lengthOutOfRange index.toNat count)

/-- The couplings of the parameters from the one at `position` on. -/
def paramCouplings (first count : Nat) (position : Nat) :
    List Parameter → Generated (List Coupling)
  | [] => .ok []
  | p :: ps => do
    let here ← couplingOf first count position p.type
    return here ++ (← paramCouplings first count (position + 1) ps)

/-- All couplings of a function whose result stands at `last`. -/
def couplings (f : Function) (first last : Nat) : Generated (List Coupling) := do
  let ofParams ← paramCouplings first f.params.length first f.params
  return ofParams ++ (← couplingOf first f.params.length last f.returnType)

/-- Dotted name of a function in messages: `Gtk.Button.set_label`. -/
def pathOf (scope : Scope) (f : Function) (owner : Option EntityRef) : String :=
  match owner with
  | some o => o.text ++ "." ++ f.name
  | none => scope.home ++ "." ++ f.name

/-- Prepares a function that is declared on `owner`. With `via` it is a method of that interface,
declared on a type that implements it. -/
def ofFunction (scope : Scope) (f : Function) (owner via : Option EntityRef) :
    Generated Wrapper :=
  Generated.within (pathOf scope f owner) do
    let args := rawArgs f owner via
    let couplings ← couplings f (receivers f owner via).length (args.length - 1)
    return ⟨scope, f, owner, couplings.foldl Coupling.apply args⟩

/-- Dotted name in messages. -/
def path (w : Wrapper) : String := pathOf w.scope w.function w.owner

/-- Name of the host function. Methods keep their own name; what else belongs to a type has the
type's name in front. -/
def hostName (w : Wrapper) : String :=
  let name := Text.pascalCase w.function.name
  match w.owner with
  | some o => if w.function.isMethod then name else o.name ++ name
  | none => name

/-- Name, parameters and results; the result of the native function leads the results. -/
def bareSignature (w : Wrapper) : Generated Signature := do
  let params ← w.args.mapM (·.hostParam w.scope)
  let results ← w.args.reverse.mapM (·.hostResult w.scope)
  return ⟨w.hostName, params.filterMap id, results.filterMap id⟩

/-- The signature, with the function named in errors. -/
def signature (w : Wrapper) : Generated Signature := Generated.within w.path w.bareSignature

/-- The native call. Its result is kept if it means something. -/
def call (w : Wrapper) : Stmt :=
  let e := Expr.native w.function.symbol (w.args.filterMap Argument.callArg)
  match w.args.find? Argument.capturesReturn with
  | some result => .assign result.realExpr e
  | none => .run e

/-- Names of the results in the order of the signature. -/
def resultNames (w : Wrapper) : List String :=
  (w.args.reverse.filter Argument.isHostResult).map (·.name)

end Wrapper

end Introspection
