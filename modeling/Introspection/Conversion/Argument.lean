import Introspection.Code.Stmt
import Introspection.Resolution.Host

/-!
# `Introspection.Conversion.Argument`: values that cross a native call

An `Argument` is one value that crosses a native call, with the role it plays there: the
instance a method is called on, a parameter, or the result. The role decides where the value
stands in the host signature, what the native function is passed for it and how it is converted.

Every argument has a native local `real_<name>` in the body of the wrapper.
-/

set_option autoImplicit false

namespace Introspection

open Introspection.Code

/-- Where the converted value of an output goes. -/
inductive Binding
  /-- Through a pointer that the caller passes. -/
  | reference
  /-- To a named result. -/
  | result
  deriving DecidableEq

/-- Why a parameter is not part of the host signature. -/
inductive Hidden
  /-- It is passed as the native zero value. -/
  | skipped
  /-- It carries the number of elements of the array that the expression holds. -/
  | lengthOf (array : Expr)

/-- The role of a parameter. -/
structure ParamRole where
  direction : Direction
  transfer : Transfer
  nullable : Bool
  callerAllocates : Bool
  binding : Binding
  hidden : Option Hidden
  /-- Native local that holds the number of elements of an array. -/
  length : Option String

/-- The role of a result. -/
structure ReturnRole where
  transfer : Transfer
  nullable : Bool
  /-- The result is dropped. -/
  skipped : Bool
  /-- Native local that holds the number of elements of an array. -/
  length : Option String

/-- What a value is to the call that it crosses. -/
inductive Role
  /-- The instance of a method. With `via` the method belongs to that interface, and the handle
  is passed as the interface's native type. -/
  | receiver (via : Option EntityRef)
  | param (p : ParamRole)
  | result (r : ReturnRole)

/-- A value that crosses a native call. -/
structure Argument where
  /-- Host identifier. -/
  name : String
  type : TypeDesc
  role : Role

namespace Argument

/-- The instance of a method declared on `owner`, or on the interface `via` that it implements. -/
def receiver (owner : EntityRef) (via : Option EntityRef) : Argument :=
  ⟨"this", .named owner, .receiver via⟩

/-- A declared parameter. -/
def ofParameter (p : Parameter) : Argument :=
  ⟨Naming.hostIdent p.name, p.type,
    .param { direction := p.direction
             transfer := p.transfer
             nullable := p.nullable
             callerAllocates := p.callerAllocates
             binding := .reference
             hidden := if p.skip then some .skipped else none
             length := none }⟩

/-- The result of a function. -/
def ofResult (f : Function) : Argument :=
  ⟨"ret", f.returnType, .result ⟨f.returnTransfer, f.mayReturnNull, f.skipReturn, none⟩⟩

/-- The value of a field, read like a result. -/
def ofField (f : FieldDecl) : Argument := ⟨"ret", f.type, .result ⟨.none, true, false, none⟩⟩

/-- The final error slot of a function that reports failure. -/
def errorSlot : Argument :=
  ⟨"err", .error,
    .param { direction := .output
             transfer := .full
             nullable := false
             callerAllocates := false
             binding := .result
             hidden := none
             length := none }⟩

/-- Name of the native local. -/
def nativeLocal (a : Argument) : String := "real_" ++ a.name

/-- Whether this is the instance of a method. -/
def isReceiver (a : Argument) : Bool :=
  match a.role with
  | .receiver _ => true
  | _ => false

/-- Whether a value flows into the call. -/
def isInput (a : Argument) : Bool :=
  match a.role with
  | .receiver _ => true
  | .param p => p.direction != .output
  | .result _ => false

/-- Whether a value flows out of the call. -/
def isOutput (a : Argument) : Bool :=
  match a.role with
  | .receiver _ => false
  | .param p => p.direction != .input
  | .result r => !r.skipped && !a.type.isVoid

/-- Whether the result of the native call is kept. -/
def capturesReturn (a : Argument) : Bool :=
  match a.role with
  | .result _ => a.isOutput
  | _ => false

/-- Whether the value is a named result of the wrapper. -/
def isHostResult (a : Argument) : Bool :=
  match a.role with
  | .receiver _ => false
  | .param p => p.binding == .result
  | .result _ => a.isOutput

/-- The expression that reads the value on the host side. -/
def hostValue (a : Argument) : Expr :=
  match a.role with
  | .param p =>
    if p.direction != .input && p.binding == .reference then .paren (.deref (.host a.name))
    else .host a.name
  | _ => .host a.name

/-- The place that a converted output is assigned to. -/
def hostTarget (a : Argument) : Expr :=
  match a.role with
  | .param p => if p.binding == .reference then .deref (.host a.name) else .host a.name
  | _ => .host a.name

/-- Whether the callee fills a C array that the wrapper allocates. -/
def fillsBuffer (a : Argument) : Bool :=
  match a.role with
  | .param p =>
    p.callerAllocates && p.direction == .output && a.type.array.any (·.storage == .c)
  | _ => false

/-- The receiver that the host method declares. -/
def receiverDecl (a : Argument) : Option Variable :=
  if a.isReceiver then
    a.type.entity.map fun r =>
      ⟨a.name,
        match r.kind with
        | .enum => .plain r.name
        | .interface => .pointer (.plain (Text.lowerFirst r.name))
        | _ => .pointer (.plain r.name)⟩
  else none

/-- The entry of the host parameter list, if the value has one. -/
def hostParam (scope : Scope) (a : Argument) : Generated (Option Variable) :=
  match a.role with
  | .param p =>
    if p.hidden.isSome || p.binding == .result then .ok none
    else if p.direction == .input then do
      return some ⟨a.name, ← resolveHost scope a.type true⟩
    else do
      return some ⟨a.name, .pointer (← resolveHost scope a.type false)⟩
  | _ => .ok none

/-- The entry of the host result list, if the value has one. -/
def hostResult (scope : Scope) (a : Argument) : Generated (Option Variable) :=
  if a.isHostResult then do
    return some ⟨a.name, ← resolveHost scope a.type false⟩
  else .ok none

/-- What the native function is passed. -/
def callArg (a : Argument) : Option Expr :=
  match a.role with
  | .receiver _ => some (.inner a.nativeLocal)
  | .param p =>
    if p.direction == .input || a.fillsBuffer then some (.inner a.nativeLocal)
    else some (.address (.inner a.nativeLocal))
  | .result _ => none

end Argument

end Introspection
