import Introspection.Conversion.Argument
import Introspection.Conversion.Container

/-!
# `Introspection.Conversion.Basic`: code around a native call

For every argument of a native call, `Argument.convert` gives three pieces of code: `before`
declares and fills the native local, `release` gives back what that allocated, and `after`
converts what the call produced. Types without a rule for the direction in which the value
flows are refused.
-/

set_option autoImplicit false

namespace Introspection

open Introspection.Code
open Introspection.Text (natText)

/-- Code around a native call for one argument. -/
structure Conversion where
  /-- Runs before the call. -/
  before : List Stmt
  /-- Gives back what was allocated before the call. -/
  release : List Stmt
  /-- Runs after the call. -/
  after : List Stmt

/-- No code at all. -/
def Conversion.nothing : Conversion := ⟨[], [], []⟩

/-- Only a declaration. -/
def Conversion.ofBefore (s : Stmt) : Conversion := ⟨[s], [], []⟩

namespace Input

/-- A value of a registered type. -/
def named (i : Input) (nullable : Bool) (t : TypeDesc) : Generated (List Stmt) := do
  let native ← resolveNative t
  let handle := Expr.invoke i.host "Native"
  if (← t.entityOf).kind = .enum then
    if t.pointer then return [.define i.real (.cast native (.toUnsafe i.host))]
    else return [.define i.real (.convert native i.host)]
  else if !t.pointer then
    return [.define i.real (.deref (.cast (.pointer native) handle))]
  else if nullable then
    return [
        .declareOne i.real native,
        .block (.ifTrue (.notNil i.host)) [.assign i.realExpr (.cast native handle)] ]
  else return [.define i.real (.cast native handle)]

/-- A number or type handle. -/
def scalar (i : Input) (t : TypeDesc) : Generated Passing := do
  let native ← resolveNative t
  if t.pointer then return ⟨[.define i.real (.cast native (.toUnsafe i.host))], []⟩
  else return ⟨[.define i.real (.convert native i.host)], []⟩

/-- A host value of any type, as a native value. -/
def convert (i : Input) (nullable : Bool) (t : TypeDesc) : Generated Passing :=
  match t.view with
  | .void =>
    if t.pointer then .ok ⟨[.define i.real (.toGpointer i.host)], []⟩ else unsupported .input t
  | .basic _ => i.scalar t
  | .typeHandle => i.scalar t
  | .boolean =>
    if t.pointer then unsupported .input t
    else
      .ok
        ⟨[ .define i.real (.gboolean true),
           .block (.ifTrue (.not i.host)) [.assign i.realExpr (.gboolean false)] ], []⟩
  | .string =>
    .ok
      ⟨[.define i.real (.cast (.pointer (.native "gchar")) (.toUnsafe (.cString i.host)))],
        i.whenKept [.run (.free i.realExpr)]⟩
  | .named => do return ⟨← i.named nullable t, []⟩
  | .array => i.array t
  | .list k => i.list k t
  | .hash => i.hash t
  | .error => unsupported .input t

end Input

namespace Output

/-- A value of a registered type. -/
def named (scope : Scope) (o : Output) (t : TypeDesc) : Generated (List Stmt) := do
  let r ← t.entityOf
  match r.kind, t.pointer with
  | .enum, true =>
    return [.assign o.target (.cast (← resolveHost scope t false) (.toUnsafe o.real))]
  | .enum, false => return [.assign o.target (.convert (← resolveHost scope t false) o.real)]
  | _, true =>
    return [
        .block (.ifTrue (.notNil o.real))
          [.assign o.target (scope.wrap r (.toUnsafe o.real))] ]
  | .struct, false => return [.assign o.target (.deref (← t.heapCopy scope o.real))]
  | .union, false => return [.assign o.target (.deref (← t.heapCopy scope o.real))]
  | _, false => unsupported .valueOutput t

/-- A number or type handle. -/
def scalar (scope : Scope) (o : Output) (t : TypeDesc) : Generated (List Stmt) := do
  let host ← resolveHost scope t false
  if t.pointer then return [.assign o.target (.cast host (.toUnsafe o.real))]
  else return [.assign o.target (.convert host o.real)]

/-- A Go string copied from native characters. -/
def copied (e : Expr) : Expr := .goString (.cast (.pointer (.native "char")) (.toUnsafe e))

/-- A native value of any type, as a host value. -/
def convert (scope : Scope) (o : Output) (t : TypeDesc) : Generated (List Stmt) :=
  match t.view with
  | .void => .ok (if t.pointer then [.assign o.target (.toUnsafe o.real)] else [])
  | .basic _ => o.scalar scope t
  | .typeHandle => o.scalar scope t
  | .boolean =>
    if t.pointer then unsupported .output t
    else .ok [.assign o.target (.differs o.real (.nativeConst "FALSE"))]
  | .string =>
    .ok
      (.assign o.target (copied o.real)
        :: if o.transfer == .full then [.run (.gFree o.real)] else [])
  | .named => o.named scope t
  | .array => o.array scope t
  | .list k => o.list scope k t
  | .hash => o.hash scope t
  | .error =>
    .ok
      [ .assign o.target .nil,
        .block (.ifTrue (.notNil o.real))
          (.assign o.target
              (.call (.qualified "errors" "New") [copied (.member o.real "message")])
            :: if o.transfer == .full then [.run (.native "g_error_free" [o.real])] else []) ]

end Output

namespace Argument

/-- The native local as an expression. -/
def realExpr (a : Argument) : Expr := .inner a.nativeLocal

/-- The output of an argument, converted after the call. -/
def output (a : Argument) (transfer : Transfer) (length : Option Expr) : Output :=
  ⟨a.realExpr, a.nativeLocal, a.hostTarget, transfer, length⟩

/-- The handle of the instance, cast to the native type of the type that declares the method. -/
def convertReceiver (a : Argument) (via : Option EntityRef) : Generated Conversion := do
  let owner ← a.type.entityOf
  if owner.kind = .enum then
    return .ofBefore
      (.define a.nativeLocal (.toNative owner.nativeName (.host a.name)))
  else
    let native ← resolveNative (.named (via.getD owner))
    return .ofBefore (.define a.nativeLocal (.cast native (.invoke (.host a.name) "Native")))

/-- A parameter that the caller does not see. -/
def convertHidden (a : Argument) (direction : Direction) (hidden : Hidden) :
    Generated Conversion := do
  let native ← resolveNative a.type
  match hidden with
  | .lengthOf array =>
    if direction != .output then
      return .ofBefore (.define a.nativeLocal (.convert native (.len array)))
    else return .ofBefore (.declareOne a.nativeLocal native)
  | .skipped => return .ofBefore (.declareOne a.nativeLocal native)

/-- Whether the callee fills a structure that lives in the wrapper's frame. -/
def fillsStructure (a : Argument) (p : ParamRole) : Bool :=
  p.callerAllocates && a.type.pointer
    && (a.type.entityKind == some .struct || a.type.entityKind == some .union)

/-- A C array that the wrapper allocates and the callee fills. Without a fixed size the length of
the host slice decides how many elements there are. -/
def convertBuffer (scope : Scope) (a : Argument) (p : ParamRole) : Generated Conversion := do
  let info ← a.type.arrayInfoOf
  let native ← resolveNative (← a.type.elementOf)
  let count := match info.fixedSize with
    | some size => Expr.plain (natText size.toNat)
    | none => .len a.hostValue
  let after ←
    (a.output .none (some ((p.length.map Expr.inner).getD count))).convert scope a.type
  return {
    before := [.define a.nativeLocal (allocate native count)]
    release := [.run (.gFree a.realExpr)]
    after := after }

/-- A structure that the callee fills and that is copied to the heap afterwards. -/
def convertStructure (scope : Scope) (a : Argument) : Generated Conversion := do
  let type := a.type.byValue
  let native ← resolveNative type
  let copy ← type.heapCopy scope a.realExpr
  return {
    before := [.declareOne a.nativeLocal native]
    release := []
    after := [.assign a.hostTarget copy] }

/-- A value that is passed in and comes back. The callee may overwrite the local, so what has to
be given back is kept in a second one. -/
def convertInout (scope : Scope) (a : Argument) (p : ParamRole) : Generated Conversion := do
  let passed := a.nativeLocal ++ "_in"
  let input : Input := ⟨passed, a.hostValue, p.transfer⟩
  let passing ← input.convert p.nullable a.type
  let direct ← { input with real := a.nativeLocal }.convert p.nullable a.type
  let before :=
    if passing.release.isEmpty then direct.code
    else passing.code ++ [.define a.nativeLocal (.inner passed)]
  let after ← (a.output p.transfer (p.length.map Expr.inner)).convert scope a.type
  return ⟨before, passing.release, after⟩

/-- A value that only comes back. -/
def convertOutput (scope : Scope) (a : Argument) (transfer : Transfer) (length : Option String) :
    Generated Conversion := do
  let native ← resolveNative a.type
  let after ← (a.output transfer (length.map Expr.inner)).convert scope a.type
  return ⟨[.declareOne a.nativeLocal native], [], after⟩

/-- A parameter. -/
def convertParam (scope : Scope) (a : Argument) (p : ParamRole) : Generated Conversion :=
  match p.hidden, p.direction with
  | some hidden, direction => a.convertHidden direction hidden
  | none, .input => do
    let input : Input := ⟨a.nativeLocal, a.hostValue, p.transfer⟩
    let passing ← input.convert p.nullable a.type
    return ⟨passing.code, passing.release, []⟩
  | none, .inout => a.convertInout scope p
  | none, .output =>
    if a.fillsBuffer then a.convertBuffer scope p
    else if a.fillsStructure p then a.convertStructure scope
    else a.convertOutput scope p.transfer p.length

/-- The code around the call for an argument. -/
def convert (scope : Scope) (a : Argument) : Generated Conversion :=
  match a.role with
  | .receiver via => a.convertReceiver via
  | .param p => a.convertParam scope p
  | .result r =>
    if a.capturesReturn then a.convertOutput scope r.transfer r.length
    else .ok .nothing

end Argument

end Introspection
