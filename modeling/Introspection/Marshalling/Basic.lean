import Introspection.Conversion.Basic
import Introspection.Marshalling.Container

/-!
# `Introspection.Marshalling.Basic`: writing the code around a native call

The code around a call for one argument, written operation by operation: `Argument.marshal` issues
the operations for the code in front of the call, for what gives back what that allocated, and for
the code behind the call. Code in front of the call and behind it is written behind one tab, the
rest at the margin, from where it is moved to where it belongs.
-/

set_option autoImplicit false

namespace Introspection

open Introspection.Code
open Introspection.Text (natText)

namespace Input

/-- A value of a registered type. -/
def writeNamed (i : Input) (nullable : Bool) (t : TypeDesc) : Generated (List Op) := do
  let native ← resolveNative t
  let handle := Expr.invoke i.host "Native"
  if (← t.entityOf).kind = .enum then
    if t.pointer then return [.define i.real (.cast native (.toUnsafe i.host))]
    else return [.define i.real (.convert native i.host)]
  else if !t.pointer then
    return [.define i.real (.deref (.cast (.pointer native) handle))]
  else if nullable then
    return [
        .declare [i.real] native,
        .enter (.ifTrue (.notNil i.host)),
        .assign i.realExpr (.cast native handle),
        .leave ]
  else return [.define i.real (.cast native handle)]

/-- A number or type handle. -/
def writeScalar (i : Input) (t : TypeDesc) : Generated Sink := do
  let native ← resolveNative t
  if t.pointer then return ⟨[.define i.real (.cast native (.toUnsafe i.host))], []⟩
  else return ⟨[.define i.real (.convert native i.host)], []⟩

/-- A host value of any type, as a native value. -/
def write (i : Input) (nullable : Bool) (t : TypeDesc) : Generated Sink :=
  match t.view with
  | .void =>
    if !t.pointer then unsupported .input t
    else .ok ⟨[.define i.real (.toGpointer i.host)], []⟩
  | .basic _ => i.writeScalar t
  | .typeHandle => i.writeScalar t
  | .boolean =>
    if t.pointer then unsupported .input t
    else
      .ok
        ⟨[ .define i.real (.gboolean true),
           .enter (.ifTrue (.not i.host)),
           .assign i.realExpr (.gboolean false),
           .leave ], []⟩
  | .string =>
    .ok
      ⟨[.define i.real (.cast (.pointer (.native "gchar")) (.toUnsafe (.cString i.host)))],
        if i.keeps then [.eval (.free i.realExpr)] else []⟩
  | .named => do return ⟨← i.writeNamed nullable t, []⟩
  | .array => i.writeArray t
  | .list k => i.writeList k t
  | .hash => i.writeHash t
  | .error => unsupported .input t

end Input

namespace Output

/-- A value of a registered type. -/
def writeNamed (scope : Scope) (o : Output) (t : TypeDesc) : Generated (List Op) := do
  let r ← t.entityOf
  match r.kind, t.pointer with
  | .enum, true =>
    return [.assign o.target (.cast (← resolveHost scope t false) (.toUnsafe o.real))]
  | .enum, false => return [.assign o.target (.convert (← resolveHost scope t false) o.real)]
  | _, true =>
    return [
        .enter (.ifTrue (.notNil o.real)),
        .assign o.target (scope.wrap r (.toUnsafe o.real)),
        .leave ]
  | .struct, false => return [.assign o.target (.deref (← t.heapCopy scope o.real))]
  | .union, false => return [.assign o.target (.deref (← t.heapCopy scope o.real))]
  | _, false => unsupported .valueOutput t

/-- A number or type handle. -/
def writeScalar (scope : Scope) (o : Output) (t : TypeDesc) : Generated (List Op) := do
  let host ← resolveHost scope t false
  if t.pointer then return [.assign o.target (.cast host (.toUnsafe o.real))]
  else return [.assign o.target (.convert host o.real)]

/-- A native value of any type, as a host value. -/
def write (scope : Scope) (o : Output) (t : TypeDesc) : Generated (List Op) :=
  match t.view with
  | .void => .ok (if t.pointer then [.assign o.target (.toUnsafe o.real)] else [])
  | .basic _ => o.writeScalar scope t
  | .typeHandle => o.writeScalar scope t
  | .boolean =>
    if t.pointer then unsupported .output t
    else .ok [.assign o.target (.differs o.real (.nativeConst "FALSE"))]
  | .string =>
    .ok
      ([.assign o.target (copied o.real)]
        ++ if o.transfer == .full then [.eval (.gFree o.real)] else [])
  | .named => o.writeNamed scope t
  | .array => o.writeArray scope t
  | .list k => o.writeList scope k t
  | .hash => o.writeHash scope t
  | .error =>
    .ok
      ([ .assign o.target .nil,
         .enter (.ifTrue (.notNil o.real)),
         .assign o.target
           (.call (.qualified "errors" "New") [copied (.member o.real "message")]) ]
        ++ (if o.transfer == .full then [.eval (.native "g_error_free" [o.real])] else [])
        ++ [.leave])

end Output

/-- What is written around a native call for one argument. -/
structure Marshal where
  before : List Op
  release : List Op
  after : List Op

namespace Marshal

/-- The code in front of the call. -/
def beforeText (m : Marshal) : String := Op.written 1 m.before

/-- The code that gives back what was allocated, at the margin. -/
def releaseText (m : Marshal) : String := Op.written 0 m.release

/-- The code behind the call. -/
def afterText (m : Marshal) : String := Op.written 1 m.after

/-- Nothing is written. -/
def nothing : Marshal := ⟨[], [], []⟩

/-- Only a declaration. -/
def ofBefore (op : Op) : Marshal := ⟨[op], [], []⟩

end Marshal

namespace Argument

/-- The handle of the instance, cast to the native type of the type that declares the method. -/
def marshalReceiver (a : Argument) (via : Option EntityRef) : Generated Marshal := do
  let owner ← a.type.entityOf
  if owner.kind = .enum then
    return .ofBefore (.define a.nativeLocal (.toNative owner.nativeName (.host a.name)))
  else
    let native ← resolveNative (.named (via.getD owner))
    return .ofBefore (.define a.nativeLocal (.cast native (.invoke (.host a.name) "Native")))

/-- A parameter that the caller does not see. -/
def marshalHidden (a : Argument) (direction : Direction) (hidden : Hidden) :
    Generated Marshal := do
  let native ← resolveNative a.type
  match hidden with
  | .lengthOf array =>
    if direction != .output then
      return .ofBefore (.define a.nativeLocal (.convert native (.len array)))
    else return .ofBefore (.declare [a.nativeLocal] native)
  | .skipped => return .ofBefore (.declare [a.nativeLocal] native)

/-- A C array that the wrapper allocates and the callee fills. -/
def marshalBuffer (scope : Scope) (a : Argument) (p : ParamRole) : Generated Marshal := do
  let info ← a.type.arrayInfoOf
  let native ← resolveNative (← a.type.elementOf)
  let count := match info.fixedSize with
    | some size => Expr.plain (natText size.toNat)
    | none => .len a.hostValue
  let after ←
    (a.output .none (some ((p.length.map Expr.inner).getD count))).write scope a.type
  return {
    before := [.define a.nativeLocal (allocate native count)]
    release := [.eval (.gFree a.realExpr)]
    after := after }

/-- A structure that the callee fills and that is copied to the heap afterwards. -/
def marshalStructure (scope : Scope) (a : Argument) : Generated Marshal := do
  let type := a.type.byValue
  let native ← resolveNative type
  let copy ← type.heapCopy scope a.realExpr
  return {
    before := [.declare [a.nativeLocal] native]
    release := []
    after := [.assign a.hostTarget copy] }

/-- A value that is passed in and comes back. A second local keeps what has to be given back; when
that is nothing, the value is written into the local itself. -/
def marshalInout (scope : Scope) (a : Argument) (p : ParamRole) : Generated Marshal := do
  let passed := a.nativeLocal ++ "_in"
  let input : Input := ⟨passed, a.hostValue, p.transfer⟩
  let passing ← input.write p.nullable a.type
  let before ←
    if (Op.written 0 passing.release).isEmpty then
      ({ input with real := a.nativeLocal }.write p.nullable a.type).map Sink.code
    else .ok (passing.code ++ [.define a.nativeLocal (.inner passed)])
  let after ← (a.output p.transfer (p.length.map Expr.inner)).write scope a.type
  return ⟨before, passing.release, after⟩

/-- A value that only comes back. -/
def marshalOutput (scope : Scope) (a : Argument) (transfer : Transfer) (length : Option String) :
    Generated Marshal := do
  let native ← resolveNative a.type
  let after ← (a.output transfer (length.map Expr.inner)).write scope a.type
  return ⟨[.declare [a.nativeLocal] native], [], after⟩

/-- A parameter. -/
def marshalParam (scope : Scope) (a : Argument) (p : ParamRole) : Generated Marshal :=
  match p.hidden, p.direction with
  | some hidden, direction => a.marshalHidden direction hidden
  | none, .input => do
    let input : Input := ⟨a.nativeLocal, a.hostValue, p.transfer⟩
    let passing ← input.write p.nullable a.type
    return ⟨passing.code, passing.release, []⟩
  | none, .inout => a.marshalInout scope p
  | none, .output =>
    if a.fillsBuffer then a.marshalBuffer scope p
    else if a.fillsStructure p then a.marshalStructure scope
    else a.marshalOutput scope p.transfer p.length

/-- What is written around the call for an argument. -/
def marshal (scope : Scope) (a : Argument) : Generated Marshal :=
  match a.role with
  | .receiver via => a.marshalReceiver via
  | .param p => a.marshalParam scope p
  | .result r =>
    if a.capturesReturn then a.marshalOutput scope r.transfer r.length
    else .ok .nothing

end Argument

end Introspection
