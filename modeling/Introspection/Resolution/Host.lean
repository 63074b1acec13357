import Introspection.Generation.Scope
import Introspection.Resolution.Shape

/-!
# `Introspection.Resolution.Host`: the type that a Go program sees

`resolveHost` gives the Go type of the values that a descriptor describes. Arguments are more
liberal than results: an object is accepted through the interface of its methods, so that any
subclass fits.

Elements of generic containers follow rules of their own. Whether an element is kept behind a
pointer is decided by the kind of the registered type (`storesPointer`), not by the element's
descriptor; a slot of a pointer array is always one indirection above the element.

Each descriptor on the way to the type is checked anew, and the names of numbers are looked up in a
table that does not have all tags (`Tag.hostName?`).
-/

set_option autoImplicit false

namespace Introspection

open Introspection.Code

/-- Go type of a registered type. Interfaces are references already. -/
def namedHost (scope : Scope) (r : EntityRef) (pointer isArg : Bool) : GoType :=
  match r.kind with
  | .object =>
    if isArg then scope.typeName r.home ("I" ++ r.name)
    else .pointerIf pointer (scope.typeName r.home r.name)
  | .interface => scope.typeName r.home r.name
  | _ => .pointerIf pointer (scope.typeName r.home r.name)

namespace TypeDesc

/-- Whether a container keeps an element behind a pointer: objects, structs and unions. -/
def storesPointer (t : TypeDesc) : Bool :=
  match t.entityKind with
  | some .object => true
  | some .struct => true
  | some .union => true
  | _ => false

/-- Go type of a registered type as an element of a generic container. -/
def namedElementHost (scope : Scope) (t : TypeDesc) : Generated GoType := do
  return .pointerIf t.storesPointer (namedHost scope (← t.entityOf) false false)

/-- Go type of an element of a generic container, given its type elsewhere. -/
def elementHostOr (scope : Scope) (t : TypeDesc) (elsewhere : Generated GoType) :
    Generated GoType :=
  if t.view = .named then t.namedElementHost scope else elsewhere

/-- Go type of a number by the table of names. -/
def tableHost (t : TypeDesc) : Generated GoType :=
  match t.tag.hostName? with
  | some name => .ok (.pointerIf t.pointer (.plain name))
  | none => unsupported .hostType t

/-- Go type of a descriptor with `pointer` in the place of its own indirection. Each element is
resolved, and so checked, on its own; a slot of a pointer array is resolved by value. -/
def resolveHostAs (scope : Scope) (isArg pointer : Bool) : TypeDesc → Generated GoType
  | mk tag _ params entity array => do
    let t := mk tag pointer params entity array
    t.check
    match tag.view with
    | .void => return if pointer then .unsafePointer else .void
    | .basic _ => t.tableHost
    | .boolean => return .pointerIf pointer (.plain "bool")
    | .typeHandle => return .pointerIf pointer (scope.typeName "GObject" "GType")
    | .string => return .plain "string"
    | .array =>
      match params with
      | [] => t.elementMissing
      | e :: _ =>
        match (← t.arrayInfoOf).storage with
        | .c => return .slice (← e.resolveHostAs scope false e.pointer)
        | .array => return .slice (← e.resolveHostAs scope false e.pointer)
        | .ptrArray => return .slice (.pointer (← e.resolveHostAs scope false false))
        | .byteArray => return .slice (.plain "byte")
    | .named => return namedHost scope (← t.entityOf) pointer isArg
    | .list _ =>
      match params with
      | [] => t.elementMissing
      | e :: _ => return .slice (← e.elementHostOr scope (e.resolveHostAs scope false e.pointer))
    | .hash =>
      match params with
      | k :: v :: _ =>
        let key ← k.elementHostOr scope (k.resolveHostAs scope false k.pointer)
        let value ← v.elementHostOr scope (v.resolveHostAs scope false v.pointer)
        return .map key value
      | _ => t.elementMissing
    | .error => return .plain "error"

end TypeDesc

/-- Go type of the values that a descriptor describes; `isArg` tells whether they are passed as
arguments. -/
def resolveHost (scope : Scope) (t : TypeDesc) (isArg : Bool) : Generated GoType :=
  t.resolveHostAs scope isArg t.pointer

/-- Go type of an element of a generic container. -/
def elementHost (scope : Scope) (t : TypeDesc) : Generated GoType :=
  t.elementHostOr scope (resolveHost scope t false)

/-- Go type of a slot of a pointer array. -/
def pointerSlotHost (scope : Scope) (t : TypeDesc) : Generated GoType := do
  return .pointer (← resolveHost scope t.byValue false)

end Introspection
