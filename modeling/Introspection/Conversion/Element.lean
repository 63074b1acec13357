import Introspection.Code.Expr
import Introspection.Resolution.Host
import Introspection.Resolution.Native

/-!
# `Introspection.Conversion.Element`: elements of containers

Lists, hash tables and pointer arrays hold one machine word for each element: `wordIn` boxes a
host value into a word, `wordOut` unboxes it. C arrays and dynamic arrays hold elements of their
native type: `valueIn` and `valueOut` convert between that and the host type.

Strings are the only elements that are copied on the way in (`isCopied`).
-/

set_option autoImplicit false

namespace Introspection

open Introspection.Code

namespace TypeDesc

/-- Whether storing an element allocates a copy that the container points to. -/
def isCopied (t : TypeDesc) : Bool := t.view == .string

/-- A handle that wraps a heap copy of the structure held in `place`. -/
def heapCopy (scope : Scope) (t : TypeDesc) (place : Expr) : Generated Expr := do
  return scope.wrap (← t.entityOf)
    (.native "g_memdup2"
      [.toNative "gconstpointer" (.toUnsafe (.address place)), .toNative "gsize" (.sizeOf place)])

/-- The word that a container holds for the host value `v`. -/
def wordIn (t : TypeDesc) (v : Expr) : Generated Expr :=
  let boxed := fun (e : Expr) => Expr.toGpointer (.toUnsafe e)
  match t.view with
  | .void => if t.pointer then .ok (.toGpointer v) else unsupported .containerElement t
  | .basic .float => .ok (boxed (.toWord (.call (.qualified "math" "Float32bits") [v])))
  | .basic .double => .ok (boxed (.toWord (.call (.qualified "math" "Float64bits") [v])))
  | .basic _ => .ok (boxed (.toWord v))
  | .typeHandle => .ok (boxed (.toWord v))
  | .boolean => .ok (boxed (.toWord (.builtin "toGboolean" [v])))
  | .string => .ok (boxed (.cString v))
  | .named => do
    match (← t.entityOf).kind with
    | .enum => return boxed (.toWord v)
    | _ => return .toGpointer (.invoke v "Native")
  | _ => unsupported .containerElement t

/-- The host value of the word `w` that a container holds. -/
def wordOut (scope : Scope) (t : TypeDesc) (w : Expr) : Generated Expr :=
  match t.view with
  | .void => if t.pointer then .ok (.toUnsafe w) else unsupported .containerElement t
  | .basic .float =>
    .ok (.call (.qualified "math" "Float32frombits") [.convert (.plain "uint32") (.toWord w)])
  | .basic .double =>
    .ok (.call (.qualified "math" "Float64frombits") [.convert (.plain "uint64") (.toWord w)])
  | .basic _ => do return .convert (← resolveHost scope t.byValue false) (.toWord w)
  | .typeHandle => do return .convert (← resolveHost scope t.byValue false) (.toWord w)
  | .boolean => .ok (.differs (.toWord w) (.plain "0"))
  | .string => .ok (.goString (.cast (.pointer (.native "char")) w))
  | .named => do
    let r ← t.entityOf
    match r.kind with
    | .enum => return .convert (← elementHost scope t) (.toWord w)
    | _ => return scope.wrap r (.toUnsafe w)
  | _ => unsupported .containerElement t

/-- The native value of the host value `v`. -/
def valueIn (t : TypeDesc) (v : Expr) : Generated Expr := do
  let native ← resolveNative t
  match t.view with
  | .void => if t.pointer then return .toGpointer v else unsupported .arrayElement t
  | .basic _ => if t.pointer then unsupported .arrayElement t else return .convert native v
  | .typeHandle => if t.pointer then unsupported .arrayElement t else return .convert native v
  | .boolean =>
    if t.pointer then unsupported .arrayElement t else return .builtin "toGboolean" [v]
  | .string => return .cast (.pointer (.native "gchar")) (.toUnsafe (.cString v))
  | .named =>
    match (← t.entityOf).kind with
    | .enum => if t.pointer then unsupported .arrayElement t else return .convert native v
    | _ =>
      if t.pointer then return .cast native (.invoke v "Native")
      else return .deref (.cast (.pointer native) (.invoke v "Native"))
  | _ => unsupported .arrayElement t

/-- The host value of the native value `v`. -/
def valueOut (scope : Scope) (t : TypeDesc) (v : Expr) : Generated Expr :=
  match t.view with
  | .void => if t.pointer then .ok (.toUnsafe v) else unsupported .arrayElement t
  | .basic _ =>
    if t.pointer then unsupported .arrayElement t
    else do return .convert (← resolveHost scope t false) v
  | .typeHandle =>
    if t.pointer then unsupported .arrayElement t
    else do return .convert (← resolveHost scope t false) v
  | .boolean =>
    if t.pointer then unsupported .arrayElement t
    else .ok (.differs v (.nativeConst "FALSE"))
  | .string => .ok (.goString (.cast (.pointer (.native "char")) (.toUnsafe v)))
  | .named => do
    let r ← t.entityOf
    match r.kind, t.pointer with
    | .enum, false => return .convert (← resolveHost scope t false) v
    | .enum, true => unsupported .arrayElement t
    | _, true => return scope.wrap r (.toUnsafe v)
    | .struct, false => return .deref (← t.heapCopy scope v)
    | .union, false => return .deref (← t.heapCopy scope v)
    | _, false => unsupported .arrayElement t
  | _ => unsupported .arrayElement t

/-- The value that ends a terminated array whose elements have the type `native`. -/
def terminator (t : TypeDesc) (native : GoType) : Generated Expr :=
  if native.isPointer || native.text == GoType.gpointer.text then .ok .nil
  else
    match t.view with
    | .basic _ => .ok (.plain "0")
    | .boolean => .ok (.plain "0")
    | .typeHandle => .ok (.plain "0")
    | .named => do
      if (← t.entityOf).kind = .enum then return .plain "0"
      else unsupported .terminatedElement t
    | _ => unsupported .terminatedElement t

end TypeDesc

end Introspection
