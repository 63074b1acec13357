import Introspection.Code.GoType
import Introspection.Resolution.Shape

/-!
# `Introspection.Resolution.Native`: the type that crosses the call

`resolveNative` gives the C type, as generated code spells it, of the values that a descriptor
describes. A value that does not exist has no type.

Each descriptor on the way to the type is checked anew, and the names of scalars are looked up in a
table that does not have them all (`Tag.nativeName?`).
-/

set_option autoImplicit false

namespace Introspection

open Introspection.Code

/-- C type of a scalar by the table of names. -/
def TypeDesc.tableNative (t : TypeDesc) : Generated GoType :=
  match t.tag.nativeName? with
  | some name => .ok (.pointerIf t.pointer (.native name))
  | none => unsupported .nativeType t

/-- C type of the values that a descriptor describes. -/
def resolveNative : TypeDesc → Generated GoType
  | .mk tag pointer params entity array => do
    let t := TypeDesc.mk tag pointer params entity array
    t.check
    match tag.view with
    | .void => return if pointer then .gpointer else .void
    | .basic _ => t.tableNative
    | .boolean => t.tableNative
    | .typeHandle => t.tableNative
    | .string => return .pointer (.native "gchar")
    | .array =>
      match (← t.arrayInfoOf).storage with
      | .c =>
        match params with
        | [] => t.elementMissing
        | e :: _ =>
          match ← resolveNative e with
          | .void => unsupported .arrayElement t
          | element => return .pointer element
      | .array => return .pointer (.native "GArray")
      | .ptrArray => return .pointer (.native "GPtrArray")
      | .byteArray => return .pointer (.native "GByteArray")
    | .named => return .pointerIf pointer (.native (← t.entityOf).nativeName)
    | .list k => return .pointer (.native k.nativeName)
    | .hash => return .pointer (.native "GHashTable")
    | .error => return .pointer (.native "GError")

end Introspection
