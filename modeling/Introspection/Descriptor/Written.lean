import Introspection.Descriptor.TypeDesc
import Introspection.Json.Codec

/-!
# `Introspection.Descriptor.Written`: descriptors as JSON

Codecs of references, array facts and type descriptors. A descriptor may be as deep as the data
format allows: every level of elements opens one object and one array, so reading descends on
the number of levels that are left.
-/

set_option autoImplicit false

namespace Introspection

open Introspection.Json

/-- Tags by their names. -/
def Tag.codec : Codec Tag := .choice Tag.name Tag.all

/-- Kinds of storage by their names. -/
def ArrayStorage.codec : Codec ArrayStorage := .choice ArrayStorage.name ArrayStorage.all

/-- Kinds of registered types by their names. -/
def EntityKind.codec : Codec EntityKind := .choice EntityKind.name EntityKind.all

/-- References as records. -/
def EntityRef.codec : Codec EntityRef :=
  .record "EntityRef"
    (.field (.required "namespace" .string)
      (.field (.required "name" .string)
        (.field (.required "kind" EntityKind.codec) .none)))
    (fun r => (r.home, r.name, r.kind, ()))
    (fun (home, name, kind, _) => ⟨home, name, kind⟩)

/-- Facts about an array as a record. -/
def ArrayInfo.codec : Codec ArrayInfo :=
  .record "ArrayInfo"
    (.field (.withDefault "type" ArrayStorage.codec .c)
      (.field (.maybe "length" .uint64)
        (.field (.maybe "fixed_size" .uint64)
          (.field (.withDefault "zero_terminated" .bool false) .none))))
    (fun a => (a.storage, a.length, a.fixedSize, a.zeroTerminated, ()))
    (fun (storage, length, fixedSize, zeroTerminated, _) =>
      ⟨storage, length, fixedSize, zeroTerminated⟩)

namespace TypeDesc

/-- A descriptor as a record, given the codec of its list of elements. -/
def codecWith (params : Codec (List TypeDesc)) : Codec TypeDesc :=
  .record "TypeInfo"
    (.field (.required "tag" Tag.codec)
      (.field (.withDefault "pointer" .bool false)
        (.field { name := "params", codec := params, default? := some [], hidden := List.isEmpty }
          (.field (.maybe "interface" EntityRef.codec)
            (.field (.maybe "array" ArrayInfo.codec) .none)))))
    (fun t => (t.tag, t.pointer, t.params, t.entity, t.array, ()))
    (fun (tag, pointer, params, entity, array, _) => .mk tag pointer params entity array)

mutual

/-- Writes a descriptor. -/
def encode : TypeDesc → Value
  | mk tag pointer params entity array =>
    (codecWith { encode := fun _ => .array (encodeAll params)
                 decode := fun _ _ => .error (.defect .tooDeep) }).encode
      (mk tag pointer params entity array)

/-- Writes the descriptors of a list. -/
def encodeAll : List TypeDesc → List Value
  | [] => []
  | t :: ts => t.encode :: encodeAll ts

end

/-- The elements of a descriptor when `levels` levels are left; `element` reads one. -/
def paramsCodec (levels : Nat) (element : Node → Decoded TypeDesc) : Codec (List TypeDesc) where
  encode ts := .array (encodeAll ts)
  decode _ node := node.decodeList levels element

/-- Reads a descriptor. Without a level left for elements there is nothing to read them with. -/
def decode : (levels : Nat) → Node → Decoded TypeDesc
  | 0, node => (codecWith (paramsCodec 0 fun _ => .error (.defect .tooDeep))).decode 0 node
  | 1, node => (codecWith (paramsCodec 0 fun _ => .error (.defect .tooDeep))).decode 1 node
  | levels + 2, node =>
    (codecWith (paramsCodec (levels + 1) (decode levels))).decode (levels + 2) node

/-- Descriptors as records. -/
def codec : Codec TypeDesc := ⟨encode, decode⟩

end TypeDesc

end Introspection
