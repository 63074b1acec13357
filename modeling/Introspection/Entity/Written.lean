import Introspection.Descriptor.Written
import Introspection.Entity.Registered

/-!
# `Introspection.Entity.Written`: entities as JSON

Codecs of functions, constants and registered types. Each is a record whose fields are written
in the order given here; fields with a default may be left out of a text.
-/

set_option autoImplicit false

namespace Introspection

open Introspection.Json

/-- Directions by their names. -/
def Direction.codec : Codec Direction := .choice Direction.name Direction.all

/-- Transfers by their names. -/
def Transfer.codec : Codec Transfer := .choice Transfer.name Transfer.all

/-- Parameters as records. -/
def Parameter.codec : Codec Parameter :=
  .record "ArgInfo"
    (.field (.required "name" .string)
      (.field (.required "type" TypeDesc.codec)
        (.field (.withDefault "direction" Direction.codec .input)
          (.field (.withDefault "transfer" Transfer.codec .none)
            (.field (.withDefault "nullable" .bool false)
              (.field (.withDefault "caller_allocates" .bool false)
                (.field (.withDefault "optional" .bool false)
                  (.field (.withDefault "skip" .bool false) .none))))))))
    (fun p => (p.name, p.type, p.direction, p.transfer, p.nullable, p.callerAllocates,
      p.optional, p.skip, ()))
    (fun (name, type, direction, transfer, nullable, callerAllocates, optional, skip, _) =>
      ⟨name, type, direction, transfer, nullable, callerAllocates, optional, skip⟩)

/-- Roles as a record of truth values. -/
def FunctionFlags.codec : Codec FunctionFlags :=
  .record "FunctionFlags"
    (.field (.withDefault "is_method" .bool false)
      (.field (.withDefault "is_constructor" .bool false)
        (.field (.withDefault "is_getter" .bool false)
          (.field (.withDefault "is_setter" .bool false)
            (.field (.withDefault "wraps_vfunc" .bool false)
              (.field (.withDefault "throws" .bool false) .none))))))
    (fun f => (f.isMethod, f.isConstructor, f.isGetter, f.isSetter, f.wrapsVfunc, f.throws, ()))
    (fun (isMethod, isConstructor, isGetter, isSetter, wrapsVfunc, throws, _) =>
      ⟨isMethod, isConstructor, isGetter, isSetter, wrapsVfunc, throws⟩)

/-- Functions as records. -/
def Function.codec : Codec Function :=
  .record "FunctionInfo"
    (.field (.required "name" .string)
      (.field (.required "symbol" .string)
        (.field (.withDefault "flags" FunctionFlags.codec .plain)
          (.field (.withDefault "args" (.list Parameter.codec) [])
            (.field (.withDefault "return_type" TypeDesc.codec .void)
              (.field (.withDefault "return_transfer" Transfer.codec .none)
                (.field (.withDefault "may_return_null" .bool false)
                  (.field (.withDefault "skip_return" .bool false)
                    (.field (.withDefault "deprecated" .bool false) .none)))))))))
    (fun f => (f.name, f.symbol, f.flags, f.params, f.returnType, f.returnTransfer,
      f.mayReturnNull, f.skipReturn, f.deprecated, ()))
    (fun (name, symbol, flags, params, returnType, returnTransfer, mayReturnNull, skipReturn,
        deprecated, _) =>
      ⟨name, symbol, flags, params, returnType, returnTransfer, mayReturnNull, skipReturn,
        deprecated⟩)

/-- Signals as records. -/
def Signal.codec : Codec Signal :=
  .record "SignalInfo"
    (.field (.required "name" .string)
      (.field (.withDefault "args" (.list Parameter.codec) [])
        (.field (.withDefault "return_type" TypeDesc.codec .void)
          (.field (.withDefault "deprecated" .bool false) .none))))
    (fun s => (s.name, s.params, s.returnType, s.deprecated, ()))
    (fun (name, params, returnType, deprecated, _) => ⟨name, params, returnType, deprecated⟩)

/-- Virtual function slots as records. -/
def VirtualSlot.codec : Codec VirtualSlot :=
  .record "VFuncInfo"
    (.field (.required "name" .string)
      (.field (.withDefault "args" (.list Parameter.codec) [])
        (.field (.withDefault "return_type" TypeDesc.codec .void)
          (.field (.maybe "invoker" .string) .none))))
    (fun s => (s.name, s.params, s.returnType, s.invoker, ()))
    (fun (name, params, returnType, invoker, _) => ⟨name, params, returnType, invoker⟩)

/-- Properties as records. -/
def Property.codec : Codec Property :=
  .record "PropertyInfo"
    (.field (.required "name" .string)
      (.field (.required "type" TypeDesc.codec)
        (.field (.withDefault "readable" .bool true)
          (.field (.withDefault "writable" .bool false) .none))))
    (fun p => (p.name, p.type, p.readable, p.writable, ()))
    (fun (name, type, readable, writable, _) => ⟨name, type, readable, writable⟩)

/-- Fields as records. -/
def FieldDecl.codec : Codec FieldDecl :=
  .record "FieldInfo"
    (.field (.required "name" .string)
      (.field (.required "type" TypeDesc.codec)
        (.field (.withDefault "readable" .bool true)
          (.field (.withDefault "writable" .bool false) .none))))
    (fun f => (f.name, f.type, f.readable, f.writable, ()))
    (fun (name, type, readable, writable, _) => ⟨name, type, readable, writable⟩)

/-- The constant's value that a JSON value stands for. Whole numbers outside the range of
`Int64` become binary64 numbers. -/
def ConstantValue.ofValue? : Value → Option ConstantValue
  | .bool b => some (.bool b)
  | .integer n =>
    if Int64.minValue.toInt ≤ n ∧ n ≤ Int64.maxValue.toInt then some (.int (Int64.ofInt n))
    else (Decimal.Binary64.ofDecimal (n < 0) n.natAbs 0).map .float
  | .real x => some (.float x)
  | .string s => some (.string s)
  | _ => none

/-- Values of constants. The value is read completely before its kind is looked at. -/
def ConstantValue.codec : Codec ConstantValue where
  encode
    | .bool b => .bool b
    | .int n => .integer n.toInt
    | .float x => .real x
    | .string s => .string s
  decode levels node := do
    let v ← Codec.value.decode levels node
    match ofValue? v with
    | some c => .ok c
    | none => .error (.noVariant "ConstantValue")

/-- Constants as records. -/
def Constant.codec : Codec Constant :=
  .record "ConstantInfo"
    (.field (.required "name" .string)
      (.field (.required "type" TypeDesc.codec)
        (.field (.required "value" ConstantValue.codec)
          (.field (.withDefault "deprecated" .bool false) .none))))
    (fun c => (c.name, c.type, c.value, c.deprecated, ()))
    (fun (name, type, value, deprecated, _) => ⟨name, type, value, deprecated⟩)

/-- Members of enumerations as records. -/
def EnumValue.codec : Codec EnumValue :=
  .record "ValueInfo"
    (.field (.required "name" .string)
      (.field (.required "value" .int64)
        (.field (.maybe "c_identifier" .string)
          (.field (.withDefault "deprecated" .bool false) .none))))
    (fun v => (v.name, v.value, v.symbol, v.deprecated, ()))
    (fun (name, value, symbol, deprecated, _) => ⟨name, value, symbol, deprecated⟩)

/-- Enumerations as records. -/
def Enumeration.codec : Codec Enumeration :=
  .record "EnumInfo"
    (.field (.required "name" .string)
      (.field (.withDefault "storage" Tag.codec .int32)
        (.field (.withDefault "is_flags" .bool false)
          (.field (.required "values" (.list EnumValue.codec))
            (.field (.withDefault "methods" (.list Function.codec) [])
              (.field (.maybe "error_domain" .string)
                (.field (.withDefault "deprecated" .bool false) .none)))))))
    (fun e => (e.name, e.storage, e.isFlags, e.values, e.methods, e.errorDomain, e.deprecated, ()))
    (fun (name, storage, isFlags, values, methods, errorDomain, deprecated, _) =>
      ⟨name, storage, isFlags, values, methods, errorDomain, deprecated⟩)

/-- Interfaces as records. -/
def Interface.codec : Codec Interface :=
  .record "InterfaceInfo"
    (.field (.required "name" .string)
      (.field (.withDefault "prerequisites" (.list EntityRef.codec) [])
        (.field (.withDefault "methods" (.list Function.codec) [])
          (.field (.withDefault "signals" (.list Signal.codec) [])
            (.field (.withDefault "vfuncs" (.list VirtualSlot.codec) [])
              (.field (.withDefault "properties" (.list Property.codec) [])
                (.field (.withDefault "constants" (.list Constant.codec) [])
                  (.field (.withDefault "deprecated" .bool false) .none))))))))
    (fun i => (i.name, i.prerequisites, i.methods, i.signals, i.slots, i.properties, i.constants,
      i.deprecated, ()))
    (fun (name, prerequisites, methods, signals, slots, properties, constants, deprecated, _) =>
      ⟨name, prerequisites, methods, signals, slots, properties, constants, deprecated⟩)

/-- Objects as records. -/
def Object.codec : Codec Object :=
  .record "ObjectInfo"
    (.field (.required "name" .string)
      (.field (.maybe "parent" EntityRef.codec)
        (.field (.withDefault "interfaces" (.list EntityRef.codec) [])
          (.field (.withDefault "abstract" .bool false)
            (.field (.withDefault "fields" (.list FieldDecl.codec) [])
              (.field (.withDefault "methods" (.list Function.codec) [])
                (.field (.withDefault "signals" (.list Signal.codec) [])
                  (.field (.withDefault "vfuncs" (.list VirtualSlot.codec) [])
                    (.field (.withDefault "properties" (.list Property.codec) [])
                      (.field (.withDefault "constants" (.list Constant.codec) [])
                        (.field (.withDefault "deprecated" .bool false) .none)))))))))))
    (fun o => (o.name, o.parent, o.interfaces, o.isAbstract, o.fields, o.methods, o.signals,
      o.slots, o.properties, o.constants, o.deprecated, ()))
    (fun (name, parent, interfaces, isAbstract, fields, methods, signals, slots, properties,
        constants, deprecated, _) =>
      ⟨name, parent, interfaces, isAbstract, fields, methods, signals, slots, properties,
        constants, deprecated⟩)

/-- Structs as records. -/
def Struct.codec : Codec Struct :=
  .record "StructInfo"
    (.field (.required "name" .string)
      (.field (.withDefault "size" .uint64 0)
        (.field (.withDefault "alignment" .uint64 0)
          (.field (.withDefault "is_gtype_struct" .bool false)
            (.field (.withDefault "is_foreign" .bool false)
              (.field (.withDefault "fields" (.list FieldDecl.codec) [])
                (.field (.withDefault "methods" (.list Function.codec) [])
                  (.field (.withDefault "deprecated" .bool false) .none))))))))
    (fun s => (s.name, s.size, s.alignment, s.isClassStruct, s.isForeign, s.fields, s.methods,
      s.deprecated, ()))
    (fun (name, size, alignment, isClassStruct, isForeign, fields, methods, deprecated, _) =>
      ⟨name, size, alignment, isClassStruct, isForeign, fields, methods, deprecated⟩)

/-- Unions as records. -/
def Union.codec : Codec Union :=
  .record "UnionInfo"
    (.field (.required "name" .string)
      (.field (.withDefault "size" .uint64 0)
        (.field (.withDefault "alignment" .uint64 0)
          (.field (.withDefault "fields" (.list FieldDecl.codec) [])
            (.field (.withDefault "methods" (.list Function.codec) [])
              (.field (.withDefault "deprecated" .bool false) .none))))))
    (fun u => (u.name, u.size, u.alignment, u.fields, u.methods, u.deprecated, ()))
    (fun (name, size, alignment, fields, methods, deprecated, _) =>
      ⟨name, size, alignment, fields, methods, deprecated⟩)

end Introspection
