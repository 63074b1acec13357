import Introspection.Generation.Error

/-!
# `Introspection.Resolution.Shape`: descriptors that hold together

`TypeDesc.check` refuses a descriptor whose parts contradict each other and blames the innermost
one. The parts that a class of types relies on are fetched by `entityOf`, `arrayInfoOf` and
`elementOf`, which fail when they are not there.
-/

set_option autoImplicit false

namespace Introspection.TypeDesc

/-- The error for a contradiction found in a descriptor. -/
def defectError (t : TypeDesc) : ShapeDefect → GenerationError
  | .arrayInfoMissing => .missingArrayInfo t.text
  | defect => .malformedType t.text defect

mutual

/-- Refuses a descriptor that contradicts itself; elements are checked first. -/
def check : TypeDesc → Generated Unit
  | mk tag pointer params entity array => do
    checkAll params
    let t := mk tag pointer params entity array
    match t.shapeDefect with
    | none => return ()
    | some defect => throw (t.defectError defect)

/-- Checks descriptors from the first to the last. -/
def checkAll : List TypeDesc → Generated Unit
  | [] => return ()
  | t :: ts => do
    t.check
    checkAll ts

end

/-- The registered type that a descriptor names. -/
def entityOf (t : TypeDesc) : Generated EntityRef :=
  match t.entity with
  | some r => .ok r
  | none => .error (.malformedType t.text .entityMissing)

/-- The facts about an array. -/
def arrayInfoOf (t : TypeDesc) : Generated ArrayInfo :=
  match t.array with
  | some info => .ok info
  | none => .error (.missingArrayInfo t.text)

/-- A type of elements is asked for that is not there. -/
def elementMissing {α : Type} (t : TypeDesc) : Generated α :=
  .error (.malformedType t.text .elementCount)

/-- The type of the first elements, or of the keys. -/
def elementOf (t : TypeDesc) : Generated TypeDesc :=
  match t.params with
  | e :: _ => .ok e
  | [] => t.elementMissing

/-- The type of the values of a hash table. -/
def valueOf (t : TypeDesc) : Generated TypeDesc :=
  match t.params with
  | _ :: e :: _ => .ok e
  | _ => t.elementMissing

end Introspection.TypeDesc
