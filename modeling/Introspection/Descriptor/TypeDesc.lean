import Introspection.Descriptor.Tag
import Introspection.Naming

/-!
# `Introspection.Descriptor.TypeDesc`: type descriptors

A `TypeDesc` describes one occurrence of a type: of an argument, a result, a field or an
element of a container. Registered types are named by an `EntityRef`; a descriptor never holds
the registered type itself, so it is a finite tree whatever the data.

Descriptors are taken from the data as they are, so that their parts may contradict each other.
`TypeDesc.shapeDefect` finds the first contradiction, outermost first.
-/

set_option autoImplicit false

namespace Introspection

/-- Reference to a registered type, possibly of another namespace. -/
structure EntityRef where
  /-- Namespace that registers the type. -/
  home : String
  name : String
  kind : EntityKind
  deriving DecidableEq

namespace EntityRef

/-- The reference as it is shown: `Gtk.Button`. -/
def text (r : EntityRef) : String := r.home ++ "." ++ r.name

/-- Name of the native type: `GtkButton`, `GObject`. -/
def nativeName (r : EntityRef) : String := Naming.typePrefix r.home ++ r.name

end EntityRef

/-- What is known of an array besides the type of its elements. -/
structure ArrayInfo where
  storage : ArrayStorage
  /-- Position of the argument that carries the number of elements. -/
  length : Option UInt64
  /-- Number of elements, when it never changes. -/
  fixedSize : Option UInt64
  zeroTerminated : Bool
  deriving DecidableEq

/-- An array of which nothing but the storage is known. -/
def ArrayInfo.ofStorage (storage : ArrayStorage) : ArrayInfo := ⟨storage, none, none, false⟩

/-- Descriptor of one occurrence of a type. -/
inductive TypeDesc
  /-- `pointer` tells whether the native value is reached through one more indirection, `params`
  holds the types of elements, keys and values. -/
  | mk (tag : Tag) (pointer : Bool) (params : List TypeDesc) (entity : Option EntityRef)
      (array : Option ArrayInfo)

/-- Contradictions between the parts of a descriptor. -/
inductive ShapeDefect
  | elementCount
  | entityMissing
  | arrayInfoMissing
  | arrayInfoMisplaced
  deriving DecidableEq

/-- How a message names a contradiction. -/
def ShapeDefect.text : ShapeDefect → String
  | elementCount => "wrong number of element types"
  | entityMissing => "named type without entity reference"
  | arrayInfoMissing => "array without array info"
  | arrayInfoMisplaced => "array info on a non-array type"

namespace TypeDesc

/-- Kind of the type. -/
def tag : TypeDesc → Tag
  | mk tag _ _ _ _ => tag

/-- Whether the native value is reached through one more indirection. -/
def pointer : TypeDesc → Bool
  | mk _ pointer _ _ _ => pointer

/-- Types of the elements. -/
def params : TypeDesc → List TypeDesc
  | mk _ _ params _ _ => params

/-- The registered type that is named. -/
def entity : TypeDesc → Option EntityRef
  | mk _ _ _ entity _ => entity

/-- What is known of an array. -/
def array : TypeDesc → Option ArrayInfo
  | mk _ _ _ _ array => array

/-- Class of the type's tag. -/
def view (t : TypeDesc) : TagClass := t.tag.view

/-- A type without elements. -/
def ofTag (tag : Tag) : TypeDesc := mk tag false [] none none

/-- The absence of a value. -/
def void : TypeDesc := ofTag .void

/-- Behind one indirection. -/
def toPointer : TypeDesc → TypeDesc
  | mk tag _ params entity array => mk tag true params entity array

/-- Without the indirection. -/
def byValue : TypeDesc → TypeDesc
  | mk tag _ params entity array => mk tag false params entity array

/-- A text. -/
def utf8 : TypeDesc := (ofTag .utf8).toPointer

/-- An error record. -/
def error : TypeDesc := (ofTag .error).toPointer

/-- A registered type; all but enumerations are handled through pointers. -/
def named (r : EntityRef) : TypeDesc := mk .interface (r.kind != .enum) [] (some r) none

/-- An array of elements of one type. -/
def ofArray (info : ArrayInfo) (element : TypeDesc) : TypeDesc :=
  mk .array true [element] none (some info)

/-- A doubly linked list. -/
def list (element : TypeDesc) : TypeDesc := mk .glist true [element] none none

/-- A singly linked list. -/
def slist (element : TypeDesc) : TypeDesc := mk .gslist true [element] none none

/-- A hash table. -/
def hash (key value : TypeDesc) : TypeDesc := mk .ghash true [key, value] none none

/-- Whether there is no value at all. -/
def isVoid (t : TypeDesc) : Bool := t.tag == .void && !t.pointer

/-- Kind of the registered type that is named. -/
def entityKind (t : TypeDesc) : Option EntityKind := t.entity.map (·.kind)

/-- The contradiction between the parts of one descriptor, those of its elements left aside. -/
def ownDefect (t : TypeDesc) : Option ShapeDefect :=
  if t.params.length ≠ t.tag.arity then some .elementCount
  else if (t.tag == .interface) != t.entity.isSome then some .entityMissing
  else if t.tag == .array && t.array.isNone then some .arrayInfoMissing
  else if t.tag != .array && t.array.isSome then some .arrayInfoMisplaced
  else none

mutual

/-- The first contradiction in a descriptor or its elements, outermost first. -/
def shapeDefect : TypeDesc → Option ShapeDefect
  | mk tag pointer params entity array =>
    (ownDefect (mk tag pointer params entity array)).or (shapeDefects params)

/-- The first contradiction in a list of descriptors. -/
def shapeDefects : List TypeDesc → Option ShapeDefect
  | [] => none
  | t :: ts => t.shapeDefect.or (shapeDefects ts)

end

mutual

/-- A descriptor and those of its elements, outermost first. -/
def nodes : TypeDesc → List TypeDesc
  | mk tag pointer params entity array =>
    mk tag pointer params entity array :: nodesOf params

/-- All descriptors inside a list of descriptors. -/
def nodesOf : List TypeDesc → List TypeDesc
  | [] => []
  | t :: ts => t.nodes ++ nodesOf ts

end

mutual

/-- The short form of a descriptor: `*glist<Gtk.Button>`. -/
def text : TypeDesc → String
  | mk tag pointer params entity array =>
    (if pointer then "*" else "")
      ++ (match entity, array with
        | some r, _ => r.text
        | none, some info => info.storage.label
        | none, none => tag.name)
      ++ (match params with
        | [] => ""
        | t :: ts => "<" ++ t.text ++ furtherTexts ts ++ ">")

/-- Short forms of further elements, each behind a comma. -/
def furtherTexts : List TypeDesc → String
  | [] => ""
  | t :: ts => ", " ++ t.text ++ furtherTexts ts

end

end TypeDesc

end Introspection
