/-!
# `Introspection.Descriptor.Tag`: kinds of types

The kinds of types that introspection data tells apart (`Tag`), how arrays are stored
(`ArrayStorage`) and which kinds of registered types there are (`EntityKind`), each with its
name in the data. `Tag.view` sorts the tags into the classes that share rules; the tables of names
`Tag.nativeName?` and `Tag.hostName?` are kept apart from the classes and cover some tags only.
-/

set_option autoImplicit false

namespace Introspection

/-- Kind of a type. -/
inductive Tag
  | void
  | boolean
  | int8
  | uint8
  | int16
  | uint16
  | int32
  | uint32
  | int64
  | uint64
  | float
  | double
  | gtype
  | utf8
  | filename
  | array
  | interface
  | glist
  | gslist
  | ghash
  | error
  | unichar
  deriving DecidableEq

namespace Tag

/-- All tags in the order of the data format. -/
def all : List Tag :=
  [.void, .boolean, .int8, .uint8, .int16, .uint16, .int32, .uint32, .int64, .uint64, .float,
    .double, .gtype, .utf8, .filename, .array, .interface, .glist, .gslist, .ghash, .error,
    .unichar]

/-- Name of a tag in the data. -/
def name : Tag → String
  | void => "void"
  | boolean => "boolean"
  | int8 => "int8"
  | uint8 => "uint8"
  | int16 => "int16"
  | uint16 => "uint16"
  | int32 => "int32"
  | uint32 => "uint32"
  | int64 => "int64"
  | uint64 => "uint64"
  | float => "float"
  | double => "double"
  | gtype => "gtype"
  | utf8 => "utf8"
  | filename => "filename"
  | array => "array"
  | interface => "interface"
  | glist => "glist"
  | gslist => "gslist"
  | ghash => "ghash"
  | error => "error"
  | unichar => "unichar"

/-- How many element types belong to a tag: one for arrays and lists, two for hash tables. -/
def arity : Tag → Nat
  | array => 1
  | glist => 1
  | gslist => 1
  | ghash => 2
  | _ => 0

/-- Whether values of the tag are texts. -/
def isString : Tag → Bool
  | utf8 => true
  | filename => true
  | _ => false

end Tag

/-- Numeric scalars, each with a direct counterpart in Go. -/
inductive Numeric
  | int8
  | uint8
  | int16
  | uint16
  | int32
  | uint32
  | int64
  | uint64
  | float
  | double
  | unichar
  deriving DecidableEq

/-- The two linked lists. -/
inductive ListKind
  | double
  | single
  deriving DecidableEq

/-- Name of the C type of a list. -/
def ListKind.nativeName : ListKind → String
  | double => "GList"
  | single => "GSList"

/-- What the C functions on a list start with. -/
def ListKind.symbol : ListKind → String
  | double => "g_list"
  | single => "g_slist"

/-- Classes of tags that share rules of resolution and conversion. -/
inductive TagClass
  | void
  /-- Numeric scalars. -/
  | basic (n : Numeric)
  | boolean
  /-- The run-time handle of a registered type. -/
  | typeHandle
  | string
  | array
  /-- References to registered types. -/
  | named
  | list (k : ListKind)
  | hash
  | error
  deriving DecidableEq

/-- Name of a class in reports. -/
def TagClass.name : TagClass → String
  | void => "Void"
  | basic _ => "Basic"
  | boolean => "Boolean"
  | typeHandle => "TypeHandle"
  | string => "String"
  | array => "Array"
  | named => "Named"
  | list _ => "List"
  | hash => "Hash"
  | error => "Error"

namespace Tag

/-- The class of a tag. -/
def view : Tag → TagClass
  | void => .void
  | boolean => .boolean
  | int8 => .basic .int8
  | uint8 => .basic .uint8
  | int16 => .basic .int16
  | uint16 => .basic .uint16
  | int32 => .basic .int32
  | uint32 => .basic .uint32
  | int64 => .basic .int64
  | uint64 => .basic .uint64
  | float => .basic .float
  | double => .basic .double
  | gtype => .typeHandle
  | utf8 => .string
  | filename => .string
  | array => .array
  | interface => .named
  | glist => .list .double
  | gslist => .list .single
  | ghash => .hash
  | error => .error
  | unichar => .basic .unichar

/-- Name of the C type of a scalar. Nothing is said of the other tags. -/
def nativeName? : Tag → Option String
  | void => some "gpointer"
  | boolean => some "gboolean"
  | int8 => some "gint8"
  | uint8 => some "guint8"
  | int16 => some "gint16"
  | uint16 => some "guint16"
  | int32 => some "gint32"
  | uint32 => some "guint32"
  | int64 => some "gint64"
  | uint64 => some "guint64"
  | float => some "gfloat"
  | double => some "gdouble"
  | gtype => some "GType"
  | unichar => some "gunichar"
  | _ => none

/-- Name of the Go type of a number. Booleans, handles of types and what is no scalar have rules of
their own. -/
def hostName? : Tag → Option String
  | int8 => some "int8"
  | uint8 => some "uint8"
  | int16 => some "int16"
  | uint16 => some "uint16"
  | int32 => some "int32"
  | uint32 => some "uint32"
  | int64 => some "int64"
  | uint64 => some "uint64"
  | float => some "float32"
  | double => some "float64"
  | unichar => some "rune"
  | _ => none

end Tag

/-- How the elements of an array are stored. -/
inductive ArrayStorage
  /-- A plain C array: a pointer to the first element. -/
  | c
  /-- A growable array of elements of fixed size. -/
  | array
  /-- A growable array of pointer-sized words. -/
  | ptrArray
  /-- A growable array of bytes. -/
  | byteArray
  deriving DecidableEq

namespace ArrayStorage

/-- All kinds of storage in the order of the data format. -/
def all : List ArrayStorage := [.c, .array, .ptrArray, .byteArray]

/-- Name of a kind of storage in the data. -/
def name : ArrayStorage → String
  | c => "c"
  | array => "array"
  | ptrArray => "ptrarray"
  | byteArray => "bytearray"

/-- Name of a kind of storage in the short form of a descriptor. -/
def label : ArrayStorage → String
  | c => "C"
  | array => "Array"
  | ptrArray => "PtrArray"
  | byteArray => "ByteArray"

end ArrayStorage

/-- Kind of a registered type. Flags count as enumerations. -/
inductive EntityKind
  | enum
  | interface
  | object
  | struct
  | union
  deriving DecidableEq

namespace EntityKind

/-- All kinds in the order of the data format. -/
def all : List EntityKind := [.enum, .interface, .object, .struct, .union]

/-- Name of a kind in the data. -/
def name : EntityKind → String
  | enum => "enum"
  | interface => "interface"
  | object => "object"
  | struct => "struct"
  | union => "union"

end EntityKind

end Introspection
