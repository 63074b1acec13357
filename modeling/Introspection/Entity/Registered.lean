import Introspection.Decimal.Binary64
import Introspection.Entity.Callable

/-!
# `Introspection.Entity.Registered`: constants and registered types

Constants, enumerations, interfaces, objects, structs and unions with their members. Relations
between types (parents, implemented interfaces, prerequisites) are references, so that cycles in
the data are no cycles of values. `Entity` is any one registered type.
-/

set_option autoImplicit false

namespace Introspection

open Introspection.Decimal

/-- Value of a constant. -/
inductive ConstantValue
  | bool (b : Bool)
  | int (n : Int64)
  | float (x : Binary64)
  | string (s : String)

/-- Name of the kind of a value in reports. -/
def ConstantValue.kindName : ConstantValue → String
  | bool _ => "Bool"
  | int _ => "Int"
  | float _ => "Float"
  | string _ => "String"

/-- A constant. -/
structure Constant where
  name : String
  type : TypeDesc
  value : ConstantValue
  deprecated : Bool

instance : Named Constant := ⟨Constant.name⟩

/-- A property of an interface or object. -/
structure Property where
  name : String
  type : TypeDesc
  readable : Bool
  writable : Bool

/-- A field of an object, a struct or a union. -/
structure FieldDecl where
  name : String
  type : TypeDesc
  readable : Bool
  writable : Bool

/-- A field that can be read and not written. -/
def FieldDecl.ofType (name : String) (type : TypeDesc) : FieldDecl := ⟨name, type, true, false⟩

/-- A member of an enumeration. -/
structure EnumValue where
  name : String
  value : Int64
  /-- Native constant; derived from the names when absent. -/
  symbol : Option String
  deprecated : Bool

/-- A member that names no native constant. -/
def EnumValue.ofInt (name : String) (value : Int64) : EnumValue := ⟨name, value, none, false⟩

/-- An enumeration or a set of flags. -/
structure Enumeration where
  name : String
  /-- Tag of the integer that stores a value. -/
  storage : Tag
  isFlags : Bool
  values : List EnumValue
  methods : List Function
  errorDomain : Option String
  deprecated : Bool

instance : Named Enumeration := ⟨Enumeration.name⟩

/-- An enumeration of the given members, stored in 32 bits. -/
def Enumeration.ofValues (name : String) (values : List EnumValue) : Enumeration :=
  ⟨name, .int32, false, values, [], none, false⟩

/-- An interface. -/
structure Interface where
  name : String
  /-- Types that every implementor must also be. -/
  prerequisites : List EntityRef
  methods : List Function
  signals : List Signal
  slots : List VirtualSlot
  properties : List Property
  constants : List Constant
  deprecated : Bool

instance : Named Interface := ⟨Interface.name⟩

/-- An object class. -/
structure Object where
  name : String
  parent : Option EntityRef
  interfaces : List EntityRef
  isAbstract : Bool
  fields : List FieldDecl
  methods : List Function
  signals : List Signal
  slots : List VirtualSlot
  properties : List Property
  constants : List Constant
  deprecated : Bool

instance : Named Object := ⟨Object.name⟩

/-- A struct. -/
structure Struct where
  name : String
  size : UInt64
  alignment : UInt64
  /-- Class or interface table of another entity. -/
  isClassStruct : Bool
  /-- Opaque type of a foreign library. -/
  isForeign : Bool
  fields : List FieldDecl
  methods : List Function
  deprecated : Bool

instance : Named Struct := ⟨Struct.name⟩

/-- A union. -/
structure Union where
  name : String
  size : UInt64
  alignment : UInt64
  fields : List FieldDecl
  methods : List Function
  deprecated : Bool

instance : Named Union := ⟨Union.name⟩

/-- Any one registered type. -/
inductive Entity
  | enum (e : Enumeration)
  | interface (i : Interface)
  | object (o : Object)
  | struct (s : Struct)
  | union (u : Union)

namespace Entity

/-- Name of the type. -/
def name : Entity → String
  | enum e => e.name
  | interface i => i.name
  | object o => o.name
  | struct s => s.name
  | union u => u.name

/-- Kind of the type. -/
def kind : Entity → EntityKind
  | enum _ => .enum
  | interface _ => .interface
  | object _ => .object
  | struct _ => .struct
  | union _ => .union

/-- Methods, constructors and static functions of the type. -/
def methods : Entity → List Function
  | enum e => e.methods
  | interface i => i.methods
  | object o => o.methods
  | struct s => s.methods
  | union u => u.methods

/-- Whether the type is deprecated. -/
def deprecated : Entity → Bool
  | enum e => e.deprecated
  | interface i => i.deprecated
  | object o => o.deprecated
  | struct s => s.deprecated
  | union u => u.deprecated

/-- The references that the type itself makes to others, in order. -/
def relations : Entity → List EntityRef
  | interface i => i.prerequisites
  | object o => o.parent.toList ++ o.interfaces
  | _ => []

end Entity

end Introspection
