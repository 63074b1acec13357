import Introspection.Descriptor.TypeDesc

/-!
# `Introspection.Entity.Callable`: functions and their parameters

What the data says about a native function: its parameters with the direction in which each
value flows and the ownership that changes hands, its result and its role. Methods,
constructors and free functions share one type. Signals and virtual function slots are kept for
inspection only.
-/

set_option autoImplicit false

namespace Introspection

/-- Things that are kept by name. -/
class Named (α : Type) where
  name : α → String

/-- Direction in which the value of a parameter flows. -/
inductive Direction
  | input
  | output
  | inout
  deriving DecidableEq

namespace Direction

/-- All directions in the order of the data format. -/
def all : List Direction := [.input, .output, .inout]

/-- Name of a direction in the data. -/
def name : Direction → String
  | input => "in"
  | output => "out"
  | inout => "inout"

end Direction

/-- Ownership that changes hands with a value. -/
inductive Transfer
  /-- The callee keeps everything. -/
  | none
  /-- The container changes hands, its elements stay where they were. -/
  | container
  /-- The container and its elements change hands. -/
  | full
  deriving DecidableEq

namespace Transfer

/-- All transfers in the order of the data format. -/
def all : List Transfer := [.none, .container, .full]

/-- Name of a transfer in the data. -/
def name : Transfer → String
  | none => "none"
  | container => "container"
  | full => "full"

end Transfer

/-- A parameter of a function. -/
structure Parameter where
  name : String
  type : TypeDesc
  direction : Direction
  transfer : Transfer
  /-- Null is an accepted value. -/
  nullable : Bool
  /-- The caller provides the storage of an output. -/
  callerAllocates : Bool
  /-- Null may be passed to discard an output. -/
  optional : Bool
  /-- Not part of the host signature. -/
  skip : Bool

/-- A plain input parameter. -/
def Parameter.ofType (name : String) (type : TypeDesc) : Parameter :=
  ⟨name, type, .input, .none, false, false, false, false⟩

/-- The roles of a function. -/
structure FunctionFlags where
  /-- Takes the owning entity as an implicit first argument. -/
  isMethod : Bool
  isConstructor : Bool
  isGetter : Bool
  isSetter : Bool
  wrapsVfunc : Bool
  /-- Reports failure through a final error slot. -/
  throws : Bool
  deriving DecidableEq

/-- No role at all. -/
def FunctionFlags.plain : FunctionFlags := ⟨false, false, false, false, false, false⟩

/-- A native function. -/
structure Function where
  name : String
  /-- Exported symbol. -/
  symbol : String
  flags : FunctionFlags
  params : List Parameter
  returnType : TypeDesc
  returnTransfer : Transfer
  mayReturnNull : Bool
  /-- The result carries no information and is dropped. -/
  skipReturn : Bool
  deprecated : Bool

namespace Function

instance : Named Function := ⟨Function.name⟩

/-- A function without parameters and result. -/
def ofSymbol (name symbol : String) : Function :=
  ⟨name, symbol, .plain, [], .void, .none, false, false, false⟩

/-- Whether the function takes an instance. -/
def isMethod (f : Function) : Bool := f.flags.isMethod

/-- Appends a parameter. -/
def withParam (f : Function) (p : Parameter) : Function := { f with params := f.params ++ [p] }

/-- Sets the result. -/
def returning (f : Function) (type : TypeDesc) (transfer : Transfer) : Function :=
  { f with returnType := type, returnTransfer := transfer }

end Function

/-- A signal of an interface or object. -/
structure Signal where
  name : String
  params : List Parameter
  returnType : TypeDesc
  deprecated : Bool

/-- A virtual function slot of an interface or object. -/
structure VirtualSlot where
  name : String
  params : List Parameter
  returnType : TypeDesc
  /-- Name of the method that calls the slot. -/
  invoker : Option String

end Introspection
