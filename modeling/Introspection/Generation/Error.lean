import Introspection.Descriptor.TypeDesc
import Introspection.Text.Digits

/-!
# `Introspection.Generation.Error`: why nothing was generated

Every error is fatal for the namespace that is generated. `GenerationError.within` says which
item was at work; `GenerationError.root` is the error below all such layers.
-/

set_option autoImplicit false

namespace Introspection

open Introspection.Text (natText)

/-- Places in which a type can lack a rule of conversion. -/
inductive Use
  | input
  | output
  | valueOutput
  | containerElement
  | arrayElement
  | terminatedElement
  | constant
  /-- The C type itself, by the table of names. -/
  | nativeType
  /-- The Go type itself, by the table of names. -/
  | hostType
  deriving DecidableEq

/-- How a message names a place. -/
def Use.text : Use → String
  | input => "input"
  | output => "output"
  | valueOutput => "by-value output"
  | containerElement => "container element"
  | arrayElement => "array element"
  | terminatedElement => "terminated array element"
  | constant => "constant"
  | nativeType => "native type"
  | hostType => "host type"

/-- Reasons why no code is generated. -/
inductive GenerationError
  /-- The parts of a type contradict each other. -/
  | malformedType (type : String) (defect : ShapeDefect)
  | missingArrayInfo (type : String)
  /-- Nothing tells the length of an output array. -/
  | unboundedArray (name : String)
  | lengthOutOfRange (index count : Nat)
  /-- There is no rule of conversion for the type in that place. -/
  | unsupported (use : Use) (type : String)
  /-- The error, with the item that was at work. -/
  | within (context : String) (cause : GenerationError)

namespace GenerationError

/-- What an error is called in a message. -/
def message : GenerationError → String
  | malformedType type defect => "malformed type `" ++ type ++ "`: " ++ defect.text
  | missingArrayInfo type => "array type `" ++ type ++ "` carries no array info"
  | unboundedArray name => "cannot determine the length of array `" ++ name ++ "`"
  | lengthOutOfRange index count =>
    "array length refers to argument " ++ natText index ++ ", but there are only "
      ++ natText count
  | unsupported use type => "no conversion for " ++ use.text ++ " of type `" ++ type ++ "`"
  | within context cause => context ++ ": " ++ cause.message

/-- The error below all contexts. -/
def root : GenerationError → GenerationError
  | within _ cause => cause.root
  | e => e

/-- The error one context further down. -/
def cause? : GenerationError → Option GenerationError
  | within _ cause => some cause
  | _ => none

end GenerationError

/-- Result of a step of generation. -/
abbrev Generated (α : Type) := Except GenerationError α

/-- Adds the item at work to an error. -/
def Generated.within {α : Type} (context : String) (r : Generated α) : Generated α :=
  r.mapError (.within context)

/-- There is no rule of conversion for a type in that place. -/
def unsupported {α : Type} (use : Use) (t : TypeDesc) : Generated α :=
  .error (.unsupported use t.text)

end Introspection
