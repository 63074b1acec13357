import Introspection.Namespace.Basic

/-!
# `Introspection.Namespace.Validation`: checking a namespace

`Namespace.validate` finds the first fault of a namespace: a type descriptor that contradicts
itself, a reference to a registered type that does not exist or is of the wrong kind, a chain of
parents that never ends, or interfaces that require each other in a circle. Types come first,
then objects, then interfaces.

Both searches for cycles carry the names that have not been met yet. Meeting a name that is no
longer among them closes a cycle, and the list of names bounds the search.
-/

set_option autoImplicit false

namespace Introspection

open Introspection.Json

/-- Faults of the data. -/
inductive ModelError
  /-- The text is no namespace. -/
  | unreadable (e : DecodeError)
  | unknownEntity (owner : String) (reference : EntityRef)
  | wrongKind (owner : String) (reference : EntityRef) (expected found : EntityKind)
  | inheritanceCycle (entity : String)
  | prerequisiteCycle (entity : String)
  | malformedType (owner type : String) (defect : ShapeDefect)

/-- What a fault is called in a message. -/
def ModelError.message : ModelError → String
  | .unreadable e => "invalid namespace data: " ++ e.message
  | .unknownEntity owner reference =>
    "`" ++ owner ++ "` references `" ++ reference.text ++ "`, which is not defined"
  | .wrongKind owner reference expected found =>
    "`" ++ owner ++ "` expects " ++ expected.name ++ " `" ++ reference.text ++ "`, found "
      ++ found.name
  | .inheritanceCycle entity => "inheritance cycle through `" ++ entity ++ "`"
  | .prerequisiteCycle entity => "prerequisite cycle through `" ++ entity ++ "`"
  | .malformedType owner type defect =>
    "malformed type `" ++ type ++ "` in `" ++ owner ++ "`: " ++ defect.text

namespace Namespace

/-- A reference into this namespace must name one of its types. -/
def checkKnown (ns : Namespace) (owner : String) (r : EntityRef) : Except ModelError Unit :=
  if r.home = ns.name ∧ (ns.lookup r).isNone then .error (.unknownEntity owner r) else .ok ()

/-- A reference must be of the expected kind, and known. -/
def checkKind (ns : Namespace) (owner : String) (expected : EntityKind) (r : EntityRef) :
    Except ModelError Unit :=
  if r.kind = expected then ns.checkKnown owner r
  else .error (.wrongKind owner r expected r.kind)

/-- A type descriptor must be free of contradictions, and every reference in it known. -/
def checkOccurrence (ns : Namespace) (o : Occurrence) : Except ModelError Unit :=
  match o.type.shapeDefect with
  | some defect => .error (.malformedType o.path o.type.text defect)
  | none => (o.type.nodes.filterMap (·.entity)).forM (ns.checkKnown o.path)

/-- Erasing one of its members shortens a list. -/
theorem length_erase_lt {name : String} {fresh : List String} (h : name ∈ fresh) :
    (fresh.erase name).length < fresh.length := by
  have hpos := List.length_pos_of_mem h
  rw [List.length_erase_of_mem h]
  omega

/-- Follows the parents of an object inside the namespace as long as they are in `fresh`. -/
def chainEnds (ns : Namespace) (fresh : List String) (o : Object) : Bool :=
  match o.parent.bind ns.object? with
  | none => true
  | some parent =>
    if _h : parent.name ∈ fresh then ns.chainEnds (fresh.erase parent.name) parent else false
termination_by fresh.length
decreasing_by exact length_erase_lt _h

/-- The parents of an object must come to an end. -/
def checkInheritance (ns : Namespace) (o : Object) : Except ModelError Unit :=
  if ns.chainEnds (ns.objects.names.erase o.name) o then .ok ()
  else .error (.inheritanceCycle (ns.name ++ "." ++ o.name))

/-- References and parents of an object. -/
def checkObject (ns : Namespace) (o : Object) : Except ModelError Unit := do
  let owner := ns.name ++ "." ++ o.name
  o.parent.forM (ns.checkKind owner .object)
  o.interfaces.forM (ns.checkKind owner .interface)
  ns.checkInheritance o

/-- A prerequisite must be an interface or an object, and known. -/
def checkPrerequisite (ns : Namespace) (owner : String) (r : EntityRef) : Except ModelError Unit :=
  if r.kind = .interface ∨ r.kind = .object then ns.checkKnown owner r
  else .error (.wrongKind owner r .interface r.kind)

/-- Walks the prerequisites of an interface inside the namespace, depth first. `fresh` holds the
names of the interfaces that are not on the path from the start. -/
def checkAcyclic (ns : Namespace) (fresh : List String) (i : Interface) :
    Except ModelError Unit :=
  if _h : i.name ∈ fresh then
    (i.prerequisites.filterMap ns.interface?).forM (ns.checkAcyclic (fresh.erase i.name))
  else .error (.prerequisiteCycle (ns.name ++ "." ++ i.name))
termination_by fresh.length
decreasing_by exact length_erase_lt _h

/-- References and prerequisites of an interface. -/
def checkInterface (ns : Namespace) (i : Interface) : Except ModelError Unit := do
  i.prerequisites.forM (ns.checkPrerequisite (ns.name ++ "." ++ i.name))
  ns.checkAcyclic ns.interfaces.names i

/-- The first fault of the namespace, if there is one. -/
def validate (ns : Namespace) : Except ModelError Unit := do
  ns.occurrences.forM ns.checkOccurrence
  ns.objects.entries.forM ns.checkObject
  ns.interfaces.entries.forM ns.checkInterface

/-- Reads a namespace from a text without checking it. -/
def parse (text : String) : Except ModelError Namespace :=
  (codec.ofText text).mapError .unreadable

/-- Reads a namespace from a text and checks it. -/
def load (text : String) : Except ModelError Namespace := do
  let ns ← parse text
  ns.validate
  return ns

/-- The namespace as JSON on many lines. -/
def pretty (ns : Namespace) : String := (codec.encode ns).pretty

/-- The namespace as JSON on one line. -/
def compact (ns : Namespace) : String := (codec.encode ns).compact

end Namespace

end Introspection
