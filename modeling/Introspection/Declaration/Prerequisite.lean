import Introspection.Namespace.Validation

/-!
# `Introspection.Declaration.Prerequisite`: interfaces that stand behind an interface

A type that implements an interface needs the methods of every interface that stands behind it.
Only the methods of interfaces of the namespace itself are known; others are left out.

`Namespace.closure` lists the interfaces behind an interface breadth first. It carries the
names that have not been met, so that each interface comes once and circles do no harm.
-/

set_option autoImplicit false

namespace Introspection.Namespace

/-- Those references that stand for interfaces whose methods are known. -/
def knownInterfaces (ns : Namespace) (refs : List EntityRef) : List EntityRef :=
  refs.filter fun r => r.kind == .interface && (ns.interface? r).isSome

/-- The known interfaces that an interface requires itself. -/
def required (ns : Namespace) (r : EntityRef) : List EntityRef :=
  match ns.interface? r with
  | some i => ns.knownInterfaces i.prerequisites
  | none => []

/-- Works off a queue of references; `fresh` holds the names that have not been met yet. -/
def spread (ns : Namespace) (fresh : List String) : List EntityRef → List EntityRef
  | [] => []
  | r :: queue =>
    if _h : r.name ∈ fresh then
      r :: ns.spread (fresh.erase r.name) (queue ++ ns.required r)
    else ns.spread fresh queue
termination_by queue => (fresh.length, queue.length)
decreasing_by
  · exact Prod.Lex.left _ _ (length_erase_lt _h)
  · exact Prod.Lex.right _ (by simp)

/-- The known interfaces behind an interface, nearest first, each once and without itself. -/
def closure (ns : Namespace) (i : Interface) : List EntityRef :=
  ns.spread (ns.interfaces.names.erase i.name) (ns.knownInterfaces i.prerequisites)

end Introspection.Namespace
