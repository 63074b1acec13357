import Introspection.Conversion.Basic
import Introspection.Proofs.Support.Except

/-!
# `Introspection.Proofs.Conversion.Home`: conversions read the namespace of a scope only

A scope is handed to every function that spells a type or converts a value. None of them reads the
package in it: each gives the same under two scopes of one namespace, errors included. There is one
lemma for each function, in the order of the definitions, from the names in `Scope` to
`Argument.convert`.
-/

set_option autoImplicit false

namespace Introspection

open Introspection.Code

variable {s s' : Scope} (h : s.home = s'.home)

include h

/-! ### Names -/

namespace Scope

theorem isLocal_congr (home : String) : s.isLocal home = s'.isLocal home := by
  rw [isLocal, isLocal, h]

theorem typeName_congr (home name : String) : s.typeName home name = s'.typeName home name := by
  rw [typeName, typeName, isLocal_congr h]

theorem wrapFunction_congr (r : EntityRef) : s.wrapFunction r = s'.wrapFunction r := by
  rw [wrapFunction, wrapFunction, isLocal_congr h]

theorem wrap_congr (r : EntityRef) (handle : Expr) : s.wrap r handle = s'.wrap r handle := by
  rw [wrap, wrap, wrapFunction_congr h]

end Scope

/-! ### Host types -/

theorem namedHost_congr (r : EntityRef) (pointer isArg : Bool) :
    namedHost s r pointer isArg = namedHost s' r pointer isArg := by
  simp only [namedHost, Scope.typeName_congr h]

namespace TypeDesc

theorem elementHostOr_congr (t : TypeDesc) (elsewhere : Generated GoType) :
    t.elementHostOr s elsewhere = t.elementHostOr s' elsewhere := by
  simp only [elementHostOr, namedElementHost, namedHost_congr h]

theorem resolveHostAs_congr : ∀ (t : TypeDesc) (isArg pointer : Bool),
    t.resolveHostAs s isArg pointer = t.resolveHostAs s' isArg pointer
  | mk tag own params entity array, isArg, pointer => by
    have ih : ∀ e ∈ params, ∀ isArg pointer : Bool,
        e.resolveHostAs s isArg pointer = e.resolveHostAs s' isArg pointer :=
      fun e _ => resolveHostAs_congr e
    unfold resolveHostAs
    -- No class of descriptors reads more than two elements.
    rcases params with _ | ⟨e, _ | ⟨e', rest⟩⟩
    · simp only [Scope.typeName_congr h, namedHost_congr h]
    · simp only [Scope.typeName_congr h, namedHost_congr h, elementHostOr_congr h,
        ih e List.mem_cons_self]
    · have hsecond : e' ∈ e :: e' :: rest := List.mem_cons_of_mem _ List.mem_cons_self
      simp only [Scope.typeName_congr h, namedHost_congr h, elementHostOr_congr h,
        ih e List.mem_cons_self, ih e' hsecond]

end TypeDesc

theorem resolveHost_congr (t : TypeDesc) (isArg : Bool) :
    resolveHost s t isArg = resolveHost s' t isArg :=
  t.resolveHostAs_congr h isArg t.pointer

theorem elementHost_congr (t : TypeDesc) : elementHost s t = elementHost s' t := by
  rw [elementHost, elementHost, TypeDesc.elementHostOr_congr h, resolveHost_congr h]

/-! ### Elements -/

namespace TypeDesc

variable (t : TypeDesc)

theorem heapCopy_congr (place : Expr) : t.heapCopy s place = t.heapCopy s' place := by
  simp only [heapCopy, Scope.wrap_congr h]

theorem wordOut_congr (w : Expr) : t.wordOut s w = t.wordOut s' w := by
  simp only [wordOut, resolveHost_congr h, elementHost_congr h, Scope.wrap_congr h]

theorem valueOut_congr (v : Expr) : t.valueOut s v = t.valueOut s' v := by
  simp only [valueOut, resolveHost_congr h, heapCopy_congr h, Scope.wrap_congr h]

end TypeDesc

/-! ### Values that come out -/

namespace Output

variable (o : Output) (t : TypeDesc)

theorem list_congr (k : ListKind) : o.list s k t = o.list s' k t := by
  simp only [list, TypeDesc.wordOut_congr h]

theorem hash_congr : o.hash s t = o.hash s' t := by
  simp only [hash, resolveHost_congr h, TypeDesc.wordOut_congr h]

theorem array_congr : o.array s t = o.array s' t := by
  simp only [array, resolveHost_congr h, TypeDesc.valueOut_congr h, TypeDesc.wordOut_congr h]

theorem named_congr : o.named s t = o.named s' t := by
  simp only [named, resolveHost_congr h, TypeDesc.heapCopy_congr h, Scope.wrap_congr h]

theorem scalar_congr : o.scalar s t = o.scalar s' t := by
  simp only [scalar, resolveHost_congr h]

theorem convert_congr : o.convert s t = o.convert s' t := by
  simp only [convert, scalar_congr h, named_congr h, array_congr h, list_congr h, hash_congr h]

end Output

/-! ### Arguments -/

namespace Argument

variable (a : Argument)

theorem hostParam_congr : a.hostParam s = a.hostParam s' := by
  simp only [hostParam, resolveHost_congr h]

theorem hostResult_congr : a.hostResult s = a.hostResult s' := by
  simp only [hostResult, resolveHost_congr h]

theorem convertBuffer_congr (p : ParamRole) : a.convertBuffer s p = a.convertBuffer s' p := by
  simp only [convertBuffer, Output.convert_congr h]

theorem convertStructure_congr : a.convertStructure s = a.convertStructure s' := by
  simp only [convertStructure, TypeDesc.heapCopy_congr h]

theorem convertInout_congr (p : ParamRole) : a.convertInout s p = a.convertInout s' p := by
  simp only [convertInout, Output.convert_congr h]

theorem convertOutput_congr (transfer : Transfer) (length : Option String) :
    a.convertOutput s transfer length = a.convertOutput s' transfer length := by
  simp only [convertOutput, Output.convert_congr h]

theorem convertParam_congr (p : ParamRole) : a.convertParam s p = a.convertParam s' p := by
  simp only [convertParam, convertInout_congr h, convertBuffer_congr h, convertStructure_congr h,
    convertOutput_congr h]

theorem convert_congr : a.convert s = a.convert s' := by
  simp only [convert, convertParam_congr h, convertOutput_congr h]

end Argument

end Introspection
