import Introspection.Declaration.Getter
import Introspection.Proofs.Conversion.Home
import Introspection.Proofs.Wrapper.Coupling
import Introspection.Wrapper.HostFunction

/-!
# `Introspection.Proofs.Wrapper.Home`: wrappers and getters read the namespace of a scope only

A prepared function keeps the scope it was prepared under. So two of them differ when only the
packages of their scopes differ; what is made of them does not. The host function and the signature
of a function are the same under two scopes of one namespace, errors included, and so are the
getters of fields.
-/

set_option autoImplicit false

namespace Introspection

open Introspection.Code

variable {s s' : Scope} (h : s.home = s'.home)

include h

/-! ### Functions -/

namespace Wrapper

variable (f : Function) (owner via : Option EntityRef) (args : List Argument)

theorem pathOf_congr : pathOf s f owner = pathOf s' f owner := by
  simp only [pathOf, h]

theorem bareSignature_congr :
    (Wrapper.mk s f owner args).bareSignature = (Wrapper.mk s' f owner args).bareSignature := by
  simp only [bareSignature, Argument.hostParam_congr h, Argument.hostResult_congr h]
  rfl

theorem signature_congr :
    (Wrapper.mk s f owner args).signature = (Wrapper.mk s' f owner args).signature := by
  simp only [signature, path, pathOf_congr h, bareSignature_congr h]

theorem hostFunction_congr :
    (Wrapper.mk s f owner args).hostFunction = (Wrapper.mk s' f owner args).hostFunction := by
  simp only [hostFunction, path, pathOf_congr h, Argument.convert_congr h, bareSignature_congr h]
  rfl

/-- What is made of a prepared function is the same under both scopes if it is the same of all
functions that differ in nothing else. -/
theorem ofFunction_bind_congr {α : Type} {next : Wrapper → Generated α}
    (hnext : ∀ args, next ⟨s, f, owner, args⟩ = next ⟨s', f, owner, args⟩) :
    ofFunction s f owner via >>= next = ofFunction s' f owner via >>= next := by
  rw [ofFunction_eq, ofFunction_eq, pathOf_congr h]
  cases coupledArgs f with
  | error e => rfl
  | ok args => exact hnext _

end Wrapper

theorem synthesize_congr (f : Function) (owner via : Option EntityRef) :
    synthesize s f owner via = synthesize s' f owner via :=
  Wrapper.ofFunction_bind_congr h f owner via (Wrapper.hostFunction_congr h f owner)

/-! ### Getters -/

namespace FieldDecl

variable (owner : EntityRef) (f : FieldDecl)

theorem reading_congr : f.reading s owner = f.reading s' owner := by
  simp only [reading, Output.convert_congr h]

theorem getter?_congr : f.getter? s owner = f.getter? s' owner := by
  simp only [getter?, resolveHost_congr h, reading_congr h]

theorem getterFragment?_congr : f.getterFragment? s owner = f.getterFragment? s' owner := by
  simp only [getterFragment?, getter?_congr h]

end FieldDecl

theorem gettableFields_congr (owner : EntityRef) (taken : List String) (fields : List FieldDecl) :
    gettableFields s owner taken fields = gettableFields s' owner taken fields := by
  simp only [gettableFields, FieldDecl.getter?_congr h]

theorem getterFragments_congr (owner : EntityRef) (taken : List String)
    (fields : List FieldDecl) :
    getterFragments s owner taken fields = getterFragments s' owner taken fields := by
  simp only [getterFragments, gettableFields_congr h, FieldDecl.getterFragment?_congr h]

end Introspection
