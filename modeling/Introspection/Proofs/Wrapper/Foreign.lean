import Introspection.Proofs.Conversion.Foreign
import Introspection.Proofs.Wrapper.Synthesis
import Introspection.Proofs.Wrapper.Token

/-!
# `Introspection.Proofs.Wrapper.Foreign`: names of other packages in host functions

A host function is put together from its arguments, so it takes only names from other packages that
its arguments do: `accounted_of_synthesize`. The native call adds the name of the native function,
which belongs to the C library.
-/

set_option autoImplicit false

namespace Introspection

open Introspection.Code
open Introspection.Code.Stmt

variable {scope : Scope} {R : EntityRef → Prop}

/-- Foreign references in the types of the function are among `R`. -/
def Function.RefersWithin (scope : Scope) (R : EntityRef → Prop) (f : Function) : Prop :=
  ∀ t, f.Uses t → t.RefersWithin scope R

/-! ### Arguments of a prepared function -/

namespace Argument

/-- Foreign references in the type are among `R`, and a length that is computed from an array is
computed from a name of the signature. -/
structure Accounted (scope : Scope) (R : EntityRef → Prop) (a : Argument) : Prop where
  type : a.type.RefersWithin scope R
  hidden : a.HiddenAccounted scope R

/-- What is no parameter carries no length. -/
theorem accounted_of_role_ne {a : Argument} (htype : a.type.RefersWithin scope R)
    (hrole : ∀ p, a.role ≠ .param p) : a.Accounted scope R :=
  ⟨htype, fun p _ h => absurd h (hrole p)⟩

theorem accounted_withLength {a : Argument} (length : String) (h : a.Accounted scope R) :
    (a.withLength length).Accounted scope R := by
  unfold withLength
  split
  next => exact h
  next p hrole =>
    refine ⟨h.type, fun q array hq hwhy => ?_⟩
    cases hq
    exact h.hidden p array hrole hwhy
  next => exact accounted_of_role_ne h.type (by simp)

theorem accounted_asLengthOf {a : Argument} (array : Argument) (h : a.Accounted scope R) :
    (a.asLengthOf array.hostValue).Accounted scope R := by
  unfold asLengthOf
  split
  · refine ⟨h.type, fun q source hq hwhy => ?_⟩
    cases hq
    cases hwhy
    exact array.accounted_hostValue
  · exact h

end Argument

/-- A descriptor that names no foreign type and has no elements. -/
theorem TypeDesc.refersWithin_of_params_eq_nil {t : TypeDesc} (hparams : t.params = [])
    (hentity : ∀ r, t.entity = some r → r.home = scope.home) : t.RefersWithin scope R := by
  intro s hs r hr hforeign
  cases hs with
  | self => exact absurd (hentity r hr) hforeign
  | element he _ =>
    rw [hparams] at he
    cases he

namespace Wrapper

variable {f : Function} {owner via : Option EntityRef} {w : Wrapper}

/-- The instance of a method belongs to the type that the method is declared on. -/
theorem accounted_receivers (howner : ∀ o ∈ owner, o.home = scope.home) :
    ∀ a ∈ receivers f owner via, a.Accounted scope R := by
  intro a ha
  unfold receivers at ha
  split at ha
  · cases owner with
    | none => cases ha
    | some o =>
      rw [List.mem_singleton.mp ha]
      refine Argument.accounted_of_role_ne
        (TypeDesc.refersWithin_of_params_eq_nil rfl fun r hr => ?_) (by simp [Argument.receiver])
      cases hr
      exact howner o rfl
  · cases ha

theorem accounted_ofParameter {p : Parameter} (h : p.type.RefersWithin scope R) :
    (Argument.ofParameter p).Accounted scope R := by
  refine ⟨h, fun q array hq hwhy => ?_⟩
  cases hq
  dsimp only at hwhy
  split at hwhy <;> cases hwhy

theorem accounted_errorSlot : Argument.errorSlot.Accounted scope R := by
  have htype : Argument.errorSlot.type.RefersWithin scope R :=
    TypeDesc.refersWithin_of_params_eq_nil rfl fun r hr => by cases hr
  refine ⟨htype, fun q array hq hwhy => ?_⟩
  cases hq
  cases hwhy

theorem accounted_rawArgs (hf : f.RefersWithin scope R)
    (howner : ∀ o ∈ owner, o.home = scope.home) :
    ∀ a ∈ rawArgs f owner via, a.Accounted scope R := by
  have hparams : ∀ a ∈ f.params.map Argument.ofParameter, a.Accounted scope R :=
    List.forall_mem_map.mpr fun p hp => accounted_ofParameter (hf p.type (Or.inl ⟨p, hp, rfl⟩))
  have hslot : ∀ a ∈ if f.flags.throws then [Argument.errorSlot] else [],
      a.Accounted scope R := by
    split
    · exact List.forall_mem_singleton.mpr accounted_errorSlot
    · intro a ha
      cases ha
  have hresult : (Argument.ofResult f).Accounted scope R :=
    Argument.accounted_of_role_ne (hf f.returnType (Or.inr rfl)) (by simp [Argument.ofResult])
  unfold rawArgs
  simp only [List.forall_mem_append, List.forall_mem_singleton]
  exact ⟨⟨⟨accounted_receivers howner, hparams⟩, hslot⟩, hresult⟩

theorem accounted_args (hf : f.RefersWithin scope R) (howner : ∀ o ∈ owner, o.home = scope.home)
    (h : ofFunction scope f owner via = .ok w) : ∀ a ∈ w.args, a.Accounted scope R := by
  obtain ⟨cs, _, hw⟩ := bind_eq_ok_iff.mp (within_eq_ok_iff.mp h)
  cases hw
  -- Coupling changes roles only, and a length that it computes comes from a host name.
  have hlength : ∀ a length : Argument, a.Accounted scope R → length.Accounted scope R →
      (a.withLength length.nativeLocal).Accounted scope R :=
    fun _ length ha _ => Argument.accounted_withLength length.nativeLocal ha
  have harray : ∀ a array : Argument, a.Accounted scope R → array.Accounted scope R →
      (a.asLengthOf array.hostValue).Accounted scope R :=
    fun _ array ha _ => Argument.accounted_asLengthOf array ha
  exact forall_mem_couple hlength harray cs (accounted_rawArgs hf howner)

/-! ### Signatures -/

/-- Every name of another package in the type of the entry is accounted for. -/
theorem accounted_hostParam {a : Argument} (h : a.Accounted scope R) :
    Yields (fun v => ∀ x ∈ v, x.type.Accounted scope R) (a.hostParam scope) := by
  unfold Argument.hostParam
  split
  next p hrole =>
    split
    · simp
    · split
      · refine yields_bind fun g hg => yields_pure_iff.mpr ?_
        simpa using TypeDesc.accounted_resolveHost h.type true g hg
      · refine yields_bind fun g hg => yields_pure_iff.mpr ?_
        simpa using TypeDesc.accounted_resolveHost h.type false g hg
  next => simp

theorem accounted_hostResult {a : Argument} (h : a.Accounted scope R) :
    Yields (fun v => ∀ x ∈ v, x.type.Accounted scope R) (a.hostResult scope) := by
  unfold Argument.hostResult
  split
  · refine yields_bind fun g hg => yields_pure_iff.mpr ?_
    simpa using TypeDesc.accounted_resolveHost h.type false g hg
  · simp

theorem accounted_receiverDecl {a : Argument} :
    ∀ v, a.receiverDecl = some v → v.type.Accounted scope R := by
  intro v hv
  unfold Argument.receiverDecl at hv
  split at hv
  · obtain ⟨r, _, rfl⟩ := Option.map_eq_some_iff.mp hv
    dsimp only
    split <;> simp
  · cases hv

/-- Declared names with accounted types have accounted pieces. -/
theorem accounted_tokens {vs : List Variable} (h : ∀ v ∈ vs, v.type.Accounted scope R) :
    ∀ k ∈ vs.flatMap Variable.tokens, k.Accounted scope R := by
  intro k hk
  obtain ⟨v, hv, hk⟩ := List.mem_flatMap.mp hk
  rcases List.mem_cons.mp hk with rfl | hk
  · trivial
  · exact h v hv k hk

theorem accounted_bareSignature (hscope : w.scope = scope)
    (h : ∀ a ∈ w.args, a.Accounted scope R) :
    Yields (fun s => ∀ k ∈ s.tokens, k.Accounted scope R) w.bareSignature := by
  unfold bareSignature
  rw [hscope]
  refine yields_bind fun params hparams => yields_bind fun results hresults => ?_
  refine yields_pure_iff.mpr
    (List.forall_mem_cons.mpr ⟨trivial, List.forall_mem_append.mpr ⟨?_, ?_⟩⟩)
  · exact accounted_tokens (forall_mem_entries hparams fun a ha => accounted_hostParam (h a ha))
  · exact accounted_tokens (forall_mem_entries hresults fun a ha =>
      accounted_hostResult (h a (List.mem_reverse.mp ha)))

/-! ### Host functions -/

theorem accounted_call (w : Wrapper) : w.call.Accounted scope R := by
  have hargs : ∀ e ∈ w.args.filterMap Argument.callArg, e.Accounted scope R := by
    intro e he
    obtain ⟨a, _, hcall⟩ := List.mem_filterMap.mp he
    unfold Argument.callArg at hcall
    split at hcall
    · cases hcall
      exact Expr.accounted_inner _
    · split at hcall <;> cases hcall
      · exact Expr.accounted_inner _
      · exact Expr.accounted_inner _
    · cases hcall
  unfold call
  split
  · simpa using hargs
  · simpa using hargs

theorem accounted_hostFunction (hscope : w.scope = scope)
    (h : ∀ a ∈ w.args, a.Accounted scope R) :
    Yields (fun host => ∀ k ∈ host.tokens, k.Accounted scope R) w.hostFunction := by
  intro host hhost
  obtain ⟨conversions, hconversions, hhost⟩ := bind_eq_ok_iff.mp (within_eq_ok_iff.mp hhost)
  obtain ⟨signature, hsignature, hhost⟩ := bind_eq_ok_iff.mp hhost
  cases hhost
  rw [hscope] at hconversions
  have hconversion : ∀ c ∈ conversions, c.Accounted scope R := by
    intro c hc
    obtain ⟨a, ha, hac⟩ := (mem_of_mapM_eq_ok hconversions).mp hc
    exact a.accounted_convert (h a ha).type (h a ha).hidden c hac
  have hreceiver : ∀ v ∈ (w.args.findSome? Argument.receiverDecl).toList,
      v.type.Accounted scope R := by
    intro v hv
    obtain ⟨a, _, hav⟩ := List.exists_of_findSome?_eq_some (Option.mem_toList.mp hv)
    exact accounted_receiverDecl v hav
  -- The pieces stand in the order of the text: the head, then the five phases of the body.
  refine List.forall_mem_append.mpr ⟨List.forall_mem_append.mpr
    ⟨accounted_tokens hreceiver, accounted_bareSignature hscope h signature hsignature⟩, ?_⟩
  simp only [List.forall_mem_append, forall_mem_tokensOf_iff]
  refine ⟨⟨⟨⟨?before, ?releases⟩, w.accounted_call⟩, ?after⟩, ?results⟩
  case before =>
    intro s hs
    obtain ⟨c, hc, hs⟩ := List.mem_flatMap.mp hs
    exact (hconversion c hc).before s hs
  case releases =>
    intro k hk
    obtain ⟨code, hcode, hk⟩ := List.mem_flatMap.mp hk
    obtain ⟨c, hc, rfl⟩ := List.mem_map.mp (List.mem_of_mem_filter hcode)
    exact (forall_mem_tokensOf_iff _).mpr (hconversion c (List.mem_reverse.mp hc)).release k hk
  case after =>
    intro s hs
    obtain ⟨c, hc, hs⟩ := List.mem_flatMap.mp hs
    exact (hconversion c (List.mem_reverse.mp hc)).after s hs
  case results =>
    intro k hk
    obtain ⟨name, _, rfl⟩ := List.mem_map.mp hk
    trivial

theorem scope_of_ofFunction (h : ofFunction scope f owner via = .ok w) : w.scope = scope := by
  obtain ⟨_, _, hw⟩ := bind_eq_ok_iff.mp (within_eq_ok_iff.mp h)
  cases hw
  rfl

variable (hf : f.RefersWithin scope R) (howner : ∀ o ∈ owner, o.home = scope.home)

include hf howner

/-- The signature of a host function names the types that the function refers to. -/
theorem accounted_signature (h : ofFunction scope f owner via = .ok w) :
    Yields (fun s => ∀ k ∈ s.tokens, k.Accounted scope R) w.signature :=
  fun s hs => accounted_bareSignature (scope_of_ofFunction h) (accounted_args hf howner h) s
    (within_eq_ok_iff.mp hs)

/-- A host function takes no name from another package that is not accounted for. -/
theorem accounted_of_synthesize :
    Yields (fun host => ∀ k ∈ host.tokens, k.Accounted scope R) (synthesize scope f owner via) :=
  yields_bind fun _ h =>
    accounted_hostFunction (scope_of_ofFunction h) (accounted_args hf howner h)

end Wrapper

end Introspection
