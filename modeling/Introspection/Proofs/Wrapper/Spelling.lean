import Introspection.Proofs.Conversion.Spelling
import Introspection.Proofs.Wrapper.Scope
import Introspection.Proofs.Wrapper.Synthesis

/-!
# `Introspection.Proofs.Wrapper.Spelling`: types that a host function leaves out

A host function prints a type for each parameter and each result, and for each variable that it
declares without a value (`HostFunction.Spelled`). `spelled_iff_of_synthesize` says which functions
of well-shaped types are wrapped so. The exceptions are parameters that do not exist, whose type
prints nothing unless they are lengths that the wrapper computes, and host types that leave out a
name (`TypeDesc.LeavesOut`).

Each argument is looked at by itself. Its entry in the signature and its code know of each other
only through its type: whether there is a value at all, and of what elements.
-/

set_option autoImplicit false

namespace Introspection

open Introspection.Code

/-- All types that a host function prints behind a name are complete: those of its parameters and
results, and the native ones of variables that are declared without a value. -/
structure HostFunction.Spelled (h : HostFunction) : Prop where
  signature : ∀ v ∈ h.signature.params ++ h.signature.results, v.type.Complete
  locals : ∀ c ∈ h.conversions, c.AllTyped

theorem HostFunction.spelled_iff {h : HostFunction} :
    h.Spelled ↔ (∀ v ∈ h.signature.params ++ h.signature.results, v.type.Complete)
      ∧ ∀ c ∈ h.conversions, c.AllTyped :=
  ⟨fun h => ⟨h.signature, h.locals⟩, fun h => ⟨h.1, h.2⟩⟩

/-- Entries that each depend on an argument have a property when all arguments have what it asks
for. -/
theorem forall_mem_filterMap_iff {args : List Argument}
    {entry : Argument → Generated (Option Variable)} {entries : List (Option Variable)}
    (h : args.mapM entry = .ok entries) {p : Variable → Prop} {q : Argument → Prop}
    (hentry : ∀ a ∈ args, Yields (fun v => (∀ x ∈ v, p x) ↔ q a) (entry a)) :
    (∀ x ∈ entries.filterMap id, p x) ↔ ∀ a ∈ args, q a := by
  constructor
  · intro hall a ha
    obtain ⟨v, hv⟩ := exists_ok_of_mapM_eq_ok h ha
    refine (hentry a ha v hv).mp fun x hx => hall x ?_
    exact List.mem_filterMap.mpr ⟨v, (mem_of_mapM_eq_ok h).mpr ⟨a, ha, hv⟩, hx⟩
  · intro hall
    exact Wrapper.forall_mem_entries h fun a ha v hav => (hentry a ha v hav).mpr (hall a ha)

namespace Argument

variable {scope : Scope} {a : Argument} {c : Conversion}

/-- The value only goes in, so that its host type is that of an argument. -/
def onlyGoesIn (a : Argument) : Bool := a.core.direction == some .input

theorem onlyGoesIn_outline (a : Argument) : a.outline.onlyGoesIn = a.onlyGoesIn := by
  obtain ⟨name, type, role⟩ := a
  cases role <;> rfl

theorem type_outline (a : Argument) : a.outline.type = a.type := by
  obtain ⟨name, type, role⟩ := a
  cases role <;> rfl

theorem complete_hostParam_iff (ht : a.type.WellShaped)
    (helements : a.isHostParam = true → ∀ e ∈ a.type.hostElements, e.IsElement) :
    Yields (fun v => (∀ x ∈ v, x.type.Complete)
        ↔ (a.isHostParam = true → a.type.Spelled scope a.onlyGoesIn))
      (a.hostParam scope) := by
  have hnone : a.isHostParam = false → ((∀ x ∈ (none : Option Variable), x.type.Complete)
      ↔ (a.isHostParam = true → a.type.Spelled scope a.onlyGoesIn)) := by
    intro hhidden
    simp [hhidden]
  have hsome : a.isHostParam = true → ∀ {isArg : Bool}, a.onlyGoesIn = isArg →
      ∀ {g : GoType}, resolveHost scope a.type isArg = .ok g →
      (g.Complete ↔ (a.isHostParam = true → a.type.Spelled scope a.onlyGoesIn)) := by
    intro hshown isArg hgoes g hg
    rw [TypeDesc.complete_iff ht (helements hshown) hg, hgoes]
    exact ⟨fun h _ => h, fun h => h hshown⟩
  unfold hostParam
  cases hrole : a.role with
  | receiver | result => exact yields_ok_iff.mpr (hnone (by rw [isHostParam, hrole]))
  | param p =>
    dsimp only
    split
    next hhidden =>
      refine yields_ok_iff.mpr (hnone ?_)
      rw [isHostParam, hrole]
      cases hwhy : p.hidden <;> cases hbinding : p.binding <;> simp_all
    next hhidden =>
      have hshown : a.isHostParam = true := by
        rw [isHostParam, hrole]
        cases hwhy : p.hidden <;> cases hbinding : p.binding <;> simp_all
      have hgoes : a.onlyGoesIn = (p.direction == .input) := by
        rw [onlyGoesIn, core, hrole]
        rfl
      split
      next hinput =>
        refine yields_bind fun g hg => yields_pure_iff.mpr ?_
        simpa using hsome hshown (hgoes.trans hinput) hg
      next hinput =>
        refine yields_bind fun g hg => yields_pure_iff.mpr ?_
        simpa using hsome hshown (hgoes.trans (Bool.eq_false_iff.mpr hinput)) hg

theorem complete_hostResult_iff (ht : a.type.WellShaped)
    (helements : a.isHostResult = true → ∀ e ∈ a.type.hostElements, e.IsElement) :
    Yields (fun v => (∀ x ∈ v, x.type.Complete)
        ↔ (a.isHostResult = true → a.type.Spelled scope false))
      (a.hostResult scope) := by
  unfold hostResult
  cases hresult : a.isHostResult with
  | false => exact yields_ok_iff.mpr (by simp)
  | true =>
    refine yields_bind fun g hg => yields_pure_iff.mpr ?_
    simpa using TypeDesc.complete_iff ht (helements hresult) hg

/-- The value is left to the native function: a parameter that is hidden, or that nothing goes into,
and no length that the wrapper computes. -/
theorem leftToCallee_iff : a.LeftToCallee ↔ ∃ d, a.core.direction = some d
    ∧ (d = .output ∨ ¬∃ array, a.hidden? = some (.lengthOf array)) := by
  unfold LeftToCallee core hidden?
  cases a.role <;> simp

theorem leftToCallee_of_isHostParam (h : a.isHostParam = true) : a.LeftToCallee := by
  unfold isHostParam at h
  cases hrole : a.role with
  | receiver | result => simp [hrole] at h
  | param p =>
    refine ⟨p, hrole, Or.inr ?_⟩
    rintro ⟨array, hwhy⟩
    simp [hrole, hwhy] at h

end Argument

namespace Wrapper

open Argument

variable {scope : Scope} {f : Function} {owner via : Option EntityRef} {w : Wrapper}

/-- A host result is the report of an error or the result of the native function. -/
theorem outline_of_isHostResult (h : ofFunction scope f owner via = .ok w) {a : Argument}
    (ha : a ∈ w.args) (hresult : a.isHostResult = true) :
    a.outline = errorSlot ∨ a.outline = ofResult f := by
  obtain ⟨_, _, _, hargs⟩ := map_outline_args h
  have hmem : a.outline ∈ (rawArgs f.withLengthsSkipped owner via).filter isHostResult := by
    rw [List.mem_filter, ← hargs, isHostResult_outline]
    exact ⟨List.mem_map_of_mem ha, hresult⟩
  rw [filter_isHostResult_rawArgs, List.mem_append] at hmem
  rcases hmem with hslot | hkept
  · split at hslot
    · exact Or.inl (List.mem_singleton.mp hslot)
    · cases hslot
  · split at hkept
    · exact Or.inr (List.mem_singleton.mp hkept)
    · cases hkept

/-- What holds of the types of the host parameters holds of those of the visible parameters. -/
theorem forall_isHostParam_iff (h : ofFunction scope f owner via = .ok w)
    (p : TypeDesc → Bool → Prop) :
    (∀ a ∈ w.args, a.isHostParam = true → p a.type a.onlyGoesIn)
      ↔ ∀ q ∈ f.visibleParams, p q.type (q.direction == .input) := by
  have hread : (w.args.filter isHostParam).map (fun a => (a.type, a.onlyGoesIn))
      = ((rawArgs f.withLengthsSkipped owner via).filter isHostParam).map
        fun a => (a.type, a.onlyGoesIn) :=
    map_filter_args h isHostParam_outline fun a => by rw [type_outline, onlyGoesIn_outline]
  rw [filter_isHostParam_rawArgs, List.map_map] at hread
  have hargs : (∀ a ∈ w.args, a.isHostParam = true → p a.type a.onlyGoesIn)
      ↔ ∀ x ∈ (w.args.filter isHostParam).map (fun a => (a.type, a.onlyGoesIn)), p x.1 x.2 := by
    simp only [List.forall_mem_map, List.mem_filter, and_imp]
  rw [hargs, hread, List.forall_mem_map]
  rfl

/-- The host results are spelled when the result of the native function is, if it is kept. -/
theorem forall_isHostResult_iff (h : ofFunction scope f owner via = .ok w) :
    (∀ a ∈ w.args, a.isHostResult = true → a.type.Spelled scope false)
      ↔ (f.keepsResult = true → ¬f.returnType.LeavesOut scope false) := by
  have hread := map_filter_args h isHostResult_outline type_outline
  rw [filter_isHostResult_rawArgs] at hread
  have hargs : (∀ a ∈ w.args, a.isHostResult = true → a.type.Spelled scope false)
      ↔ ∀ t ∈ (w.args.filter isHostResult).map (·.type), t.Spelled scope false := by
    simp only [List.forall_mem_map, List.mem_filter, and_imp]
  have herror : TypeDesc.error.Spelled scope false := by
    refine ⟨rfl, ?_⟩
    rintro (⟨r, hr, _⟩ | ⟨e, he, _⟩)
    · cases hr
    · cases he
  have hkept : f.keepsResult = true → f.returnType.isVoid = false := by
    intro hkeeps
    simp only [Function.keepsResult, Bool.and_eq_true, Bool.not_eq_true'] at hkeeps
    exact hkeeps.2
  rw [hargs, hread]
  show (∀ t ∈ ((if f.flags.throws then [errorSlot] else [])
    ++ if f.keepsResult then [ofResult f.withLengthsSkipped] else []).map (·.type), _) ↔ _
  rw [List.forall_mem_map, List.forall_mem_append]
  constructor
  · intro hall hkeeps
    have hresult := hall.2 (ofResult f.withLengthsSkipped) (by rw [if_pos hkeeps]; simp)
    exact hresult.2
  · intro hresult
    refine ⟨fun a ha => ?_, fun a ha => ?_⟩
    · split at ha
      · rw [List.mem_singleton.mp ha]
        exact herror
      · cases ha
    · split at ha
      next hkeeps =>
        rw [List.mem_singleton.mp ha]
        exact ⟨hkept hkeeps, hresult hkeeps⟩
      next => cases ha

/-- A parameter is left to the native function when it comes out, or is skipped and no length. -/
theorem leftToCallee_iff_of_params {args : List Argument} (h : coupledArgs f = .ok args) {k : Nat}
    {p : Parameter} {a : Argument} (hp : f.params[k]? = some p) (ha : args[k]? = some a) :
    a.LeftToCallee ↔ p.direction = .output ∨ f.lengthSource? k = none := by
  obtain ⟨a', ha', hcore, hhidden⟩ := exists_arg_of_params h hp
  obtain rfl := Option.some.inj (ha.symm.trans ha')
  have hdirection : a.core.direction = some p.direction := by
    rw [hcore]
    rfl
  rw [leftToCallee_iff, hdirection, hhidden]
  simp only [Option.some.injEq, exists_eq_left']
  refine or_congr_right ?_
  cases f.lengthSource? k with
  | some array => simp
  | none => cases hskip : p.skip <;> simp [hidden?, ofParameter, hskip]

/-- What does not exist and is left to the native function is a parameter. -/
theorem exists_param_of_leftToCallee {args : List Argument} (h : coupledArgs f = .ok args)
    {a : Argument} (ha : a ∈ receivers f owner via ++ args) (hvoid : a.type.isVoid = true)
    (hcallee : a.LeftToCallee) :
    ∃ (k : Nat) (p : Parameter), f.params[k]? = some p ∧ args[k]? = some a := by
  obtain ⟨d, hd, _⟩ := leftToCallee_iff.mp hcallee
  rcases List.mem_append.mp ha with hreceiver | hown
  · rcases receivers_eq f owner via with hnone | ⟨o, hone⟩
    · rw [hnone] at hreceiver
      cases hreceiver
    · rw [hone] at hreceiver
      rw [List.mem_singleton.mp hreceiver] at hd
      cases hd
  · obtain ⟨k, hat⟩ := List.mem_iff_getElem?.mp hown
    obtain ⟨cs, _, hcoupled⟩ := bind_eq_ok_iff.mp h
    cases hcoupled
    obtain ⟨b, hb, hcore⟩ := Coupling.exists_arg_of_foldl_apply hat
    by_cases hk : k < f.params.length
    · exact ⟨k, _, List.getElem?_eq_getElem hk, hat⟩
    · -- An error exists, and the result is not passed.
      rcases eq_errorSlot_or_eq_ofResult (by omega) hb with rfl | rfl
      · have htype : TypeDesc.error = a.type := (core_eq_iff.mp hcore).2.1
        rw [← htype] at hvoid
        cases hvoid
      · rw [← hcore] at hd
        cases hd

/-- The locals of a host function are typed unless a parameter does not exist, but for lengths that
the wrapper computes. -/
theorem forall_leftToCallee_iff (h : ofFunction scope f owner via = .ok w) :
    (∀ a ∈ w.args, ¬(a.type.isVoid = true ∧ a.LeftToCallee))
      ↔ ∀ (k : Nat) (p : Parameter), f.params[k]? = some p → p.type.isVoid = true →
          p.direction ≠ .output ∧ f.lengthSource? k ≠ none := by
  obtain ⟨_, args, hargs, happend⟩ := args_of_ofFunction h
  have htype : ∀ {k : Nat} {p : Parameter} {a : Argument}, f.params[k]? = some p →
      args[k]? = some a → a.type = p.type := by
    intro k p a hp ha
    obtain ⟨a', ha', hcore, _⟩ := exists_arg_of_params hargs hp
    obtain rfl := Option.some.inj (ha.symm.trans ha')
    exact (core_eq_iff.mp hcore).2.1
  rw [happend]
  constructor
  · intro hall k p hp hvoid
    obtain ⟨a, ha, _⟩ := exists_arg_of_params hargs hp
    have hnot := hall a (List.mem_append_right _ (List.mem_of_getElem? ha))
    rw [leftToCallee_iff_of_params hargs hp ha, htype hp ha, hvoid] at hnot
    simpa using hnot
  · rintro hall a ha ⟨hvoid, hcallee⟩
    obtain ⟨k, p, hp, hat⟩ := exists_param_of_leftToCallee hargs ha hvoid hcallee
    obtain ⟨hout, hlength⟩ := hall k p hp (htype hp hat ▸ hvoid)
    exact ((leftToCallee_iff_of_params hargs hp hat).mp hcallee).elim hout hlength

/-- The host parameters and host results have elements that there are. -/
theorem isElement_of_mem_args (h : ofFunction scope f owner via = .ok w) {a : Argument}
    (ha : a ∈ w.args) (htyped : a.WellTyped) {c : Conversion} (hc : a.convert w.scope = .ok c)
    (hbound : a.isHostParam = true ∨ a.isHostResult = true) :
    ∀ e ∈ a.type.hostElements, e.IsElement := by
  rcases hbound with hparam | hresult
  · cases hrole : a.role with
    | receiver | result => simp [isHostParam, hrole] at hparam
    | param p =>
      refine isElement_of_convert htyped (fun q hq => ?_) (by simp [hrole]) hc
      cases hrole.symm.trans hq
      simp only [isHostParam, hrole, Bool.and_eq_true, Option.isNone_iff_eq_none] at hparam
      exact hparam.1
  · rcases outline_of_isHostResult h ha hresult with hslot | hkept
    · have htype : a.type = .error := by rw [← type_outline, hslot]; rfl
      rw [htype]
      exact List.forall_mem_nil _
    · cases hrole : a.role with
      | receiver => simp [isHostResult, hrole] at hresult
      | param => simp [outline, hrole, ofResult] at hkept
      | result r =>
        refine isElement_of_convert htyped (by simp [hrole]) (fun _ _ => ?_) hc
        simpa [isHostResult, capturesReturn, hrole] using hresult

end Wrapper

open Wrapper Argument in
/-- A host function spells all its types unless a parameter that does not exist is not the length of
an array that goes in, or a host type leaves out a name. -/
theorem spelled_iff_of_synthesize {scope : Scope} {f : Function} {owner via : Option EntityRef}
    (hparams : ∀ p ∈ f.params, p.type.WellShaped) (hreturn : f.returnType.WellShaped)
    {host : HostFunction} (h : synthesize scope f owner via = .ok host) :
    host.Spelled ↔
      (∀ (k : Nat) (p : Parameter), f.params[k]? = some p → p.type.isVoid = true →
          p.direction ≠ .output ∧ f.lengthSource? k ≠ none)
        ∧ (∀ p ∈ f.visibleParams, ¬p.type.LeavesOut scope (p.direction == .input))
        ∧ (f.keepsResult = true → ¬f.returnType.LeavesOut scope false) := by
  obtain ⟨w, hw, hconversions, hsignature, _⟩ := exists_wrapper_of_synthesize h
  obtain ⟨params, hentries, hrest⟩ := bind_eq_ok_iff.mp hsignature
  obtain ⟨results, hresults, hs⟩ := bind_eq_ok_iff.mp hrest
  have hscope : w.scope = scope := (args_of_ofFunction hw).1
  have htyped : ∀ a ∈ w.args, a.WellTyped := wellTyped_args hparams hreturn hw
  have helements : ∀ a ∈ w.args, a.isHostParam = true ∨ a.isHostResult = true →
      ∀ e ∈ a.type.hostElements, e.IsElement := by
    intro a ha hbound
    obtain ⟨c, hc⟩ := exists_ok_of_mapM_eq_ok hconversions ha
    exact isElement_of_mem_args hw ha (htyped a ha) hc hbound
  have hlocals : (∀ c ∈ host.conversions, c.AllTyped)
      ↔ ∀ a ∈ w.args, ¬(a.type.isVoid = true ∧ a.LeftToCallee) := by
    constructor
    · intro hall a ha
      obtain ⟨c, hc⟩ := exists_ok_of_mapM_eq_ok hconversions ha
      have hmem : c ∈ host.conversions := (mem_of_mapM_eq_ok hconversions).mpr ⟨a, ha, hc⟩
      exact (allTyped_convert_iff (htyped a ha) hc).mp (hall c hmem)
    · intro hall c hc
      obtain ⟨a, ha, hc⟩ := (mem_of_mapM_eq_ok hconversions).mp hc
      exact (allTyped_convert_iff (htyped a ha) hc).mpr (hall a ha)
  have hshown : (∀ v ∈ params.filterMap id, v.type.Complete)
      ↔ ∀ a ∈ w.args, a.isHostParam = true → a.type.Spelled scope a.onlyGoesIn := by
    refine forall_mem_filterMap_iff hentries fun a ha => ?_
    rw [hscope]
    exact complete_hostParam_iff (htyped a ha).type fun hparam => helements a ha (Or.inl hparam)
  have hreturned : (∀ v ∈ results.filterMap id, v.type.Complete)
      ↔ ∀ a ∈ w.args.reverse, a.isHostResult = true → a.type.Spelled scope false := by
    refine forall_mem_filterMap_iff hresults fun a ha => ?_
    have ha := List.mem_reverse.mp ha
    rw [hscope]
    exact complete_hostResult_iff (htyped a ha).type fun hkept => helements a ha (Or.inr hkept)
  simp only [List.mem_reverse] at hreturned
  have hspelled : host.Spelled ↔ (∀ v ∈ params.filterMap id, v.type.Complete)
      ∧ (∀ v ∈ results.filterMap id, v.type.Complete) ∧ ∀ c ∈ host.conversions, c.AllTyped := by
    rw [HostFunction.spelled_iff, ← Except.ok.inj hs, List.forall_mem_append, and_assoc]
  rw [hspelled, hlocals, hshown, hreturned, forall_isHostResult_iff hw,
    ← forall_leftToCallee_iff hw,
    ← forall_isHostParam_iff hw (fun t isArg => ¬t.LeavesOut scope isArg)]
  constructor
  · rintro ⟨hparam, hresult, hlocal⟩
    exact ⟨hlocal, fun a ha hshown => (hparam a ha hshown).2, hresult⟩
  · rintro ⟨hlocal, hparam, hresult⟩
    refine ⟨fun a ha hshown => ⟨?_, hparam a ha hshown⟩, hresult, hlocal⟩
    -- A parameter of the host function has a local, so it exists.
    rw [← Bool.not_eq_true]
    exact fun hvoid => hlocal a ha ⟨hvoid, leftToCallee_of_isHostParam hshown⟩

/-- A function that is to give back a value of no type. -/
def Function.ofLostValue : Function :=
  (ofSymbol "take" "gtk_take").withParam
    { Parameter.ofType "value" .void with direction := .output }

/-- The parameter that the value is to come back through is a pointer to nothing. -/
theorem spelled_iff_of_synthesize_ofLostValue :
    ∃ host : HostFunction, synthesize (.ofHome "Gtk") Function.ofLostValue none none = .ok host
      ∧ ¬host.Spelled := by
  have hok : ∃ host, synthesize (.ofHome "Gtk") Function.ofLostValue none none = .ok host :=
    ⟨_, rfl⟩
  obtain ⟨host, hhost⟩ := hok
  have hvoid : TypeDesc.void.WellShaped :=
    TypeDesc.wellShaped_iff.mpr ⟨⟨rfl, by decide, by decide⟩, nofun⟩
  have hparams : ∀ p ∈ Function.ofLostValue.params, p.type.WellShaped := by
    intro p hp
    rw [List.mem_singleton.mp hp]
    exact hvoid
  refine ⟨host, hhost, fun hspelled => ?_⟩
  have hexists := ((spelled_iff_of_synthesize hparams hvoid hhost).mp hspelled).1 0 _ rfl rfl
  exact hexists.1 rfl

end Introspection
