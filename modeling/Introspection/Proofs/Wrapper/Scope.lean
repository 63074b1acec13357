import Introspection.Proofs.Conversion.Scope
import Introspection.Proofs.Wrapper.Length

/-!
# `Introspection.Proofs.Wrapper.Scope`: names that a host function leaves unbound

A host function binds the names of its receiver, its parameters and its results
(`HostFunction.bound`). It is `HostFunction.Closed` when the code around the native call mentions no
other name of the signature.

An argument mentions its own name only where it is part of the signature. So a name is left unbound
just for a length that is computed from an array which is not: `closed_iff_of_synthesize`.
-/

set_option autoImplicit false

namespace Introspection

open Introspection.Code

/-! ### Names that are bound -/

namespace HostFunction

/-- The names that the declaration of a host function binds. -/
def bound (h : HostFunction) : List String :=
  (h.receiver.toList ++ h.signature.params ++ h.signature.results).map (·.name)

/-- Every name of the signature that the code around the call mentions is bound. -/
def Closed (h : HostFunction) : Prop := ∀ c ∈ h.conversions, c.hosts ⊆ h.bound

end HostFunction

/-- The names that the host function of a function declared on `owner` binds: its instance, its
visible parameters, its result and the report of an error. -/
def Function.boundNames (f : Function) (owner : Option EntityRef) : List String :=
  (if f.isMethod && owner.isSome then ["this"] else [])
    ++ f.visibleParams.map (fun p => Naming.hostIdent p.name)
    ++ (if f.keepsResult then ["ret"] else []) ++ if f.flags.throws then ["err"] else []

namespace Argument

/-- Whether the value has a name in the declaration of the host function. -/
def isBound (a : Argument) : Bool := a.isReceiver || a.isHostParam || a.isHostResult

theorem isReceiver_outline (a : Argument) : a.outline.isReceiver = a.isReceiver := by
  obtain ⟨name, type, role⟩ := a
  cases role <;> rfl

theorem isHostResult_outline (a : Argument) : a.outline.isHostResult = a.isHostResult := by
  obtain ⟨name, type, role⟩ := a
  cases role <;> rfl

theorem hidden?_outline (a : Argument) : a.outline.hidden? = a.hidden?.map fun _ => .skipped := by
  obtain ⟨name, type, role⟩ := a
  cases role <;> rfl

end Argument

namespace Wrapper

open Argument

variable {scope : Scope} {f : Function} {owner via : Option EntityRef} {w : Wrapper}
  {host : HostFunction}

theorem filter_isReceiver_rawArgs (f : Function) (owner via : Option EntityRef) :
    (rawArgs f owner via).filter isReceiver = receivers f owner via := by
  have hreceivers : (receivers f owner via).filter isReceiver = receivers f owner via := by
    rcases receivers_eq f owner via with h | ⟨o, h⟩ <;> rw [h] <;> rfl
  have hparams : (f.params.map ofParameter).filter isReceiver = [] := by
    rw [List.filter_map]
    exact congrArg (List.map ofParameter) (List.filter_false f.params)
  have hslot : (if f.flags.throws then [errorSlot] else []).filter isReceiver = [] := by
    split <;> rfl
  have hresult : [ofResult f].filter isReceiver = [] := rfl
  rw [rawArgs, List.filter_append, List.filter_append, List.filter_append, hreceivers, hparams,
    hslot, hresult, List.append_nil, List.append_nil, List.append_nil]

theorem filter_isHostResult_rawArgs (f : Function) (owner via : Option EntityRef) :
    (rawArgs f owner via).filter isHostResult
      = (if f.flags.throws then [errorSlot] else [])
        ++ if f.keepsResult then [ofResult f] else [] := by
  have hreceivers : (receivers f owner via).filter isHostResult = [] := by
    rcases receivers_eq f owner via with h | ⟨o, h⟩ <;> rw [h] <;> rfl
  have hparams : (f.params.map ofParameter).filter isHostResult = [] := by
    rw [List.filter_map]
    exact congrArg (List.map ofParameter) (List.filter_false f.params)
  have hslot : (if f.flags.throws then [errorSlot] else []).filter isHostResult
      = if f.flags.throws then [errorSlot] else [] := by
    split <;> rfl
  rw [rawArgs, List.filter_append, List.filter_append, List.filter_append, hreceivers, hslot,
    hparams, List.nil_append, List.nil_append, List.filter_singleton, Bool.cond_eq_ite]
  rfl

/-- The instance of a method is named in the code of the host function. -/
theorem names_of_isReceiver (h : ofFunction scope f owner via = .ok w) :
    (w.args.filter isReceiver).map (·.name)
      = if f.isMethod && owner.isSome then ["this"] else [] := by
  rw [map_filter_args h isReceiver_outline name_outline, filter_isReceiver_rawArgs]
  show (receivers f owner via).map (·.name) = _
  unfold receivers
  cases f.isMethod with
  | false => rfl
  | true => cases owner <;> rfl

/-- The results of the host function are those of the native one and the report of an error. -/
theorem names_of_isHostResult (h : ofFunction scope f owner via = .ok w) :
    (w.args.reverse.filter isHostResult).map (·.name)
      = (if f.keepsResult then ["ret"] else []) ++ if f.flags.throws then ["err"] else [] := by
  rw [List.filter_reverse, List.map_reverse,
    map_filter_args h isHostResult_outline name_outline, filter_isHostResult_rawArgs]
  show List.reverse (List.map _ ((if f.flags.throws then [errorSlot] else [])
    ++ if f.keepsResult then [ofResult f.withLengthsSkipped] else [])) = _
  cases f.flags.throws <;> cases f.keepsResult <;> rfl

/-- Behind the parameters stand the report of an error and the result. -/
theorem eq_errorSlot_or_eq_ofResult {k : Nat} {a : Argument} (hk : f.params.length ≤ k)
    (ha : (ownArgs f)[k]? = some a) : a = errorSlot ∨ a = ofResult f := by
  rw [ownArgs, List.append_assoc, List.getElem?_append_right (by rwa [List.length_map])] at ha
  rcases List.mem_append.mp (List.mem_of_getElem? ha) with hslot | hresult
  · split at hslot
    · exact Or.inl (List.mem_singleton.mp hslot)
    · cases hslot
  · exact Or.inr (List.mem_singleton.mp hresult)

theorem mem_ownArgs {a : Argument} (ha : a ∈ ownArgs f) :
    (∃ p ∈ f.params, a = ofParameter p) ∨ a = errorSlot ∨ a = ofResult f := by
  obtain ⟨k, hget⟩ := List.mem_iff_getElem?.mp ha
  by_cases hk : k < f.params.length
  · have hparam := getElem?_ownArgs (List.getElem?_eq_getElem hk)
    exact Or.inl ⟨_, List.getElem_mem hk, Option.some.inj (hget.symm.trans hparam)⟩
  · exact Or.inr (eq_errorSlot_or_eq_ofResult (by omega) hget)

/-- The receiver that is declared is the instance. -/
theorem map_name_receiverDecl (h : ofFunction scope f owner via = .ok w) :
    (w.args.findSome? receiverDecl).toList.map (·.name)
      = if f.isMethod && owner.isSome then ["this"] else [] := by
  rw [findSome?_receiverDecl h, Function.receiver?]
  cases f.isMethod with
  | false => rfl
  | true => cases owner <;> rfl

/-- A host function has the visible parameters, under their identifiers. -/
theorem map_name_params (h : synthesize scope f owner via = .ok host) :
    host.signature.params.map (·.name)
      = f.visibleParams.map fun p => Naming.hostIdent p.name := by
  obtain ⟨w, hw, _, hsignature, _⟩ := exists_wrapper_of_synthesize h
  obtain ⟨params, hparams, hrest⟩ := bind_eq_ok_iff.mp hsignature
  obtain ⟨results, _, hs⟩ := bind_eq_ok_iff.mp hrest
  rw [← Except.ok.inj hs, ← names_of_isHostParam hw]
  exact names_of_mapM (name_of_hostParam _) hparams

/-- A host function binds the names that its function says. -/
theorem bound_eq (h : synthesize scope f owner via = .ok host) :
    host.bound = f.boundNames owner := by
  obtain ⟨w, hw, _, hsignature, hreceiver⟩ := exists_wrapper_of_synthesize h
  obtain ⟨_, _, hrest⟩ := bind_eq_ok_iff.mp hsignature
  obtain ⟨results, hresults, hs⟩ := bind_eq_ok_iff.mp hrest
  have hresultNames : host.signature.results.map (·.name)
      = (if f.keepsResult then ["ret"] else []) ++ if f.flags.throws then ["err"] else [] := by
    rw [← Except.ok.inj hs, ← names_of_isHostResult hw]
    exact names_of_mapM (name_of_hostResult _) hresults
  unfold HostFunction.bound Function.boundNames
  rw [List.map_append, List.map_append, map_name_params h, hresultNames, hreceiver,
    map_name_receiverDecl hw, List.append_assoc _ (if f.keepsResult then ["ret"] else [])]

/-! ### What the code for an argument mentions -/

/-- The name of an argument that is part of the signature is bound. -/
theorem name_mem_boundNames (h : ofFunction scope f owner via = .ok w) {a : Argument}
    (ha : a ∈ w.args) (hbound : a.isBound = true) : a.name ∈ f.boundNames owner := by
  have hmem : ∀ {args : List Argument} {has : Argument → Bool}, a ∈ args → has a = true →
      a.name ∈ (args.filter has).map (·.name) := fun hargs hhas =>
    List.mem_map_of_mem (List.mem_filter.mpr ⟨hargs, hhas⟩)
  unfold Function.boundNames
  simp only [isBound, Bool.or_eq_true, or_assoc] at hbound
  rcases hbound with hreceiver | hparam | hresult
  · have hname := hmem ha hreceiver
    rw [names_of_isReceiver h] at hname
    simp only [List.mem_append, hname, true_or]
  · have hname := hmem ha hparam
    rw [names_of_isHostParam h] at hname
    simp only [List.mem_append, hname, or_true, true_or]
  · have hname := hmem (List.mem_reverse.mpr ha) hresult
    rw [names_of_isHostResult h, List.mem_append] at hname
    simp only [List.mem_append, or_assoc, hname, or_true]

/-- The code for an argument that is not hidden mentions bound names only. -/
theorem hosts_subset_boundNames (h : ofFunction scope f owner via = .ok w) {a : Argument}
    (ha : a ∈ w.args) (hshown : a.hidden? = none) {c : Conversion}
    (hc : a.convert w.scope = .ok c) : c.hosts ⊆ f.boundNames owner := by
  have hbound : a.isBound = true → c.hosts ⊆ f.boundNames owner := by
    intro hbound
    have hparam : ∀ p, a.role = .param p → p.hidden = none := by
      intro p hrole
      rwa [hidden?, hrole] at hshown
    refine List.Subset.trans (a.hosts_convert w.scope hparam c hc) ?_
    simpa using name_mem_boundNames h ha hbound
  cases hrole : a.role with
  | receiver via => exact hbound (by simp [isBound, isReceiver, hrole])
  | param p =>
    rw [hidden?, hrole] at hshown
    refine hbound ?_
    cases hbinding : p.binding <;>
      simp [isBound, isHostParam, isHostResult, hrole, hbinding, hshown]
  | result r =>
    cases hcaptures : a.capturesReturn with
    | true =>
      refine hbound ?_
      rw [capturesReturn, hrole] at hcaptures
      simp [isBound, isHostResult, hrole, hcaptures]
    | false =>
      -- A result that is dropped has no code.
      rw [convert, hrole] at hc
      simp only [hcaptures, Bool.false_eq_true, if_false] at hc
      cases hc
      exact List.nil_subset _

/-- Parameters alone are hidden. -/
theorem exists_param_of_hidden {args : List Argument} (h : coupledArgs f = .ok args) {a : Argument}
    (ha : a ∈ receivers f owner via ++ args) (hhidden : a.hidden? ≠ none) :
    ∃ (k : Nat) (p : Parameter), f.params[k]? = some p ∧ args[k]? = some a := by
  rcases List.mem_append.mp ha with hreceiver | hown
  · rcases receivers_eq f owner via with hnone | ⟨o, hone⟩
    · rw [hnone] at hreceiver
      cases hreceiver
    · rw [hone] at hreceiver
      rw [List.mem_singleton.mp hreceiver] at hhidden
      exact absurd rfl hhidden
  · obtain ⟨k, hat⟩ := List.mem_iff_getElem?.mp hown
    by_cases hk : k < f.params.length
    · exact ⟨k, _, List.getElem?_eq_getElem hk, hat⟩
    · -- Couplings leave the outline as it was, and in it nothing behind the parameters is hidden.
      have houtline := congrArg (·[k]?) (map_outline_coupledArgs h)
      simp only [List.getElem?_map, hat, Option.map_some] at houtline
      have hcount : f.withLengthsSkipped.params.length ≤ k := by
        simp only [Function.withLengthsSkipped, List.length_mapIdx]
        omega
      have hnone : a.outline.hidden? = none := by
        rcases eq_errorSlot_or_eq_ofResult hcount houtline.symm with hslot | hresult
        · rw [hslot]
          rfl
        · rw [hresult]
          rfl
      rw [hidden?_outline, Option.map_eq_none_iff] at hnone
      exact absurd hnone hhidden

variable {args : List Argument} {k : Nat} {p : Parameter} {a : Argument} {c : Conversion}

/-- The conversion of a length mentions the array that it is computed from. -/
theorem hosts_of_lengthSource? (h : coupledArgs f = .ok args) (hp : f.params[k]? = some p)
    (ha : args[k]? = some a) {array : Argument} (harray : f.lengthSource? k = some array)
    (hc : a.convert scope = .ok c) :
    c.hosts = if p.direction = .output then [] else [array.name] := by
  obtain ⟨a', ha', hcore, hhidden⟩ := exists_arg_of_params h hp
  obtain rfl := Option.some.inj (ha.symm.trans ha')
  rw [harray, Option.map_some, Option.some_or] at hhidden
  rw [convert_of_hidden? scope (core_eq_iff.mp hcore).2.2.1 hhidden] at hc
  rw [a.hosts_convertHidden _ _ c hc]
  simp [Hidden.hosts]

/-- The conversion of a parameter that is hidden for no array mentions nothing. -/
theorem hosts_of_skipped (h : coupledArgs f = .ok args) (hp : f.params[k]? = some p)
    (ha : args[k]? = some a) (hnone : f.lengthSource? k = none) (hhidden : a.hidden? ≠ none)
    (hc : a.convert scope = .ok c) : c.hosts = [] := by
  obtain ⟨a', ha', hcore, hwhy⟩ := exists_arg_of_params h hp
  obtain rfl := Option.some.inj (ha.symm.trans ha')
  rw [hnone, Option.map_none, Option.none_or] at hwhy
  have hskipped : a.hidden? = some .skipped := by
    rw [hwhy] at hhidden ⊢
    simpa [hidden?, ofParameter] using hhidden
  rw [convert_of_hidden? scope (core_eq_iff.mp hcore).2.2.1 hskipped] at hc
  exact a.hosts_convertHidden _ _ c hc

end Wrapper

/-! ### Closed host functions -/

open Wrapper Argument in
/-- A host function leaves a name unbound just when it computes a length from an array that is not
part of its signature. -/
theorem closed_iff_of_synthesize {scope : Scope} {f : Function} {owner via : Option EntityRef}
    {host : HostFunction} (h : synthesize scope f owner via = .ok host) :
    host.Closed ↔ ∀ (k : Nat) (length : Parameter) (array : Argument), f.params[k]? = some length →
      length.direction ≠ .output → f.lengthSource? k = some array →
        array.name ∈ f.boundNames owner := by
  obtain ⟨w, hw, hconversions, _, _⟩ := exists_wrapper_of_synthesize h
  obtain ⟨_, args, hargs, happend⟩ := args_of_ofFunction hw
  unfold HostFunction.Closed
  rw [bound_eq h]
  constructor
  · intro hclosed k length array hk hin harray
    obtain ⟨a, ha, _⟩ := exists_arg_of_params hargs hk
    have hat : w.args[(receivers f owner via).length + k]? = some a := by
      rw [happend, List.getElem?_append_right (Nat.le_add_right _ _), Nat.add_sub_cancel_left, ha]
    obtain ⟨c, hc, hconvert⟩ := getElem?_of_mapM_eq_ok hconversions hat
    refine hclosed c (List.mem_of_getElem? hc) ?_
    rw [hosts_of_lengthSource? hargs hk ha harray hconvert, if_neg hin]
    exact List.mem_singleton.mpr rfl
  · intro harrays c hc
    obtain ⟨a, ha, hconvert⟩ := (mem_of_mapM_eq_ok hconversions).mp hc
    by_cases hhidden : a.hidden? = none
    · exact hosts_subset_boundNames hw ha hhidden hconvert
    · rw [happend] at ha
      obtain ⟨k, p, hk, hat⟩ := exists_param_of_hidden hargs ha hhidden
      cases harray : f.lengthSource? k with
      | some array =>
        rw [hosts_of_lengthSource? hargs hk hat harray hconvert]
        split
        · exact List.nil_subset _
        next hin => simpa using harrays k p array hk hin harray
      | none =>
        rw [hosts_of_skipped hargs hk hat harray hhidden hconvert]
        exact List.nil_subset _

/-- A function that takes how many names it is to return, which are dropped. -/
def Function.ofDroppedNames : Function :=
  { (ofSymbol "fill" "gtk_fill").withParam (.ofType "n_names" (.ofTag .int32)) with
    returnType := .ofArray ⟨.c, some 0, none, false⟩ .utf8
    skipReturn := true }

/-- The number of the names is computed from a result that the host function does not have. -/
theorem closed_iff_of_synthesize_ofDroppedNames :
    ∃ host : HostFunction, synthesize (.ofHome "Gtk") Function.ofDroppedNames none none = .ok host
      ∧ ¬host.Closed := by
  have hok : ∃ host, synthesize (.ofHome "Gtk") Function.ofDroppedNames none none = .ok host :=
    ⟨_, rfl⟩
  obtain ⟨host, hhost⟩ := hok
  refine ⟨host, hhost, fun hclosed => ?_⟩
  have hnames := (closed_iff_of_synthesize hhost).mp hclosed 0 _ _ rfl (by decide) rfl
  exact absurd hnames (by decide)

end Introspection
