import Introspection.Proofs.Wrapper.Scope
import Mathlib.Data.List.Perm.Basic

/-!
# `Introspection.Proofs.Wrapper.Locals`: the names that a host function declares

The block of the native call declares one local for each value that is passed and for the result,
and further ones with suffixes (`Argument.Declares`). All of them start with `real_`; what follows
are the `Function.stems` of the function: the identifier of each argument, alone and with its
suffixes.

`perm_declared` lists all names that a host function declares in the block of the call, those of its
signature included. Whether the elements of an array are counted depends on the coupling with a
length; `knowsLength_of_mem_args` says that an array knows its length just when its type names one.
-/

set_option autoImplicit false

namespace Introspection

open Introspection.Code

/-! ### Arrays that know their length -/

namespace Argument

theorem isReceiver_withLength (a : Argument) (length : String) :
    (a.withLength length).isReceiver = a.isReceiver := by
  obtain ⟨name, type, role⟩ := a
  cases role <;> rfl

theorem isReceiver_asLengthOf (a : Argument) (array : Expr) :
    (a.asLengthOf array).isReceiver = a.isReceiver := by
  obtain ⟨name, type, role⟩ := a
  cases role <;> rfl

theorem knowsLength_withLength {a : Argument} (ha : a.isReceiver = false) (length : String) :
    (a.withLength length).knowsLength = true := by
  obtain ⟨name, type, role⟩ := a
  cases role with
  | receiver via => cases ha
  | param | result => rfl

theorem knowsLength_asLengthOf (a : Argument) (array : Expr) :
    (a.asLengthOf array).knowsLength = a.knowsLength := by
  obtain ⟨name, type, role⟩ := a
  cases role <;> rfl

end Argument

open Argument

namespace Coupling

/-- A coupling tells its array the length. -/
theorem exists_knowsLength_apply {c : Coupling} {args : List Argument} {i : Nat} {a : Argument}
    (hi : args[i]? = some a) (ha : a.isReceiver = false)
    (hrange : c.array < args.length ∧ c.length < args.length) :
    ∃ b, (c.apply args)[i]? = some b ∧ b.isReceiver = false
      ∧ b.knowsLength = (a.knowsLength || c.array == i) := by
  unfold apply
  rw [List.getElem?_eq_getElem hrange.1, List.getElem?_eq_getElem hrange.2]
  dsimp only
  rw [List.getElem?_modify, List.getElem?_modify, hi]
  refine ⟨_, rfl, ?_⟩
  by_cases harray : c.array = i <;> by_cases hlength : c.length = i <;>
    simp [harray, hlength, ha, isReceiver_withLength, isReceiver_asLengthOf,
      knowsLength_withLength, knowsLength_asLengthOf]

/-- Behind all couplings an array knows its length when one of them is its own. -/
theorem exists_knowsLength_foldl_apply {cs : List Coupling} {args : List Argument} {i : Nat}
    {a : Argument} (hi : args[i]? = some a) (ha : a.isReceiver = false)
    (hrange : ∀ c ∈ cs, c.array < args.length ∧ c.length < args.length) :
    ∃ b, (cs.foldl apply args)[i]? = some b
      ∧ b.knowsLength = (a.knowsLength || cs.any (·.array == i)) := by
  induction cs generalizing args a with
  | nil => exact ⟨a, hi, by simp⟩
  | cons c cs ih =>
    -- A coupling never makes a receiver, so the induction goes on with what it leaves.
    rw [List.forall_mem_cons] at hrange
    obtain ⟨b, hb, hreceiver, hknows⟩ := exists_knowsLength_apply hi ha hrange.1
    have hrest : ∀ d ∈ cs, d.array < (c.apply args).length ∧ d.length < (c.apply args).length := by
      rw [length_apply]
      exact hrange.2
    obtain ⟨b', hb', hknows'⟩ := ih hb hreceiver hrest
    exact ⟨b', hb', by rw [hknows', hknows, List.any_cons, Bool.or_assoc]⟩

end Coupling

namespace Wrapper

theorem any_array_couplingOf {first count position : Nat} {t : TypeDesc} {cs : List Coupling}
    (h : couplingOf first count position t = .ok cs) (i : Nat) :
    cs.any (·.array == i) = (t.namesLength && position == i) := by
  unfold couplingOf at h
  unfold TypeDesc.namesLength
  cases hlength : t.array.bind (·.length) with
  | none =>
    rw [hlength] at h
    cases h
    rfl
  | some index =>
    rw [hlength] at h
    dsimp only at h
    split at h
    · cases h
      simp
    · cases h

theorem any_array_paramCouplings {first count position : Nat} {ps : List Parameter}
    {cs : List Coupling} (h : paramCouplings first count position ps = .ok cs) (i : Nat) :
    cs.any (·.array == i) = true
      ↔ ∃ k p, ps[k]? = some p ∧ p.type.namesLength = true ∧ position + k = i := by
  induction ps generalizing position cs with
  | nil =>
    cases h
    simp
  | cons p ps ih =>
    obtain ⟨here, hhere, hrest⟩ := bind_eq_ok_iff.mp h
    obtain ⟨rest, hothers, hcs⟩ := bind_eq_ok_iff.mp hrest
    cases hcs
    rw [List.any_append, Bool.or_eq_true, any_array_couplingOf hhere, ih hothers]
    constructor
    · rintro (hp | ⟨k, q, hq, hnames, hk⟩)
      · rw [Bool.and_eq_true, beq_iff_eq] at hp
        exact ⟨0, p, rfl, hp.1, hp.2⟩
      · exact ⟨k + 1, q, hq, hnames, by omega⟩
    · rintro ⟨k, q, hq, hnames, hk⟩
      cases k with
      | zero =>
        cases hq
        exact Or.inl (by simpa [hnames] using hk)
      | succ k => exact Or.inr ⟨k, q, hq, hnames, by omega⟩

variable {scope : Scope} {f : Function} {owner via : Option EntityRef} {w : Wrapper}

/-- Behind the parameters only the result, which stands last, may name a length. -/
theorem namesLength_of_length_le {k : Nat} {a : Argument} (hk : f.params.length ≤ k)
    (ha : (ownArgs f)[k]? = some a) :
    a.type.namesLength
      = (f.returnType.namesLength && (f.params.length + if f.flags.throws then 1 else 0) == k) := by
  have herror : errorSlot.type.namesLength = false := rfl
  obtain ⟨j, rfl⟩ := Nat.exists_eq_add_of_le hk
  rw [ownArgs, List.append_assoc, List.getElem?_append_right (by rw [List.length_map]; omega),
    List.length_map, Nat.add_sub_cancel_left] at ha
  cases hthrows : f.flags.throws with
  | false =>
    rw [hthrows] at ha
    cases j with
    | zero =>
      cases ha
      simp [ofResult]
    | succ j => cases ha
  | true =>
    rw [hthrows] at ha
    cases j with
    | zero =>
      cases ha
      simp [herror]
    | succ j =>
      cases j with
      | zero =>
        cases ha
        simp [ofResult]
      | succ j => cases ha

/-- Only the arguments of a function whose types name a length are coupled with one. -/
theorem any_array_couplings {cs : List Coupling}
    (h : couplings f 0 ((ownArgs f).length - 1) = .ok cs) {k : Nat} {a : Argument}
    (ha : (ownArgs f)[k]? = some a) : cs.any (·.array == k) = a.type.namesLength := by
  obtain ⟨ofParams, hparams, hrest⟩ := bind_eq_ok_iff.mp h
  obtain ⟨ofLast, hresult, hcs⟩ := bind_eq_ok_iff.mp hrest
  cases hcs
  have hlast : (ownArgs f).length - 1 = f.params.length + if f.flags.throws then 1 else 0 := by
    unfold ownArgs
    split <;> simp
  rw [List.any_append, any_array_couplingOf hresult, hlast]
  have hfront : ofParams.any (·.array == k) = true
      ↔ ∃ p, f.params[k]? = some p ∧ p.type.namesLength = true := by
    rw [any_array_paramCouplings hparams]
    simp
  by_cases hk : k < f.params.length
  · -- The coupling of the result stands behind all parameters.
    have hp := List.getElem?_eq_getElem hk
    obtain rfl := Option.some.inj (ha.symm.trans (getElem?_ownArgs hp))
    have hbehind : (f.params.length + if f.flags.throws then 1 else 0) ≠ k := by omega
    have hnames : ofParams.any (·.array == k) = f.params[k].type.namesLength := by
      rw [Bool.eq_iff_iff, hfront, hp]
      simp
    rw [hnames, beq_eq_false_iff_ne.mpr hbehind, Bool.and_false, Bool.or_false]
    rfl
  · have hnone : ofParams.any (·.array == k) = false := by
      rw [← Bool.not_eq_true, hfront, List.getElem?_eq_none (by omega)]
      simp
    rw [hnone, Bool.false_or, namesLength_of_length_le (by omega) ha]

/-- An array of a prepared function knows its length just when its type names one. -/
theorem knowsLength_of_mem_args (h : ofFunction scope f owner via = .ok w) {a : Argument}
    (ha : a ∈ w.args) : a.knowsLength = a.type.namesLength := by
  obtain ⟨_, args, hargs, happend⟩ := args_of_ofFunction h
  rw [happend, List.mem_append] at ha
  rcases ha with hreceiver | hown
  · rcases receivers_eq f owner via with hnone | ⟨o, hone⟩
    · rw [hnone] at hreceiver
      cases hreceiver
    · rw [hone] at hreceiver
      rw [List.mem_singleton.mp hreceiver]
      rfl
  · -- No argument knows its length before the couplings, and these tell just those that name one.
    obtain ⟨k, hk⟩ := List.mem_iff_getElem?.mp hown
    obtain ⟨cs, hcs, hcoupled⟩ := bind_eq_ok_iff.mp hargs
    cases hcoupled
    have hrange := (couplings_eq_ok hcs).1
    have hinside : f.params.length < (ownArgs f).length := by
      simp only [ownArgs, List.length_append, List.length_map, List.length_singleton]
      omega
    obtain ⟨b, hb, hcore⟩ := Coupling.exists_arg_of_foldl_apply hk
    have hfresh : b.isReceiver = false ∧ b.knowsLength = false := by
      rcases mem_ownArgs (List.mem_of_getElem? hb) with ⟨p, _, rfl⟩ | rfl | rfl <;> exact ⟨rfl, rfl⟩
    obtain ⟨a', ha', hknows⟩ := Coupling.exists_knowsLength_foldl_apply hb hfresh.1
      fun c hc => ⟨(hrange c hc).1, Nat.lt_trans (hrange c hc).2 hinside⟩
    obtain rfl := Option.some.inj (hk.symm.trans ha')
    have htype : b.type = a.type := (core_eq_iff.mp hcore).2.1
    rw [hknows, hfresh.2, Bool.false_or, any_array_couplings hcs hb, htype]

end Wrapper

/-! ### The locals of a function -/

namespace Argument

/-- Suffixes of the locals besides the one that the call reads. -/
def suffixes (a : Argument) : List String := a.passSuffixes ++ a.countSuffixes

/-- What the names of the locals have behind `real_`. -/
def stems (a : Argument) : List String :=
  if a.hasLocal then a.name :: a.suffixes.map (a.name ++ ·) else []

theorem stems_outline (a : Argument) : a.outline.stems = a.stems := by
  obtain ⟨name, type, role⟩ := a
  cases role with
  | receiver | result => rfl
  | param p => cases hhidden : p.hidden <;>
      simp [stems, suffixes, passSuffixes, countSuffixes, hasLocal, outline, fillsBuffer,
        fillsStructure, hhidden]

/-- The locals before and behind the call are those of the stems. -/
theorem passLocals_append_eq (a : Argument) :
    a.passLocals ++ a.countSuffixes.map (a.nativeLocal ++ ·) = a.stems.map ("real_" ++ ·) := by
  unfold passLocals stems
  cases hlocal : a.hasLocal with
  | true => simp [suffixes, nativeLocal, Function.comp_def, String.append_assoc]
  | false =>
    have hcount : a.countSuffixes = [] := by
      unfold hasLocal at hlocal
      cases hrole : a.role with
      | receiver | param => simp [hrole] at hlocal
      | result r =>
        rw [hrole] at hlocal
        simp [countSuffixes, hrole, hlocal]
    simp [hcount]

end Argument

/-- The identifier of a parameter in the host function. -/
def Parameter.ident (p : Parameter) : String := Naming.hostIdent p.name

/-- Suffixes of the locals of a parameter besides the one that the call reads. -/
def Parameter.suffixes (p : Parameter) : List String := (Argument.ofParameter p).suffixes

/-- What the names of the locals of a parameter have behind `real_`. -/
def Parameter.stems (p : Parameter) : List String := p.ident :: p.suffixes.map (p.ident ++ ·)

namespace Function

/-- What the names of the locals of the result have behind `real_`. -/
def resultStems (f : Function) : List String :=
  if f.keepsResult then
    "ret" :: (f.returnType.countSuffixes f.returnType.namesLength).map ("ret" ++ ·)
  else []

/-- What the names of the locals have behind `real_`, for a function that is declared on `owner`. -/
def stems (f : Function) (owner : Option EntityRef) : List String :=
  (if f.isMethod && owner.isSome then ["this"] else [])
    ++ f.withLengthsSkipped.params.flatMap Parameter.stems
    ++ (if f.flags.throws then ["err"] else []) ++ f.resultStems

end Function

namespace Wrapper

variable {scope : Scope} {f : Function} {owner via : Option EntityRef} {w : Wrapper}

theorem flatMap_stems_args (h : ofFunction scope f owner via = .ok w) :
    w.args.flatMap Argument.stems = f.stems owner := by
  obtain ⟨_, _, _, hargs⟩ := map_outline_args h
  have houtline : w.args.flatMap Argument.stems = (w.args.map outline).flatMap Argument.stems := by
    rw [List.flatMap_map]
    exact congrArg w.args.flatMap (funext fun a => (stems_outline a).symm)
  have hreceivers : (receivers f owner via).flatMap Argument.stems
      = if f.isMethod && owner.isSome then ["this"] else [] := by
    unfold receivers
    cases f.isMethod with
    | false => rfl
    | true => cases owner <;> rfl
  have hslot : (if f.flags.throws then [errorSlot] else []).flatMap Argument.stems
      = if f.flags.throws then ["err"] else [] := by
    cases f.flags.throws <;> rfl
  have hresult : [ofResult f].flatMap Argument.stems = f.resultStems := by
    have hcaptures : (ofResult f).capturesReturn = f.keepsResult := rfl
    rw [List.flatMap_singleton, Argument.stems, Argument.suffixes, Function.resultStems]
    simp only [hasLocal, passSuffixes, countSuffixes, hcaptures]
    cases f.keepsResult <;> rfl
  rw [houtline, hargs, rawArgs, List.flatMap_append, List.flatMap_append, List.flatMap_append,
    List.flatMap_map]
  show (receivers f owner via).flatMap Argument.stems
    ++ f.withLengthsSkipped.params.flatMap (fun p => (ofParameter p).stems)
    ++ (if f.flags.throws then [errorSlot] else []).flatMap Argument.stems
    ++ [ofResult f].flatMap Argument.stems = _
  rw [hreceivers, hslot, hresult]
  rfl

/-- The code for arguments declares their locals, those behind the call after those before it. -/
theorem perm_flatMap_declaredBy {args : List Argument} {conversions : List Conversion}
    (hknows : ∀ a ∈ args, a.knowsLength = a.type.namesLength)
    (h : List.Forall₂ (fun a c => a.convert scope = .ok c) args conversions) :
    (conversions.flatMap fun c => Stmt.declaredBy c.before ++ Stmt.declaredBy c.after).Perm
      ((args.flatMap Argument.stems).map ("real_" ++ ·)) := by
  induction h with
  | nil => exact .refl _
  | @cons a c args conversions hc _ ih =>
    rw [List.forall_mem_cons] at hknows
    have hdeclares := a.declares_convert scope c hc
    rw [List.flatMap_cons, List.flatMap_cons, List.map_append, ← passLocals_append_eq,
      hdeclares.after hknows.1]
    exact (hdeclares.before.append_right _).append (ih hknows.2)

end Wrapper

namespace HostFunction

/-- The names that a host function declares in the block of the native call: those of its signature
and the locals of the code before and behind the call. -/
def declared (h : HostFunction) : List String :=
  h.bound ++ Stmt.declaredBy (h.conversions.flatMap (·.before))
    ++ Stmt.declaredBy (h.conversions.reverse.flatMap (·.after))

end HostFunction

open Wrapper in
/-- A host function declares the names of its signature and the locals of its function. -/
theorem perm_declared {scope : Scope} {f : Function} {owner via : Option EntityRef}
    {host : HostFunction} (h : synthesize scope f owner via = .ok host) :
    host.declared.Perm (f.boundNames owner ++ (f.stems owner).map ("real_" ++ ·)) := by
  obtain ⟨w, hw, hconversions, _, _⟩ := exists_wrapper_of_synthesize h
  -- Results are converted from the last argument to the first.
  have hbehind : (Stmt.declaredBy (host.conversions.reverse.flatMap (·.after))).Perm
      (Stmt.declaredBy (host.conversions.flatMap (·.after))) :=
    ((List.reverse_perm _).flatMap_right _).flatMap_right _
  have hlocals := perm_flatMap_declaredBy (fun a ha => knowsLength_of_mem_args hw ha)
    (forall₂_of_mapM_eq_ok hconversions)
  rw [flatMap_stems_args hw] at hlocals
  rw [HostFunction.declared, bound_eq h, List.append_assoc]
  refine List.Perm.append_left _ (.trans (hbehind.append_left _) (.trans ?_ hlocals))
  unfold Stmt.declaredBy
  rw [List.flatMap_assoc, List.flatMap_assoc]
  exact List.flatMap_append_perm _ _ _

end Introspection
