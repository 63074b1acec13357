import Introspection.Proofs.Support.Except
import Introspection.Wrapper.Basic

/-!
# `Introspection.Proofs.Wrapper.Coupling`: the arguments of a prepared function

Arrays are coupled with their lengths before anything else is done with the arguments of a
function. Two facts say what this comes to.

* `ofFunction_eq`: the instance of a method takes no part in it. It stands in front of arguments
  that are the same whatever the function is declared on.
* `map_outline_args`: whatever does not ask for the reason why a parameter is hidden, or for the
  local of a length, sees the function as if the lengths were skipped (`withLengthsSkipped`).
-/

set_option autoImplicit false

namespace Introspection

open Introspection.Code

/-! ### Couplings behind an instance -/

/-- The coupling of the same arguments with one more in front. -/
def Coupling.succ (c : Coupling) : Coupling := ⟨c.array + 1, c.length + 1⟩

theorem Coupling.apply_succ (a : Argument) (args : List Argument) (c : Coupling) :
    c.succ.apply (a :: args) = a :: c.apply args := by
  unfold apply succ
  rw [List.getElem?_cons_succ, List.getElem?_cons_succ]
  cases args[c.array]? with
  | none => rfl
  | some array =>
    cases args[c.length]? with
    | none => rfl
    | some length =>
      dsimp only
      rw [List.modify_succ_cons, List.modify_succ_cons]

theorem Coupling.foldl_apply_succ (a : Argument) (args : List Argument) (cs : List Coupling) :
    (cs.map succ).foldl apply (a :: args) = a :: cs.foldl apply args := by
  induction cs generalizing args with
  | nil => rfl
  | cons c cs ih =>
    rw [List.map_cons, List.foldl_cons, List.foldl_cons, apply_succ, ih]

namespace Wrapper

theorem couplingOf_succ (first count position : Nat) (t : TypeDesc) :
    couplingOf (first + 1) count (position + 1) t
      = (couplingOf first count position t).map (List.map Coupling.succ) := by
  unfold couplingOf
  cases t.array.bind (·.length) with
  | none => rfl
  | some index =>
    dsimp only
    split
    · rw [map_ok, List.map_singleton, Coupling.succ, Nat.add_right_comm]
    · rfl

theorem paramCouplings_succ (first count : Nat) (ps : List Parameter) (position : Nat) :
    paramCouplings (first + 1) count (position + 1) ps
      = (paramCouplings first count position ps).map (List.map Coupling.succ) := by
  induction ps generalizing position with
  | nil => rfl
  | cons p ps ih =>
    unfold paramCouplings
    rw [couplingOf_succ, ih]
    cases couplingOf first count position p.type with
    | error e => rfl
    | ok here =>
      cases paramCouplings first count (position + 1) ps with
      | error e => rfl
      | ok rest =>
        show Except.ok (here.map Coupling.succ ++ rest.map Coupling.succ) = _
        rw [← List.map_append]
        rfl

theorem couplings_succ (f : Function) (first last : Nat) :
    couplings f (first + 1) (last + 1)
      = (couplings f first last).map (List.map Coupling.succ) := by
  unfold couplings
  rw [paramCouplings_succ, couplingOf_succ]
  cases paramCouplings first f.params.length first f.params with
  | error e => rfl
  | ok ofParams =>
    cases couplingOf first f.params.length last f.returnType with
    | error e => rfl
    | ok ofResult =>
      show Except.ok (ofParams.map Coupling.succ ++ ofResult.map Coupling.succ) = _
      rw [← List.map_append]
      rfl

/-- The arguments of a function but for the instance, before arrays and lengths are coupled. -/
def ownArgs (f : Function) : List Argument :=
  f.params.map Argument.ofParameter ++ (if f.flags.throws then [Argument.errorSlot] else [])
    ++ [Argument.ofResult f]

/-- The arguments of a function but for the instance. -/
def coupledArgs (f : Function) : Generated (List Argument) := do
  let couplings ← couplings f 0 ((ownArgs f).length - 1)
  return couplings.foldl Coupling.apply (ownArgs f)

theorem rawArgs_eq (f : Function) (owner via : Option EntityRef) :
    rawArgs f owner via = receivers f owner via ++ ownArgs f := by
  unfold rawArgs ownArgs
  rw [List.append_assoc, List.append_assoc, List.append_assoc]

/-- A function takes no instance or one. -/
theorem receivers_eq (f : Function) (owner via : Option EntityRef) :
    receivers f owner via = [] ∨ ∃ o, receivers f owner via = [.receiver o via] := by
  unfold receivers
  split
  · cases owner with
    | none => exact Or.inl rfl
    | some o => exact Or.inr ⟨o, rfl⟩
  · exact Or.inl rfl

/-- The instance of a function stands in front of arguments that do not depend on it. -/
theorem ofFunction_eq (scope : Scope) (f : Function) (owner via : Option EntityRef) :
    ofFunction scope f owner via
      = Generated.within (pathOf scope f owner)
        ((coupledArgs f).map fun args => ⟨scope, f, owner, receivers f owner via ++ args⟩) := by
  unfold ofFunction coupledArgs
  congr 1
  rw [rawArgs_eq]
  rcases receivers_eq f owner via with hnone | ⟨o, hone⟩
  · rw [hnone, List.nil_append]
    dsimp only [List.length_nil]
    cases couplings f 0 ((ownArgs f).length - 1) <;> rfl
  · -- With an instance in front every position is one higher.
    have hlast : ([Argument.receiver o via] ++ ownArgs f).length - 1
        = (ownArgs f).length - 1 + 1 := by
      simp [ownArgs, Nat.add_assoc]
    rw [hone]
    dsimp only
    rw [hlast, List.length_singleton, ← Nat.zero_add 1, couplings_succ]
    cases couplings f 0 ((ownArgs f).length - 1) with
    | error e => rfl
    | ok cs =>
      show Except.ok (Wrapper.mk scope f owner
        ((cs.map Coupling.succ).foldl Coupling.apply (.receiver o via :: ownArgs f))) = _
      rw [Coupling.foldl_apply_succ]
      rfl

end Wrapper

/-! ### What coupling leaves as it is -/

namespace Argument

/-- The argument without the local of its length and without the reason why it is hidden. -/
def outline (a : Argument) : Argument :=
  match a.role with
  | .receiver _ => a
  | .param p =>
    { a with
      role := .param { p with hidden := p.hidden.map fun _ => .skipped, length := none } }
  | .result r => { a with role := .result { r with length := none } }

/-- The argument as a skipped parameter. -/
def hide (a : Argument) : Argument :=
  match a.role with
  | .param p => { a with role := .param { p with hidden := some .skipped } }
  | _ => a

theorem outline_withLength (a : Argument) (length : String) :
    (a.withLength length).outline = a.outline := by
  obtain ⟨name, type, role⟩ := a
  cases role <;> rfl

theorem outline_asLengthOf (a : Argument) (array : Expr) :
    (a.asLengthOf array).outline = a.outline.hide := by
  obtain ⟨name, type, role⟩ := a
  cases role <;> rfl

theorem hide_hide (a : Argument) : a.hide.hide = a.hide := by
  obtain ⟨name, type, role⟩ := a
  cases role <;> rfl

theorem hide_ofParameter (p : Parameter) :
    (ofParameter p).hide = ofParameter { p with skip := true } := by
  simp only [hide, ofParameter, if_pos]

theorem outline_ofParameter (p : Parameter) : (ofParameter p).outline = ofParameter p := by
  simp only [outline, ofParameter]
  cases p.skip with
  | false => simp only [Bool.false_eq_true, if_false, Option.map_none]
  | true => simp only [if_true, Option.map_some]

end Argument

open Argument

theorem Coupling.length_apply (c : Coupling) (args : List Argument) :
    (c.apply args).length = args.length := by
  unfold apply
  split
  · rw [List.length_modify, List.length_modify]
  · rfl

/-- A coupling hides the length, and that is all that shows. -/
theorem Coupling.map_outline_apply {c : Coupling} {args : List Argument}
    (harray : c.array < args.length) :
    (c.apply args).map outline = (args.map outline).modify c.length hide := by
  refine List.ext_getElem? fun i => ?_
  unfold apply
  rw [List.getElem?_eq_getElem harray, List.getElem?_map, List.getElem?_modify, List.getElem?_map]
  cases hlength : args[c.length]? with
  | none =>
    dsimp only
    cases hi : args[i]? with
    | none => rfl
    | some a =>
      have hne : c.length ≠ i := by
        rintro rfl
        cases hlength.symm.trans hi
      simp [hne]
  | some length =>
    dsimp only
    rw [List.getElem?_modify, List.getElem?_modify]
    cases args[i]? with
    | none => rfl
    | some a =>
      by_cases ha : c.array = i <;> by_cases hl : c.length = i <;>
        simp [ha, hl, outline_withLength, outline_asLengthOf]

/-- Changes at positions, one after another, change every item whose position is among them. -/
theorem foldl_modify_eq_mapIdx {α : Type} {change : α → α}
    (hchange : ∀ a, change (change a) = change a) (is : List Nat) (as : List α) :
    is.foldl (fun as i => as.modify i change) as
      = as.mapIdx fun i a => if i ∈ is then change a else a := by
  induction is generalizing as with
  | nil => exact List.ext_getElem? fun j => by simp
  | cons i is ih =>
    rw [List.foldl_cons, ih]
    refine List.ext_getElem? fun j => ?_
    -- A position that is there twice is changed twice, which is once.
    rw [List.getElem?_mapIdx, List.getElem?_mapIdx, List.getElem?_modify]
    cases as[j]? with
    | none => rfl
    | some a =>
      by_cases hij : i = j
      · by_cases hj : j ∈ is <;> simp [hij, hj, hchange]
      · simp [hij, Ne.symm hij]

/-- All couplings together hide the lengths. -/
theorem Coupling.map_outline_foldl {cs : List Coupling} {args : List Argument}
    (h : ∀ c ∈ cs, c.array < args.length) :
    (cs.foldl apply args).map outline
      = (args.map outline).mapIdx fun i a => if i ∈ cs.map (·.length) then a.hide else a := by
  rw [← foldl_modify_eq_mapIdx hide_hide]
  -- The arguments change with each coupling, but their number does not.
  induction cs generalizing args with
  | nil => rfl
  | cons c cs ih =>
    have hc := h c List.mem_cons_self
    have hcs : ∀ c' ∈ cs, c'.array < (c.apply args).length := by
      intro c' hc'
      rw [length_apply]
      exact h c' (List.mem_cons_of_mem _ hc')
    rw [List.foldl_cons, ih hcs, map_outline_apply hc, List.map_cons, List.foldl_cons]

/-! ### Lengths as skipped parameters -/

namespace Function

/-- Position of the parameter that carries the length of the array type. -/
def lengthPosition? (t : TypeDesc) : Option Nat := (t.array.bind (·.length)).map (·.toNat)

/-- The positions of the parameters that carry the length of an array. -/
def lengthPositions (f : Function) : List Nat :=
  (f.params.map (·.type) ++ [f.returnType]).filterMap lengthPosition?

/-- The function with the parameters skipped that carry the length of an array. -/
def withLengthsSkipped (f : Function) : Function :=
  { f with
    params := f.params.mapIdx fun i p =>
      { p with skip := p.skip || f.lengthPositions.contains i } }

end Function

namespace Wrapper

theorem couplingOf_eq_ok {first count position : Nat} {t : TypeDesc} {cs : List Coupling}
    (h : couplingOf first count position t = .ok cs) :
    (∀ c ∈ cs, c.array = position ∧ c.length < first + count)
      ∧ cs.map (·.length) = (Function.lengthPosition? t).toList.map (first + ·) := by
  unfold couplingOf at h
  unfold Function.lengthPosition?
  cases hlength : t.array.bind (·.length) with
  | none =>
    rw [hlength] at h
    cases h
    exact ⟨nofun, rfl⟩
  | some index =>
    rw [hlength] at h
    dsimp only at h
    split at h
    · cases h
      refine ⟨fun c hc => ?_, rfl⟩
      rw [List.mem_singleton.mp hc]
      exact ⟨rfl, by dsimp only; omega⟩
    · cases h

theorem paramCouplings_eq_ok {first count position : Nat} {ps : List Parameter}
    {cs : List Coupling} (h : paramCouplings first count position ps = .ok cs) :
    (∀ c ∈ cs, c.array < position + ps.length ∧ c.length < first + count)
      ∧ cs.map (·.length)
        = ((ps.map (·.type)).filterMap Function.lengthPosition?).map (first + ·) := by
  induction ps generalizing position cs with
  | nil =>
    cases h
    exact ⟨nofun, rfl⟩
  | cons p ps ih =>
    obtain ⟨here, hhere, hrest⟩ := bind_eq_ok_iff.mp h
    obtain ⟨rest, hothers, hcs⟩ := bind_eq_ok_iff.mp hrest
    cases hcs
    obtain ⟨hfirst, hfirstLengths⟩ := couplingOf_eq_ok hhere
    obtain ⟨hothers, hotherLengths⟩ := ih hothers
    constructor
    · intro c hc
      rw [List.length_cons]
      rcases List.mem_append.mp hc with hc | hc
      · obtain ⟨harray, hlength⟩ := hfirst c hc
        exact ⟨by omega, hlength⟩
      · obtain ⟨harray, hlength⟩ := hothers c hc
        exact ⟨by omega, hlength⟩
    · rw [List.map_append, hfirstLengths, hotherLengths, List.map_cons, List.filterMap_cons]
      cases Function.lengthPosition? p.type <;> rfl

/-- The couplings of a function are of arguments that it has, with lengths that are parameters. -/
theorem couplings_eq_ok {f : Function} {cs : List Coupling}
    (h : couplings f 0 ((ownArgs f).length - 1) = .ok cs) :
    (∀ c ∈ cs, c.array < (ownArgs f).length ∧ c.length < f.params.length)
      ∧ cs.map (·.length) = f.lengthPositions := by
  obtain ⟨ofParams, hparams, hrest⟩ := bind_eq_ok_iff.mp h
  obtain ⟨ofResult, hresult, hcs⟩ := bind_eq_ok_iff.mp hrest
  cases hcs
  obtain ⟨hp, hparamLengths⟩ := paramCouplings_eq_ok hparams
  obtain ⟨hr, hresultLengths⟩ := couplingOf_eq_ok hresult
  have hcount : f.params.length < (ownArgs f).length := by
    simp only [ownArgs, List.length_append, List.length_map, List.length_singleton]
    omega
  constructor
  · intro c hc
    rcases List.mem_append.mp hc with hc | hc
    · obtain ⟨harray, hlength⟩ := hp c hc
      exact ⟨by omega, by omega⟩
    · obtain ⟨harray, hlength⟩ := hr c hc
      exact ⟨by omega, by omega⟩
  · rw [List.map_append, hparamLengths, hresultLengths, Function.lengthPositions,
      List.filterMap_append, ← List.map_append]
    simp only [Nat.zero_add, List.map_id']
    cases hresult : Function.lengthPosition? f.returnType <;> simp [hresult]

/-- But for what an outline leaves out, the arguments are those of the function with the lengths
skipped. -/
theorem map_outline_coupledArgs {f : Function} {args : List Argument}
    (h : coupledArgs f = .ok args) : args.map outline = ownArgs f.withLengthsSkipped := by
  obtain ⟨cs, hcs, hargs⟩ := bind_eq_ok_iff.mp h
  cases hargs
  obtain ⟨hrange, hlengths⟩ := couplings_eq_ok hcs
  have houtline : (ownArgs f).map outline = ownArgs f := by
    unfold ownArgs
    rw [List.map_append, List.map_append, List.map_map]
    congr 2
    · exact List.map_congr_left fun p _ => outline_ofParameter p
    · split <;> rfl
  have hcount : ∀ i ∈ f.lengthPositions, i < f.params.length := by
    intro i hi
    rw [← hlengths] at hi
    obtain ⟨c, hc, rfl⟩ := List.mem_map.mp hi
    exact (hrange c hc).2
  rw [Coupling.map_outline_foldl fun c hc => (hrange c hc).1, houtline, hlengths]
  unfold ownArgs
  rw [List.append_assoc, List.append_assoc, List.mapIdx_append]
  congr 1
  · refine List.ext_getElem? fun i => ?_
    rw [List.getElem?_mapIdx, List.getElem?_map, List.getElem?_map, Function.withLengthsSkipped,
      List.getElem?_mapIdx]
    cases f.params[i]? with
    | none => rfl
    | some p =>
      by_cases hi : i ∈ f.lengthPositions
      · simp [hi, hide_ofParameter]
      · simp [hi]
  · -- What stands behind the parameters is no length.
    refine List.ext_getElem? fun i => ?_
    have hi : i + (f.params.map Argument.ofParameter).length ∉ f.lengthPositions := by
      intro hi
      have h := hcount _ hi
      rw [List.length_map] at h
      omega
    rw [List.getElem?_mapIdx]
    simp only [if_neg hi, Option.map_id_fun', id_eq]
    rfl

/-- But for what an outline leaves out, a prepared function has the arguments of the function with
the lengths skipped. -/
theorem map_outline_args {scope : Scope} {f : Function} {owner via : Option EntityRef} {w : Wrapper}
    (h : ofFunction scope f owner via = .ok w) :
    w.scope = scope ∧ w.function = f ∧ w.owner = owner
      ∧ w.args.map outline = rawArgs f.withLengthsSkipped owner via := by
  rw [ofFunction_eq] at h
  cases hargs : coupledArgs f with
  | error e =>
    rw [hargs] at h
    cases h
  | ok args =>
    rw [hargs] at h
    cases h
    refine ⟨rfl, rfl, rfl, ?_⟩
    have hreceivers : (receivers f owner via).map outline = receivers f owner via := by
      rcases receivers_eq f owner via with h | ⟨o, h⟩
      · rw [h]
        rfl
      · rw [h]
        rfl
    rw [List.map_append, hreceivers, map_outline_coupledArgs hargs, rawArgs_eq]
    rfl

end Wrapper

end Introspection
