import Introspection.Proofs.Wrapper.Call
import Mathlib.Data.List.Induction

/-!
# `Introspection.Proofs.Wrapper.Length`: the length that is passed with an array

A length has one place for the array that it counts, and couplings fill it one after another. So of
several arrays that name the same length the last one decides (`Function.lengthSource?`), where the
result of the function stands behind all parameters. `exists_arg_of_params` reads this off the
arguments of a prepared function.

`passes_length_of_synthesize` is what it comes to for an array that goes in and that nothing behind
it contests: the length that is passed is the number of its elements.
-/

set_option autoImplicit false

namespace Introspection

open Introspection.Code

/-! ### What hides a parameter -/

namespace Argument

/-- What an argument is apart from its couplings. -/
structure Core where
  name : String
  type : TypeDesc
  /-- Which way the value of a parameter flows. -/
  direction : Option Direction
  /-- The expression that reads the value on the host side. -/
  value : Expr

/-- What couplings leave of an argument as it is. -/
def core (a : Argument) : Core :=
  ⟨a.name, a.type,
    match a.role with
    | .param p => some p.direction
    | _ => none,
    a.hostValue⟩

/-- Why a parameter is hidden, if it is. -/
def hidden? (a : Argument) : Option Hidden :=
  match a.role with
  | .param p => p.hidden
  | _ => none

theorem core_eq_iff {a b : Argument} :
    a.core = b.core ↔ a.name = b.name ∧ a.type = b.type ∧ a.core.direction = b.core.direction
      ∧ a.hostValue = b.hostValue := by
  rw [core, core, Core.mk.injEq]

theorem core_withLength (a : Argument) (length : String) : (a.withLength length).core = a.core := by
  obtain ⟨name, type, role⟩ := a
  cases role <;> rfl

theorem core_asLengthOf (a : Argument) (array : Expr) : (a.asLengthOf array).core = a.core := by
  obtain ⟨name, type, role⟩ := a
  cases role <;> rfl

theorem hidden?_withLength (a : Argument) (length : String) :
    (a.withLength length).hidden? = a.hidden? := by
  obtain ⟨name, type, role⟩ := a
  cases role <;> rfl

/-- Only parameters are lengths. -/
theorem hidden?_asLengthOf {a : Argument} {d : Direction} (hd : a.core.direction = some d)
    (array : Expr) : (a.asLengthOf array).hidden? = some (.lengthOf array) := by
  obtain ⟨name, type, role⟩ := a
  cases role with
  | param p => rfl
  | receiver | result => cases hd

/-- A hidden parameter is converted for the reason why it is hidden. -/
theorem convert_of_hidden? {a : Argument} {d : Direction} {why : Hidden} (scope : Scope)
    (hd : a.core.direction = some d) (hwhy : a.hidden? = some why) :
    a.convert scope = a.convertHidden d why := by
  unfold core at hd
  unfold hidden? at hwhy
  unfold convert
  cases hrole : a.role with
  | param p =>
    rw [hrole] at hd hwhy
    cases hd
    dsimp only at hwhy ⊢
    unfold convertParam
    rw [hwhy]
  | receiver | result =>
    rw [hrole] at hd
    cases hd

end Argument

open Argument

/-! ### What couplings do to one argument -/

namespace Coupling

theorem core_apply (c : Coupling) (args : List Argument) :
    (c.apply args).map core = args.map core := by
  refine List.ext_getElem? fun i => ?_
  unfold apply
  split
  · rw [List.getElem?_map, List.getElem?_modify, List.getElem?_modify, List.getElem?_map]
    cases args[i]? with
    | none => rfl
    | some a =>
      by_cases ha : c.array = i <;> by_cases hl : c.length = i <;>
        simp [ha, hl, core_withLength, core_asLengthOf]
  · rfl

theorem core_foldl_apply (cs : List Coupling) (args : List Argument) :
    (cs.foldl apply args).map core = args.map core := by
  induction cs generalizing args with
  | nil => rfl
  | cons c cs ih => rw [List.foldl_cons, ih, core_apply]

/-- Behind couplings each argument stands where it stood. -/
theorem exists_arg_foldl_apply (cs : List Coupling) {args : List Argument} {i : Nat}
    {a : Argument} (hi : args[i]? = some a) :
    ∃ b, (cs.foldl apply args)[i]? = some b ∧ b.core = a.core := by
  have hcore := congrArg (·[i]?) (core_foldl_apply cs args)
  simp only [List.getElem?_map, hi, Option.map_some] at hcore
  exact Option.map_eq_some_iff.mp hcore

/-- Before couplings each argument stands where it stands behind them. -/
theorem exists_arg_of_foldl_apply {cs : List Coupling} {args : List Argument} {i : Nat}
    {a : Argument} (hi : (cs.foldl apply args)[i]? = some a) :
    ∃ b, args[i]? = some b ∧ b.core = a.core := by
  have hcore := congrArg (·[i]?) (core_foldl_apply cs args)
  simp only [List.getElem?_map, hi, Option.map_some] at hcore
  exact Option.map_eq_some_iff.mp hcore.symm

/-- A coupling hides its length with the array. -/
theorem hidden?_apply_length {c : Coupling} {args : List Argument} {array length : Argument}
    {d : Direction} (harray : args[c.array]? = some array) (hlength : args[c.length]? = some length)
    (hd : length.core.direction = some d) :
    ∃ a, (c.apply args)[c.length]? = some a ∧ a.hidden? = some (.lengthOf array.hostValue) := by
  unfold apply
  rw [harray, hlength]
  dsimp only
  rw [List.getElem?_modify_eq, List.getElem?_modify, hlength]
  -- An array may be its own length.
  refine ⟨_, rfl, hidden?_asLengthOf (d := d) ?_ _⟩
  dsimp only
  split
  · rwa [core_withLength]
  · exact hd

/-- A coupling leaves what hides another argument. -/
theorem hidden?_apply_of_ne {c : Coupling} {args : List Argument} {j : Nat} {a : Argument}
    (hj : args[j]? = some a) (hne : c.length ≠ j) :
    ∃ b, (c.apply args)[j]? = some b ∧ b.hidden? = a.hidden? := by
  unfold apply
  split
  · rw [List.getElem?_modify_ne _ _ hne, List.getElem?_modify, hj]
    refine ⟨_, rfl, ?_⟩
    dsimp only
    split
    · exact hidden?_withLength a _
    · rfl
  · exact ⟨a, hj, rfl⟩

/-- The arrays whose length some couplings put at position `j`, in their order. -/
def arraysAt (args : List Argument) (cs : List Coupling) (j : Nat) : List Argument :=
  cs.filterMap fun c => if c.length = j then args[c.array]? else none

theorem arraysAt_append (args : List Argument) (cs ds : List Coupling) (j : Nat) :
    arraysAt args (cs ++ ds) j = arraysAt args cs j ++ arraysAt args ds j :=
  List.filterMap_append

/-- Behind all couplings a parameter is hidden with the last array whose length it is. -/
theorem hidden?_foldl_apply {cs : List Coupling} {args : List Argument} {j : Nat} {a : Argument}
    {d : Direction} (hj : args[j]? = some a) (hd : a.core.direction = some d)
    (hrange : ∀ c ∈ cs, c.array < args.length) :
    ((cs.foldl apply args)[j]?).map hidden?
      = some (((arraysAt args cs j).getLast?.map fun array =>
          Hidden.lengthOf array.hostValue).or a.hidden?) := by
  -- The last coupling decides, so the induction takes couplings off the end.
  induction cs using List.reverseRecOn with
  | nil =>
    rw [List.foldl_nil, hj]
    rfl
  | append_singleton cs c ih =>
    have hbefore := ih fun c' hc' => hrange c' (List.mem_append_left _ hc')
    obtain ⟨b, hb, hcore⟩ := exists_arg_foldl_apply cs hj
    rw [hb] at hbefore
    rw [List.foldl_append, List.foldl_cons, List.foldl_nil, arraysAt_append]
    by_cases hc : c.length = j
    · subst hc
      have hinside := hrange c (List.mem_append_right _ (List.mem_singleton.mpr rfl))
      obtain ⟨array, harray⟩ : ∃ array, args[c.array]? = some array :=
        ⟨_, List.getElem?_eq_getElem hinside⟩
      have hlast : arraysAt args [c] c.length = [array] := by
        simp [arraysAt, harray]
      obtain ⟨coupled, hcoupled, hkept⟩ := exists_arg_foldl_apply cs harray
      obtain ⟨b', hb', hhidden⟩ := hidden?_apply_length hcoupled hb (by rwa [hcore])
      rw [hb', Option.map_some, hhidden, hlast, List.getLast?_concat, (core_eq_iff.mp hkept).2.2.2]
      rfl
    · have hnone : arraysAt args [c] j = [] := by
        simp [arraysAt, hc]
      obtain ⟨b', hb', hkept⟩ := hidden?_apply_of_ne hb hc
      rw [hb', Option.map_some, hkept, hnone, List.append_nil]
      exact hbefore

end Coupling

/-! ### The array that decides -/

/-- The argument whose length is passed at position `k`: of the arrays that name this position, the
last one. -/
def Function.lengthSource? (f : Function) (k : Nat) : Option Argument :=
  ((Wrapper.ownArgs f).filter fun a => lengthPosition? a.type == some k).getLast?

namespace Wrapper

theorem arraysAt_of_couplingOf {count position k : Nat} {cs : List Coupling}
    {args : List Argument} {a : Argument} (ha : args[position]? = some a)
    (h : couplingOf 0 count position a.type = .ok cs) :
    Coupling.arraysAt args cs k = [a].filter (Function.lengthPosition? ·.type == some k) := by
  unfold couplingOf at h
  cases hlength : a.type.array.bind (·.length) with
  | none =>
    have hposition : Function.lengthPosition? a.type = none := by
      rw [Function.lengthPosition?, hlength]
      rfl
    rw [hlength] at h
    cases h
    simp [Coupling.arraysAt, hposition]
  | some index =>
    have hposition : Function.lengthPosition? a.type = some index.toNat := by
      rw [Function.lengthPosition?, hlength]
      rfl
    rw [hlength] at h
    dsimp only at h
    split at h
    · cases h
      by_cases hk : index.toNat = k <;> simp [Coupling.arraysAt, hposition, ha, hk]
    · cases h

theorem arraysAt_of_paramCouplings {count k : Nat} {ps : List Parameter} {cs : List Coupling}
    (front back : List Argument) (h : paramCouplings 0 count front.length ps = .ok cs) :
    Coupling.arraysAt (front ++ ps.map ofParameter ++ back) cs k
      = (ps.map ofParameter).filter (Function.lengthPosition? ·.type == some k) := by
  induction ps generalizing front cs with
  | nil =>
    cases h
    rfl
  | cons p ps ih =>
    obtain ⟨here, hhere, hrest⟩ := bind_eq_ok_iff.mp h
    obtain ⟨rest, hothers, hcs⟩ := bind_eq_ok_iff.mp hrest
    cases hcs
    have hp : (front ++ (p :: ps).map ofParameter ++ back)[front.length]?
        = some (ofParameter p) := by
      simp
    have hmoved : front ++ (p :: ps).map ofParameter ++ back
        = (front ++ [ofParameter p]) ++ ps.map ofParameter ++ back := by
      simp
    have hothers : paramCouplings 0 count (front ++ [ofParameter p]).length ps = .ok rest := by
      rwa [List.length_append, List.length_singleton]
    rw [Coupling.arraysAt_append, arraysAt_of_couplingOf hp hhere, hmoved, ih _ hothers,
      List.map_cons, ← List.filter_append, List.singleton_append]

/-- The couplings of a function put the lengths of its arrays where these name them. -/
theorem arraysAt_of_couplings {f : Function} {k : Nat} {cs : List Coupling}
    (h : couplings f 0 ((ownArgs f).length - 1) = .ok cs) :
    Coupling.arraysAt (ownArgs f) cs k
      = (ownArgs f).filter (Function.lengthPosition? ·.type == some k) := by
  obtain ⟨ofParams, hparams, hrest⟩ := bind_eq_ok_iff.mp h
  obtain ⟨ofResult, hresult, hcs⟩ := bind_eq_ok_iff.mp hrest
  cases hcs
  have hlast : (ownArgs f)[(ownArgs f).length - 1]? = some (Argument.ofResult f) := by
    simp [ownArgs]
  have hofParams := arraysAt_of_paramCouplings (k := k) []
    ((if f.flags.throws then [errorSlot] else []) ++ [Argument.ofResult f]) hparams
  have hslot : (if f.flags.throws then [errorSlot] else []).filter
      (Function.lengthPosition? ·.type == some k) = [] := by
    split <;> rfl
  rw [List.nil_append, ← List.append_assoc] at hofParams
  rw [Coupling.arraysAt_append, arraysAt_of_couplingOf hlast hresult]
  unfold ownArgs
  rw [hofParams, List.filter_append, List.filter_append, hslot, List.append_nil]

theorem getElem?_ownArgs {f : Function} {k : Nat} {p : Parameter} (hp : f.params[k]? = some p) :
    (ownArgs f)[k]? = some (ofParameter p) := by
  have hk : k < f.params.length := (List.getElem?_eq_some_iff.mp hp).1
  rw [ownArgs, List.append_assoc, List.getElem?_append_left (by rwa [List.length_map]),
    List.getElem?_map, hp]
  rfl

/-- A parameter of a prepared function is hidden with the last array that names it for its length,
or else if it is skipped. -/
theorem exists_arg_of_params {f : Function} {args : List Argument} (h : coupledArgs f = .ok args)
    {k : Nat} {p : Parameter} (hp : f.params[k]? = some p) :
    ∃ a, args[k]? = some a ∧ a.core = (ofParameter p).core
      ∧ a.hidden? = ((f.lengthSource? k).map fun array => Hidden.lengthOf array.hostValue).or
          (ofParameter p).hidden? := by
  obtain ⟨cs, hcs, hargs⟩ := bind_eq_ok_iff.mp h
  cases hargs
  obtain ⟨a, ha, hcore⟩ := Coupling.exists_arg_foldl_apply cs (getElem?_ownArgs hp)
  have hhidden := Coupling.hidden?_foldl_apply (getElem?_ownArgs hp) (d := p.direction) rfl
    fun c hc => ((couplings_eq_ok hcs).1 c hc).1
  rw [ha, arraysAt_of_couplings hcs] at hhidden
  exact ⟨a, ha, hcore, Option.some.inj hhidden⟩

/-! ### The code for a length -/

/-- The steps of a wrapping that succeeded. -/
theorem exists_wrapper_of_synthesize {scope : Scope} {f : Function} {owner via : Option EntityRef}
    {host : HostFunction} (h : synthesize scope f owner via = .ok host) :
    ∃ w, ofFunction scope f owner via = .ok w
      ∧ w.args.mapM (·.convert w.scope) = .ok host.conversions
      ∧ w.bareSignature = .ok host.signature
      ∧ host.receiver = w.args.findSome? receiverDecl := by
  obtain ⟨w, hw, hhost⟩ := bind_eq_ok_iff.mp h
  obtain ⟨conversions, hconversions, hhost⟩ := bind_eq_ok_iff.mp (within_eq_ok_iff.mp hhost)
  obtain ⟨signature, hsignature, hhost⟩ := bind_eq_ok_iff.mp hhost
  cases hhost
  exact ⟨w, hw, hconversions, hsignature, rfl⟩

/-- A prepared function has the instance in front of its own arguments. -/
theorem args_of_ofFunction {scope : Scope} {f : Function} {owner via : Option EntityRef}
    {w : Wrapper} (h : ofFunction scope f owner via = .ok w) :
    w.scope = scope
      ∧ ∃ args, coupledArgs f = .ok args ∧ w.args = receivers f owner via ++ args := by
  rw [ofFunction_eq] at h
  obtain ⟨args, hargs, rfl⟩ := map_eq_ok_iff.mp (within_eq_ok_iff.mp h)
  exact ⟨rfl, args, hargs, rfl⟩

end Wrapper

namespace Function

/-- The parameter at position `i` is an array that goes in and that the host function takes. It
names position `k` for its length, and nothing behind it does. -/
structure SuppliesLength (f : Function) (i k : Nat) (array : Parameter) : Prop where
  param : f.params[i]? = some array
  names : lengthPosition? array.type = some k
  goesIn : array.direction ≠ .output
  shown : array.skip = false ∧ i ∉ f.lengthPositions
  lastParam : ∀ j other, i < j → f.params[j]? = some other → lengthPosition? other.type ≠ some k
  result : lengthPosition? f.returnType ≠ some k

theorem SuppliesLength.lengthSource?_eq {f : Function} {i k : Nat} {array : Parameter}
    (h : f.SuppliesLength i k array) : f.lengthSource? k = some (ofParameter array) := by
  obtain ⟨hi, harray⟩ := List.getElem?_eq_some_iff.mp h.param
  have hlater : ((f.params.drop (i + 1)).map ofParameter).filter
      (lengthPosition? ·.type == some k) = [] := by
    rw [List.filter_map, List.map_eq_nil_iff, List.filter_eq_nil_iff]
    intro other hother
    obtain ⟨j, hj, hget⟩ := List.mem_drop_iff_getElem.mp hother
    have hnot := h.lastParam (i + 1 + j) other (by omega) (List.getElem?_eq_some_iff.mpr ⟨_, hget⟩)
    simpa [ofParameter] using hnot
  have hslot : (if f.flags.throws then [errorSlot] else []).filter
      (lengthPosition? ·.type == some k) = [] := by
    split <;> rfl
  have hresult : [Argument.ofResult f].filter (lengthPosition? ·.type == some k) = [] := by
    simpa [ofResult] using h.result
  have hhere : [ofParameter array].filter (lengthPosition? ·.type == some k)
      = [ofParameter array] :=
    List.filter_cons_of_pos (beq_iff_eq.mpr h.names)
  -- Of the arguments that name `k`, the ones before the array come first and none come behind it.
  unfold lengthSource? Wrapper.ownArgs
  rw [← List.take_append_drop i f.params, List.drop_eq_getElem_cons hi, harray, List.map_append,
    List.map_cons, ← List.singleton_append, List.filter_append, List.filter_append,
    List.filter_append, List.filter_append, hslot, hresult, hhere, hlater, List.append_nil,
    List.append_nil, List.append_nil, List.getLast?_concat]

end Function

open Wrapper in
/-- The length that is passed with an array which goes in is the number of its elements. A length
that only comes back is not: its local is declared and left to the callee. -/
theorem passes_length_of_synthesize {scope : Scope} {f : Function} {owner via : Option EntityRef}
    {host : HostFunction} (h : synthesize scope f owner via = .ok host) {i k : Nat}
    {array : Parameter} (harray : f.SuppliesLength i k array) :
    ∃ length native, f.params[k]? = some length ∧ resolveNative length.type = .ok native
      ∧ host.conversions[(receivers f owner via).length + k]? = some (.ofBefore
          (if length.direction = .output then .declareOne length.passed.real native
            else .define length.passed.real
              (.convert native (.len (ofParameter array).hostValue)))) := by
  obtain ⟨w, hw, hconversions, _, _⟩ := exists_wrapper_of_synthesize h
  obtain ⟨_, args, hargs, happend⟩ := args_of_ofFunction hw
  -- A length out of range would have been reported.
  have hk : k < f.params.length := by
    obtain ⟨cs, hcs, _⟩ := bind_eq_ok_iff.mp hargs
    obtain ⟨hrange, hlengths⟩ := couplings_eq_ok hcs
    have hmem : k ∈ f.lengthPositions :=
      List.mem_filterMap.mpr ⟨array.type, List.mem_append_left _
        (List.mem_map_of_mem (List.mem_of_getElem? harray.param)), harray.names⟩
    rw [← hlengths] at hmem
    obtain ⟨c, hc, rfl⟩ := List.mem_map.mp hmem
    exact (hrange c hc).2
  obtain ⟨length, hlength⟩ : ∃ length, f.params[k]? = some length :=
    ⟨_, List.getElem?_eq_getElem hk⟩
  obtain ⟨a, ha, hcore, hhidden⟩ := exists_arg_of_params hargs hlength
  rw [harray.lengthSource?_eq, Option.map_some, Option.some_or] at hhidden
  have hw : w.args[(receivers f owner via).length + k]? = some a := by
    rw [happend, List.getElem?_append_right (Nat.le_add_right _ _), Nat.add_sub_cancel_left, ha]
  obtain ⟨c, hc, hconvert⟩ := getElem?_of_mapM_eq_ok hconversions hw
  obtain ⟨hname, htype, hdirection, _⟩ := core_eq_iff.mp hcore
  rw [convert_of_hidden? w.scope hdirection hhidden] at hconvert
  obtain ⟨native, hnative, hcode⟩ := bind_eq_ok_iff.mp hconvert
  have hreal : a.nativeLocal = length.passed.real := by
    rw [nativeLocal, hname]
    exact (passedAs_ofParameter length).2
  replace hnative : resolveNative length.type = .ok native := by
    rwa [htype] at hnative
  refine ⟨length, native, hlength, hnative, ?_⟩
  rw [hc, ← hreal]
  dsimp only at hcode
  by_cases hout : length.direction = .output
  · rw [if_pos hout]
    rw [if_neg (by simpa [core] using hout)] at hcode
    cases hcode
    rfl
  · rw [if_neg hout]
    rw [if_pos (by simpa [core] using hout)] at hcode
    cases hcode
    rfl

/-- A method that stores names in their number, which it may change. -/
def Function.ofStoredNames : Function :=
  { (((ofSymbol "store" "gtk_list_store").withParam
        { Parameter.ofType "names" (.ofArray ⟨.c, some 1, none, false⟩ .utf8) with
          direction := .inout }).withParam
        { Parameter.ofType "n_names" (.ofTag .int32) with direction := .inout }) with
    flags := { FunctionFlags.plain with isMethod := true } }

theorem passes_length_of_synthesize_ofStoredNames :
    ∃ host : HostFunction,
      synthesize (.ofHome "Gtk") Function.ofStoredNames (some ⟨"Gtk", "List", .object⟩)
        none = .ok host
      ∧ host.conversions[2]? = some (.ofBefore (.define "real_n_names"
          (.convert (.native "gint32") (.len (.paren (.deref (.host "names"))))))) := by
  have hok : ∃ host, synthesize (.ofHome "Gtk") Function.ofStoredNames
      (some ⟨"Gtk", "List", .object⟩) none = .ok host := ⟨_, rfl⟩
  obtain ⟨host, hhost⟩ := hok
  have hsupplies : Function.ofStoredNames.SuppliesLength 0 1
      { Parameter.ofType "names" (.ofArray ⟨.c, some 1, none, false⟩ .utf8) with
        direction := .inout } := by
    refine ⟨rfl, rfl, by decide, ⟨rfl, by decide⟩, fun j other hj hother => ?_, by decide⟩
    have hcount : j < 2 := (List.getElem?_eq_some_iff.mp hother).1
    obtain rfl : j = 1 := by omega
    cases hother
    decide
  obtain ⟨length, native, hlength, hnative, hcode⟩ := passes_length_of_synthesize hhost hsupplies
  cases hlength
  cases hnative
  exact ⟨host, hhost, hcode⟩

/-- The length at position `k` is computed from the array that `array` reads. -/
def HostFunction.DefinesLength (h : HostFunction) (k : Nat) (length : String) (array : Expr) :
    Prop :=
  ∃ native release after,
    h.conversions[k]? = some ⟨[.define length (.convert native (.len array))], release, after⟩

/-- A length is computed from one array. -/
theorem HostFunction.DefinesLength.array_eq {h : HostFunction} {k : Nat} {length real : String}
    {array other : Expr} {native : GoType} (hdefines : h.DefinesLength k length array)
    (hcode : h.conversions[k]?
      = some (.ofBefore (.define real (.convert native (.len other))))) : array = other := by
  obtain ⟨_, _, _, hcode'⟩ := hdefines
  rw [hcode] at hcode'
  cases hcode'
  rfl

/-- A function that reports how many of some names it used. -/
def Function.ofUsedNames : Function :=
  ((ofSymbol "use" "gtk_use").withParam
      (.ofType "names" (.ofArray ⟨.c, some 1, none, false⟩ .utf8))).withParam
    { Parameter.ofType "n_used" (.ofTag .int32) with direction := .output }

/-- A function of two arrays that have one length. -/
def Function.ofPairs : Function :=
  (((ofSymbol "pair" "gtk_pair").withParam
        (.ofType "keys" (.ofArray ⟨.c, some 2, none, false⟩ .utf8))).withParam
      (.ofType "values" (.ofArray ⟨.c, some 2, none, false⟩ .utf8))).withParam
    (.ofType "n" (.ofTag .int32))

/-- A function that turns names into as many others, which are dropped. -/
def Function.ofReplacedNames : Function :=
  { ((ofSymbol "replace" "gtk_replace").withParam
        (.ofType "names" (.ofArray ⟨.c, some 1, none, false⟩ .utf8))).withParam
      (.ofType "n_names" (.ofTag .int32)) with
    returnType := .ofArray ⟨.c, some 1, none, false⟩ .utf8
    skipReturn := true }

/-- A length is not computed from the array that goes in where it only comes back, and where
another array or the result names it too. -/
theorem not_definesLength_ofUsedNames_ofPairs_ofReplacedNames :
    (∃ host : HostFunction, synthesize (.ofHome "Gtk") Function.ofUsedNames none none = .ok host
        ∧ ¬host.DefinesLength 1 "real_n_used" (.host "names"))
      ∧ (∃ host : HostFunction, synthesize (.ofHome "Gtk") Function.ofPairs none none = .ok host
        ∧ ¬host.DefinesLength 2 "real_n" (.host "keys"))
      ∧ ∃ host : HostFunction, synthesize (.ofHome "Gtk") Function.ofReplacedNames none
        none = .ok host
        ∧ ¬host.DefinesLength 1 "real_n_names" (.host "names") := by
  refine ⟨⟨_, rfl, ?used⟩, ⟨_, rfl, ?pairs⟩, ⟨_, rfl, ?replaced⟩⟩
  case used =>
    rintro ⟨native, release, after, hcode⟩
    cases hcode
  case pairs =>
    intro hdefines
    have hvalues : Expr.host "keys" = .host "values" := hdefines.array_eq rfl
    exact absurd (Expr.host.inj hvalues) (by decide)
  case replaced =>
    intro hdefines
    have hresult : Expr.host "names" = .host "ret" := hdefines.array_eq rfl
    exact absurd (Expr.host.inj hresult) (by decide)

end Introspection
