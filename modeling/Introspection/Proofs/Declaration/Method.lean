import Introspection.Declaration.Emission
import Introspection.Proofs.Generation.Gap
import Introspection.Proofs.Namespace.Reference

/-!
# `Introspection.Proofs.Declaration.Method`: which methods a type gets

Methods are told apart by their host names. `EmitsMethod` says that fragments declare a method of
a name on a type, and `emitsMethod_memberFragments_iff` says which names these are: those of the
type's own instance methods that are not left out, and those that interfaces add to the names of
all its own instance methods, left out or not. `method_mem_methodEntries_iff` is the same for the
signatures in an interface type.
-/

set_option autoImplicit false

namespace Introspection

open Introspection.Code

/-! ### First come, first served -/

/-- A name survives when it is not taken before: of its bearers the first one stays. -/
theorem exists_mem_freshBy_iff {α : Type} {name : α → String} {taken : List String} {as : List α}
    {n : String} :
    (∃ a ∈ freshBy name taken as, name a = n) ↔ n ∉ taken ∧ ∃ a ∈ as, name a = n := by
  induction as generalizing taken with
  | nil => simp [freshBy]
  | cons a as ih =>
    unfold freshBy
    by_cases htaken : name a ∈ taken
    · rw [if_pos htaken, ih, List.exists_mem_cons_iff]
      -- The first name is taken, so it is not the name that is asked for.
      have hne : n ∉ taken → ¬name a = n := fun hn he => hn (he ▸ htaken)
      constructor
      · rintro ⟨hn, h⟩
        exact ⟨hn, Or.inr h⟩
      · rintro ⟨hn, he | h⟩
        · exact absurd he (hne hn)
        · exact ⟨hn, h⟩
    · -- The first one stays; it answers for its own name and bars no other.
      rw [if_neg htaken, List.exists_mem_cons_iff, ih, List.exists_mem_cons_iff]
      by_cases he : name a = n
      · subst he
        simp [htaken]
      · have he' : n ≠ name a := fun h => he h.symm
        simp [he, he']

theorem mem_of_mem_freshBy {α : Type} {name : α → String} {taken : List String} {as : List α}
    {a : α} (h : a ∈ freshBy name taken as) : a ∈ as := by
  induction as generalizing taken with
  | nil => exact h
  | cons b as ih =>
    unfold freshBy at h
    split at h
    · exact List.mem_cons_of_mem b (ih h)
    · rcases List.mem_cons.mp h with rfl | h
      · exact List.mem_cons_self
      · exact List.mem_cons_of_mem b (ih h)

/-! ### Names of host functions -/

namespace Wrapper

theorem name_of_bareSignature {w : Wrapper} {s : Signature} (h : w.bareSignature = .ok s) :
    s.name = w.hostName := by
  obtain ⟨params, _, h⟩ := bind_eq_ok_iff.mp h
  obtain ⟨results, _, h⟩ := bind_eq_ok_iff.mp h
  cases h
  rfl

theorem hostName_of_ofFunction {scope : Scope} {f : Function} {owner : EntityRef}
    {via : Option EntityRef} {w : Wrapper} (h : ofFunction scope f (some owner) via = .ok w)
    (hf : f.isMethod = true) : w.hostName = f.methodName := by
  obtain ⟨couplings, _, hw⟩ := bind_eq_ok_iff.mp (within_eq_ok_iff.mp h)
  cases hw
  show (if f.isMethod = true then f.methodName else owner.name ++ f.methodName) = f.methodName
  rw [if_pos hf]

end Wrapper

/-- A method keeps its name, whatever type it is declared on. -/
theorem name_of_synthesize {scope : Scope} {f : Function} {owner : EntityRef}
    {via : Option EntityRef} {host : HostFunction}
    (h : synthesize scope f (some owner) via = .ok host) (hf : f.isMethod = true) :
    host.signature.name = f.methodName := by
  obtain ⟨w, hw, hhost⟩ := bind_eq_ok_iff.mp h
  obtain ⟨conversions, _, hhost⟩ := bind_eq_ok_iff.mp (within_eq_ok_iff.mp hhost)
  obtain ⟨signature, hsignature, hhost⟩ := bind_eq_ok_iff.mp hhost
  cases hhost
  show signature.name = f.methodName
  rw [Wrapper.name_of_bareSignature hsignature, Wrapper.hostName_of_ofFunction hw hf]

/-! ### Names that a type gets -/

/-- Host names of the instance methods among functions that are not left out. -/
def Options.keptNames (options : Options) (fs : List Function) : List String :=
  (options.instanceMethods fs).map Function.methodName

theorem mem_keptNames_iff {options : Options} {fs : List Function} {n : String} :
    n ∈ options.keptNames fs ↔
      ∃ f ∈ fs, f.isMethod = true ∧ options.skips f.deprecated = false ∧ f.methodName = n := by
  simp [Options.keptNames, Options.instanceMethods, and_assoc]

/-- Among the fragments is a method of the name that is declared on the type. -/
def EmitsMethod (fs : List Fragment) (r : EntityRef) (n : String) : Prop :=
  ∃ f ∈ fs, ∃ name host,
    f.origin = .member r name ∧ f.declaration = .method host ∧ host.signature.name = n

theorem emitsMethod_append_iff {fs gs : List Fragment} {r : EntityRef} {n : String} :
    EmitsMethod (fs ++ gs) r n ↔ EmitsMethod fs r n ∨ EmitsMethod gs r n := by
  simp only [EmitsMethod, List.mem_append, or_and_right, exists_or]

/-- The declaration of a type is no method. -/
theorem emitsMethod_cons_iff {r r' : EntityRef} {noted : Bool} {d : Declaration}
    {fs : List Fragment} {n : String} :
    EmitsMethod (⟨.type r', noted, d⟩ :: fs) r n ↔ EmitsMethod fs r n := by
  unfold EmitsMethod
  rw [List.exists_mem_cons_iff, or_iff_right]
  rintro ⟨name, host, horigin, _⟩
  cases horigin

namespace Namespace

variable {ns : Namespace} {options : Options}

/-- A name is among those that interfaces offer if one of them has kept a method of that name. -/
theorem exists_mem_interfaceMethods_iff {interfaces : List EntityRef} {n : String} :
    (∃ m ∈ interfaces.flatMap (ns.interfaceMethods options), m.method.methodName = n)
      ↔ ∃ r ∈ interfaces, ∃ i, ns.interface? r = some i ∧ n ∈ options.keptNames i.methods := by
  have hone : ∀ r, (∃ m ∈ ns.interfaceMethods options r, m.method.methodName = n)
      ↔ ∃ i, ns.interface? r = some i ∧ n ∈ options.keptNames i.methods := by
    intro r
    unfold interfaceMethods Options.keptNames
    cases ns.interface? r with
    | none => simp
    | some i => simp
  simp only [List.mem_flatMap]
  constructor
  · rintro ⟨m, ⟨r, hr, hm⟩, hn⟩
    exact ⟨r, hr, (hone r).mp ⟨m, hm, hn⟩⟩
  · rintro ⟨r, hr, h⟩
    obtain ⟨m, hm, hn⟩ := (hone r).mpr h
    exact ⟨m, ⟨r, hr, hm⟩, hn⟩

/-- A type gets instance methods from interfaces, and nothing else. -/
theorem isMethod_of_mem_inherited {own : List Function} {interfaces : List EntityRef}
    {m : Inherited} (h : m ∈ ns.inherited options own interfaces) : m.method.isMethod = true := by
  obtain ⟨r, _, hm⟩ := List.mem_flatMap.mp (mem_of_mem_freshBy h)
  unfold interfaceMethods at hm
  cases hi : ns.interface? r with
  | none => simp [hi] at hm
  | some i =>
    simp only [hi, Options.instanceMethods, List.mem_map, List.mem_filter] at hm
    obtain ⟨f, ⟨_, hkept⟩, rfl⟩ := hm
    exact (Bool.and_eq_true_iff.mp hkept).1

theorem functionFragment_eq_ok_iff {owner : Option EntityRef} {f : Function} {out : Fragment} :
    ns.functionFragment options owner f = .ok out ↔
      ∃ host, synthesize (ns.scope options) f owner none = .ok host
      ∧ ⟨ns.originOf owner f, f.deprecated, if f.isMethod then .method host else .function host⟩
        = out := by
  unfold functionFragment
  rw [bind_eq_ok_iff]
  simp

theorem inheritedFragment_eq_ok_iff {owner : EntityRef} {m : Inherited} {out : Fragment} :
    ns.inheritedFragment options owner m = .ok out ↔
      ∃ host, synthesize (ns.scope options) m.method (some owner) (some m.via) = .ok host
        ∧ ⟨.member owner m.method.name, m.method.deprecated, .method host⟩ = out := by
  unfold inheritedFragment
  rw [bind_eq_ok_iff]
  simp

/-- The functions of a type become methods under the names of those instance methods that are
not left out. -/
theorem emitsMethod_functionFragments_iff {owner : EntityRef} {fs : List Function}
    {out : List Fragment} (h : ns.functionFragments options (some owner) fs = .ok out)
    {n : String} : EmitsMethod out owner n ↔ n ∈ options.keptNames fs := by
  rw [mem_keptNames_iff]
  constructor
  · rintro ⟨fragment, hmem, name, host, horigin, hdecl, hn⟩
    obtain ⟨f, hf, hout⟩ := (mem_of_mapM_eq_ok h).mp hmem
    obtain ⟨host', hhost, rfl⟩ := functionFragment_eq_ok_iff.mp hout
    have hf := List.mem_filter.mp hf
    by_cases hmethod : f.isMethod = true
    · simp only [hmethod, if_true, Declaration.method.injEq] at hdecl
      subst hdecl
      refine ⟨f, hf.1, hmethod, by simpa using hf.2, ?_⟩
      rw [← name_of_synthesize hhost hmethod, hn]
    · simp [hmethod] at hdecl
  · rintro ⟨f, hf, hmethod, hkept, hn⟩
    have hmem : f ∈ fs.filter fun f => !options.skips f.deprecated :=
      List.mem_filter.mpr ⟨hf, by simp [hkept]⟩
    -- The whole list has fragments, so this function has one.
    obtain ⟨fragment, hout⟩ := exists_ok_of_mapM_eq_ok h hmem
    obtain ⟨host, hhost, rfl⟩ := functionFragment_eq_ok_iff.mp hout
    refine ⟨_, (mem_of_mapM_eq_ok h).mpr ⟨f, hmem, hout⟩, f.name, host, rfl, by simp [hmethod], ?_⟩
    rw [name_of_synthesize hhost hmethod, hn]

/-- The methods that a type gets from interfaces keep their names. -/
theorem emitsMethod_inheritedFragments_iff {owner : EntityRef} {own : List Function}
    {interfaces : List EntityRef} {out : List Fragment}
    (h : (ns.inherited options own interfaces).mapM (ns.inheritedFragment options owner) = .ok out)
    {n : String} : EmitsMethod out owner n ↔
      ∃ m ∈ ns.inherited options own interfaces, m.method.methodName = n := by
  constructor
  · rintro ⟨fragment, hmem, name, host, horigin, hdecl, hn⟩
    obtain ⟨m, hm, hout⟩ := (mem_of_mapM_eq_ok h).mp hmem
    obtain ⟨host', hhost, rfl⟩ := inheritedFragment_eq_ok_iff.mp hout
    cases hdecl
    refine ⟨m, hm, ?_⟩
    rw [← name_of_synthesize hhost (isMethod_of_mem_inherited hm), hn]
  · rintro ⟨m, hm, hn⟩
    obtain ⟨fragment, hout⟩ := exists_ok_of_mapM_eq_ok h hm
    obtain ⟨host, hhost, rfl⟩ := inheritedFragment_eq_ok_iff.mp hout
    refine ⟨_, (mem_of_mapM_eq_ok h).mpr ⟨m, hm, hout⟩, m.method.name, host, rfl, rfl, ?_⟩
    rw [name_of_synthesize hhost (isMethod_of_mem_inherited hm), hn]

/-- Names of the methods on a type: first its own that are not left out, then those of
interfaces. A method of its own bars its name even when it is left out itself. -/
theorem emitsMethod_memberFragments_iff {owner : EntityRef} {own : List Function}
    {interfaces : List EntityRef} {out : List Fragment}
    (h : ns.memberFragments options owner own interfaces = .ok out) {n : String} :
    EmitsMethod out owner n ↔ n ∈ options.keptNames own ∨ n ∉ methodNames own
      ∧ ∃ r ∈ interfaces, ∃ i, ns.interface? r = some i ∧ n ∈ options.keptNames i.methods := by
  obtain ⟨ofOwn, hown, h⟩ := bind_eq_ok_iff.mp h
  obtain ⟨ofInterfaces, hinterfaces, h⟩ := bind_eq_ok_iff.mp h
  cases h
  rw [emitsMethod_append_iff, emitsMethod_functionFragments_iff hown,
    emitsMethod_inheritedFragments_iff hinterfaces]
  unfold inherited
  rw [exists_mem_freshBy_iff, exists_mem_interfaceMethods_iff]

/-- All entries of a list of functions are signatures of methods. -/
theorem exists_method_of_mem_methodEntries {owner : EntityRef} {fs : List Function}
    {entries : List InterfaceEntry} (h : ns.methodEntries options owner fs = .ok entries)
    {e : InterfaceEntry} (he : e ∈ entries) : ∃ s, e = .method s := by
  obtain ⟨f, _, hf⟩ := (mem_of_mapM_eq_ok h).mp he
  obtain ⟨w, _, hf⟩ := bind_eq_ok_iff.mp hf
  obtain ⟨s, _, hf⟩ := bind_eq_ok_iff.mp hf
  cases hf
  exact ⟨s, rfl⟩

/-- Names of the signatures in the entries of an interface type: those of the instance methods
that are not left out. -/
theorem method_mem_methodEntries_iff {owner : EntityRef} {fs : List Function}
    {entries : List InterfaceEntry} (h : ns.methodEntries options owner fs = .ok entries)
    {n : String} :
    (∃ s, InterfaceEntry.method s ∈ entries ∧ s.name = n) ↔ n ∈ options.keptNames fs := by
  -- An entry has the name that the method would have on the type.
  have hname : ∀ f ∈ options.instanceMethods fs, ∀ e,
      (do let w ← Wrapper.ofFunction (ns.scope options) f (some owner) none
          return InterfaceEntry.method (← w.signature)) = (.ok e : Generated InterfaceEntry) →
        ∃ s, e = .method s ∧ s.name = f.methodName := by
    intro f hf e he
    have hmethod : f.isMethod = true := (Bool.and_eq_true_iff.mp (List.mem_filter.mp hf).2).1
    obtain ⟨w, hw, he⟩ := bind_eq_ok_iff.mp he
    obtain ⟨s, hs, he⟩ := bind_eq_ok_iff.mp he
    cases he
    refine ⟨s, rfl, ?_⟩
    rw [Wrapper.name_of_bareSignature (within_eq_ok_iff.mp hs),
      Wrapper.hostName_of_ofFunction hw hmethod]
  unfold Options.keptNames
  rw [List.mem_map]
  constructor
  · rintro ⟨s, hs, hn⟩
    obtain ⟨f, hf, hentry⟩ := (mem_of_mapM_eq_ok h).mp hs
    obtain ⟨s', hs', hname⟩ := hname f hf _ hentry
    cases hs'
    exact ⟨f, hf, hname ▸ hn⟩
  · rintro ⟨f, hf, hn⟩
    obtain ⟨e, hentry⟩ := exists_ok_of_mapM_eq_ok h hf
    obtain ⟨s, rfl, hs⟩ := hname f hf e hentry
    exact ⟨s, (mem_of_mapM_eq_ok h).mpr ⟨f, hf, hentry⟩, hs.trans hn⟩

end Namespace

end Introspection
