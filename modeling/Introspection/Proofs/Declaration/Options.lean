import Introspection.Proofs.Declaration.Emission
import Introspection.Proofs.Wrapper.Home

/-!
# `Introspection.Proofs.Declaration.Options`: which options reach the declarations

Two options have a say in what a namespace declares: whether deprecated items are left out, and
whether fields have getters. The others are for the header and for listings. Two of these, the name
of the package and the path of its siblings, are in the scope under which each declaration is made,
but of a scope only the namespace is read (`Namespace.home_scope` and what follows it).

Getters are the last thing that a struct or union declares, and a field whose value does not
convert has none instead of an error. So leaving getters out takes them from the result and
changes nothing else, errors included: `fragments_of_options`.
-/

set_option autoImplicit false

namespace Introspection

open Introspection.Code

/-- Whether a declaration is the getter of a field. -/
def Declaration.isGetter : Declaration → Bool
  | getter _ => true
  | _ => false

/-- The fragments that are no getters. -/
def Fragment.withoutGetters (fs : List Fragment) : List Fragment :=
  fs.filter fun f => !f.declaration.isGetter

namespace Fragment

@[simp] theorem withoutGetters_append (fs gs : List Fragment) :
    withoutGetters (fs ++ gs) = withoutGetters fs ++ withoutGetters gs :=
  List.filter_append ..

theorem withoutGetters_flatten (fss : List (List Fragment)) :
    withoutGetters fss.flatten = (fss.map withoutGetters).flatten :=
  List.filter_flatten ..

theorem withoutGetters_eq_self_iff {fs : List Fragment} :
    withoutGetters fs = fs ↔ ∀ f ∈ fs, f.declaration.isGetter = false := by
  unfold withoutGetters
  rw [List.filter_eq_self]
  simp only [Bool.not_eq_true']

theorem withoutGetters_eq_nil_iff {fs : List Fragment} :
    withoutGetters fs = [] ↔ ∀ f ∈ fs, f.declaration.isGetter = true := by
  unfold withoutGetters
  rw [List.filter_eq_nil_iff]
  simp only [Bool.not_eq_true', Bool.not_eq_false]

end Fragment

/-- Leaving getters out changes nothing where there are none. -/
theorem map_withoutGetters_eq_self {r : Generated (List Fragment)}
    (h : Yields (fun fs => ∀ f ∈ fs, f.declaration.isGetter = false) r) :
    r.map Fragment.withoutGetters = r := by
  cases r with
  | error e => rfl
  | ok fs => exact congrArg Except.ok (Fragment.withoutGetters_eq_self_iff.mpr (h fs rfl))

namespace Namespace

variable {ns : Namespace}

/-! ### Declarations that are no getters -/

theorem isGetter_of_constantFragment {options : Options} {c : Constant} {f : Fragment}
    (h : ns.constantFragment options c = .ok f) : f.declaration.isGetter = false := by
  obtain ⟨type, _, h⟩ := bind_eq_ok_iff.mp (within_eq_ok_iff.mp h)
  obtain ⟨value, _, h⟩ := bind_eq_ok_iff.mp h
  cases h
  rfl

theorem isGetter_of_mem_functionFragments {options : Options} {owner : Option EntityRef}
    {fs : List Function} {out : List Fragment}
    (h : ns.functionFragments options owner fs = .ok out) :
    ∀ f ∈ out, f.declaration.isGetter = false := by
  intro f hf
  obtain ⟨g, _, hg⟩ := (mem_of_mapM_eq_ok h).mp hf
  obtain ⟨host, _, rfl⟩ := functionFragment_eq_ok_iff.mp hg
  show (if g.isMethod then Declaration.method host else .function host).isGetter = false
  cases g.isMethod
  · rfl
  · rfl

theorem isGetter_of_mem_memberFragments {options : Options} {owner : EntityRef}
    {own : List Function} {interfaces : List EntityRef} {out : List Fragment}
    (h : ns.memberFragments options owner own interfaces = .ok out) :
    ∀ f ∈ out, f.declaration.isGetter = false := by
  obtain ⟨ofOwn, hown, h⟩ := bind_eq_ok_iff.mp h
  obtain ⟨ofInterfaces, hinterfaces, h⟩ := bind_eq_ok_iff.mp h
  cases h
  refine List.forall_mem_append.mpr ⟨isGetter_of_mem_functionFragments hown, ?_⟩
  intro f hf
  obtain ⟨m, _, hm⟩ := (mem_of_mapM_eq_ok hinterfaces).mp hf
  obtain ⟨host, _, rfl⟩ := inheritedFragment_eq_ok_iff.mp hm
  rfl

/-- Enumerations, interfaces and objects have no getters. -/
theorem isGetter_of_mem_enumFragments {options : Options} {e : Enumeration}
    {out : List Fragment} (h : ns.enumFragments options e = .ok out) :
    ∀ f ∈ out, f.declaration.isGetter = false := by
  obtain ⟨storage, _, h⟩ := bind_eq_ok_iff.mp h
  obtain ⟨functions, hfunctions, h⟩ := bind_eq_ok_iff.mp h
  cases h
  exact List.forall_mem_cons.mpr ⟨rfl, isGetter_of_mem_functionFragments hfunctions⟩

theorem isGetter_of_mem_interfaceFragments {options : Options} {i : Interface}
    {out : List Fragment} (h : ns.interfaceFragments options i = .ok out) :
    ∀ f ∈ out, f.declaration.isGetter = false := by
  obtain ⟨entries, members, _, hmembers, rfl⟩ := interfaceFragments_eq_ok_iff.mp h
  exact List.forall_mem_cons.mpr ⟨rfl, isGetter_of_mem_memberFragments hmembers⟩

theorem isGetter_of_mem_objectFragments {options : Options} {o : Object}
    {out : List Fragment} (h : ns.objectFragments options o = .ok out) :
    ∀ f ∈ out, f.declaration.isGetter = false := by
  obtain ⟨entries, members, _, hmembers, rfl⟩ := objectFragments_eq_ok_iff.mp h
  have htype : (ns.objectDeclaration options o).isGetter = false := by
    unfold objectDeclaration
    cases o.parent with
    | none => rfl
    | some p => rfl
  exact List.forall_mem_cons.mpr
    ⟨htype, List.forall_mem_cons.mpr ⟨rfl, isGetter_of_mem_memberFragments hmembers⟩⟩

theorem isGetter_of_mem_getterFragments {scope : Scope} {owner : EntityRef}
    {taken : List String} {fields : List FieldDecl} :
    ∀ f ∈ getterFragments scope owner taken fields, f.declaration.isGetter = true := by
  intro f hf
  obtain ⟨field, _, hfield⟩ := List.mem_filterMap.mp hf
  obtain ⟨g, _, rfl⟩ := Option.map_eq_some_iff.mp hfield
  rfl

/-! ### Options in the scope -/

/-- The namespace at home does not depend on options. -/
theorem home_scope (ns : Namespace) (o o' : Options) : (ns.scope o').home = (ns.scope o).home :=
  rfl

theorem constantFragment_of_options (o o' : Options) :
    ns.constantFragment o' = ns.constantFragment o := by
  funext c
  simp only [constantFragment, resolveHost_congr (ns.home_scope o o')]

theorem functionFragment_of_options (o o' : Options) :
    ns.functionFragment o' = ns.functionFragment o := by
  funext owner f
  simp only [functionFragment, synthesize_congr (ns.home_scope o o')]

theorem inheritedFragment_of_options (o o' : Options) :
    ns.inheritedFragment o' = ns.inheritedFragment o := by
  funext owner m
  simp only [inheritedFragment, synthesize_congr (ns.home_scope o o')]

theorem objectDeclaration_of_options (o o' : Options) :
    ns.objectDeclaration o' = ns.objectDeclaration o := by
  funext ob
  simp only [objectDeclaration, Scope.typeName_congr (ns.home_scope o o'),
    Scope.wrap_congr (ns.home_scope o o')]

theorem methodSetBase_of_options (o o' : Options) : ns.methodSetBase o' = ns.methodSetBase o := by
  funext ob
  simp only [methodSetBase, Scope.typeName_congr (ns.home_scope o o')]

/-! ### Options that agree on what is left out -/

section Agreeing

variable {o o' : Options} (h : o'.skips = o.skips)

include h

theorem functionFragments_of_options (owner : Option EntityRef) (fs : List Function) :
    ns.functionFragments o' owner fs = ns.functionFragments o owner fs := by
  unfold functionFragments
  rw [h, functionFragment_of_options o o']

theorem instanceMethods_of_options : o'.instanceMethods = o.instanceMethods := by
  funext fs
  unfold Options.instanceMethods
  rw [h]

theorem memberFragments_of_options (owner : EntityRef) (own : List Function)
    (interfaces : List EntityRef) :
    ns.memberFragments o' owner own interfaces = ns.memberFragments o owner own interfaces := by
  have hinterface : ns.interfaceMethods o' = ns.interfaceMethods o := by
    funext via
    unfold interfaceMethods
    rw [instanceMethods_of_options h]
  unfold memberFragments inherited
  rw [functionFragments_of_options h, hinterface, inheritedFragment_of_options o o']

theorem methodEntries_of_options (owner : EntityRef) (fs : List Function) :
    ns.methodEntries o' owner fs = ns.methodEntries o owner fs := by
  have hentry : ∀ f : Function,
      (do let w ← Wrapper.ofFunction (ns.scope o') f (some owner) none
          return InterfaceEntry.method (← w.signature))
        = (do let w ← Wrapper.ofFunction (ns.scope o) f (some owner) none
              return InterfaceEntry.method (← w.signature)) := fun f =>
    Wrapper.ofFunction_bind_congr (ns.home_scope o o') f (some owner) none fun args => by
      rw [Wrapper.signature_congr (ns.home_scope o o')]
  unfold methodEntries
  rw [instanceMethods_of_options h]
  simp only [hentry]

theorem enumFragments_of_options (e : Enumeration) :
    ns.enumFragments o' e = ns.enumFragments o e := by
  unfold enumFragments
  simp only [h, functionFragments_of_options h, resolveHost_congr (ns.home_scope o o')]

theorem interfaceFragments_of_options (i : Interface) :
    ns.interfaceFragments o' i = ns.interfaceFragments o i := by
  unfold interfaceFragments
  simp only [methodEntries_of_options h, memberFragments_of_options h]

theorem objectFragments_of_options (ob : Object) :
    ns.objectFragments o' ob = ns.objectFragments o ob := by
  unfold objectFragments
  simp only [methodEntries_of_options h, memberFragments_of_options h,
    objectDeclaration_of_options o o', methodSetBase_of_options o o']

theorem recordFragments_of_options (hgetters : o'.fieldGetters = o.fieldGetters) (r : EntityRef)
    (deprecated : Bool) (fields : List FieldDecl) (methods : List Function) :
    ns.recordFragments o' r deprecated fields methods
      = ns.recordFragments o r deprecated fields methods := by
  unfold recordFragments
  rw [functionFragments_of_options h, hgetters, getterFragments_congr (ns.home_scope o o')]

/-- A struct or union without getters is what it is with them, the getters taken away. -/
theorem recordFragments_without_getters (hon : o.fieldGetters = true)
    (hoff : o'.fieldGetters = false) (r : EntityRef) (deprecated : Bool)
    (fields : List FieldDecl) (methods : List Function) :
    ns.recordFragments o' r deprecated fields methods
      = (ns.recordFragments o r deprecated fields methods).map Fragment.withoutGetters := by
  unfold recordFragments
  rw [functionFragments_of_options h, hon, hoff]
  cases hfunctions : ns.functionFragments o (some r) methods with
  | error e => rfl
  | ok functions =>
    have hkept : Fragment.withoutGetters (⟨.type r, deprecated, .handle r.name⟩ :: functions)
        = ⟨.type r, deprecated, .handle r.name⟩ :: functions :=
      Fragment.withoutGetters_eq_self_iff.mpr
        (List.forall_mem_cons.mpr ⟨rfl, isGetter_of_mem_functionFragments hfunctions⟩)
    have hgetters : Fragment.withoutGetters
        (getterFragments (ns.scope o) r ("Native" :: methodNames methods) fields) = [] :=
      Fragment.withoutGetters_eq_nil_iff.mpr isGetter_of_mem_getterFragments
    simp only [ok_bind, pure_eq_ok, map_ok, Fragment.withoutGetters_append, hkept, hgetters,
      if_true, Bool.false_eq_true, if_false]

theorem entityFragments_of_options (hgetters : o'.fieldGetters = o.fieldGetters) :
    ns.entityFragments o' = ns.entityFragments o := by
  funext e
  cases e with
  | enum e => exact enumFragments_of_options h e
  | interface i => exact interfaceFragments_of_options h i
  | object ob => exact objectFragments_of_options h ob
  | struct s =>
    simp only [entityFragments, structFragments, recordFragments_of_options h hgetters]
  | union u => exact recordFragments_of_options h hgetters ..

theorem entityFragments_without_getters (hon : o.fieldGetters = true)
    (hoff : o'.fieldGetters = false) (e : Entity) :
    ns.entityFragments o' e = (ns.entityFragments o e).map Fragment.withoutGetters := by
  cases e with
  | enum e =>
    show ns.enumFragments o' e = (ns.enumFragments o e).map Fragment.withoutGetters
    rw [enumFragments_of_options h,
      map_withoutGetters_eq_self fun _ => isGetter_of_mem_enumFragments]
  | interface i =>
    show ns.interfaceFragments o' i = (ns.interfaceFragments o i).map Fragment.withoutGetters
    rw [interfaceFragments_of_options h,
      map_withoutGetters_eq_self fun _ => isGetter_of_mem_interfaceFragments]
  | object ob =>
    show ns.objectFragments o' ob = (ns.objectFragments o ob).map Fragment.withoutGetters
    rw [objectFragments_of_options h,
      map_withoutGetters_eq_self fun _ => isGetter_of_mem_objectFragments]
  | struct s =>
    simp only [entityFragments, structFragments]
    split
    · rfl
    · exact recordFragments_without_getters h hon hoff ..
  | union u => exact recordFragments_without_getters h hon hoff ..

/-- Without getters a namespace declares what it declares with them, the getters taken away, and
fails with the same errors. -/
theorem fragments_without_getters (hon : o.fieldGetters = true) (hoff : o'.fieldGetters = false) :
    ns.fragments o' = (ns.fragments o).map Fragment.withoutGetters := by
  have htypes : ns.entityFragments o'
      = fun e => (ns.entityFragments o e).map Fragment.withoutGetters :=
    funext (entityFragments_without_getters h hon hoff)
  unfold fragments
  rw [h, htypes, mapM_map, functionFragments_of_options h, constantFragment_of_options o o']
  generalize hcs : ns.constants.entries.filter (fun c => !o.skips c.deprecated) = cs
  generalize ns.entities.filter (fun e => !o.skips e.deprecated) = es
  cases hconstants : cs.mapM (ns.constantFragment o) with
  | error e => rfl
  | ok constants =>
    cases es.mapM (ns.entityFragments o) with
    | error e => rfl
    | ok types =>
      cases hfunctions : ns.functionFragments o none ns.functions.entries with
      | error e => rfl
      | ok functions =>
        have hkeptConstants : Fragment.withoutGetters constants = constants := by
          refine Fragment.withoutGetters_eq_self_iff.mpr fun f hf => ?_
          obtain ⟨c, _, hc⟩ := (mem_of_mapM_eq_ok hconstants).mp hf
          exact isGetter_of_constantFragment hc
        have hkeptFunctions : Fragment.withoutGetters functions = functions :=
          Fragment.withoutGetters_eq_self_iff.mpr (isGetter_of_mem_functionFragments hfunctions)
        simp only [ok_bind, map_ok, pure_eq_ok, Fragment.withoutGetters_append,
          Fragment.withoutGetters_flatten, hkeptConstants, hkeptFunctions]

end Agreeing

/-- Only two options reach the declarations. Options that agree on both give the same fragments
or the same error; options that differ in getters give the same but for the getters. -/
theorem fragments_of_options {o o' : Options} (h : o'.skipDeprecated = o.skipDeprecated) :
    (o'.fieldGetters = o.fieldGetters → ns.fragments o' = ns.fragments o)
      ∧ (o.fieldGetters = true → o'.fieldGetters = false →
        ns.fragments o' = (ns.fragments o).map Fragment.withoutGetters) := by
  have hskips : o'.skips = o.skips := by
    funext deprecated
    unfold Options.skips
    rw [h]
  refine ⟨fun hgetters => ?_, fragments_without_getters hskips⟩
  unfold fragments
  rw [hskips, constantFragment_of_options o o', entityFragments_of_options hskips hgetters,
    functionFragments_of_options hskips]

/-- A struct with one field that has a getter. -/
def ofPoint : Namespace :=
  (ofName "Gdk").addEntity
    (.struct ⟨"Point", 4, 4, false, false, [.ofType "x" (.ofTag .int32)], [], false⟩)

/-- The name of the package says nothing about the declarations; leaving getters out takes away
the one of the field. -/
theorem fragments_ofPoint_of_options :
    ofPoint.fragments { Options.default with package := some "display" }
        = ofPoint.fragments .default
      ∧ ofPoint.fragments { Options.default with fieldGetters := false }
        = (ofPoint.fragments .default).map Fragment.withoutGetters
      ∧ ∃ fs, ofPoint.fragments .default = .ok fs ∧ fs.length = 2
        ∧ (Fragment.withoutGetters fs).length = 1 := by
  have hdisplay : { Options.default with package := some "display" }.skipDeprecated
      = Options.default.skipDeprecated := rfl
  have hoff : { Options.default with fieldGetters := false }.skipDeprecated
      = Options.default.skipDeprecated := rfl
  have hpackage : ofPoint.fragments { Options.default with package := some "display" }
      = ofPoint.fragments .default := (fragments_of_options hdisplay).1 rfl
  have hgetters : ofPoint.fragments { Options.default with fieldGetters := false }
      = (ofPoint.fragments .default).map Fragment.withoutGetters :=
    (fragments_of_options hoff).2 rfl rfl
  have hon : ∃ fs, ofPoint.fragments .default = .ok fs ∧ fs.length = 2 := ⟨_, rfl, rfl⟩
  have hwithout : ∃ fs, ofPoint.fragments { Options.default with fieldGetters := false } = .ok fs
      ∧ fs.length = 1 := ⟨_, rfl, rfl⟩
  obtain ⟨fs, hfs, htwo⟩ := hon
  obtain ⟨fs', hfs', hone⟩ := hwithout
  have hsame : Except.ok fs' = (Except.ok fs : Generated _).map Fragment.withoutGetters := by
    rw [← hfs', ← hfs]
    exact hgetters
  cases hsame
  exact ⟨hpackage, hgetters, fs, hfs, htwo, hone⟩

end Namespace

end Introspection
