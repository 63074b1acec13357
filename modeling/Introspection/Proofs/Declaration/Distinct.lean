import Introspection.Proofs.Declaration.Carrier

/-!
# `Introspection.Proofs.Declaration.Distinct`: no member of a type comes twice

An object lists interfaces that may share methods with each other and with the object. What it
gets from them has names that are distinct and none of its own, no method that is not left out is
missing, and of several methods of one name the object gets that of the first interface that has
one (`Namespace.InheritsOnce`). The getters of a struct or union have distinct names too, apart
from its methods and from the access to the handle (`GettersApart`).

Both follow from `freshBy`, which threads the names that are taken through everything that comes:
of what it keeps, each is the first bearer of its name.
-/

set_option autoImplicit false

namespace Introspection

/-! ### First bearers of names -/

/-- What is kept has a name that was not taken. -/
theorem name_notMem_of_mem_freshBy {α : Type} {name : α → String} {taken : List String}
    {as : List α} {a : α} (h : a ∈ freshBy name taken as) : name a ∉ taken :=
  (exists_mem_freshBy_iff.mp ⟨a, h, rfl⟩).1

/-- What is kept is the first bearer of its name. -/
theorem find?_of_mem_freshBy {α : Type} {name : α → String} {taken : List String} {as : List α}
    {a : α} (h : a ∈ freshBy name taken as) : as.find? (fun b => name b == name a) = some a := by
  induction as generalizing taken with
  | nil => cases h
  | cons b as ih =>
    have hfree := name_notMem_of_mem_freshBy h
    unfold freshBy at h
    -- A later one has another name than the head: that name is taken by now.
    have hlater : name b ≠ name a → as.find? (fun b => name b == name a) = some a →
        (b :: as).find? (fun b => name b == name a) = some a := by
      intro hne hfind
      rw [List.find?_cons_of_neg (by simpa using hne), hfind]
    split at h
    · rename_i htaken
      exact hlater (fun heq => hfree (heq ▸ htaken)) (ih h)
    · rcases List.mem_cons.mp h with rfl | h
      · exact List.find?_cons_of_pos (beq_self_eq_true (name a))
      · have hne := List.ne_of_not_mem_cons (name_notMem_of_mem_freshBy h)
        exact hlater (Ne.symm hne) (ih h)

/-! ### Getters of a type -/

/-- The getter that a fragment declares on the type. -/
def Fragment.getterOn? (r : EntityRef) (f : Fragment) : Option FieldGetter :=
  match f.origin, f.declaration with
  | .member owner _, .getter g => if owner = r then some g else none
  | _, _ => none

/-- The getters that fragments declare on the type, in their order. -/
def gettersOn (r : EntityRef) (fs : List Fragment) : List FieldGetter :=
  fs.filterMap (Fragment.getterOn? r)

/-- The name that a getter is called by. -/
def FieldGetter.name (g : FieldGetter) : String := g.signature.name

/-- A getter is declared on the type that its fragment belongs to. -/
theorem Fragment.owner_of_getterOn? {r : EntityRef} (f : Fragment) (g : FieldGetter)
    (h : f.getterOn? r = some g) : f.origin.owner? = some r := by
  obtain ⟨origin, noted, declaration⟩ := f
  cases origin with
  | item home name => cases h
  | type s => cases h
  | member s name =>
    cases declaration with
    | getter g' =>
      by_cases hs : s = r
      · exact congrArg some hs
      · cases (if_neg hs).symm.trans h
    | _ => cases h

/-- A getter has the name that its field gives it. -/
theorem name_of_getter? {scope : Scope} {owner : EntityRef} {f : FieldDecl} {g : FieldGetter}
    (h : f.getter? scope owner = some g) : g.name = f.getterName := by
  unfold FieldDecl.getter? at h
  split at h
  · split at h
    · cases h
      rfl
    · cases h
  · cases h

/-- The getters on a type are those of the fields that get one, under their names. -/
theorem names_gettersOn_getterFragments (scope : Scope) (owner : EntityRef) (taken : List String)
    (fields : List FieldDecl) :
    (gettersOn owner (getterFragments scope owner taken fields)).map (·.name)
      = (gettableFields scope owner taken fields).map FieldDecl.getterName := by
  have hgetter : ∀ f ∈ gettableFields scope owner taken fields,
      ∃ g, f.getter? scope owner = some g := by
    intro f hf
    have hkept := (List.mem_filter.mp (mem_of_mem_freshBy hf)).2
    exact Option.isSome_iff_exists.mp (Bool.and_eq_true_iff.mp hkept).2
  unfold getterFragments gettersOn
  rw [List.filterMap_filterMap]
  generalize gettableFields scope owner taken fields = gettable at hgetter ⊢
  induction gettable with
  | nil => rfl
  | cons f gettable ih =>
    obtain ⟨⟨g, hg⟩, hrest⟩ := List.forall_mem_cons.mp hgetter
    have hpick : (f.getterFragment? scope owner).bind (Fragment.getterOn? owner) = some g := by
      unfold FieldDecl.getterFragment?
      rw [hg]
      exact if_pos rfl
    simp only [List.filterMap_cons, hpick, List.map_cons, ih hrest, name_of_getter? hg]

/-- The getters have distinct names, and none of them that of an instance method among the
functions or that of the access to the handle. -/
structure GettersApart (functions : List Function) (getters : List FieldGetter) : Prop where
  nodup : (getters.map (·.name)).Nodup
  notMethod : ∀ g ∈ getters, g.name ∉ methodNames functions
  notHandle : ∀ g ∈ getters, g.name ≠ "Native"

theorem gettersApart_nil (functions : List Function) : GettersApart functions [] where
  nodup := List.nodup_nil
  notMethod := fun _ hg => absurd hg List.not_mem_nil
  notHandle := fun _ hg => absurd hg List.not_mem_nil

namespace Namespace

variable {ns : Namespace} {options : Options} {fs : List Fragment}

/-- Functions declare no getters. -/
theorem gettersOn_functionFragments {r : EntityRef} {owner : Option EntityRef}
    {own : List Function} (h : ns.functionFragments options owner own = .ok fs) :
    gettersOn r fs = [] := by
  refine List.filterMap_eq_nil_iff.mpr fun f hf => ?_
  obtain ⟨g, _, hg⟩ := (mem_of_mapM_eq_ok h).mp hf
  obtain ⟨host, _, rfl⟩ := functionFragment_eq_ok_iff.mp hg
  unfold Fragment.getterOn?
  cases g.isMethod with
  | true => simp
  | false => simp

/-- The getters of a struct or union are apart. -/
theorem gettersApart_recordFragments {r : EntityRef} {deprecated : Bool}
    {fields : List FieldDecl} {methods : List Function}
    (h : ns.recordFragments options r deprecated fields methods = .ok fs) :
    GettersApart methods (gettersOn r fs) := by
  obtain ⟨functions, hfunctions, h⟩ := bind_eq_ok_iff.mp h
  cases h
  have hfunctions : functions.filterMap (Fragment.getterOn? r) = [] :=
    gettersOn_functionFragments hfunctions
  unfold gettersOn
  rw [List.filterMap_append, List.filterMap_cons_none rfl, hfunctions, List.nil_append]
  split
  · have hnames := names_gettersOn_getterFragments (ns.scope options) r
      ("Native" :: methodNames methods) fields
    have hfree : ∀ g ∈ gettersOn r (getterFragments (ns.scope options) r
        ("Native" :: methodNames methods) fields), g.name ∉ "Native" :: methodNames methods := by
      intro g hg
      have hname : g.name ∈ _ := List.mem_map_of_mem hg
      rw [hnames] at hname
      obtain ⟨f, hf, hfg⟩ := List.mem_map.mp hname
      exact hfg ▸ name_notMem_of_mem_freshBy hf
    exact
      { nodup := hnames ▸ nodup_names_freshBy
        notMethod := fun g hg => List.not_mem_of_not_mem_cons (hfree g hg)
        notHandle := fun g hg => List.ne_of_not_mem_cons (hfree g hg) }
  · exact gettersApart_nil methods

/-! ### What an object gets from interfaces -/

/-- A type gets no method of a name that one of its own instance methods has. -/
theorem methodName_notMem_of_mem_inherited {own : List Function} {interfaces : List EntityRef}
    {m : Inherited} (h : m ∈ ns.inherited options own interfaces) :
    m.method.methodName ∉ methodNames own :=
  (exists_mem_freshBy_iff.mp ⟨m, h, rfl⟩).1

/-- References that stand for no interface have no methods. -/
theorem flatMap_interfaceMethods_knownInterfaces (refs : List EntityRef) :
    (ns.knownInterfaces refs).flatMap (ns.interfaceMethods options)
      = refs.flatMap (ns.interfaceMethods options) := by
  induction refs with
  | nil => rfl
  | cons r refs ih =>
    cases hi : ns.interface? r with
    | some i =>
      have hkind := (interface?_eq_some_iff.mp hi).2.2.1
      have hcons : ns.knownInterfaces (r :: refs) = r :: ns.knownInterfaces refs :=
        List.filter_cons_of_pos (by simp [hkind, hi])
      rw [hcons, List.flatMap_cons, List.flatMap_cons, ih]
    | none =>
      have hcons : ns.knownInterfaces (r :: refs) = ns.knownInterfaces refs :=
        List.filter_cons_of_neg (by simp [hi])
      have hempty : ns.interfaceMethods options r = [] := by
        unfold interfaceMethods
        rw [hi]
      rw [hcons, List.flatMap_cons, hempty, List.nil_append, ih]

/-- The interface is the first of the listed ones that has a method of the name, and the method
is its first one; methods that are left out do not count. -/
def OffersFirst (ns : Namespace) (options : Options) (refs : List EntityRef) (m : Inherited) :
    Prop :=
  ∃ before after i, refs = before ++ m.via :: after
    ∧ ns.interface? m.via = some i
    ∧ (options.instanceMethods i.methods).find? (·.methodName == m.method.methodName)
      = some m.method
    ∧ ∀ r ∈ before, ∀ j, ns.interface? r = some j →
      m.method.methodName ∉ options.keptNames j.methods

/-- The first method of a name among those of several interfaces is offered first. -/
theorem offersFirst_of_find? {refs : List EntityRef} {m : Inherited}
    (h : (refs.flatMap (ns.interfaceMethods options)).find?
      (fun m' => m'.method.methodName == m.method.methodName) = some m) :
    ns.OffersFirst options refs m := by
  rw [List.find?_flatMap] at h
  obtain ⟨before, via, after, rfl, hvia, hbefore⟩ := List.findSome?_eq_some_iff.mp h
  cases hi : ns.interface? via with
  | none => simp [interfaceMethods, hi] at hvia
  | some i =>
    simp only [interfaceMethods, hi, List.find?_map, Option.map_eq_some_iff] at hvia
    obtain ⟨f, hf, rfl⟩ := hvia
    refine ⟨before, after, i, rfl, hi, hf, fun r hr j hj hin => ?_⟩
    obtain ⟨g, hg, hname⟩ := List.mem_map.mp hin
    have hnone := hbefore r hr
    simp only [interfaceMethods, hj, List.find?_map, Option.map_eq_none_iff,
      List.find?_eq_none] at hnone
    exact hnone g hg (by simpa using hname)

/-- What an object gets from the interfaces that it lists. -/
structure InheritsOnce (ns : Namespace) (options : Options) (o : Object)
    (contributed : List HostFunction) : Prop where
  nodup : (contributed.map (·.name)).Nodup
  /-- A method of the object itself bars its name, left out or not. -/
  notOwn : ∀ host ∈ contributed, host.name ∉ methodNames o.methods
  covers : ∀ i, ns.Implements o i → ∀ n ∈ options.keptNames i.methods,
    n ∈ methodNames o.methods ∨ n ∈ contributed.map (·.name)
  first : ∀ host ∈ contributed, ∃ m, ns.OffersFirst options o.interfaces m
    ∧ host.name = m.method.methodName
    ∧ synthesize (ns.scope options) m.method (some (ns.reference .object o.name))
        (some m.via) = .ok host

/-- The methods on an object are its own that are not left out, and then what it gets from the
interfaces that it lists. -/
theorem inheritsOnce_fragments (h : ns.fragments options = .ok fs) {o : Object}
    (ho : o ∈ ns.objects.entries) (hkept : options.skips o.deprecated = false) :
    ∃ own contributed, methodsOn (ns.reference .object o.name) fs = own ++ contributed
      ∧ (options.instanceMethods o.methods).mapM
          (fun f => synthesize (ns.scope options) f (some (ns.reference .object o.name)) none)
          = .ok own
      ∧ ns.InheritsOnce options o contributed := by
  have he : Entity.object o ∈ ns.entities := mem_entities_iff.mpr ho
  obtain ⟨out, hout⟩ := exists_entityFragments h he hkept
  have hfragments := methodsOn_fragments h he hkept hout
  obtain ⟨entries, members, _, hmembers, rfl⟩ := objectFragments_eq_ok_iff.mp hout
  obtain ⟨ofOwn, hown, hmembers⟩ := bind_eq_ok_iff.mp hmembers
  obtain ⟨ofInterfaces, hinterfaces, hmembers⟩ := bind_eq_ok_iff.mp hmembers
  cases hmembers
  have hcontributed := methodsOn_inheritedFragments hinterfaces
  have hnames := names_of_mapM_synthesize hcontributed fun _ hm => isMethod_of_mem_inherited hm
  have hfirst : ∀ m ∈ ns.inherited options o.methods (ns.knownInterfaces o.interfaces),
      ns.OffersFirst options o.interfaces m := by
    intro m hm
    have hfind := find?_of_mem_freshBy hm
    rw [flatMap_interfaceMethods_knownInterfaces] at hfind
    exact offersFirst_of_find? hfind
  refine ⟨methodsOn (ns.reference .object o.name) ofOwn,
    methodsOn (ns.reference .object o.name) ofInterfaces, ?_, methodsOn_functionFragments hown, ?_⟩
  · exact hfragments.trans (methodsOn_append _ ofOwn ofInterfaces)
  · exact
      { nodup := hnames ▸ nodup_names_freshBy
        notOwn := by
          intro host hhost
          have hname : host.name ∈ _ := List.mem_map_of_mem hhost
          rw [hnames] at hname
          obtain ⟨m, hm, hmn⟩ := List.mem_map.mp hname
          exact hmn ▸ methodName_notMem_of_mem_inherited hm
        covers := by
          rintro i ⟨r, hr, hi⟩ n hn
          by_cases hown : n ∈ methodNames o.methods
          · exact Or.inl hown
          · rw [hnames, List.mem_map]
            refine Or.inr (exists_mem_freshBy_iff.mpr ⟨hown, ?_⟩)
            exact exists_mem_interfaceMethods_iff.mpr
              ⟨r, (mem_knownInterfaces_and_iff.mpr ⟨hr, hi⟩).1, i, hi, hn⟩
        first := by
          intro host hhost
          obtain ⟨m, hm, hsynthesize⟩ := (mem_of_mapM_eq_ok hcontributed).mp hhost
          refine ⟨m, hfirst m hm, ?_, hsynthesize⟩
          exact name_of_synthesize hsynthesize (isMethod_of_mem_inherited hm) }

/-- The getters on a struct or union are apart. -/
theorem gettersApart_fragments (h : ns.fragments options = .ok fs) {e : Entity}
    (he : e ∈ ns.entities) (hkept : options.skips e.deprecated = false) {out : List Fragment}
    (hout : ns.entityFragments options e = .ok out) {methods : List Function}
    (hown : GettersApart methods (gettersOn (ns.reference e.kind e.name) out)) :
    GettersApart methods (gettersOn (ns.reference e.kind e.name) fs) := by
  unfold gettersOn at hown ⊢
  rwa [filterMap_fragments h he hkept hout Fragment.owner_of_getterOn?]

/-- No member of a generated type comes twice: an object gets each method of the interfaces that
it lists once, and the getters of structs and unions are apart from each other and from the
methods. -/
theorem members_distinct (h : ns.fragments options = .ok fs) :
    (∀ o ∈ ns.objects.entries, options.skips o.deprecated = false →
        ∃ own contributed, methodsOn (ns.reference .object o.name) fs = own ++ contributed
          ∧ (options.instanceMethods o.methods).mapM
              (fun f => synthesize (ns.scope options) f (some (ns.reference .object o.name)) none)
              = .ok own
          ∧ ns.InheritsOnce options o contributed)
      ∧ (∀ s ∈ ns.structs.entries, options.skips s.deprecated = false →
        GettersApart s.methods (gettersOn (ns.reference .struct s.name) fs))
      ∧ ∀ u ∈ ns.unions.entries, options.skips u.deprecated = false →
        GettersApart u.methods (gettersOn (ns.reference .union u.name) fs) := by
  refine ⟨fun o ho hkept => inheritsOnce_fragments h ho hkept, fun s hs hkept => ?_,
    fun u hu hkept => ?_⟩
  · have he : Entity.struct s ∈ ns.entities := mem_entities_iff.mpr hs
    obtain ⟨out, hout⟩ := exists_entityFragments h he hkept
    refine gettersApart_fragments h he hkept hout ?_
    simp only [entityFragments, structFragments] at hout
    -- The struct of the functions of a class declares nothing.
    split at hout
    · cases hout
      exact gettersApart_nil s.methods
    · exact gettersApart_recordFragments hout
  · have he : Entity.union u ∈ ns.entities := mem_entities_iff.mpr hu
    obtain ⟨out, hout⟩ := exists_entityFragments h he hkept
    exact gettersApart_fragments h he hkept hout (gettersApart_recordFragments hout)

/-- An instance method without parameters. -/
def press : Function :=
  { Function.ofSymbol "press" "gtk_press" with
    flags := { FunctionFlags.plain with isMethod := true } }

/-- An interface with two methods, one of which the clickable one has too. -/
def pressable : Interface := ⟨"Pressable", [], [press, click false], [], [], [], [], false⟩

/-- An object that lists both interfaces and has one of the methods itself. -/
def switch : Object :=
  ⟨"Switch", none, [⟨"Gtk", "Clickable", .interface⟩, ⟨"Gtk", "Pressable", .interface⟩], false, [],
    [press], [], [], [], [], false⟩

/-- A struct with a field that is named like its method, and one that is named like the access to
the handle. -/
def point : Struct :=
  ⟨"Point", 0, 0, false, false,
    [.ofType "x" (.ofTag .int32), .ofType "press" (.ofTag .int32),
      .ofType "native" (.ofTag .int32)], [press], false⟩

/-- The namespace of the four. -/
def ofSwitch : Namespace :=
  ((((ofName "Gtk").addEntity (.interface clickable)).addEntity
    (.interface pressable)).addEntity (.object switch)).addEntity (.struct point)

theorem exists_fragments_ofSwitch : ∃ fs, ofSwitch.fragments .default = .ok fs := by
  have hclosure : ∀ i : Interface, i.prerequisites = [] → ofSwitch.closure i = [] := by
    intro i hi
    have hnone : ofSwitch.knownInterfaces [] = [] := rfl
    unfold closure
    rw [hi, hnone, spread]
  have hclickable : ∃ out, ofSwitch.interfaceFragments .default clickable = .ok out := by
    unfold interfaceFragments
    rw [hclosure clickable rfl]
    exact ⟨_, rfl⟩
  have hpressable : ∃ out, ofSwitch.interfaceFragments .default pressable = .ok out := by
    unfold interfaceFragments
    rw [hclosure pressable rfl]
    exact ⟨_, rfl⟩
  have hswitch : ∃ out, ofSwitch.objectFragments .default switch = .ok out := ⟨_, rfl⟩
  have hpoint : ∃ out, ofSwitch.structFragments .default point = .ok out := ⟨_, rfl⟩
  obtain ⟨ofClickable, hclickable⟩ := hclickable
  obtain ⟨ofPressable, hpressable⟩ := hpressable
  obtain ⟨ofObject, hswitch⟩ := hswitch
  obtain ⟨ofStruct, hpoint⟩ := hpoint
  have hentities : (ofSwitch.entities.filter fun e => !Options.default.skips e.deprecated)
      = [.interface clickable, .interface pressable, .object switch, .struct point] := rfl
  unfold fragments
  rw [hentities, List.mapM_cons, List.mapM_cons, List.mapM_cons, List.mapM_cons]
  simp only [entityFragments, hclickable, hpressable, hswitch, hpoint]
  exact ⟨_, rfl⟩

/-- The method that both interfaces have comes once, and the one that the object has itself does
not come again; the getter that is named like the method is left out. -/
theorem members_distinct_ofSwitch :
    ∃ fs, ofSwitch.fragments .default = .ok fs
      ∧ (∃ own contributed,
        methodsOn (ofSwitch.reference .object "Switch") fs = own ++ contributed
          ∧ (contributed.map (·.name)).count "Click" = 1
          ∧ (contributed.map (·.name)).count "Press" = 0)
      ∧ GettersApart [press] (gettersOn (ofSwitch.reference .struct "Point") fs) := by
  obtain ⟨fs, hfs⟩ := exists_fragments_ofSwitch
  obtain ⟨hobjects, hstructs, _⟩ := members_distinct hfs
  obtain ⟨own, contributed, hmethods, _, hinherits⟩ :=
    hobjects switch (List.mem_singleton_self _) rfl
  have hlisted : ofSwitch.Implements switch clickable := ⟨_, List.mem_cons_self, rfl⟩
  have hclick : "Click" ∈ contributed.map (·.name) :=
    (hinherits.covers clickable hlisted "Click" (List.mem_singleton_self _)).resolve_left
      (by decide)
  have hpress : "Press" ∉ contributed.map (·.name) := by
    intro hin
    obtain ⟨host, hhost, hname⟩ := List.mem_map.mp hin
    exact hinherits.notOwn host hhost (hname ▸ List.mem_singleton_self _)
  refine ⟨fs, hfs, ⟨own, contributed, hmethods, ?_, List.count_eq_zero.mpr hpress⟩, ?_⟩
  · exact List.count_eq_one_of_mem hinherits.nodup hclick
  · exact hstructs point (List.mem_singleton_self _) rfl

end Namespace

end Introspection
