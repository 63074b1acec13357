import Introspection.Proofs.Declaration.Closure
import Introspection.Proofs.Declaration.MethodSet
import Introspection.Proofs.Wrapper.Dispatch

/-!
# `Introspection.Proofs.Declaration.Carrier`: carriers and their interface types

The interface type of an interface requires the methods of the interface itself and of all that
stand behind it; the carrier has to have them. `names_methodsOn_interface` lists the methods that
are declared on the carrier: those of the interface, then those that its closure adds, no name
twice. The closure has every interface that prerequisites lead to, so when no method is left out
none is missing: `carrier_implements`.
-/

set_option autoImplicit false

namespace Introspection

open Relation

/-! ### Methods on a type -/

/-- The method that a fragment declares on the type. -/
def Fragment.methodOn? (r : EntityRef) (f : Fragment) : Option HostFunction :=
  match f.origin, f.declaration with
  | .member owner _, .method host => if owner = r then some host else none
  | _, _ => none

/-- The methods that fragments declare on the type, in their order. -/
def methodsOn (r : EntityRef) (fs : List Fragment) : List HostFunction :=
  fs.filterMap (Fragment.methodOn? r)

/-- The name that a host function is called by. -/
def HostFunction.name (f : HostFunction) : String := f.signature.name

theorem methodsOn_append (r : EntityRef) (fs gs : List Fragment) :
    methodsOn r (fs ++ gs) = methodsOn r fs ++ methodsOn r gs := List.filterMap_append

/-- The method of a type is the declaration of a member of the type. -/
theorem Fragment.methodOn?_eq_some_iff {r : EntityRef} {f : Fragment} {host : HostFunction} :
    f.methodOn? r = some host
      ↔ (∃ name, f.origin = .member r name) ∧ f.declaration = .method host := by
  obtain ⟨origin, noted, declaration⟩ := f
  constructor
  · intro h
    cases origin with
    | item home name => cases h
    | type s => cases h
    | member s name =>
      cases declaration with
      | method host' =>
        by_cases hs : s = r
        · cases (if_pos hs).symm.trans h
          exact ⟨⟨name, congrArg (Origin.member · name) hs⟩, rfl⟩
        · cases (if_neg hs).symm.trans h
      | _ => cases h
  · rintro ⟨⟨name, rfl⟩, rfl⟩
    exact if_pos rfl

/-- A method is declared on the type that its fragment belongs to. -/
theorem Fragment.owner_of_methodOn? {r : EntityRef} (f : Fragment) (host : HostFunction)
    (h : f.methodOn? r = some host) : f.origin.owner? = some r := by
  obtain ⟨⟨name, horigin⟩, _⟩ := Fragment.methodOn?_eq_some_iff.mp h
  rw [horigin]
  rfl

/-- The text of a method begins with its receiver and its name, below a note if there is one. -/
theorem Fragment.text_of_methodOn? {r : EntityRef} {f : Fragment} {host : HostFunction}
    {this : Code.Variable} (h : f.methodOn? r = some host) (hthis : host.receiver = some this) :
    ∃ rest, f.text = (if f.noted then "// Deprecated.\n" else "")
      ++ ("func (" ++ this.text ++ ") " ++ host.name ++ "(" ++ rest) := by
  obtain ⟨_, hmethod⟩ := Fragment.methodOn?_eq_some_iff.mp h
  obtain ⟨signature, hsignature⟩ : ∃ rest, host.signature.text = host.name ++ "(" ++ rest := by
    unfold Code.Signature.text HostFunction.name
    simp only [String.append_assoc]
    exact ⟨_, rfl⟩
  have hstart : "func (" = "func " ++ "(" := by decide
  refine ⟨signature ++ (" \x7b\n" ++ host.bodyText ++ "\x7d\n"), ?_⟩
  rw [text, hmethod, Declaration.text, HostFunction.text, hthis, hsignature, hstart]
  simp only [String.append_assoc]

/-- What only fragments of one type give is not given by fragments of other items. -/
theorem filterMap_eq_nil_of_owner {β : Type} {r : EntityRef} {pick : Fragment → Option β}
    (hpick : ∀ f b, pick f = some b → f.origin.owner? = some r) {fs : List Fragment}
    (h : ∀ f ∈ fs, f.origin.owner? ≠ some r) : fs.filterMap pick = [] := by
  refine List.filterMap_eq_nil_iff.mpr fun f hf => ?_
  cases hb : pick f with
  | none => rfl
  | some b => exact absurd (hpick f b hb) (h f hf)

/-- The methods among fragments come one by one from the items that are methods. -/
theorem mapM_methodsOn {α : Type} (r : EntityRef) (isMethod : α → Bool)
    (method : α → Generated HostFunction) {fragment : α → Generated Fragment} {items : List α}
    {out : List Fragment} (h : items.mapM fragment = .ok out)
    (hmethod : ∀ a f, fragment a = .ok f → isMethod a = true →
      ∃ host, method a = .ok host ∧ f.methodOn? r = some host)
    (hother : ∀ a f, fragment a = .ok f → isMethod a = false → f.methodOn? r = none) :
    (items.filter isMethod).mapM method = .ok (methodsOn r out) := by
  replace h := forall₂_of_mapM_eq_ok h
  induction h with
  | nil => rfl
  | @cons a f items out ha _ ih =>
    unfold methodsOn at ih ⊢
    cases hkind : isMethod a with
    | true =>
      obtain ⟨host, hhost, hf⟩ := hmethod a f ha hkind
      rw [List.filter_cons_of_pos hkind, List.mapM_cons, hhost, ok_bind, ih,
        List.filterMap_cons_some hf]
      rfl
    | false =>
      rw [List.filter_cons_of_neg (by rw [hkind]; exact nofun), ih,
        List.filterMap_cons_none (hother a f ha hkind)]

/-- A method is declared with the receiver of its type. -/
theorem receiver_of_synthesize {scope : Scope} {f : Function} {owner : EntityRef}
    {via : Option EntityRef} {host : HostFunction} (hf : f.isMethod = true)
    (howner : owner.kind ≠ .enum) (h : synthesize scope f (some owner) via = .ok host) :
    host.receiver = some ⟨"this", .pointer (.plain owner.holder)⟩ := by
  rw [Wrapper.synthesize_eq hf howner rfl] at h
  obtain ⟨behind, _, rfl⟩ := map_eq_ok_iff.mp (within_eq_ok_iff.mp h)
  exact Argument.receiverDecl_receiver howner via

/-- What is kept has distinct names. -/
theorem nodup_names_freshBy {α : Type} {name : α → String} {taken : List String} {as : List α} :
    ((freshBy name taken as).map name).Nodup := by
  induction as generalizing taken with
  | nil => exact List.nodup_nil
  | cons a as ih =>
    unfold freshBy
    by_cases htaken : name a ∈ taken
    · rw [if_pos htaken]
      exact ih
    · rw [if_neg htaken, List.map_cons, List.nodup_cons]
      refine ⟨?_, ih⟩
      -- The name of the first one is taken for all that follow.
      intro hagain
      have hfree := (exists_mem_freshBy_iff.mp (List.mem_map.mp hagain)).1
      exact hfree List.mem_cons_self

namespace Namespace

variable {ns : Namespace} {options : Options} {fs : List Fragment}

/-- The functions of a type are declared on it when they are instance methods. -/
theorem methodsOn_functionFragments {owner : EntityRef} {own : List Function}
    (h : ns.functionFragments options (some owner) own = .ok fs) :
    (options.instanceMethods own).mapM (fun f => synthesize (ns.scope options) f (some owner) none)
      = .ok (methodsOn owner fs) := by
  have hkept := mapM_methodsOn owner Function.isMethod
    (fun f => synthesize (ns.scope options) f (some owner) none) h ?_ ?_
  · rw [List.filter_filter] at hkept
    exact hkept
  · intro f out hout hmethod
    obtain ⟨host, hhost, rfl⟩ := functionFragment_eq_ok_iff.mp hout
    refine ⟨host, hhost, ?_⟩
    simp [Fragment.methodOn?, originOf, hmethod]
  · intro f out hout hother
    obtain ⟨host, hhost, rfl⟩ := functionFragment_eq_ok_iff.mp hout
    simp [Fragment.methodOn?, originOf, hother]

/-- What a type gets from interfaces is declared on it. -/
theorem methodsOn_inheritedFragments {owner : EntityRef} {ms : List Inherited}
    (h : ms.mapM (ns.inheritedFragment options owner) = .ok fs) :
    ms.mapM (fun m => synthesize (ns.scope options) m.method (some owner) (some m.via))
      = .ok (methodsOn owner fs) := by
  have hall := mapM_methodsOn owner (fun _ => true)
    (fun m => synthesize (ns.scope options) m.method (some owner) (some m.via)) h ?_
    (fun _ _ _ hfalse => nomatch hfalse)
  · rw [List.filter_true] at hall
    exact hall
  · intro m out hout _
    obtain ⟨host, hhost, rfl⟩ := inheritedFragment_eq_ok_iff.mp hout
    exact ⟨host, hhost, if_pos rfl⟩

/-- What synthesized methods are called. -/
theorem names_of_mapM_synthesize {α : Type} {items : List α} {method : α → Function}
    {owner : EntityRef} {via : α → Option EntityRef} {hosts : List HostFunction}
    (h : items.mapM (fun a => synthesize (ns.scope options) (method a) (some owner) (via a)) =
      .ok hosts)
    (hmethod : ∀ a ∈ items, (method a).isMethod = true) :
    hosts.map (·.name) = items.map fun a => (method a).methodName := by
  replace h := forall₂_of_mapM_eq_ok h
  induction h with
  | nil => rfl
  | @cons a host items hosts ha _ ih =>
    obtain ⟨hfirst, hrest⟩ := List.forall_mem_cons.mp hmethod
    rw [List.map_cons, List.map_cons, ih hrest]
    exact congrArg (· :: _) (name_of_synthesize ha hfirst)

theorem receiver_of_mem_mapM_synthesize {α : Type} {items : List α} {method : α → Function}
    {owner : EntityRef} {via : α → Option EntityRef} {hosts : List HostFunction}
    (h : items.mapM (fun a => synthesize (ns.scope options) (method a) (some owner) (via a)) =
      .ok hosts)
    (hmethod : ∀ a ∈ items, (method a).isMethod = true) (howner : owner.kind ≠ .enum) :
    ∀ host ∈ hosts, host.receiver = some ⟨"this", .pointer (.plain owner.holder)⟩ := by
  intro host hhost
  obtain ⟨a, ha, hsynthesize⟩ := (mem_of_mapM_eq_ok h).mp hhost
  exact receiver_of_synthesize (hmethod a ha) howner hsynthesize

theorem isMethod_of_mem_instanceMethods {own : List Function} :
    ∀ f ∈ options.instanceMethods own, f.isMethod = true := fun _ hf =>
  (Bool.and_eq_true_iff.mp (List.mem_filter.mp hf).2).1

/-- The methods on a type with functions of its own: these that are instance methods, then what
it gets from interfaces. -/
theorem names_methodsOn_memberFragments {owner : EntityRef} {own : List Function}
    {interfaces : List EntityRef}
    (h : ns.memberFragments options owner own interfaces = .ok fs) :
    (methodsOn owner fs).map (·.name) = options.keptNames own
      ++ (ns.inherited options own interfaces).map (·.method.methodName) := by
  obtain ⟨ofOwn, hown, h⟩ := bind_eq_ok_iff.mp h
  obtain ⟨ofInterfaces, hinterfaces, h⟩ := bind_eq_ok_iff.mp h
  cases h
  rw [methodsOn_append, List.map_append,
    names_of_mapM_synthesize (methodsOn_functionFragments hown) isMethod_of_mem_instanceMethods,
    names_of_mapM_synthesize (methodsOn_inheritedFragments hinterfaces)
      fun _ hm => isMethod_of_mem_inherited hm]
  rfl

theorem receiver_of_mem_methodsOn_memberFragments {owner : EntityRef} {own : List Function}
    {interfaces : List EntityRef} (howner : owner.kind ≠ .enum)
    (h : ns.memberFragments options owner own interfaces = .ok fs) :
    ∀ host ∈ methodsOn owner fs, host.receiver = some ⟨"this", .pointer (.plain owner.holder)⟩ := by
  obtain ⟨ofOwn, hown, h⟩ := bind_eq_ok_iff.mp h
  obtain ⟨ofInterfaces, hinterfaces, h⟩ := bind_eq_ok_iff.mp h
  cases h
  rw [methodsOn_append]
  refine List.forall_mem_append.mpr ⟨?_, ?_⟩
  · exact receiver_of_mem_mapM_synthesize (methodsOn_functionFragments hown)
      isMethod_of_mem_instanceMethods howner
  · exact receiver_of_mem_mapM_synthesize (methodsOn_inheritedFragments hinterfaces)
      (fun _ hm => isMethod_of_mem_inherited hm) howner

/-! ### Methods on a type of a namespace -/

/-- No registered type comes twice. -/
theorem nodup_entities (ns : Namespace) : ns.entities.Nodup := by
  have hentries : ∀ {α : Type} [Named α] (t : Table α), t.entries.Nodup :=
    fun t => .of_map _ t.nodup
  have henums : (ns.enums.entries.map Entity.enum).Nodup :=
    (hentries ns.enums).map fun _ _ h => Entity.enum.inj h
  have hinterfaces : (ns.interfaces.entries.map Entity.interface).Nodup :=
    (hentries ns.interfaces).map fun _ _ h => Entity.interface.inj h
  have hobjects : (ns.objects.entries.map Entity.object).Nodup :=
    (hentries ns.objects).map fun _ _ h => Entity.object.inj h
  have hstructs : (ns.structs.entries.map Entity.struct).Nodup :=
    (hentries ns.structs).map fun _ _ h => Entity.struct.inj h
  have hunions : (ns.unions.entries.map Entity.union).Nodup :=
    (hentries ns.unions).map fun _ _ h => Entity.union.inj h
  -- What stands in two tables is of two kinds.
  unfold entities
  simp only [List.nodup_append, henums, hinterfaces, hobjects, hstructs, hunions, true_and,
    List.mem_append, List.mem_map]
  grind

/-- What only fragments of one registered type give is not given by those of the others. -/
theorem filterMap_otherFragments {β : Type} {pick : Fragment → Option β} {es : List Entity}
    {types : List (List Fragment)} (h : es.mapM (ns.entityFragments options) = .ok types)
    {e : Entity} (he : e ∈ ns.entities) (hother : ∀ e' ∈ es, e' ∈ ns.entities ∧ e' ≠ e)
    (hpick : ∀ f b, pick f = some b → f.origin.owner? = some (ns.reference e.kind e.name)) :
    types.flatten.filterMap pick = [] := by
  refine filterMap_eq_nil_of_owner hpick fun f hf howner => ?_
  obtain ⟨out, hout, hf⟩ := List.mem_flatten.mp hf
  obtain ⟨e', he', hfragments⟩ := (mem_of_mapM_eq_ok h).mp hout
  obtain ⟨hmem, hne⟩ := hother e' he'
  rw [owner_of_mem_entityFragments hfragments hf] at howner
  exact hne (eq_of_reference_eq hmem he (Option.some.inj howner))

/-- What only fragments of a registered type give is given by its own fragments, in their
order. -/
theorem filterMap_fragments {β : Type} {pick : Fragment → Option β}
    (h : ns.fragments options = .ok fs) {e : Entity} (he : e ∈ ns.entities)
    (hkept : options.skips e.deprecated = false) {out : List Fragment}
    (hout : ns.entityFragments options e = .ok out)
    (hpick : ∀ f b, pick f = some b → f.origin.owner? = some (ns.reference e.kind e.name)) :
    fs.filterMap pick = out.filterMap pick := by
  obtain ⟨constants, hconstants, h⟩ := bind_eq_ok_iff.mp h
  obtain ⟨types, htypes, h⟩ := bind_eq_ok_iff.mp h
  obtain ⟨functions, hfunctions, h⟩ := bind_eq_ok_iff.mp h
  cases h
  have hnoConstant : constants.filterMap pick = [] := by
    refine filterMap_eq_nil_of_owner hpick fun f hf => ?_
    rw [owner_of_mem_constantFragments hconstants hf]
    exact nofun
  have hnoFunction : functions.filterMap pick = [] := by
    refine filterMap_eq_nil_of_owner hpick fun f hf => ?_
    rw [owner_of_mem_functionFragments hfunctions hf]
    exact nofun
  -- The type is one of those that are kept, and none of the others.
  have hmem : e ∈ ns.entities.filter fun e => !options.skips e.deprecated :=
    List.mem_filter.mpr ⟨he, by simp [hkept]⟩
  have hnodup := ns.nodup_entities.filter fun e => !options.skips e.deprecated
  have hentities : ∀ e' ∈ ns.entities.filter fun e => !options.skips e.deprecated,
      e' ∈ ns.entities := fun e' he' => (List.mem_filter.mp he').1
  obtain ⟨before, after, hsplit⟩ := List.append_of_mem hmem
  rw [hsplit] at htypes hnodup hentities
  rw [List.mapM_append] at htypes
  obtain ⟨ofBefore, hbefore, htypes⟩ := bind_eq_ok_iff.mp htypes
  rw [List.mapM_cons, hout, ok_bind] at htypes
  obtain ⟨ofRest, hrest, htypes⟩ := bind_eq_ok_iff.mp htypes
  obtain ⟨ofAfter, hafter, hrest⟩ := bind_eq_ok_iff.mp hrest
  cases hrest
  cases htypes
  obtain ⟨_, hnodup, hdisjoint⟩ := List.nodup_append.mp hnodup
  have hnoBefore : ofBefore.flatten.filterMap pick = [] := by
    refine filterMap_otherFragments hbefore he (fun e' he' => ?_) hpick
    exact ⟨hentities e' (List.mem_append_left _ he'), hdisjoint e' he' e List.mem_cons_self⟩
  have hnoAfter : ofAfter.flatten.filterMap pick = [] := by
    refine filterMap_otherFragments hafter he (fun e' he' => ?_) hpick
    refine ⟨hentities e' (List.mem_append_right _ (List.mem_cons_of_mem e he')), ?_⟩
    rintro rfl
    exact (List.nodup_cons.mp hnodup).1 he'
  simp only [List.flatten_append, List.flatten_cons, List.filterMap_append, hnoConstant,
    hnoFunction, hnoBefore, hnoAfter, List.nil_append, List.append_nil]

/-- The methods on a registered type are those among its own fragments. -/
theorem methodsOn_fragments (h : ns.fragments options = .ok fs) {e : Entity}
    (he : e ∈ ns.entities) (hkept : options.skips e.deprecated = false) {out : List Fragment}
    (hout : ns.entityFragments options e = .ok out) :
    methodsOn (ns.reference e.kind e.name) fs = methodsOn (ns.reference e.kind e.name) out :=
  filterMap_fragments h he hkept hout Fragment.owner_of_methodOn?

/-! ### Carriers -/

/-- The fragments of an interface are its type and the members of its carrier. -/
theorem exists_memberFragments (h : ns.fragments options = .ok fs) {i : Interface}
    (hi : i ∈ ns.interfaces.entries) (hkept : options.skips i.deprecated = false) :
    ∃ members, ns.memberFragments options (ns.reference .interface i.name) i.methods (ns.closure i)
        = .ok members
      ∧ methodsOn (ns.reference .interface i.name) fs
        = methodsOn (ns.reference .interface i.name) members := by
  have he : Entity.interface i ∈ ns.entities := mem_entities_iff.mpr hi
  obtain ⟨out, hout⟩ := exists_entityFragments h he hkept
  have hfragments := methodsOn_fragments h he hkept hout
  obtain ⟨entries, members, _, hmembers, rfl⟩ := interfaceFragments_eq_ok_iff.mp hout
  exact ⟨members, hmembers, hfragments⟩

/-- The methods on the carrier of an interface: its own, then what its closure adds. -/
theorem names_methodsOn_interface (h : ns.fragments options = .ok fs) {i : Interface}
    (hi : i ∈ ns.interfaces.entries) (hkept : options.skips i.deprecated = false) :
    (methodsOn (ns.reference .interface i.name) fs).map (·.name)
      = options.keptNames i.methods
        ++ (ns.inherited options i.methods (ns.closure i)).map (·.method.methodName) := by
  obtain ⟨members, hmembers, heq⟩ := exists_memberFragments h hi hkept
  rw [heq, names_methodsOn_memberFragments hmembers]

/-- They are declared on the carrier. -/
theorem receiver_of_mem_methodsOn_interface (h : ns.fragments options = .ok fs) {i : Interface}
    (hi : i ∈ ns.interfaces.entries) (hkept : options.skips i.deprecated = false) :
    ∀ host ∈ methodsOn (ns.reference .interface i.name) fs,
      host.receiver = some ⟨"this", .pointer (.plain (Text.lowerFirst i.name))⟩ := by
  obtain ⟨members, hmembers, heq⟩ := exists_memberFragments h hi hkept
  rw [heq]
  exact receiver_of_mem_methodsOn_memberFragments nofun hmembers

/-- And they are printed there: the text of each begins with the carrier and the name. -/
theorem text_of_methodOn?_interface (h : ns.fragments options = .ok fs) {i : Interface}
    (hi : i ∈ ns.interfaces.entries) (hkept : options.skips i.deprecated = false) {g : Fragment}
    (hg : g ∈ fs) {host : HostFunction}
    (hhost : g.methodOn? (ns.reference .interface i.name) = some host) :
    ∃ rest, g.text = (if g.noted then "// Deprecated.\n" else "")
      ++ ("func (this *" ++ Text.lowerFirst i.name ++ ") " ++ host.name ++ "(" ++ rest) := by
  have hmem : host ∈ methodsOn (ns.reference .interface i.name) fs :=
    List.mem_filterMap.mpr ⟨g, hg, hhost⟩
  obtain ⟨rest, hrest⟩ :=
    Fragment.text_of_methodOn? hhost (receiver_of_mem_methodsOn_interface h hi hkept host hmem)
  have hstart : "func (this *" = "func (" ++ "this" ++ " " ++ "*" := by decide
  refine ⟨rest, hrest.trans ?_⟩
  simp only [Code.Variable.text, Code.GoType.text, hstart, String.append_assoc]

/-- Names that the closure adds: those of the interfaces behind the interface, but for its own. -/
theorem mem_names_inherited_closure_iff {i : Interface} (hi : i ∈ ns.interfaces.entries)
    {n : String} :
    n ∈ (ns.inherited options i.methods (ns.closure i)).map (·.method.methodName)
      ↔ n ∉ methodNames i.methods
        ∧ ∃ j, TransGen ns.Requires i j ∧ n ∈ options.keptNames j.methods := by
  unfold inherited
  rw [List.mem_map, exists_mem_freshBy_iff, exists_mem_interfaceMethods_iff]
  refine and_congr_right fun hn => ?_
  constructor
  · rintro ⟨r, hr, k, hk, hname⟩
    obtain ⟨j, hij, _, rfl⟩ := (mem_closure_iff hi).mp hr
    have hj : ns.interface? (ns.reference .interface j.name) = some j :=
      interface?_eq_some_iff_eq_reference.mpr ⟨mem_of_transGen_requires hij, rfl⟩
    cases hj.symm.trans hk
    exact ⟨k, hij, hname⟩
  · rintro ⟨j, hij, hname⟩
    -- The interface has no method of the name, so it is another one.
    have hne : j ≠ i := by
      intro heq
      rw [heq] at hname
      obtain ⟨f, hf, hmethod, _, hname⟩ := mem_keptNames_iff.mp hname
      exact hn (List.mem_map.mpr ⟨f, List.mem_filter.mpr ⟨hf, hmethod⟩, hname⟩)
    have hj : ns.interface? (ns.reference .interface j.name) = some j :=
      interface?_eq_some_iff_eq_reference.mpr ⟨mem_of_transGen_requires hij, rfl⟩
    exact ⟨_, (mem_closure_iff hi).mpr ⟨j, hij, hne, rfl⟩, j, hj, hname⟩

/-- When no deprecated method is left out, the carrier of an interface has every instance method
of the interface and of all that prerequisites lead to, and one that is none of the interface's
own exactly once. -/
theorem carrier_implements (h : ns.fragments options = .ok fs)
    (hall : options.skipDeprecated = false) {i j : Interface} (hi : i ∈ ns.interfaces.entries)
    (hij : ReflTransGen ns.Requires i j) {f : Function} (hf : f ∈ j.methods)
    (hmethod : f.isMethod = true) :
    (∃ host ∈ methodsOn (ns.reference .interface i.name) fs, host.name = f.methodName
      ∧ host.receiver = some ⟨"this", .pointer (.plain (Text.lowerFirst i.name))⟩)
    ∧ (f.methodName ∉ methodNames i.methods →
      ((methodsOn (ns.reference .interface i.name) fs).map (·.name)).count f.methodName = 1) := by
  have hkept : ∀ deprecated, options.skips deprecated = false := by
    intro deprecated
    unfold Options.skips
    rw [hall, Bool.and_false]
  have hname : f.methodName ∈ options.keptNames j.methods :=
    mem_keptNames_iff.mpr ⟨f, hf, hmethod, hkept _, rfl⟩
  have hnames := names_methodsOn_interface h hi (hkept _)
  have howner := receiver_of_mem_methodsOn_interface h hi (hkept _)
  have hsame : options.keptNames i.methods = methodNames i.methods := by
    unfold Options.keptNames methodNames Options.instanceMethods
    simp only [hkept, Bool.not_false, Bool.and_true]
  by_cases hown : f.methodName ∈ methodNames i.methods
  · -- A method of the interface's own comes with its functions.
    have hmem : f.methodName ∈ (methodsOn (ns.reference .interface i.name) fs).map (·.name) := by
      rw [hnames, hsame]
      exact List.mem_append_left _ hown
    obtain ⟨host, hhost, hcalled⟩ := List.mem_map.mp hmem
    exact ⟨⟨host, hhost, hcalled, howner host hhost⟩, fun hnot => absurd hown hnot⟩
  · -- Any other is added by the closure, which keeps the first of each name.
    have hreached : TransGen ns.Requires i j := by
      rcases reflTransGen_iff_eq_or_transGen.mp hij with rfl | hij
      · exact absurd (hsame ▸ hname) hown
      · exact hij
    have hadded := (mem_names_inherited_closure_iff hi).mpr ⟨hown, j, hreached, hname⟩
    have honce : ((ns.inherited options i.methods (ns.closure i)).map
        (·.method.methodName)).count f.methodName = 1 :=
      List.count_eq_one_of_mem nodup_names_freshBy hadded
    have hcount : ((methodsOn (ns.reference .interface i.name) fs).map (·.name)).count
        f.methodName = 1 := by
      rw [hnames, hsame, List.count_append, List.count_eq_zero_of_not_mem hown, honce]
    obtain ⟨host, hhost, hcalled⟩ := List.mem_map.mp
      (List.count_pos_iff.mp (hcount ▸ Nat.one_pos))
    exact ⟨⟨host, hhost, hcalled, howner host hhost⟩, fun _ => hcount⟩

/-- An interface without methods that requires the one with a method. -/
def activatable : Interface :=
  ⟨"Activatable", [⟨"Gtk", "Clickable", .interface⟩], [], [], [], [], [], false⟩

/-- An interface without methods that requires the other one without. -/
def togglable : Interface :=
  ⟨"Togglable", [⟨"Gtk", "Activatable", .interface⟩], [], [], [], [], [], false⟩

/-- The namespace of the three. -/
def ofTogglable : Namespace :=
  (((ofName "Gtk").addEntity (.interface clickable)).addEntity
    (.interface activatable)).addEntity (.interface togglable)

theorem closure_ofTogglable :
    ofTogglable.closure clickable = []
    ∧ ofTogglable.closure activatable = [⟨"Gtk", "Clickable", .interface⟩]
    ∧ ofTogglable.closure togglable
      = [⟨"Gtk", "Activatable", .interface⟩, ⟨"Gtk", "Clickable", .interface⟩] := by
  have hmet : ∀ fresh r queue, r.name ∈ fresh → ofTogglable.spread fresh (r :: queue)
      = r :: ofTogglable.spread (fresh.erase r.name) (queue ++ ofTogglable.required r) := by
    intro fresh r queue h
    rw [spread, dif_pos h]
  have hend : ∀ fresh, ofTogglable.spread fresh [] = [] := fun fresh => by rw [spread]
  refine ⟨hend _, ?_, ?_⟩
  · exact (hmet _ _ _ (by decide)).trans (congrArg _ (hend _))
  · refine (hmet _ _ _ (by decide)).trans (congrArg _ ?_)
    exact (hmet _ _ _ (by decide)).trans (congrArg _ (hend _))

theorem exists_fragments_ofTogglable :
    ∃ fs, ofTogglable.fragments .default = .ok fs := by
  obtain ⟨hclickable, hactivatable, htogglable⟩ := closure_ofTogglable
  have hfirst : ∃ out, ofTogglable.interfaceFragments .default clickable = .ok out := by
    unfold interfaceFragments
    rw [hclickable]
    exact ⟨_, rfl⟩
  have hsecond : ∃ out, ofTogglable.interfaceFragments .default activatable = .ok out := by
    unfold interfaceFragments
    rw [hactivatable]
    exact ⟨_, rfl⟩
  have hthird : ∃ out, ofTogglable.interfaceFragments .default togglable = .ok out := by
    unfold interfaceFragments
    rw [htogglable]
    exact ⟨_, rfl⟩
  obtain ⟨ofFirst, hfirst⟩ := hfirst
  obtain ⟨ofSecond, hsecond⟩ := hsecond
  obtain ⟨ofThird, hthird⟩ := hthird
  have hentities : (ofTogglable.entities.filter fun e => !Options.default.skips e.deprecated)
      = [.interface clickable, .interface activatable, .interface togglable] := rfl
  unfold fragments
  rw [hentities, List.mapM_cons, List.mapM_cons, List.mapM_cons]
  simp only [entityFragments, hfirst, hsecond, hthird]
  exact ⟨_, rfl⟩

/-- The method of an interface is declared once on the carrier of one that requires it through
another. -/
theorem carrier_implements_ofTogglable :
    ∃ fs, ofTogglable.fragments .default = .ok fs
      ∧ ((methodsOn (ofTogglable.reference .interface "Togglable") fs).map (·.name)).count "Click"
        = 1 := by
  obtain ⟨fs, hfs⟩ := exists_fragments_ofTogglable
  have htogglable : togglable ∈ ofTogglable.interfaces.entries :=
    .tail _ (.tail _ (List.mem_singleton_self _))
  have hreached : ReflTransGen ofTogglable.Requires togglable clickable :=
    .head ⟨_, List.mem_singleton_self _, rfl⟩ (.single ⟨_, List.mem_singleton_self _, rfl⟩)
  have himplements := carrier_implements hfs rfl htogglable hreached
    (List.mem_singleton_self (click false)) rfl
  exact ⟨fs, hfs, himplements.2 nofun⟩

end Namespace

end Introspection
