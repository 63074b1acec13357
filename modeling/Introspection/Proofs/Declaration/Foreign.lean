import Introspection.Proofs.Declaration.Emission
import Introspection.Proofs.Declaration.Token
import Introspection.Proofs.Descriptor.Shape
import Introspection.Proofs.Namespace.Occurrence
import Introspection.Proofs.Wrapper.Foreign

/-!
# `Introspection.Proofs.Declaration.Foreign`: names of other packages in declarations

The declarations of a namespace take names from the C library, from the standard library, and from
the packages of those namespaces that the data refers to: `accounted_of_fragments`. A reference is
one that a type descriptor makes at some depth, or one that a registered type makes to its parent,
to an interface or to a prerequisite.
-/

set_option autoImplicit false

namespace Introspection

open Introspection.Code

variable {scope : Scope} {R : EntityRef → Prop}

/-- The references that the data of a namespace makes. -/
def Namespace.Refers (ns : Namespace) (r : EntityRef) : Prop :=
  (∃ t, ns.Declares t ∧ ∃ s : TypeDesc, s.Inside t ∧ s.entity = some r)
    ∨ ∃ e ∈ ns.entities, r ∈ e.relations

theorem Namespace.Declares.refersWithin {ns : Namespace} {options : Options} {t : TypeDesc}
    (h : ns.Declares t) : t.RefersWithin (ns.scope options) ns.Refers :=
  fun s hs _ hr _ => Or.inl ⟨t, h, s, hs, hr⟩

/-! ### Single declarations -/

/-- Every name of another package in the entry is accounted for. -/
def InterfaceEntry.Accounted (scope : Scope) (R : EntityRef → Prop) (e : InterfaceEntry) : Prop :=
  ∀ k ∈ e.tokens, k.Accounted scope R

@[simp] theorem accounted_unsafePointerToken : unsafePointerToken.Accounted scope R :=
  Token.accounted_of_standard (by decide)

@[simp] theorem InterfaceEntry.accounted_handle : handle.Accounted scope R :=
  List.forall_mem_singleton.mpr accounted_unsafePointerToken

@[simp] theorem InterfaceEntry.accounted_embedded (t : GoType) :
    (embedded t).Accounted scope R ↔ t.Accounted scope R :=
  Iff.rfl

@[simp] theorem accounted_handleTokens (name : String) :
    ∀ k ∈ handleTokens name, k.Accounted scope R := by
  simp [handleTokens]

/-- Every name of another package in the declaration is accounted for. -/
def Declaration.Accounted (scope : Scope) (R : EntityRef → Prop) (d : Declaration) : Prop :=
  ∀ k ∈ d.tokens, k.Accounted scope R

namespace Declaration

variable (name : String)

theorem forall_mem_entries {entries : List InterfaceEntry}
    (h : ∀ e ∈ entries, e.Accounted scope R) :
    ∀ k ∈ entries.flatMap InterfaceEntry.tokens, k.Accounted scope R := by
  intro k hk
  obtain ⟨e, he, hk⟩ := List.mem_flatMap.mp hk
  exact h e he k hk

theorem accounted_constant {type : GoType} (h : type.Accounted scope R) (value : ConstantValue) :
    (constant name type value).Accounted scope R := by
  refine List.forall_mem_cons.mpr ⟨trivial, List.forall_mem_append.mpr ⟨h, ?_⟩⟩
  exact List.forall_mem_singleton.mpr trivial

theorem accounted_enumeration {storage : GoType} (h : storage.Accounted scope R)
    (values : List ValueName) : (enumeration name storage values).Accounted scope R := by
  refine List.forall_mem_cons.mpr ⟨trivial, List.forall_mem_append.mpr ⟨h, fun k hk => ?_⟩⟩
  -- The value of each constant is a constant of the C library.
  obtain ⟨v, _, hk⟩ := List.mem_flatMap.mp hk
  have hv : ∀ k ∈ v.tokens name, k.Accounted scope R := by simp [ValueName.tokens]
  exact hv k hk

theorem accounted_interface {entries : List InterfaceEntry}
    (h : ∀ e ∈ entries, e.Accounted scope R) : (interface name entries).Accounted scope R := by
  refine List.forall_mem_append.mpr ⟨List.forall_mem_append.mpr
    ⟨List.forall_mem_cons.mpr ⟨trivial, forall_mem_entries h⟩, accounted_handleTokens _⟩, ?_⟩
  simp

theorem accounted_handle : (handle name).Accounted scope R := by
  refine List.forall_mem_append.mpr ⟨accounted_handleTokens name, ?_⟩
  simp

theorem accounted_derived (parent : EntityRef) {base : GoType} {wrapBase : Expr}
    (hbase : base.Accounted scope R) (hwrap : wrapBase.Accounted scope R) :
    (derived name parent base wrapBase).Accounted scope R := by
  refine List.forall_mem_append.mpr ⟨List.forall_mem_append.mpr
    ⟨List.forall_mem_cons.mpr ⟨trivial, hbase⟩, ?_⟩, List.forall_mem_cons.mpr ⟨trivial, hwrap⟩⟩
  simp

theorem accounted_methodSet {entries : List InterfaceEntry}
    (h : ∀ e ∈ entries, e.Accounted scope R) : (methodSet name entries).Accounted scope R :=
  List.forall_mem_cons.mpr ⟨trivial, forall_mem_entries h⟩

end Declaration

namespace Fragment

/-- Every name of another package in the fragment is accounted for. -/
def Accounted (scope : Scope) (R : EntityRef → Prop) (f : Fragment) : Prop :=
  ∀ k ∈ f.tokens, k.Accounted scope R

/-- The note above a declaration names nothing. -/
theorem accounted_iff {f : Fragment} :
    f.Accounted scope R ↔ f.declaration.Accounted scope R := by
  have hnote : ∀ k ∈ if f.noted then [Token.literal "// Deprecated."] else [],
      k.Accounted scope R := by
    split <;> simp
  exact List.forall_mem_append.trans (and_iff_right hnote)

end Fragment

/-! ### Getters -/

/-- A getter names the type of its field. -/
theorem FieldDecl.accounted_reading {f : FieldDecl} (h : f.type.RefersWithin scope R)
    (owner : EntityRef) : Yields (Stmt.AllAccounted scope R) (f.reading scope owner) := by
  have houtput : f.output.Accounted scope R :=
    ⟨by simp [output], by simp [output], by simp [output]⟩
  unfold reading
  refine yields_bind fun code hcode => yields_pure_iff.mpr ?_
  have hcode := Output.allAccounted_convert houtput h code hcode
  simp [hcode]

theorem accounted_of_mem_getterFragments {owner : EntityRef} {taken : List String}
    {fields : List FieldDecl} (h : ∀ f ∈ fields, f.type.RefersWithin scope R) {g : Fragment}
    (hg : g ∈ getterFragments scope owner taken fields) : g.Accounted scope R := by
  obtain ⟨field, hfield, hg⟩ := List.mem_filterMap.mp hg
  have hfield := h field (List.mem_of_mem_filter (mem_of_mem_freshBy hfield))
  obtain ⟨getter, hgetter, rfl⟩ := Option.map_eq_some_iff.mp hg
  unfold FieldDecl.getter? at hgetter
  split at hgetter
  · split at hgetter
    next host reading hhost hreading =>
      cases hgetter
      have hhost := TypeDesc.accounted_resolveHost hfield false host hhost
      have hreading := (Stmt.forall_mem_tokensOf_iff _).mpr
        (field.accounted_reading hfield owner reading hreading)
      refine Fragment.accounted_iff.mpr
        (List.forall_mem_cons.mpr ⟨trivial, List.forall_mem_append.mpr ⟨?_, hreading⟩⟩)
      refine List.forall_mem_cons.mpr ⟨trivial, Wrapper.accounted_tokens ?_⟩
      exact List.forall_mem_singleton.mpr hhost
    next => cases hgetter
  · cases hgetter

namespace Namespace

variable {ns : Namespace} {options : Options}

/-- Types that functions refer to are types of the namespace. -/
theorem refersWithin_of_uses {f : Function} (h : ∀ t, f.Uses t → ns.Declares t) :
    f.RefersWithin (ns.scope options) ns.Refers :=
  fun t ht => (h t ht).refersWithin

/-! ### Functions and methods -/

theorem accounted_of_mem_functionFragments {owner : Option EntityRef} {fs : List Function}
    (hfs : ∀ f ∈ fs, f.RefersWithin (ns.scope options) ns.Refers)
    (howner : ∀ o ∈ owner, o.home = (ns.scope options).home) :
    Yields (fun out => ∀ g ∈ out, g.Accounted (ns.scope options) ns.Refers)
      (ns.functionFragments options owner fs) := by
  intro out h g hg
  obtain ⟨f, hf, hg⟩ := (mem_of_mapM_eq_ok h).mp hg
  obtain ⟨host, hhost, rfl⟩ := functionFragment_eq_ok_iff.mp hg
  have hf := hfs f (List.mem_of_mem_filter hf)
  have hhost := Wrapper.accounted_of_synthesize hf howner host hhost
  refine Fragment.accounted_iff.mpr ?_
  dsimp only
  split
  · exact hhost
  · exact hhost

/-- Methods that a type gets come from interfaces of the same namespace. -/
theorem exists_of_mem_inherited {own : List Function} {interfaces : List EntityRef} {m : Inherited}
    (h : m ∈ ns.inherited options own interfaces) : ∃ e ∈ ns.entities, m.method ∈ e.methods := by
  obtain ⟨r, _, hm⟩ := List.mem_flatMap.mp (mem_of_mem_freshBy h)
  unfold interfaceMethods at hm
  split at hm
  next i hi =>
    obtain ⟨f, hf, rfl⟩ := List.mem_map.mp hm
    obtain ⟨_, hentry, _⟩ := interface?_eq_some_iff.mp hi
    exact ⟨.interface i, mem_entities_iff.mpr hentry, List.mem_of_mem_filter hf⟩
  next => cases hm

theorem refersWithin_of_mem_methods {e : Entity} (he : e ∈ ns.entities) {f : Function}
    (hf : f ∈ e.methods) : f.RefersWithin (ns.scope options) ns.Refers :=
  refersWithin_of_uses fun _ ht => .entity he (.method hf ht)

theorem accounted_of_mem_memberFragments {owner : EntityRef}
    (howner : owner.home = (ns.scope options).home)
    {own : List Function} (hown : ∀ f ∈ own, f.RefersWithin (ns.scope options) ns.Refers)
    (interfaces : List EntityRef) :
    Yields (fun out => ∀ g ∈ out, g.Accounted (ns.scope options) ns.Refers)
      (ns.memberFragments options owner own interfaces) := by
  have howner : ∀ o ∈ some owner, o.home = (ns.scope options).home := by simpa using howner
  unfold memberFragments
  refine yields_bind fun functions hfunctions => yields_bind fun inherited hinherited => ?_
  refine yields_pure_iff.mpr (List.forall_mem_append.mpr
    ⟨accounted_of_mem_functionFragments hown howner functions hfunctions, fun g hg => ?_⟩)
  -- A method from an interface is wrapped anew, with the types that the interface declares.
  obtain ⟨m, hm, hg⟩ := (mem_of_mapM_eq_ok hinherited).mp hg
  obtain ⟨host, hhost, rfl⟩ := inheritedFragment_eq_ok_iff.mp hg
  obtain ⟨e, he, hmethod⟩ := exists_of_mem_inherited hm
  exact Fragment.accounted_iff.mpr (Wrapper.accounted_of_synthesize
    (refersWithin_of_mem_methods he hmethod) howner host hhost)

theorem accounted_of_mem_methodEntries {owner : EntityRef}
    (howner : owner.home = (ns.scope options).home)
    {fs : List Function} (hfs : ∀ f ∈ fs, f.RefersWithin (ns.scope options) ns.Refers) :
    Yields (fun entries => ∀ e ∈ entries, e.Accounted (ns.scope options) ns.Refers)
      (ns.methodEntries options owner fs) := by
  have howner : ∀ o ∈ some owner, o.home = (ns.scope options).home := by simpa using howner
  intro entries h e he
  obtain ⟨f, hf, he⟩ := (mem_of_mapM_eq_ok h).mp he
  obtain ⟨w, hw, he⟩ := bind_eq_ok_iff.mp he
  obtain ⟨s, hs, he⟩ := bind_eq_ok_iff.mp he
  cases he
  exact Wrapper.accounted_signature (hfs f (List.mem_of_mem_filter hf)) howner hw s hs

/-! ### Registered types -/

/-- The names that go with a registered type that the data refers to. -/
theorem Refers.foreign {r : EntityRef} (h : ns.Refers r) {name : String}
    (hname : name = r.name ∨ name = "I" ++ r.name ∨ name = "Wrap" ++ r.name)
    (hforeign : r.home ≠ (ns.scope options).home) :
    (ns.scope options).Foreign ns.Refers r.home name :=
  ⟨hforeign, Or.inr ⟨r, h, rfl, hname⟩⟩

theorem accounted_embeddedEntries (refs : List EntityRef) :
    ∀ e ∈ embeddedEntries refs, e.Accounted scope R := by
  intro e he
  obtain ⟨r, _, rfl⟩ := List.mem_map.mp he
  simp

theorem accounted_objectDeclaration {o : Object} (h : ∀ p ∈ o.parent, ns.Refers p) :
    (ns.objectDeclaration options o).Accounted (ns.scope options) ns.Refers := by
  unfold objectDeclaration
  split
  next p hp =>
    have hparent := h p hp
    refine Declaration.accounted_derived o.name p
      (GoType.accounted_typeName (hparent.foreign (Or.inl rfl))) ?_
    exact (Expr.accounted_wrap _ (hparent.foreign (Or.inr (Or.inr rfl)))).mpr
      (Expr.accounted_plain "p")
  next => exact Declaration.accounted_handle o.name

theorem accounted_methodSetBase {o : Object} (h : ∀ p ∈ o.parent, ns.Refers p) :
    (ns.methodSetBase options o).Accounted (ns.scope options) ns.Refers := by
  unfold methodSetBase
  split
  next p hp =>
    exact GoType.accounted_typeName ((h p hp).foreign (Or.inr (Or.inl rfl)))
  next => exact InterfaceEntry.accounted_handle

theorem accounted_of_recordFragments {r : EntityRef} (hr : r.home = (ns.scope options).home)
    (deprecated : Bool) {fields : List FieldDecl} {methods : List Function}
    (hfields : ∀ f ∈ fields, f.type.RefersWithin (ns.scope options) ns.Refers)
    (hmethods : ∀ f ∈ methods, f.RefersWithin (ns.scope options) ns.Refers) :
    Yields (fun out => ∀ g ∈ out, g.Accounted (ns.scope options) ns.Refers)
      (ns.recordFragments options r deprecated fields methods) := by
  have hgetters : ∀ taken, ∀ g ∈ (if options.fieldGetters then
      getterFragments (ns.scope options) r taken fields else []),
      g.Accounted (ns.scope options) ns.Refers := by
    intro taken g hg
    split at hg
    · exact accounted_of_mem_getterFragments hfields hg
    · cases hg
  unfold recordFragments
  refine yields_bind fun functions hfunctions => yields_pure_iff.mpr ?_
  refine List.forall_mem_append.mpr ⟨List.forall_mem_cons.mpr ⟨?_, ?_⟩, hgetters _⟩
  · exact Fragment.accounted_iff.mpr (Declaration.accounted_handle r.name)
  · exact accounted_of_mem_functionFragments hmethods (by simpa using hr) functions hfunctions

theorem accounted_of_enumFragments {e : Enumeration} (he : .enum e ∈ ns.entities) :
    Yields (fun out => ∀ g ∈ out, g.Accounted (ns.scope options) ns.Refers)
      (ns.enumFragments options e) := by
  have hmethods : ∀ f ∈ e.methods, f.RefersWithin (ns.scope options) ns.Refers :=
    fun f hf => refersWithin_of_mem_methods he hf
  have htag : (TypeDesc.ofTag e.storage).RefersWithin (ns.scope options) ns.Refers :=
    TypeDesc.refersWithin_of_params_eq_nil rfl fun r hr => by cases hr
  unfold enumFragments
  refine yields_bind fun storage hstorage => yields_bind fun functions hfunctions => ?_
  have hstorage :=
    TypeDesc.accounted_resolveHost htag false storage (within_eq_ok_iff.mp hstorage)
  refine yields_pure_iff.mpr (List.forall_mem_cons.mpr ⟨?_, ?_⟩)
  · exact Fragment.accounted_iff.mpr (Declaration.accounted_enumeration _ hstorage _)
  · exact accounted_of_mem_functionFragments hmethods (by simp [reference, scope]) functions
      hfunctions

theorem accounted_of_interfaceFragments {i : Interface} (hi : .interface i ∈ ns.entities) :
    Yields (fun out => ∀ g ∈ out, g.Accounted (ns.scope options) ns.Refers)
      (ns.interfaceFragments options i) := by
  have hmethods : ∀ f ∈ i.methods, f.RefersWithin (ns.scope options) ns.Refers :=
    fun f hf => refersWithin_of_mem_methods hi hf
  intro out h
  obtain ⟨entries, members, hentries, hmembers, rfl⟩ := interfaceFragments_eq_ok_iff.mp h
  have hentries := accounted_of_mem_methodEntries rfl hmethods entries hentries
  refine List.forall_mem_cons.mpr ⟨?_, ?_⟩
  · refine Fragment.accounted_iff.mpr (Declaration.accounted_interface _ ?_)
    exact List.forall_mem_append.mpr ⟨List.forall_mem_cons.mpr
      ⟨InterfaceEntry.accounted_handle, accounted_embeddedEntries _⟩, hentries⟩
  · exact accounted_of_mem_memberFragments rfl hmethods _ members hmembers

theorem accounted_of_objectFragments {o : Object} (ho : .object o ∈ ns.entities) :
    Yields (fun out => ∀ g ∈ out, g.Accounted (ns.scope options) ns.Refers)
      (ns.objectFragments options o) := by
  have hmethods : ∀ f ∈ o.methods, f.RefersWithin (ns.scope options) ns.Refers :=
    fun f hf => refersWithin_of_mem_methods ho hf
  have hparent : ∀ p ∈ o.parent, ns.Refers p := fun p hp =>
    Or.inr ⟨.object o, ho, List.mem_append_left _ (Option.mem_toList.mpr hp)⟩
  intro out h
  obtain ⟨entries, members, hentries, hmembers, rfl⟩ := objectFragments_eq_ok_iff.mp h
  have hentries := accounted_of_mem_methodEntries rfl hmethods entries hentries
  refine List.forall_mem_cons.mpr ⟨?_, List.forall_mem_cons.mpr ⟨?_, ?_⟩⟩
  · exact Fragment.accounted_iff.mpr (accounted_objectDeclaration hparent)
  · refine Fragment.accounted_iff.mpr (Declaration.accounted_methodSet _ ?_)
    exact List.forall_mem_append.mpr ⟨List.forall_mem_cons.mpr
      ⟨accounted_methodSetBase hparent, accounted_embeddedEntries _⟩, hentries⟩
  · exact accounted_of_mem_memberFragments rfl hmethods _ members hmembers

theorem accounted_of_structFragments {s : Struct} (hs : .struct s ∈ ns.entities) :
    Yields (fun out => ∀ g ∈ out, g.Accounted (ns.scope options) ns.Refers)
      (ns.structFragments options s) := by
  unfold structFragments
  split
  · refine yields_ok_iff.mpr fun g hg => ?_
    cases hg
  · refine accounted_of_recordFragments rfl _ (fun f hf => ?_) fun f hf => ?_
    · exact (Declares.entity hs (.structField hf)).refersWithin
    · exact refersWithin_of_mem_methods hs hf

theorem accounted_of_unionFragments {u : Union} (hu : .union u ∈ ns.entities) :
    Yields (fun out => ∀ g ∈ out, g.Accounted (ns.scope options) ns.Refers)
      (ns.unionFragments options u) := by
  refine accounted_of_recordFragments rfl _ (fun f hf => ?_) fun f hf => ?_
  · exact (Declares.entity hu (.unionField hf)).refersWithin
  · exact refersWithin_of_mem_methods hu hf

/-- The declarations of a registered type. -/
theorem accounted_of_entityFragments {e : Entity} (he : e ∈ ns.entities) :
    Yields (fun out => ∀ g ∈ out, g.Accounted (ns.scope options) ns.Refers)
      (ns.entityFragments options e) := by
  cases e with
  | enum e => exact accounted_of_enumFragments he
  | interface i => exact accounted_of_interfaceFragments he
  | object o => exact accounted_of_objectFragments he
  | struct s => exact accounted_of_structFragments he
  | union u => exact accounted_of_unionFragments he

/-! ### The whole package -/

theorem accounted_of_constantFragment {c : Constant} (hc : c ∈ ns.constants.entries) :
    Yields (·.Accounted (ns.scope options) ns.Refers) (ns.constantFragment options c) := by
  intro f h
  obtain ⟨type, htype, h⟩ := bind_eq_ok_iff.mp (within_eq_ok_iff.mp h)
  obtain ⟨value, _, h⟩ := bind_eq_ok_iff.mp h
  cases h
  have htype := TypeDesc.accounted_resolveHost (Declares.constant hc).refersWithin false type htype
  exact Fragment.accounted_iff.mpr (Declaration.accounted_constant _ htype value)

/-- The declarations of a namespace take no name from another package that is not accounted
for. -/
theorem accounted_of_fragments :
    Yields (fun fs => ∀ f ∈ fs, f.Accounted (ns.scope options) ns.Refers)
      (ns.fragments options) := by
  unfold fragments
  refine yields_bind fun constants hconstants => yields_bind fun types htypes => ?_
  refine yields_bind fun functions hfunctions => yields_pure_iff.mpr ?_
  refine List.forall_mem_append.mpr ⟨List.forall_mem_append.mpr ⟨?_, ?_⟩, ?_⟩
  · intro f hf
    obtain ⟨c, hc, hf⟩ := (mem_of_mapM_eq_ok hconstants).mp hf
    exact accounted_of_constantFragment (List.mem_of_mem_filter hc) f hf
  · intro f hf
    obtain ⟨fs, hfs, hf⟩ := List.mem_flatten.mp hf
    obtain ⟨e, he, hfs⟩ := (mem_of_mapM_eq_ok htypes).mp hfs
    exact accounted_of_entityFragments (List.mem_of_mem_filter he) fs hfs f hf
  · refine accounted_of_mem_functionFragments (fun f hf => ?_) (by simp) functions hfunctions
    exact refersWithin_of_uses fun t ht => .function hf ht

end Namespace

end Introspection
