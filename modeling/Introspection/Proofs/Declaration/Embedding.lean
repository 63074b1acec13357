import Introspection.Proofs.Declaration.MethodSet

/-!
# `Introspection.Proofs.Declaration.Embedding`: types that declarations embed

The type of an object embeds that of its parent, its method set embeds the interface types that the
object lists, and an interface type embeds those that it requires. `EmbeddingClosed` says of
fragments that whatever is embedded of this namespace is declared among them too.

What a declaration embeds is read off the namespace, while items are left out one by one. So a
declaration embeds a type that is not there just when that type is left out and the one that embeds
it is not: `embeddingClosed_iff`.
-/

set_option autoImplicit false

namespace Introspection

/-- The kind of the registered types that have such a declaration, if it can embed others. -/
def Declaration.embedder? : Declaration → Option EntityKind
  | derived _ _ _ _ => some .object
  | methodSet _ _ => some .object
  | interface _ _ => some .interface
  | _ => none

namespace Namespace

variable {ns : Namespace} {options : Options} {fs : List Fragment}

/-! ### Closed fragments -/

/-- The type and the method set of an object are declared. -/
structure DeclaresObject (ns : Namespace) (fs : List Fragment) (name : String) : Prop where
  type : EmitsType fs (ns.reference .object name) (.handle name)
    ∨ ∃ p base wrapBase, EmitsType fs (ns.reference .object name) (.derived name p base wrapBase)
  methodSet : ∃ entries, EmitsType fs (ns.reference .object name) (.methodSet name entries)

/-- The type of an interface is declared. -/
def DeclaresInterface (ns : Namespace) (fs : List Fragment) (name : String) : Prop :=
  ∃ entries, EmitsType fs (ns.reference .interface name) (.interface name entries)

/-- What a declaration embeds of this namespace is declared too. A method set starts with that of
the parent, which is there with the parent. -/
structure EmbeddingClosed (ns : Namespace) (fs : List Fragment) : Prop where
  parent : ∀ r name p base wrapBase, EmitsType fs r (.derived name p base wrapBase) →
    p.home = ns.name → ns.DeclaresObject fs p.name
  methodSet : ∀ r name first entries base, EmitsType fs r (.methodSet name (first :: entries)) →
    .embedded (.plain base) ∈ entries → ns.DeclaresInterface fs base
  interface : ∀ r name entries base, EmitsType fs r (.interface name entries) →
    .embedded (.plain base) ∈ entries → ns.DeclaresInterface fs base

/-! ### Types that embed others -/

theorem not_emitsType_functionFragments {owner r : EntityRef} {functions : List Function}
    {out : List Fragment} (h : ns.functionFragments options (some owner) functions = .ok out)
    {d : Declaration} : ¬EmitsType out r d := by
  rintro ⟨f, hf, horigin, _⟩
  obtain ⟨g, _, hg⟩ := (mem_of_mapM_eq_ok h).mp hf
  obtain ⟨host, _, rfl⟩ := functionFragment_eq_ok_iff.mp hg
  cases horigin

/-- A struct or union declares nothing that embeds another type. -/
theorem embedder?_of_recordFragments {r r' : EntityRef} {deprecated : Bool}
    {fields : List FieldDecl} {methods : List Function} {out : List Fragment}
    (h : ns.recordFragments options r deprecated fields methods = .ok out) {d : Declaration}
    (hd : EmitsType out r' d) : d.embedder? = none := by
  obtain ⟨functions, hfunctions, h⟩ := bind_eq_ok_iff.mp h
  cases h
  obtain ⟨f, hf, horigin, rfl⟩ := hd
  rcases List.mem_append.mp hf with hf | hf
  · rcases List.mem_cons.mp hf with rfl | hf
    · rfl
    · exact absurd ⟨f, hf, horigin, rfl⟩ (not_emitsType_functionFragments hfunctions)
  · -- Getters are members.
    split at hf
    · obtain ⟨field, _, hfield⟩ := List.mem_filterMap.mp hf
      obtain ⟨g, _, rfl⟩ := Option.map_eq_some_iff.mp hfield
      cases horigin
    · cases hf

/-- A declaration that can embed others is that of an interface or an object. -/
theorem kind_of_entityFragments {e : Entity} {out : List Fragment}
    (h : ns.entityFragments options e = .ok out) {r : EntityRef} {d : Declaration}
    (hd : EmitsType out r d) {k : EntityKind} (hk : d.embedder? = some k) : e.kind = k := by
  cases e with
  | enum e =>
    obtain ⟨storage, _, h⟩ := bind_eq_ok_iff.mp h
    obtain ⟨functions, hfunctions, h⟩ := bind_eq_ok_iff.mp h
    cases h
    obtain ⟨f, hf, horigin, rfl⟩ := hd
    rcases List.mem_cons.mp hf with rfl | hf
    · cases hk
    · exact absurd ⟨f, hf, horigin, rfl⟩ (not_emitsType_functionFragments hfunctions)
  | interface i =>
    obtain ⟨entries, members, _, hmembers, rfl⟩ := interfaceFragments_eq_ok_iff.mp h
    obtain ⟨f, hf, horigin, rfl⟩ := hd
    rcases List.mem_cons.mp hf with rfl | hf
    · exact Option.some.inj hk
    · exact absurd ⟨f, hf, horigin, rfl⟩ (not_emitsType_memberFragments hmembers)
  | object o =>
    obtain ⟨entries, members, _, hmembers, rfl⟩ := objectFragments_eq_ok_iff.mp h
    obtain ⟨f, hf, horigin, rfl⟩ := hd
    rcases List.mem_cons.mp hf with rfl | hf
    · dsimp only [objectDeclaration] at hk
      split at hk
      · exact Option.some.inj hk
      · cases hk
    · rcases List.mem_cons.mp hf with rfl | hf
      · exact Option.some.inj hk
      · exact absurd ⟨f, hf, horigin, rfl⟩ (not_emitsType_memberFragments hmembers)
  | struct s =>
    simp only [entityFragments, structFragments] at h
    split at h
    · cases h
      obtain ⟨f, hf, _⟩ := hd
      cases hf
    · rw [embedder?_of_recordFragments h hd] at hk
      cases hk
  | union u =>
    rw [embedder?_of_recordFragments h hd] at hk
    cases hk

/-- A declaration that can embed others belongs to one registered type of its kind. -/
theorem exists_entity_of_emitsType (h : ns.fragments options = .ok fs) {r : EntityRef}
    {d : Declaration} (hd : EmitsType fs r d) {k : EntityKind} (hk : d.embedder? = some k) :
    ∃ e ∈ ns.entities, e.kind = k ∧ ns.reference e.kind e.name = r := by
  obtain ⟨f, hf, horigin, rfl⟩ := hd
  have howner : f.origin.owner? = some r := by
    rw [horigin]
    rfl
  obtain ⟨e, he, _, hreference, out, hout, hf⟩ := (mem_fragments_iff h howner).mp hf
  exact ⟨e, he, kind_of_entityFragments hout ⟨f, hf, horigin, rfl⟩ hk, hreference⟩

theorem exists_object_of_emitsType (h : ns.fragments options = .ok fs) {r : EntityRef}
    {d : Declaration} (hd : EmitsType fs r d) (hk : d.embedder? = some .object) :
    ∃ o ∈ ns.objects.entries, ns.reference .object o.name = r := by
  obtain ⟨e, he, hkind, hreference⟩ := exists_entity_of_emitsType h hd hk
  cases e with
  | object o => exact ⟨o, mem_entities_iff.mp he, hreference⟩
  | enum | interface | struct | union => cases hkind

theorem exists_interface_of_emitsType (h : ns.fragments options = .ok fs) {r : EntityRef}
    {d : Declaration} (hd : EmitsType fs r d) (hk : d.embedder? = some .interface) :
    ∃ i ∈ ns.interfaces.entries, ns.reference .interface i.name = r := by
  obtain ⟨e, he, hkind, hreference⟩ := exists_entity_of_emitsType h hd hk
  cases e with
  | interface i => exact ⟨i, mem_entities_iff.mp he, hreference⟩
  | enum | object | struct | union => cases hkind

/-! ### Types that are left out -/

/-- Both declarations of an object are there unless it is left out. -/
theorem declaresObject_iff (h : ns.fragments options = .ok fs) {o : Object}
    (ho : o ∈ ns.objects.entries) :
    ns.DeclaresObject fs o.name ↔ options.skips o.deprecated = false := by
  constructor
  · rintro ⟨_, entries, hd⟩
    exact ((emitsType_object_iff h ho).mp hd).1
  · intro hkept
    obtain ⟨entries, hentries⟩ := exists_objectEntries h ho hkept
    have htype : EmitsType fs (ns.reference .object o.name) (ns.objectDeclaration options o) :=
      (emitsType_object_iff h ho).mpr ⟨hkept, Or.inl rfl⟩
    refine ⟨?_, _, (emitsType_object_iff h ho).mpr ⟨hkept, Or.inr ⟨entries, hentries, rfl⟩⟩⟩
    unfold objectDeclaration at htype
    cases hparent : o.parent with
    | none =>
      rw [hparent] at htype
      exact Or.inl htype
    | some p =>
      rw [hparent] at htype
      exact Or.inr ⟨_, _, _, htype⟩

/-- The type of an interface is there unless it is left out. -/
theorem declaresInterface_iff (h : ns.fragments options = .ok fs) {i : Interface}
    (hi : i ∈ ns.interfaces.entries) :
    ns.DeclaresInterface fs i.name ↔ options.skips i.deprecated = false := by
  constructor
  · rintro ⟨entries, hd⟩
    exact ((emitsType_interface_iff h hi).mp hd).1
  · intro hkept
    obtain ⟨entries, hentries⟩ := exists_interfaceEntries h hi hkept
    exact ⟨_, (emitsType_interface_iff h hi).mpr ⟨hkept, entries, hentries, rfl⟩⟩

/-- No type that is generated embeds one that is left out. -/
structure KeepsEmbedded (ns : Namespace) (options : Options) : Prop where
  parent : ∀ o ∈ ns.objects.entries, options.skips o.deprecated = false →
    ∀ p, ns.Extends o p → options.skips p.deprecated = false
  listed : ∀ o ∈ ns.objects.entries, options.skips o.deprecated = false →
    ∀ i, ns.Implements o i → options.skips i.deprecated = false
  required : ∀ i ∈ ns.interfaces.entries, options.skips i.deprecated = false →
    ∀ j, ns.Requires i j → options.skips j.deprecated = false

theorem keepsEmbedded_of_embeddingClosed (h : ns.fragments options = .ok fs)
    (hclosed : ns.EmbeddingClosed fs) : ns.KeepsEmbedded options where
  parent := by
    intro o ho hkept p hp
    obtain ⟨r, hr, hobject⟩ := Option.bind_eq_some_iff.mp hp
    obtain ⟨hhome, _, _, hname⟩ := object?_eq_some_iff.mp hobject
    have htype : EmitsType fs (ns.reference .object o.name) (ns.objectDeclaration options o) :=
      (emitsType_object_iff h ho).mpr ⟨hkept, Or.inl rfl⟩
    rw [objectDeclaration, hr] at htype
    -- The object type names the parent by its reference, which resolves to `p`.
    have hdeclared := hclosed.parent _ _ _ _ _ htype hhome
    rw [← hname] at hdeclared
    exact (declaresObject_iff h hp.mem).mp hdeclared
  listed := by
    intro o ho hkept i hi
    obtain ⟨entries, hentries⟩ := exists_objectEntries h ho hkept
    have hset := (emitsType_object_iff h ho).mpr ⟨hkept, Or.inr ⟨entries, hentries, rfl⟩⟩
    have hembedded := (embedded_mem_append_iff hentries).mpr ⟨i, hi, rfl⟩
    exact (declaresInterface_iff h hi.mem).mp (hclosed.methodSet _ _ _ _ _ hset hembedded)
  required := by
    intro i hi hkept j hj
    obtain ⟨entries, hentries⟩ := exists_interfaceEntries h hi hkept
    have htype := (emitsType_interface_iff h hi).mpr ⟨hkept, entries, hentries, rfl⟩
    have hembedded := (embedded_mem_append_iff hentries).mpr ⟨j, hj, rfl⟩
    exact (declaresInterface_iff h hj.mem).mp
      (hclosed.interface _ _ _ _ htype (List.mem_cons_of_mem _ hembedded))

/-- The type that embeds a parent is that of an object with this parent. -/
theorem parent_of_objectDeclaration {o : Object} {name : String} {p : EntityRef}
    {base : Code.GoType} {wrapBase : Code.Expr}
    (h : ns.objectDeclaration options o = .derived name p base wrapBase) : o.parent = some p := by
  unfold objectDeclaration at h
  cases hparent : o.parent with
  | none =>
    rw [hparent] at h
    cases h
  | some q =>
    rw [hparent] at h
    cases h
    rfl

/-- A parent from the namespace itself resolves where the namespace is accepted. -/
theorem exists_extends (hvalid : ns.validate = .ok ()) {o : Object} (ho : o ∈ ns.objects.entries)
    {p : EntityRef} (hparent : o.parent = some p) (hhome : p.home = ns.name) :
    ∃ q, ns.Extends o q ∧ q.name = p.name := by
  obtain ⟨hkind, hresolves⟩ :=
    ((checkObject_eq_ok_iff ho).mp ((validate_eq_ok_iff.mp hvalid).2.1 o ho)).1 p hparent
  obtain ⟨e, he, hkinds, hname⟩ := hresolves hhome
  cases e with
  | object q =>
    refine ⟨q, ?_, hname⟩
    unfold Extends
    rw [hparent]
    exact object?_eq_some_iff.mpr ⟨hhome, mem_entities_iff.mp he, hkind, hname⟩
  | enum | interface | struct | union =>
    rw [hkind] at hkinds
    cases hkinds

/-- What a declaration embeds resolves in an accepted namespace, so it is there if it is not left
out. -/
theorem embeddingClosed_of_keepsEmbedded (hvalid : ns.validate = .ok ())
    (h : ns.fragments options = .ok fs) (hkeeps : ns.KeepsEmbedded options) :
    ns.EmbeddingClosed fs where
  parent := by
    intro r name p base wrapBase hd hhome
    obtain ⟨o, ho, rfl⟩ := exists_object_of_emitsType h hd rfl
    obtain ⟨hkept, htype | ⟨_, _, hset⟩⟩ := (emitsType_object_iff h ho).mp hd
    · have hparent : o.parent = some p := parent_of_objectDeclaration htype
      obtain ⟨q, hq, hname⟩ := exists_extends hvalid ho hparent hhome
      rw [← hname]
      exact (declaresObject_iff h hq.mem).mpr (hkeeps.parent o ho hkept q hq)
    · cases hset
  methodSet := by
    intro r name first entries base hd hbase
    obtain ⟨o, ho, rfl⟩ := exists_object_of_emitsType h hd rfl
    obtain ⟨hkept, own, hown, hset⟩ := (emitsType_methodSet_iff h ho).mp hd
    cases hset
    obtain ⟨i, hi, rfl⟩ := (embedded_mem_append_iff hown).mp hbase
    exact (declaresInterface_iff h (Implements.mem hi)).mpr (hkeeps.listed o ho hkept i hi)
  interface := by
    intro r name entries base hd hbase
    obtain ⟨i, hi, rfl⟩ := exists_interface_of_emitsType h hd rfl
    obtain ⟨hkept, own, hown, htype⟩ := (emitsType_interface_iff h hi).mp hd
    cases htype
    -- The first entry is the access to the handle.
    have hbase := (List.mem_cons.mp hbase).resolve_left nofun
    obtain ⟨j, hj, rfl⟩ := (embedded_mem_append_iff hown).mp hbase
    exact (declaresInterface_iff h (Requires.mem hj)).mpr (hkeeps.required i hi hkept j hj)

/-- What is embedded is declared, unless it is left out where the type that embeds it is not. -/
theorem embeddingClosed_iff (hvalid : ns.validate = .ok ()) (h : ns.fragments options = .ok fs) :
    ns.EmbeddingClosed fs ↔ ns.KeepsEmbedded options :=
  ⟨keepsEmbedded_of_embeddingClosed h, embeddingClosed_of_keepsEmbedded hvalid h⟩

/-- Where deprecated items are not left out, whatever is embedded is declared. -/
theorem embeddingClosed_of_skipDeprecated_eq_false (hvalid : ns.validate = .ok ())
    (h : ns.fragments options = .ok fs) (hall : options.skipDeprecated = false) :
    ns.EmbeddingClosed fs := by
  have hkept : ∀ deprecated, options.skips deprecated = false := by
    intro deprecated
    rw [Options.skips, hall, Bool.and_false]
  exact embeddingClosed_of_keepsEmbedded hvalid h
    { parent := fun _ _ _ p _ => hkept p.deprecated
      listed := fun _ _ _ i _ => hkept i.deprecated
      required := fun _ _ _ j _ => hkept j.deprecated }

/-- A deprecated object. -/
def oldWidget : Object := ⟨"Widget", none, [], false, [], [], [], [], [], [], true⟩

/-- An object that has it for a parent. -/
def newButton : Object :=
  ⟨"Button", some ⟨"Gtk", "Widget", .object⟩, [], false, [], [], [], [], [], [], false⟩

/-- The namespace of the two. -/
def ofOldParent : Namespace :=
  ((ofName "Gtk").addEntity (.object oldWidget)).addEntity (.object newButton)

theorem validate_ofOldParent : ofOldParent.validate = .ok () := by
  refine validate_eq_ok_iff.mpr ⟨forM_eq_ok_iff.mp rfl, fun o ho => ?_, fun i hi => ?_⟩
  · refine (checkObject_eq_ok_iff ho).mpr ?_
    have hroot : ofOldParent.Rooted oldWidget := .root rfl
    have hone : o = oldWidget ∨ o = newButton := by
      simpa using show o ∈ [oldWidget, newButton] from ho
    rcases hone with rfl | rfl
    · exact ⟨nofun, nofun, hroot⟩
    · refine ⟨fun r hr => ?_, nofun, .child rfl hroot⟩
      cases hr
      exact ⟨rfl, fun _ => ⟨.object oldWidget, List.mem_cons_self, rfl, rfl⟩⟩
  · cases hi

/-- The parent is left out, and embedded all the same. -/
theorem embeddingClosed_iff_ofOldParent :
    ofOldParent.validate = .ok ()
      ∧ ∃ fs, ofOldParent.fragments { Options.default with skipDeprecated := true } = .ok fs
        ∧ ¬ofOldParent.EmbeddingClosed fs := by
  have hfs : ∃ fs, ofOldParent.fragments { Options.default with skipDeprecated := true } = .ok fs :=
    ⟨_, rfl⟩
  obtain ⟨fs, hfs⟩ := hfs
  refine ⟨validate_ofOldParent, fs, hfs, ?_⟩
  rw [embeddingClosed_iff validate_ofOldParent hfs]
  intro hkeeps
  have hbutton : newButton ∈ ofOldParent.objects.entries :=
    List.mem_cons_of_mem _ List.mem_cons_self
  cases hkeeps.parent newButton hbutton rfl oldWidget rfl

end Namespace

end Introspection
