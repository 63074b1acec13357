import Introspection.Proofs.Declaration.Method

/-!
# `Introspection.Proofs.Declaration.Emission`: which type a fragment belongs to

Every fragment belongs to the item that it was made for, so the fragments of one registered type
can be told from all others: `exists_mem_fragments_iff`. What a type declares, and which methods
are declared on it, follows from the description of that one type.
-/

set_option autoImplicit false

namespace Introspection

/-- The registered type that an item belongs to; constants and free functions belong to none. -/
def Origin.owner? : Origin → Option EntityRef
  | item _ _ => none
  | type r => some r
  | member r _ => some r

/-- Among the fragments is this declaration of the type itself. -/
def EmitsType (fs : List Fragment) (r : EntityRef) (d : Declaration) : Prop :=
  ∃ f ∈ fs, f.origin = .type r ∧ f.declaration = d

theorem emitsType_cons_iff {fs : List Fragment} {r : EntityRef} {noted : Bool}
    {d d' : Declaration} :
    EmitsType (⟨.type r, noted, d'⟩ :: fs) r d ↔ d' = d ∨ EmitsType fs r d := by
  unfold EmitsType
  rw [List.exists_mem_cons_iff]
  simp

namespace Namespace

variable {ns : Namespace} {options : Options}

/-! ### Owners -/

theorem owner_of_mem_constantFragments {cs : List Constant} {out : List Fragment}
    (h : cs.mapM (ns.constantFragment options) = .ok out) {f : Fragment} (hf : f ∈ out) :
    f.origin.owner? = none := by
  obtain ⟨c, _, hc⟩ := (mem_of_mapM_eq_ok h).mp hf
  obtain ⟨type, _, hc⟩ := bind_eq_ok_iff.mp (within_eq_ok_iff.mp hc)
  obtain ⟨value, _, hc⟩ := bind_eq_ok_iff.mp hc
  cases hc
  rfl

theorem owner_of_mem_functionFragments {owner : Option EntityRef} {fs : List Function}
    {out : List Fragment} (h : ns.functionFragments options owner fs = .ok out) {f : Fragment}
    (hf : f ∈ out) : f.origin.owner? = owner := by
  obtain ⟨g, _, hg⟩ := (mem_of_mapM_eq_ok h).mp hf
  obtain ⟨host, _, rfl⟩ := functionFragment_eq_ok_iff.mp hg
  cases owner with
  | none => rfl
  | some r => rfl

/-- What a type gets besides its declarations are members. -/
theorem origin_of_mem_memberFragments {owner : EntityRef} {own : List Function}
    {interfaces : List EntityRef} {out : List Fragment}
    (h : ns.memberFragments options owner own interfaces = .ok out) {f : Fragment}
    (hf : f ∈ out) : ∃ name, f.origin = .member owner name := by
  obtain ⟨ofOwn, hown, h⟩ := bind_eq_ok_iff.mp h
  obtain ⟨ofInterfaces, hinterfaces, h⟩ := bind_eq_ok_iff.mp h
  cases h
  rcases List.mem_append.mp hf with hf | hf
  · obtain ⟨g, _, hg⟩ := (mem_of_mapM_eq_ok hown).mp hf
    obtain ⟨host, _, rfl⟩ := functionFragment_eq_ok_iff.mp hg
    exact ⟨g.name, rfl⟩
  · obtain ⟨m, _, hm⟩ := (mem_of_mapM_eq_ok hinterfaces).mp hf
    obtain ⟨host, _, rfl⟩ := inheritedFragment_eq_ok_iff.mp hm
    exact ⟨m.method.name, rfl⟩

theorem not_emitsType_memberFragments {owner : EntityRef} {own : List Function}
    {interfaces : List EntityRef} {out : List Fragment}
    (h : ns.memberFragments options owner own interfaces = .ok out) {r : EntityRef}
    {d : Declaration} : ¬EmitsType out r d := by
  rintro ⟨f, hf, horigin, _⟩
  obtain ⟨name, hmember⟩ := origin_of_mem_memberFragments h hf
  rw [horigin] at hmember
  cases hmember

theorem owner_of_mem_getterFragments {scope : Scope} {owner : EntityRef} {taken : List String}
    {fields : List FieldDecl} {f : Fragment}
    (hf : f ∈ getterFragments scope owner taken fields) : f.origin.owner? = some owner := by
  obtain ⟨field, _, hfield⟩ := List.mem_filterMap.mp hf
  obtain ⟨g, _, rfl⟩ := Option.map_eq_some_iff.mp hfield
  rfl

theorem owner_of_mem_recordFragments {r : EntityRef} {deprecated : Bool}
    {fields : List FieldDecl} {methods : List Function} {out : List Fragment}
    (h : ns.recordFragments options r deprecated fields methods = .ok out) {f : Fragment}
    (hf : f ∈ out) : f.origin.owner? = some r := by
  obtain ⟨functions, hfunctions, h⟩ := bind_eq_ok_iff.mp h
  cases h
  rcases List.mem_append.mp hf with hf | hf
  · rcases List.mem_cons.mp hf with rfl | hf
    · rfl
    · exact owner_of_mem_functionFragments hfunctions hf
  · split at hf
    · exact owner_of_mem_getterFragments hf
    · cases hf

/-! ### Fragments of one type

An interface declares its type and an object two, its type and its method set. -/

theorem interfaceFragments_eq_ok_iff {i : Interface} {out : List Fragment} :
    ns.interfaceFragments options i = .ok out ↔ ∃ entries members,
      ns.methodEntries options (ns.reference .interface i.name) i.methods = .ok entries
      ∧ ns.memberFragments options (ns.reference .interface i.name) i.methods (ns.closure i)
        = .ok members
      ∧ ⟨.type (ns.reference .interface i.name), i.deprecated, .interface i.name
          (.handle :: embeddedEntries (ns.knownInterfaces i.prerequisites) ++ entries)⟩
          :: members = out := by
  unfold interfaceFragments
  simp only [bind_eq_ok_iff, pure_eq_ok, Except.ok.injEq, exists_and_left]

theorem objectFragments_eq_ok_iff {o : Object} {out : List Fragment} :
    ns.objectFragments options o = .ok out ↔ ∃ entries members,
      ns.methodEntries options (ns.reference .object o.name) o.methods = .ok entries
      ∧ ns.memberFragments options (ns.reference .object o.name) o.methods
          (ns.knownInterfaces o.interfaces) = .ok members
      ∧ ⟨.type (ns.reference .object o.name), o.deprecated, ns.objectDeclaration options o⟩
          :: ⟨.type (ns.reference .object o.name), false, .methodSet o.name
            (ns.methodSetBase options o
              :: embeddedEntries (ns.knownInterfaces o.interfaces) ++ entries)⟩
          :: members = out := by
  unfold objectFragments
  simp only [bind_eq_ok_iff, pure_eq_ok, Except.ok.injEq, exists_and_left]

/-- The fragments of a registered type belong to it. -/
theorem owner_of_mem_entityFragments {e : Entity} {out : List Fragment}
    (h : ns.entityFragments options e = .ok out) {f : Fragment} (hf : f ∈ out) :
    f.origin.owner? = some (ns.reference e.kind e.name) := by
  cases e with
  | enum e =>
    obtain ⟨storage, _, h⟩ := bind_eq_ok_iff.mp h
    obtain ⟨functions, hfunctions, h⟩ := bind_eq_ok_iff.mp h
    cases h
    rcases List.mem_cons.mp hf with rfl | hf
    · rfl
    · exact owner_of_mem_functionFragments hfunctions hf
  | interface i =>
    obtain ⟨entries, members, _, hmembers, rfl⟩ := interfaceFragments_eq_ok_iff.mp h
    rcases List.mem_cons.mp hf with rfl | hf
    · rfl
    · obtain ⟨name, horigin⟩ := origin_of_mem_memberFragments hmembers hf
      rw [horigin]
      rfl
  | object o =>
    obtain ⟨entries, members, _, hmembers, rfl⟩ := objectFragments_eq_ok_iff.mp h
    rcases List.mem_cons.mp hf with rfl | hf
    · rfl
    · rcases List.mem_cons.mp hf with rfl | hf
      · rfl
      · obtain ⟨name, horigin⟩ := origin_of_mem_memberFragments hmembers hf
        rw [horigin]
        rfl
  | struct s =>
    simp only [entityFragments, structFragments] at h
    split at h
    · cases h
      cases hf
    · exact owner_of_mem_recordFragments h hf
  | union u => exact owner_of_mem_recordFragments h hf

/-! ### Fragments of a namespace -/

/-- A reference of the namespace is that of one registered type at most. -/
theorem eq_of_reference_eq {e e' : Entity} (he : e ∈ ns.entities) (he' : e' ∈ ns.entities)
    (h : ns.reference e.kind e.name = ns.reference e'.kind e'.name) : e = e' := by
  obtain ⟨hname, hkind⟩ : e.name = e'.name ∧ e.kind = e'.kind := by
    simpa [reference] using h
  have hself : ns.lookup (ns.reference e'.kind e'.name) = some e :=
    lookup_eq_some_iff.mpr ⟨rfl, he, hkind, hname⟩
  have hother : ns.lookup (ns.reference e'.kind e'.name) = some e' :=
    lookup_eq_some_iff.mpr ⟨rfl, he', rfl, rfl⟩
  exact Option.some.inj (hself.symm.trans hother)

variable {fs : List Fragment}

/-- A namespace with fragments has fragments for each of its types that is not left out. -/
theorem exists_entityFragments (h : ns.fragments options = .ok fs) {e : Entity}
    (he : e ∈ ns.entities) (hkept : options.skips e.deprecated = false) :
    ∃ out, ns.entityFragments options e = .ok out := by
  obtain ⟨constants, _, h⟩ := bind_eq_ok_iff.mp h
  obtain ⟨types, htypes, _⟩ := bind_eq_ok_iff.mp h
  exact exists_ok_of_mapM_eq_ok htypes (List.mem_filter.mpr ⟨he, by simp [hkept]⟩)

/-- The fragments that belong to registered types are those of the types that are not left
out. -/
theorem mem_fragments_iff (h : ns.fragments options = .ok fs) {f : Fragment} {r : EntityRef}
    (hr : f.origin.owner? = some r) :
    f ∈ fs ↔ ∃ e ∈ ns.entities, options.skips e.deprecated = false
      ∧ ns.reference e.kind e.name = r
      ∧ ∃ out, ns.entityFragments options e = .ok out ∧ f ∈ out := by
  obtain ⟨constants, hconstants, h⟩ := bind_eq_ok_iff.mp h
  obtain ⟨types, htypes, h⟩ := bind_eq_ok_iff.mp h
  obtain ⟨functions, hfunctions, h⟩ := bind_eq_ok_iff.mp h
  cases h
  -- Constants and free functions belong to no type, so the fragment is that of a type.
  have hconstant : f ∉ constants := by
    intro hf
    rw [owner_of_mem_constantFragments hconstants hf] at hr
    cases hr
  have hfunction : f ∉ functions := by
    intro hf
    rw [owner_of_mem_functionFragments hfunctions hf] at hr
    cases hr
  simp only [List.mem_append, hconstant, hfunction, false_or, or_false, List.mem_flatten]
  constructor
  · rintro ⟨out, hout, hf⟩
    obtain ⟨e, he, hfragments⟩ := (mem_of_mapM_eq_ok htypes).mp hout
    have he := List.mem_filter.mp he
    have howner := owner_of_mem_entityFragments hfragments hf
    rw [hr] at howner
    exact ⟨e, he.1, by simpa using he.2, (Option.some.inj howner).symm, out, hfragments, hf⟩
  · rintro ⟨e, he, hkept, _, out, hfragments, hf⟩
    have hmem : e ∈ ns.entities.filter fun e => !options.skips e.deprecated :=
      List.mem_filter.mpr ⟨he, by simp [hkept]⟩
    exact ⟨out, (mem_of_mapM_eq_ok htypes).mpr ⟨e, hmem, hfragments⟩, hf⟩

/-- What fragments say of one registered type, its own fragments say. -/
theorem exists_mem_fragments_iff (h : ns.fragments options = .ok fs) {e : Entity}
    (he : e ∈ ns.entities) {P : Fragment → Prop}
    (hP : ∀ f, P f → f.origin.owner? = some (ns.reference e.kind e.name)) :
    (∃ f ∈ fs, P f) ↔ options.skips e.deprecated = false
      ∧ ∃ out, ns.entityFragments options e = .ok out ∧ ∃ f ∈ out, P f := by
  constructor
  · rintro ⟨f, hf, hPf⟩
    obtain ⟨e', he', hkept, hreference, out, hout, hf⟩ := (mem_fragments_iff h (hP f hPf)).mp hf
    cases eq_of_reference_eq he' he hreference
    exact ⟨hkept, out, hout, f, hf, hPf⟩
  · rintro ⟨hkept, out, hout, f, hf, hPf⟩
    exact ⟨f, (mem_fragments_iff h (hP f hPf)).mpr ⟨e, he, hkept, rfl, out, hout, hf⟩, hPf⟩

/-- The methods on a registered type are those among its own fragments. -/
theorem emitsMethod_fragments_iff (h : ns.fragments options = .ok fs) {e : Entity}
    (he : e ∈ ns.entities) {n : String} :
    EmitsMethod fs (ns.reference e.kind e.name) n ↔ options.skips e.deprecated = false
      ∧ ∃ out, ns.entityFragments options e = .ok out
        ∧ EmitsMethod out (ns.reference e.kind e.name) n := by
  refine exists_mem_fragments_iff h he ?_
  rintro f ⟨name, host, horigin, _⟩
  rw [horigin]
  rfl

/-- The declarations of a registered type are those among its own fragments. -/
theorem emitsType_fragments_iff (h : ns.fragments options = .ok fs) {e : Entity}
    (he : e ∈ ns.entities) {d : Declaration} :
    EmitsType fs (ns.reference e.kind e.name) d ↔ options.skips e.deprecated = false
      ∧ ∃ out, ns.entityFragments options e = .ok out
        ∧ EmitsType out (ns.reference e.kind e.name) d := by
  refine exists_mem_fragments_iff h he ?_
  rintro f ⟨horigin, _⟩
  rw [horigin]
  rfl

end Namespace

end Introspection
