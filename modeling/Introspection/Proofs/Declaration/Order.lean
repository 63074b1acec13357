import Introspection.Declaration.Emission
import Introspection.Proofs.Namespace.Reference

/-!
# `Introspection.Proofs.Declaration.Order`: the order of the tables

`Namespace.Reordered` relates namespaces that have the same entries in their tables, in any order.
What is looked up in a table is looked up by name, and the count of a value name asks for no
order, so every item has the same fragments in both namespaces. Only their place in the list is
another: `fragments_perm`.

The order inside one item stays what it is: the closure of an interface is worked off in the order
of its prerequisites (`Reordered.closure_eq`), and which methods a type gets from its interfaces
depends on the order of the interfaces.
-/

set_option autoImplicit false

namespace Introspection

/-- Entries in another order are found under the same names. -/
theorem Table.find?_eq_of_perm {α : Type} [Named α] {t t' : Table α}
    (h : t.entries.Perm t'.entries) (name : String) : t'.find? name = t.find? name := by
  ext a
  rw [t'.find?_eq_some_iff, t.find?_eq_some_iff, h.mem_iff]

namespace Namespace

/-- Namespaces of one name with the same entries in their tables, in any order. -/
structure Reordered (ns ns' : Namespace) : Prop where
  name : ns'.name = ns.name
  constants : ns.constants.entries.Perm ns'.constants.entries
  enums : ns.enums.entries.Perm ns'.enums.entries
  interfaces : ns.interfaces.entries.Perm ns'.interfaces.entries
  objects : ns.objects.entries.Perm ns'.objects.entries
  structs : ns.structs.entries.Perm ns'.structs.entries
  unions : ns.unions.entries.Perm ns'.unions.entries
  functions : ns.functions.entries.Perm ns'.functions.entries

namespace Reordered

variable {ns ns' : Namespace}

theorem symm (h : ns.Reordered ns') : ns'.Reordered ns :=
  ⟨h.name.symm, h.constants.symm, h.enums.symm, h.interfaces.symm, h.objects.symm,
    h.structs.symm, h.unions.symm, h.functions.symm⟩

/-! ### Names and look-ups -/

theorem scope_eq (h : ns.Reordered ns') (options : Options) :
    ns'.scope options = ns.scope options := by
  unfold scope Package.ofNamespace
  rw [h.name]

theorem reference_eq (h : ns.Reordered ns') : ns'.reference = ns.reference := by
  funext kind name
  unfold reference
  rw [h.name]

theorem originOf_eq (h : ns.Reordered ns') : ns'.originOf = ns.originOf := by
  funext owner f
  unfold originOf
  rw [h.name]

theorem lookup_eq (h : ns.Reordered ns') (r : EntityRef) : ns'.lookup r = ns.lookup r := by
  unfold lookup
  rw [h.name, Table.find?_eq_of_perm h.enums, Table.find?_eq_of_perm h.interfaces,
    Table.find?_eq_of_perm h.objects, Table.find?_eq_of_perm h.structs,
    Table.find?_eq_of_perm h.unions]

theorem interface?_eq (h : ns.Reordered ns') (r : EntityRef) :
    ns'.interface? r = ns.interface? r := by
  unfold interface?
  rw [h.lookup_eq]

theorem entities_perm (h : ns.Reordered ns') : ns.entities.Perm ns'.entities :=
  ((((h.enums.map _).append (h.interfaces.map _)).append (h.objects.map _)).append
    (h.structs.map _)).append (h.unions.map _)

/-! ### Interfaces behind an interface -/

theorem knownInterfaces_eq (h : ns.Reordered ns') (refs : List EntityRef) :
    ns'.knownInterfaces refs = ns.knownInterfaces refs := by
  unfold knownInterfaces
  simp only [h.interface?_eq]

theorem required_eq (h : ns.Reordered ns') (r : EntityRef) : ns'.required r = ns.required r := by
  unfold required
  simp only [h.interface?_eq, h.knownInterfaces_eq]

/-- A queue is worked off alike when the names to be met are listed in another order. -/
theorem spread_eq (h : ns.Reordered ns') (fresh : List String) (queue : List EntityRef)
    {fresh' : List String} (hperm : fresh.Perm fresh') :
    ns'.spread fresh' queue = ns.spread fresh queue := by
  induction fresh, queue using Namespace.spread.induct ns generalizing fresh' with
  | case1 fresh => simp only [spread]
  | case2 fresh r queue hr ih =>
    have hr' : r.name ∈ fresh' := hperm.mem_iff.mp hr
    rw [spread, spread, dif_pos hr, dif_pos hr', h.required_eq, ih (hperm.erase r.name)]
  | case3 fresh r queue hr ih =>
    have hr' : r.name ∉ fresh' := fun hmem => hr (hperm.mem_iff.mpr hmem)
    rw [spread, spread, dif_neg hr, dif_neg hr', ih hperm]

/-- Behind an interface stand the same interfaces in the same order. -/
theorem closure_eq (h : ns.Reordered ns') (i : Interface) : ns'.closure i = ns.closure i := by
  have hnames : ns.interfaces.names.Perm ns'.interfaces.names := h.interfaces.map _
  unfold closure
  rw [h.knownInterfaces_eq, h.spread_eq _ _ (hnames.erase i.name)]

/-! ### Names of enumeration values -/

/-- A name comes as often whatever the order of the enumerations. -/
theorem isAmbiguous_eq (h : ns.Reordered ns') (v : EnumValue) :
    ns'.isAmbiguous v = ns.isAmbiguous v := by
  have hbare : ns.bareValueNames.Perm ns'.bareValueNames := h.enums.flatMap_right _
  unfold isAmbiguous
  rw [hbare.count_eq]

theorem valueNames_eq (h : ns.Reordered ns') (e : Enumeration) (values : List EnumValue) :
    ns'.valueNames e values = ns.valueNames e values := by
  have hambiguous : ns'.isAmbiguous = ns.isAmbiguous := funext h.isAmbiguous_eq
  unfold valueNames valueStem
  rw [hambiguous]
  refine List.map_congr_left fun v _ => ?_
  unfold valueName
  rw [h.name]

/-! ### Fragments of one item -/

theorem constantFragment_eq (h : ns.Reordered ns') (options : Options) :
    ns'.constantFragment options = ns.constantFragment options := by
  funext c
  unfold constantFragment
  rw [h.scope_eq, h.name]

theorem functionFragments_eq (h : ns.Reordered ns') (options : Options)
    (owner : Option EntityRef) (fs : List Function) :
    ns'.functionFragments options owner fs = ns.functionFragments options owner fs := by
  have hone : ns'.functionFragment options owner = ns.functionFragment options owner := by
    funext f
    unfold functionFragment
    rw [h.scope_eq, h.originOf_eq]
  unfold functionFragments
  rw [hone]

theorem inherited_eq (h : ns.Reordered ns') (options : Options) (own : List Function)
    (interfaces : List EntityRef) :
    ns'.inherited options own interfaces = ns.inherited options own interfaces := by
  have hone : ns'.interfaceMethods options = ns.interfaceMethods options := by
    funext via
    unfold interfaceMethods
    rw [h.interface?_eq]
  unfold inherited
  rw [hone]

theorem memberFragments_eq (h : ns.Reordered ns') (options : Options) (owner : EntityRef)
    (own : List Function) (interfaces : List EntityRef) :
    ns'.memberFragments options owner own interfaces
      = ns.memberFragments options owner own interfaces := by
  have hone : ns'.inheritedFragment options owner = ns.inheritedFragment options owner := by
    funext m
    unfold inheritedFragment
    rw [h.scope_eq]
  unfold memberFragments
  rw [h.functionFragments_eq, h.inherited_eq, hone]

theorem methodEntries_eq (h : ns.Reordered ns') (options : Options) (owner : EntityRef)
    (fs : List Function) :
    ns'.methodEntries options owner fs = ns.methodEntries options owner fs := by
  unfold methodEntries
  rw [h.scope_eq]

theorem recordFragments_eq (h : ns.Reordered ns') (options : Options) (r : EntityRef)
    (deprecated : Bool) (fields : List FieldDecl) (methods : List Function) :
    ns'.recordFragments options r deprecated fields methods
      = ns.recordFragments options r deprecated fields methods := by
  unfold recordFragments
  rw [h.functionFragments_eq, h.scope_eq]

/-- A registered type has the same fragments, or the same error. -/
theorem entityFragments_eq (h : ns.Reordered ns') (options : Options) :
    ns'.entityFragments options = ns.entityFragments options := by
  funext e
  cases e with
  | enum e =>
    simp only [entityFragments, enumFragments, h.reference_eq, h.scope_eq, h.valueNames_eq,
      h.functionFragments_eq]
  | interface i =>
    simp only [entityFragments, interfaceFragments, h.reference_eq, h.methodEntries_eq,
      h.knownInterfaces_eq, h.closure_eq, h.memberFragments_eq]
  | object o =>
    simp only [entityFragments, objectFragments, objectDeclaration, methodSetBase,
      h.reference_eq, h.scope_eq, h.methodEntries_eq, h.knownInterfaces_eq, h.memberFragments_eq]
  | struct s =>
    simp only [entityFragments, structFragments, h.reference_eq, h.recordFragments_eq]
  | union u =>
    simp only [entityFragments, unionFragments, h.reference_eq, h.recordFragments_eq]

/-! ### All fragments -/

/-- If one namespace has fragments, the other has the same in another order. -/
theorem exists_fragments (h : ns.Reordered ns') {options : Options} {fs : List Fragment}
    (hfs : ns.fragments options = .ok fs) :
    ∃ fs', ns'.fragments options = .ok fs' ∧ fs'.Perm fs := by
  obtain ⟨constants, hconstants, hfs⟩ := bind_eq_ok_iff.mp hfs
  obtain ⟨types, htypes, hfs⟩ := bind_eq_ok_iff.mp hfs
  obtain ⟨functions, hfunctions, hfs⟩ := bind_eq_ok_iff.mp hfs
  cases hfs
  obtain ⟨constants', hconstants', hperm⟩ := exists_mapM_perm (h.constants.filter _) hconstants
  obtain ⟨types', htypes', htypesPerm⟩ := exists_mapM_perm (h.entities_perm.filter _) htypes
  obtain ⟨functions', hfunctions', hfunctionsPerm⟩ :=
    exists_mapM_perm (h.functions.filter _) hfunctions
  refine ⟨constants' ++ types'.flatten ++ functions', ?_,
    (hperm.append htypesPerm.flatten).append hfunctionsPerm⟩
  have hfree : ns'.functionFragments options none ns'.functions.entries = .ok functions' := by
    rw [h.functionFragments_eq]
    exact hfunctions'
  unfold fragments
  rw [h.constantFragment_eq, hconstants', ok_bind, h.entityFragments_eq, htypes', ok_bind, hfree,
    ok_bind, pure_eq_ok]

end Reordered

/-- The order of the tables decides neither whether a namespace has fragments nor which. -/
theorem fragments_perm {ns ns' : Namespace} (h : ns.Reordered ns') (options : Options) :
    ((∃ fs, ns.fragments options = .ok fs) ↔ ∃ fs', ns'.fragments options = .ok fs')
      ∧ ∀ fs fs', ns.fragments options = .ok fs → ns'.fragments options = .ok fs' →
        fs.Perm fs' := by
  refine ⟨⟨?_, ?_⟩, ?_⟩
  · rintro ⟨fs, hfs⟩
    obtain ⟨fs', hfs', _⟩ := h.exists_fragments hfs
    exact ⟨fs', hfs'⟩
  · rintro ⟨fs', hfs'⟩
    obtain ⟨fs, hfs, _⟩ := h.symm.exists_fragments hfs'
    exact ⟨fs, hfs⟩
  · intro fs fs' hfs hfs'
    obtain ⟨other, hother, hperm⟩ := h.exists_fragments hfs
    -- The other namespace has one list of fragments only.
    cases hfs'.symm.trans hother
    exact hperm.symm

/-- An enumeration of that name with a value that is called as those of others are. -/
def filling (name : String) : Enumeration := .ofValues name [.ofInt "fill" 0]

/-- Two enumerations of one namespace, in that order. -/
def ofEnums (first second : Enumeration) : Namespace :=
  ((ofName "Gtk").addEntity (.enum first)).addEntity (.enum second)

/-- Two enumerations share the name of a value, so both names get a stem, in either order. -/
theorem perm_fragments_of_swapped :
    (ofEnums (filling "Align") (filling "WrapMode")).Reordered
        (ofEnums (filling "WrapMode") (filling "Align"))
      ∧ ∃ fs fs',
        (ofEnums (filling "Align") (filling "WrapMode")).fragments .default = .ok fs
        ∧ (ofEnums (filling "WrapMode") (filling "Align")).fragments .default = .ok fs'
        ∧ fs.Perm fs' := by
  have h : (ofEnums (filling "Align") (filling "WrapMode")).Reordered
      (ofEnums (filling "WrapMode") (filling "Align")) :=
    ⟨rfl, .nil, .swap _ _ _, .nil, .nil, .nil, .nil, .nil⟩
  exact ⟨h, _, _, rfl, rfl, (fragments_perm h .default).2 _ _ rfl rfl⟩

end Namespace

end Introspection
