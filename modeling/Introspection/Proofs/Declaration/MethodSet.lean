import Introspection.Proofs.Declaration.Emission
import Introspection.Proofs.Namespace.Validation

/-!
# `Introspection.Proofs.Declaration.MethodSet`: objects and their method sets

The method set of an object, `I<Name>`, stands for the object and all that derive from it, so
the object and its ancestors have to declare every method that it requires. What it requires is
read off the fragments: its own signatures, and those of the interface types that it embeds, which
embed the interfaces behind them in turn (`InterfaceRequires`, `MethodSetRequires`).

`methodSet_implemented_iff` says when an object has all these methods. Two kinds of objects have
not: a method of the object's own that is left out keeps an interface's method of that name away,
and methods of interfaces that stand behind the listed ones are not added to objects at all.
`methodSet_implemented_of_closed` covers the objects without either.
-/

set_option autoImplicit false

namespace Introspection

open Relation

namespace Namespace

variable {ns : Namespace} {options : Options} {fs : List Fragment}

/-! ### Interfaces by reference -/

/-- The object lists the interface, one of this namespace. -/
def Implements (ns : Namespace) (o : Object) (i : Interface) : Prop :=
  ∃ r ∈ o.interfaces, ns.interface? r = some i

theorem Implements.mem {o : Object} {i : Interface} (h : ns.Implements o i) :
    i ∈ ns.interfaces.entries := by
  obtain ⟨r, _, hr⟩ := h
  exact (interface?_eq_some_iff.mp hr).2.1

/-- References whose methods are known are those that stand for interfaces. -/
theorem mem_knownInterfaces_and_iff {refs : List EntityRef} {r : EntityRef} {i : Interface} :
    r ∈ ns.knownInterfaces refs ∧ ns.interface? r = some i
      ↔ r ∈ refs ∧ ns.interface? r = some i := by
  constructor
  · rintro ⟨hr, hi⟩
    exact ⟨(List.mem_filter.mp hr).1, hi⟩
  · rintro ⟨hr, hi⟩
    have hkind := (interface?_eq_some_iff.mp hi).2.2.1
    exact ⟨List.mem_filter.mpr ⟨hr, by simp [hkind, hi]⟩, hi⟩

/-- Interface types are embedded under the names of the interfaces. -/
theorem embedded_mem_embeddedEntries_iff {refs : List EntityRef} {base : String} :
    InterfaceEntry.embedded (.plain base) ∈ embeddedEntries (ns.knownInterfaces refs)
      ↔ ∃ i, (∃ r ∈ refs, ns.interface? r = some i) ∧ i.name = base := by
  unfold embeddedEntries
  rw [List.mem_map]
  constructor
  · rintro ⟨r, hr, hbase⟩
    cases hbase
    have hknown := List.mem_filter.mp hr
    obtain ⟨i, hi⟩ := Option.isSome_iff_exists.mp (Bool.and_eq_true_iff.mp hknown.2).2
    exact ⟨i, ⟨r, hknown.1, hi⟩, (interface?_eq_some_iff.mp hi).2.2.2⟩
  · rintro ⟨i, ⟨r, hr, hi⟩, rfl⟩
    have hname := (interface?_eq_some_iff.mp hi).2.2.2
    exact ⟨r, (mem_knownInterfaces_and_iff.mpr ⟨hr, hi⟩).1, by rw [hname]⟩

/-- The entries of a type with functions split into what it embeds and its signatures. -/
theorem embedded_mem_append_iff {owner : EntityRef} {functions : List Function}
    {refs : List EntityRef} {entries : List InterfaceEntry}
    (h : ns.methodEntries options owner functions = .ok entries) {base : String} :
    InterfaceEntry.embedded (.plain base) ∈ embeddedEntries (ns.knownInterfaces refs) ++ entries
      ↔ ∃ i, (∃ r ∈ refs, ns.interface? r = some i) ∧ i.name = base := by
  have hentries : InterfaceEntry.embedded (.plain base) ∉ entries := by
    intro hmem
    obtain ⟨s, hs⟩ := exists_method_of_mem_methodEntries h hmem
    cases hs
  rw [List.mem_append, or_iff_left hentries, embedded_mem_embeddedEntries_iff]

theorem method_mem_append_iff {owner : EntityRef} {functions : List Function}
    {refs : List EntityRef} {entries : List InterfaceEntry}
    (h : ns.methodEntries options owner functions = .ok entries) {n : String} :
    (∃ s, InterfaceEntry.method s ∈ embeddedEntries refs ++ entries ∧ s.name = n)
      ↔ n ∈ options.keptNames functions := by
  rw [← method_mem_methodEntries_iff h]
  simp [embeddedEntries]

/-! ### What an object gets -/

/-- The object gets a method of the name: one of its own, or, if it has none of that name, one of
the interfaces that it lists. -/
def Offers (ns : Namespace) (options : Options) (o : Object) (n : String) : Prop :=
  n ∈ options.keptNames o.methods ∨ n ∉ methodNames o.methods
    ∧ ∃ i, ns.Implements o i ∧ n ∈ options.keptNames i.methods

/-- The first two fragments of an object declare types, the others are what it gets. -/
theorem emitsMethod_objectFragments_iff {o : Object} {out : List Fragment}
    (h : ns.objectFragments options o = .ok out) {n : String} :
    EmitsMethod out (ns.reference .object o.name) n ↔ ns.Offers options o n := by
  obtain ⟨entries, members, _, hmembers, rfl⟩ := objectFragments_eq_ok_iff.mp h
  rw [emitsMethod_cons_iff, emitsMethod_cons_iff, emitsMethod_memberFragments_iff hmembers]
  unfold Offers Implements
  refine or_congr Iff.rfl (and_congr Iff.rfl ?_)
  constructor
  · rintro ⟨r, hr, i, hi, hn⟩
    exact ⟨i, ⟨r, mem_knownInterfaces_and_iff.mp ⟨hr, hi⟩⟩, hn⟩
  · rintro ⟨i, ⟨r, hr⟩, hn⟩
    obtain ⟨hknown, hi⟩ := mem_knownInterfaces_and_iff.mpr hr
    exact ⟨r, hknown, i, hi, hn⟩

/-- The methods that are declared on an object are those that it gets, if it is not left out. -/
theorem emitsMethod_object_iff (h : ns.fragments options = .ok fs) {o : Object}
    (ho : o ∈ ns.objects.entries) {n : String} :
    EmitsMethod fs (ns.reference .object o.name) n
      ↔ options.skips o.deprecated = false ∧ ns.Offers options o n := by
  have he : Entity.object o ∈ ns.entities := mem_entities_iff.mpr ho
  have hfragments := (emitsMethod_fragments_iff h he : EmitsMethod fs _ n ↔ _)
  constructor
  · intro hemits
    obtain ⟨hkept, out, hout, hemits⟩ := hfragments.mp hemits
    exact ⟨hkept, (emitsMethod_objectFragments_iff hout).mp hemits⟩
  · rintro ⟨hkept, hoffers⟩
    obtain ⟨out, hout⟩ := exists_entityFragments h he hkept
    exact hfragments.mpr ⟨hkept, out, hout, (emitsMethod_objectFragments_iff hout).mpr hoffers⟩

/-! ### What a method set requires -/

/-- A declared interface type requires a method of the name, by a signature of its own or by
another declared interface type that it embeds. -/
inductive InterfaceRequires (ns : Namespace) (fs : List Fragment) (n : String) : String → Prop
  | own {name : String} {entries : List InterfaceEntry} {s : Code.Signature} :
    EmitsType fs (ns.reference .interface name) (.interface name entries) →
      .method s ∈ entries → s.name = n → ns.InterfaceRequires fs n name
  | embedded {name base : String} {entries : List InterfaceEntry} :
    EmitsType fs (ns.reference .interface name) (.interface name entries) →
      .embedded (.plain base) ∈ entries → ns.InterfaceRequires fs n base →
      ns.InterfaceRequires fs n name

/-- The declared method set of an object requires a method of the name, by a signature of its
own or by an interface type that it embeds. What it starts with, the method set of the parent or
the native pointer, is left aside. -/
def MethodSetRequires (ns : Namespace) (fs : List Fragment) (name n : String) : Prop :=
  ∃ first entries,
    EmitsType fs (ns.reference .object name) (.methodSet name (first :: entries))
    ∧ ((∃ s, InterfaceEntry.method s ∈ entries ∧ s.name = n)
      ∨ ∃ base, InterfaceEntry.embedded (.plain base) ∈ entries
        ∧ ns.InterfaceRequires fs n base)

/-- The interface is not left out, and its type embeds that of the other one. -/
def Embeds (ns : Namespace) (options : Options) (i j : Interface) : Prop :=
  options.skips i.deprecated = false ∧ ns.Requires i j

/-- Some interface that the interface embeds, or itself, has kept a method of the name. -/
def Demands (ns : Namespace) (options : Options) (i : Interface) (n : String) : Prop :=
  ∃ j, ReflTransGen (ns.Embeds options) i j ∧ options.skips j.deprecated = false
    ∧ n ∈ options.keptNames j.methods

/-- The declaration of an interface: the native pointer, what it requires, its signatures. -/
theorem emitsType_interface_iff (h : ns.fragments options = .ok fs) {i : Interface}
    (hi : i ∈ ns.interfaces.entries) {d : Declaration} :
    EmitsType fs (ns.reference .interface i.name) d ↔ options.skips i.deprecated = false
      ∧ ∃ entries, ns.methodEntries options (ns.reference .interface i.name) i.methods
          = .ok entries
        ∧ .interface i.name
            (.handle :: embeddedEntries (ns.knownInterfaces i.prerequisites) ++ entries) = d := by
  have he : Entity.interface i ∈ ns.entities := mem_entities_iff.mpr hi
  have hfragments := emitsType_fragments_iff h he (d := d)
  constructor
  · intro hd
    obtain ⟨hkept, out, hout, hd⟩ := hfragments.mp hd
    obtain ⟨entries, members, hentries, hmembers, rfl⟩ := interfaceFragments_eq_ok_iff.mp hout
    exact ⟨hkept, entries, hentries,
      (emitsType_cons_iff.mp hd).resolve_right (not_emitsType_memberFragments hmembers)⟩
  · rintro ⟨hkept, entries, hentries, hd⟩
    obtain ⟨out, hout⟩ := exists_entityFragments h he hkept
    obtain ⟨entries', members, hentries', _, rfl⟩ := interfaceFragments_eq_ok_iff.mp hout
    rw [hentries] at hentries'
    cases hentries'
    exact hfragments.mpr ⟨hkept, _, hout, emitsType_cons_iff.mpr (Or.inl hd)⟩

theorem exists_interfaceEntries (h : ns.fragments options = .ok fs) {i : Interface}
    (hi : i ∈ ns.interfaces.entries) (hkept : options.skips i.deprecated = false) :
    ∃ entries, ns.methodEntries options (ns.reference .interface i.name) i.methods
      = .ok entries := by
  have he : Entity.interface i ∈ ns.entities := mem_entities_iff.mpr hi
  obtain ⟨out, hout⟩ := exists_entityFragments h he hkept
  obtain ⟨entries, _, hentries, _⟩ := interfaceFragments_eq_ok_iff.mp hout
  exact ⟨entries, hentries⟩

/-- The declarations of an object: its type and its method set. -/
theorem emitsType_object_iff (h : ns.fragments options = .ok fs) {o : Object}
    (ho : o ∈ ns.objects.entries) {d : Declaration} :
    EmitsType fs (ns.reference .object o.name) d ↔ options.skips o.deprecated = false
      ∧ (ns.objectDeclaration options o = d
        ∨ ∃ entries, ns.methodEntries options (ns.reference .object o.name) o.methods = .ok entries
          ∧ .methodSet o.name (ns.methodSetBase options o
            :: embeddedEntries (ns.knownInterfaces o.interfaces) ++ entries) = d) := by
  have he : Entity.object o ∈ ns.entities := mem_entities_iff.mpr ho
  have hfragments := emitsType_fragments_iff h he (d := d)
  constructor
  · intro hd
    obtain ⟨hkept, out, hout, hd⟩ := hfragments.mp hd
    obtain ⟨entries, members, hentries, hmembers, rfl⟩ := objectFragments_eq_ok_iff.mp hout
    rcases emitsType_cons_iff.mp hd with hd | hd
    · exact ⟨hkept, Or.inl hd⟩
    · have hd := (emitsType_cons_iff.mp hd).resolve_right (not_emitsType_memberFragments hmembers)
      exact ⟨hkept, Or.inr ⟨entries, hentries, hd⟩⟩
  · rintro ⟨hkept, hd⟩
    obtain ⟨out, hout⟩ := exists_entityFragments h he hkept
    obtain ⟨entries', members, hentries', _, rfl⟩ := objectFragments_eq_ok_iff.mp hout
    refine hfragments.mpr ⟨hkept, _, hout, emitsType_cons_iff.mpr ?_⟩
    rcases hd with hd | ⟨entries, hentries, hd⟩
    · exact Or.inl hd
    · rw [hentries] at hentries'
      cases hentries'
      exact Or.inr (emitsType_cons_iff.mpr (Or.inl hd))

/-- The declaration of a method set: what it starts with, the interfaces that the object lists,
its signatures. -/
theorem emitsType_methodSet_iff (h : ns.fragments options = .ok fs) {o : Object}
    (ho : o ∈ ns.objects.entries) {name : String} {all : List InterfaceEntry} :
    EmitsType fs (ns.reference .object o.name) (.methodSet name all)
      ↔ options.skips o.deprecated = false
      ∧ ∃ entries, ns.methodEntries options (ns.reference .object o.name) o.methods = .ok entries
        ∧ Declaration.methodSet o.name (ns.methodSetBase options o
            :: embeddedEntries (ns.knownInterfaces o.interfaces) ++ entries)
          = .methodSet name all := by
  have htype : ns.objectDeclaration options o ≠ .methodSet name all := by
    unfold objectDeclaration
    cases o.parent with
    | none => exact nofun
    | some p => exact nofun
  rw [emitsType_object_iff h ho, or_iff_right htype]

theorem exists_objectEntries (h : ns.fragments options = .ok fs) {o : Object}
    (ho : o ∈ ns.objects.entries) (hkept : options.skips o.deprecated = false) :
    ∃ entries, ns.methodEntries options (ns.reference .object o.name) o.methods = .ok entries := by
  have he : Entity.object o ∈ ns.entities := mem_entities_iff.mpr ho
  obtain ⟨out, hout⟩ := exists_entityFragments h he hkept
  obtain ⟨entries, _, hentries, _⟩ := objectFragments_eq_ok_iff.mp hout
  exact ⟨entries, hentries⟩

theorem demands_of_interfaceRequires (h : ns.fragments options = .ok fs) {i : Interface}
    (hi : i ∈ ns.interfaces.entries) {n : String} (hrequires : ns.InterfaceRequires fs n i.name) :
    ns.Demands options i n := by
  generalize hname : i.name = name at hrequires
  -- Each step goes from a declared type to one that it embeds, that of a prerequisite.
  induction hrequires generalizing i with
  | own hd hs hn =>
    subst hname
    obtain ⟨hkept, entries, hentries, heq⟩ := (emitsType_interface_iff h hi).mp hd
    cases heq
    have hs := (List.mem_cons.mp hs).resolve_left nofun
    exact ⟨i, .refl, hkept, (method_mem_append_iff hentries).mp ⟨_, hs, hn⟩⟩
  | embedded hd hbase _ ih =>
    subst hname
    obtain ⟨hkept, entries, hentries, heq⟩ := (emitsType_interface_iff h hi).mp hd
    cases heq
    have hbase := (List.mem_cons.mp hbase).resolve_left nofun
    obtain ⟨j, hj, hname⟩ := (embedded_mem_append_iff hentries).mp hbase
    obtain ⟨k, hjk, hk⟩ := ih (Requires.mem hj) hname
    exact ⟨k, .head ⟨hkept, hj⟩ hjk, hk⟩

theorem interfaceRequires_of_demands (h : ns.fragments options = .ok fs) {i : Interface}
    (hi : i ∈ ns.interfaces.entries) {n : String} (hdemands : ns.Demands options i n) :
    ns.InterfaceRequires fs n i.name := by
  obtain ⟨j, hij, hkept, hn⟩ := hdemands
  -- The last interface of the chain has the signature, the others embed the next.
  induction hij using ReflTransGen.head_induction_on with
  | refl =>
    obtain ⟨entries, hentries⟩ := exists_interfaceEntries h hi hkept
    have hd := (emitsType_interface_iff h hi).mpr ⟨hkept, entries, hentries, rfl⟩
    obtain ⟨s, hs, hname⟩ := (method_mem_append_iff hentries).mpr hn
    exact .own hd (List.mem_cons_of_mem _ hs) hname
  | head hembeds _ ih =>
    obtain ⟨hkept, hrequires⟩ := hembeds
    obtain ⟨entries, hentries⟩ := exists_interfaceEntries h hi hkept
    have hd := (emitsType_interface_iff h hi).mpr ⟨hkept, entries, hentries, rfl⟩
    have hbase := (embedded_mem_append_iff hentries).mpr ⟨_, hrequires, rfl⟩
    exact .embedded hd (List.mem_cons_of_mem _ hbase) (ih hrequires.mem)

/-- What a declared interface type requires is what the interface demands. -/
theorem interfaceRequires_iff (h : ns.fragments options = .ok fs) {i : Interface}
    (hi : i ∈ ns.interfaces.entries) {n : String} :
    ns.InterfaceRequires fs n i.name ↔ ns.Demands options i n :=
  ⟨demands_of_interfaceRequires h hi, interfaceRequires_of_demands h hi⟩

/-- What a declared method set requires: the methods of the object itself that are not left out,
and what the interfaces that it lists demand. -/
theorem methodSetRequires_iff (h : ns.fragments options = .ok fs) {o : Object}
    (ho : o ∈ ns.objects.entries) (hkept : options.skips o.deprecated = false) {n : String} :
    ns.MethodSetRequires fs o.name n ↔ n ∈ options.keptNames o.methods
      ∨ ∃ i, ns.Implements o i ∧ ns.Demands options i n := by
  constructor
  · rintro ⟨first, all, hd, hn⟩
    obtain ⟨_, entries, hentries, heq⟩ := (emitsType_methodSet_iff h ho).mp hd
    cases heq
    rcases hn with hn | ⟨base, hbase, hrequires⟩
    · exact Or.inl ((method_mem_append_iff hentries).mp hn)
    · obtain ⟨i, hi, rfl⟩ := (embedded_mem_append_iff hentries).mp hbase
      exact Or.inr ⟨i, hi, (interfaceRequires_iff h (Implements.mem hi)).mp hrequires⟩
  · intro hn
    have he : Entity.object o ∈ ns.entities := mem_entities_iff.mpr ho
    obtain ⟨out, hout⟩ := exists_entityFragments h he hkept
    obtain ⟨entries, _, hentries, _⟩ := objectFragments_eq_ok_iff.mp hout
    have hd := (emitsType_methodSet_iff h ho).mpr ⟨hkept, entries, hentries, rfl⟩
    refine ⟨_, _, hd, ?_⟩
    rcases hn with hn | ⟨i, hi, hdemands⟩
    · exact Or.inl ((method_mem_append_iff hentries).mpr hn)
    · exact Or.inr ⟨i.name, (embedded_mem_append_iff hentries).mpr ⟨i, hi, rfl⟩,
        (interfaceRequires_iff h hi.mem).mpr hdemands⟩

/-! ### Methods that are there -/

/-- The object or one of its ancestors in the namespace, none of them left out, gets a method of
the name. -/
def Supplies (ns : Namespace) (options : Options) (o : Object) (n : String) : Prop :=
  ∃ p, ReflTransGen ns.Extends o p ∧ options.skips p.deprecated = false ∧ ns.Offers options p n

/-- The methods that are declared on an object and its ancestors are those that they get. -/
theorem emitsMethod_chain_iff (h : ns.fragments options = .ok fs) {o : Object}
    (ho : o ∈ ns.objects.entries) {n : String} :
    (∃ p, ReflTransGen ns.Extends o p ∧ EmitsMethod fs (ns.reference .object p.name) n)
      ↔ ns.Supplies options o n := by
  have hmem : ∀ p, ReflTransGen ns.Extends o p → p ∈ ns.objects.entries := by
    intro p hp
    rcases reflTransGen_iff_eq_or_transGen.mp hp with rfl | hp
    · exact ho
    · exact mem_of_transGen_extends hp
  constructor
  · rintro ⟨p, hp, hemits⟩
    exact ⟨p, hp, (emitsMethod_object_iff h (hmem p hp)).mp hemits⟩
  · rintro ⟨p, hp, hoffers⟩
    exact ⟨p, hp, (emitsMethod_object_iff h (hmem p hp)).mpr hoffers⟩

/-- An object has all methods that its method set requires when whatever the listed interfaces
demand is offered by the object or by one of its ancestors. -/
theorem methodSet_implemented_iff (h : ns.fragments options = .ok fs) {o : Object}
    (ho : o ∈ ns.objects.entries) (hkept : options.skips o.deprecated = false) :
    (∀ n, ns.MethodSetRequires fs o.name n →
      ∃ p, ReflTransGen ns.Extends o p ∧ EmitsMethod fs (ns.reference .object p.name) n)
      ↔ ∀ i n, ns.Implements o i → ns.Demands options i n → ns.Supplies options o n := by
  simp only [emitsMethod_chain_iff h ho, methodSetRequires_iff h ho hkept]
  constructor
  · intro hall i n hi hn
    exact hall n (Or.inr ⟨i, hi, hn⟩)
  · rintro hall n (hown | ⟨i, hi, hn⟩)
    · exact ⟨o, .refl, hkept, Or.inl hown⟩
    · exact hall i n hi hn

/-- An instance method without parameters and result. -/
def click (deprecated : Bool) : Function :=
  { Function.ofSymbol "click" "gtk_click" with
    flags := { FunctionFlags.plain with isMethod := true }
    deprecated := deprecated }

/-- An interface with that method. -/
def clickable : Interface := ⟨"Clickable", [], [click false], [], [], [], [], false⟩

/-- An object that lists the interface and has a deprecated method of its own by that name. -/
def button : Object :=
  ⟨"Button", none, [⟨"Gtk", "Clickable", .interface⟩], false, [], [click true], [], [], [], [],
    false⟩

/-- The namespace of the two. -/
def ofClickableButton : Namespace :=
  ((ofName "Gtk").addEntity (.interface clickable)).addEntity (.object button)

/-- No choice made but that deprecated items are left out. -/
def leavingOut : Options := { Options.default with skipDeprecated := true }

theorem button_mem_entries : button ∈ ofClickableButton.objects.entries :=
  List.mem_singleton.mpr rfl

theorem validate_ofClickableButton : ofClickableButton.validate = .ok () := by
  refine validate_eq_ok_iff.mpr ⟨forM_eq_ok_iff.mp rfl, ?_, ?_⟩
  · intro o ho
    cases List.mem_singleton.mp ho
    have hends : ofClickableButton.checkInheritance button = .ok () :=
      (checkInheritance_eq_ok_iff button_mem_entries).mpr (.root rfl)
    unfold checkObject
    rw [hends]
    rfl
  · intro i hi
    cases List.mem_singleton.mp hi
    unfold checkInterface
    rw [checkAcyclic]
    rfl

theorem exists_fragments_ofClickableButton :
    ∃ fs, ofClickableButton.fragments leavingOut = .ok fs := by
  have hclosure : ofClickableButton.closure clickable = [] := by
    unfold closure spread
    rfl
  have hinterface : ∃ out, ofClickableButton.interfaceFragments leavingOut clickable = .ok out := by
    unfold interfaceFragments
    rw [hclosure]
    exact ⟨_, rfl⟩
  have hobject : ∃ out, ofClickableButton.objectFragments leavingOut button = .ok out := ⟨_, rfl⟩
  have hentities : (ofClickableButton.entities.filter fun e => !leavingOut.skips e.deprecated)
      = [.interface clickable, .object button] := rfl
  obtain ⟨ofInterface, hinterface⟩ := hinterface
  obtain ⟨ofObject, hobject⟩ := hobject
  unfold fragments
  rw [hentities, List.mapM_cons, List.mapM_cons]
  simp only [entityFragments, hinterface, hobject]
  exact ⟨_, rfl⟩

/-- The method of the object itself is left out and keeps that of the interface away. -/
theorem methodSet_implemented_iff_ofClickableButton :
    ofClickableButton.validate = .ok ()
      ∧ ∃ fs, ofClickableButton.fragments leavingOut = .ok fs
        ∧ ¬∀ n, ofClickableButton.MethodSetRequires fs button.name n →
          ∃ p, ReflTransGen ofClickableButton.Extends button p
            ∧ EmitsMethod fs (ofClickableButton.reference .object p.name) n := by
  obtain ⟨fs, hfs⟩ := exists_fragments_ofClickableButton
  refine ⟨validate_ofClickableButton, fs, hfs, ?_⟩
  rw [methodSet_implemented_iff hfs button_mem_entries rfl]
  intro hall
  have hlisted : ofClickableButton.Implements button clickable :=
    ⟨⟨"Gtk", "Clickable", .interface⟩, List.mem_singleton.mpr rfl, rfl⟩
  have hdemands : ofClickableButton.Demands leavingOut clickable (click false).methodName :=
    ⟨clickable, .refl, rfl, List.mem_singleton.mpr rfl⟩
  obtain ⟨p, hp, _, hoffers⟩ := hall clickable _ hlisted hdemands
  -- The object has no parent, so it would have to get the method itself.
  rcases ReflTransGen.cases_head hp with rfl | ⟨q, hq, _⟩
  · rcases hoffers with hown | ⟨hname, _⟩
    · cases hown
    · exact hname (List.mem_singleton.mpr rfl)
  · cases hq

/-- An object has all these methods when it lists every interface behind those that it lists and
has no instance method of its own that is left out. -/
theorem methodSet_implemented_of_closed (h : ns.fragments options = .ok fs) {o : Object}
    (ho : o ∈ ns.objects.entries) (hkept : options.skips o.deprecated = false)
    (hclosed : ∀ i j, ns.Implements o i → ns.Requires i j → ns.Implements o j)
    (hown : ∀ f ∈ o.methods, f.isMethod = true → options.skips f.deprecated = false)
    {n : String} (hn : ns.MethodSetRequires fs o.name n) :
    EmitsMethod fs (ns.reference .object o.name) n := by
  -- Nothing stands behind the listed interfaces that is not listed itself.
  have hlisted : ∀ {i j}, ns.Implements o i → ReflTransGen (ns.Embeds options) i j →
      ns.Implements o j := by
    intro i j hi hij
    induction hij with
    | refl => exact hi
    | tail _ hembeds ih => exact hclosed _ _ ih hembeds.2
  refine (emitsMethod_object_iff h ho).mpr ⟨hkept, ?_⟩
  rcases (methodSetRequires_iff h ho hkept).mp hn with hn | ⟨i, hi, j, hij, _, hn⟩
  · exact Or.inl hn
  · by_cases hname : n ∈ methodNames o.methods
    · -- The object's own method of that name is not left out.
      obtain ⟨f, hf, rfl⟩ := List.mem_map.mp hname
      obtain ⟨hf, hmethod⟩ := List.mem_filter.mp hf
      exact Or.inl (mem_keptNames_iff.mpr ⟨f, hf, hmethod, hown f hf hmethod, rfl⟩)
    · exact Or.inr ⟨hname, j, hlisted hi hij, hn⟩

end Namespace

end Introspection
