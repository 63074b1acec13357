import Introspection.Proofs.Conversion.Storage
import Introspection.Proofs.Resolution.Outcome

/-!
# `Introspection.Proofs.Conversion.Complete`: host types that are complete

A value that does not exist has no host type, and a registered type without a name has none that can
be written down. `complete_iff` says which names the host type of a descriptor leaves out
(`TypeDesc.LeavesOut`) when the elements of a container are elements that there are
(`TypeDesc.IsElement`): those of registered types without a name, and what the untyped pointers of a
pointer array point to. A slot is a pointer to the element by value, and an untyped pointer by value
is nothing.
-/

set_option autoImplicit false

namespace Introspection

open Introspection.Code
open Introspection.Code.Stmt

namespace TypeDesc

variable {scope : Scope} {t e : TypeDesc}

/-! ### Host types that are complete -/

/-- The registered type has no name to be written down. -/
def Nameless (scope : Scope) (isArg : Bool) (t : TypeDesc) : Prop :=
  ∃ r, t.entity = some r ∧ ¬(namedHost scope r false isArg).Complete

/-- The type is kept in the slots of pointer arrays. -/
def IsPtrArray (t : TypeDesc) : Prop := ∃ info, t.array = some info ∧ info.storage = .ptrArray

/-- The elements that the host type of a container names; bytes are the same for every array. -/
def hostElements (t : TypeDesc) : List TypeDesc :=
  if t.array.any (·.storage == .byteArray) then [] else t.params

/-- A value that can be the element of a container: there is a value, and it has no elements of its
own. -/
structure IsElement (e : TypeDesc) : Prop where
  isVoid : e.isVoid = false
  leaf : ¬e.IsContainer

/-- The host type is written down without a name that belongs into it: that of a registered type
which has none, or that of what the untyped pointers of a pointer array point to. -/
def LeavesOut (scope : Scope) (isArg : Bool) (t : TypeDesc) : Prop :=
  t.Nameless scope isArg
    ∨ ∃ e ∈ t.hostElements, e.Nameless scope false ∨ t.IsPtrArray ∧ e.view = .void

/-- There is a value, and its host type has every name that belongs into it. -/
def Spelled (scope : Scope) (isArg : Bool) (t : TypeDesc) : Prop :=
  t.isVoid = false ∧ ¬t.LeavesOut scope isArg

/-- The classes of containers are told by the class alone. -/
theorem not_isContainer_of_view {c : TagClass} (hview : t.view = c)
    (hc : c ≠ .array ∧ c ≠ .hash ∧ ∀ k, c ≠ .list k) : ¬t.IsContainer := by
  unfold IsContainer
  rw [hview]
  simp [hc]

theorem isContainer_byValue_iff : t.byValue.IsContainer ↔ t.IsContainer := by
  unfold IsContainer
  rw [view_byValue]

theorem nameless_byValue_iff {isArg : Bool} :
    t.byValue.Nameless scope isArg ↔ t.Nameless scope isArg := by
  unfold Nameless
  rw [entity_byValue]

/-- Only registered types lack a name. -/
theorem not_nameless (ht : t.Agrees) (hview : t.view ≠ .named) {isArg : Bool} :
    ¬t.Nameless scope isArg := by
  rintro ⟨r, hr, _⟩
  rw [ht.entity_eq_none hview] at hr
  cases hr

theorem nameless_iff {r : EntityRef} (hr : t.entity = some r) {isArg : Bool} :
    t.Nameless scope isArg ↔ ¬(namedHost scope r false isArg).Complete := by
  unfold Nameless
  simp only [hr, Option.some.injEq, exists_eq_left']

/-- An indirection adds no name. -/
theorem complete_namedHost_iff {r : EntityRef} {pointer isArg : Bool} :
    (namedHost scope r pointer isArg).Complete ↔ (namedHost scope r false isArg).Complete := by
  unfold namedHost
  cases r.kind <;> cases isArg <;> simp

/-- The types of numbers, truth values and type handles have names. -/
theorem complete_of_plainHost {c : TagClass} {g : GoType} (hg : plainHost scope c = some g) :
    g.Complete := by
  cases c with
  | basic n =>
    cases hg
    cases n <;> exact nofun
  | boolean =>
    cases hg
    exact nofun
  | typeHandle =>
    cases hg
    unfold Scope.typeName
    split
    · exact nofun
    · exact ⟨by decide, nofun⟩
  | _ => cases hg

theorem resolveHost_of_error (ht : t.WellShaped) (hview : t.view = .error) (isArg : Bool) :
    resolveHost scope t isArg = .ok (.plain "error") := by
  rw [resolveHost_eq ht]
  obtain ⟨tag, own, params, entity, array⟩ := t
  change tag.view = .error at hview
  unfold hostType
  rw [hview]

/-- The host type of a value without elements is complete when there is a value and its type has a
name. -/
theorem complete_iff_of_leaf (ht : t.WellShaped) (hleaf : ¬t.IsContainer) {isArg : Bool}
    {g : GoType} (hg : resolveHost scope t isArg = .ok g) :
    g.Complete ↔ t.isVoid = false ∧ ¬t.Nameless scope isArg := by
  -- Types of other classes than the named ones have fixed names.
  have hother : ∀ {c : TagClass}, t.view = c → c ≠ .void → c ≠ .named → g.Complete →
      (g.Complete ↔ t.isVoid = false ∧ ¬t.Nameless scope isArg) := by
    intro c hview hvoid hnamed hcomplete
    have hnameless : ¬t.Nameless scope isArg := not_nameless ht.agrees (by rwa [hview])
    simp [hcomplete, hnameless, isVoid_eq_false_of_view hview hvoid]
  cases hview : t.view with
  | void =>
    have hnameless : ¬t.Nameless scope isArg := not_nameless ht.agrees (by rw [hview]; exact nofun)
    rw [resolveHost_of_void ht hview] at hg
    cases hg
    have hvoid := t.isVoid_eq_true_iff
    cases hpointer : t.pointer <;> simp_all
  | basic | boolean | typeHandle =>
    have hplain : ∃ h, plainHost scope t.view = some h := by
      rw [hview]
      exact ⟨_, rfl⟩
    obtain ⟨h, hh⟩ := hplain
    rw [resolveHost_eq ht, hostType_of_plainHost hh] at hg
    cases hg
    exact hother hview nofun nofun ((GoType.complete_pointerIf h _).mpr (complete_of_plainHost hh))
  | string =>
    rw [resolveHost_of_string ht hview] at hg
    cases hg
    exact hother hview nofun nofun nofun
  | named =>
    obtain ⟨r, hr⟩ := ht.agrees.exists_entity hview
    rw [resolveHost_of_named ht hview hr] at hg
    cases hg
    rw [complete_namedHost_iff, nameless_iff hr, not_not]
    simp [isVoid_eq_false_of_view hview]
  | array => exact absurd (Or.inr (Or.inr hview)) hleaf
  | list k => exact absurd (Or.inl ⟨k, hview⟩) hleaf
  | hash => exact absurd (Or.inr (Or.inl hview)) hleaf
  | error =>
    rw [resolveHost_of_error ht hview] at hg
    cases hg
    exact hother hview nofun nofun nofun

/-- The host type of an element of a list or a hash table is complete when its type has a name. -/
theorem complete_elementHost_iff (he : e.WellShaped) (helement : e.IsElement) {g : GoType}
    (hg : elementHost scope e = .ok g) : g.Complete ↔ ¬e.Nameless scope false := by
  by_cases hview : e.view = .named
  · obtain ⟨r, hr⟩ := he.agrees.exists_entity hview
    rw [elementHost_of_named hview hr] at hg
    cases hg
    rw [GoType.complete_pointerIf, nameless_iff hr, not_not]
  · rw [elementHost_of_ne_named hview] at hg
    rw [complete_iff_of_leaf he helement.leaf hg]
    exact and_iff_right helement.isVoid

/-- The host type of a slot is complete when there is a value behind the pointer and its type has a
name. -/
theorem complete_pointerSlotHost_iff (he : e.WellShaped) (helement : e.IsElement) {g : GoType}
    (hg : pointerSlotHost scope e = .ok g) :
    g.Complete ↔ ¬(e.Nameless scope false ∨ e.view = .void) := by
  obtain ⟨h, hh, hg⟩ := bind_eq_ok_iff.mp hg
  cases hg
  have hleaf : ¬e.byValue.IsContainer := by
    rw [isContainer_byValue_iff]
    exact helement.leaf
  have hvoid : e.byValue.isVoid = false ↔ e.view ≠ .void := by
    rw [← Bool.not_eq_true, isVoid_eq_true_iff, view_byValue, pointer_byValue]
    simp
  rw [GoType.complete_pointer, complete_iff_of_leaf he.byValue hleaf hh, hvoid,
    nameless_byValue_iff, not_or, and_comm]

/-! ### The parts of containers -/

theorem array_eq_none (ht : t.Agrees) (hview : t.view ≠ .array) : t.array = none := by
  have htag : t.tag ≠ .array := by
    intro htag
    rw [view, htag] at hview
    exact hview rfl
  cases harray : t.array with
  | none => rfl
  | some info => exact absurd (ht.array.mpr (by rw [harray]; rfl)) htag

theorem params_eq_nil (ht : t.Agrees) (hleaf : ¬t.IsContainer) : t.params = [] := by
  have harity : t.tag.arity = 0 := by
    unfold IsContainer view at hleaf
    cases htag : t.tag <;> rw [htag] at hleaf <;> simp_all [Tag.view, Tag.arity]
  exact List.eq_nil_of_length_eq_zero (ht.params.trans harity)

/-- The elements that are named are elements. -/
theorem forall_mem_hostElements {p : TypeDesc → Prop} (h : ∀ e ∈ t.params, p e) :
    ∀ e ∈ t.hostElements, p e := by
  unfold hostElements
  split
  · exact fun _ => nofun
  · exact h

theorem hostElements_eq_nil {info : ArrayInfo} (hinfo : t.array = some info)
    (hstorage : info.storage = .byteArray) : t.hostElements = [] := by
  simp [hostElements, hinfo, hstorage]

theorem hostElements_of_ne_array (ht : t.Agrees) (hview : t.view ≠ .array) :
    t.hostElements = t.params := by
  rw [hostElements, array_eq_none ht hview]
  rfl

/-- A value without elements leaves out its own name or none. -/
theorem leavesOut_iff_of_leaf (ht : t.Agrees) (hleaf : ¬t.IsContainer) {isArg : Bool} :
    t.LeavesOut scope isArg ↔ t.Nameless scope isArg := by
  have hview : t.view ≠ .array := fun h => hleaf (Or.inr (Or.inr h))
  rw [LeavesOut, hostElements_of_ne_array ht hview, params_eq_nil ht hleaf]
  simp

/-- A list or a hash table leaves out the names of its elements or none. -/
theorem leavesOut_iff_of_ne_array (ht : t.Agrees) (hview : t.view ≠ .array)
    (hnamed : t.view ≠ .named) {isArg : Bool} :
    t.LeavesOut scope isArg ↔ ∃ e ∈ t.params, e.Nameless scope false := by
  have hslots : ¬t.IsPtrArray := by
    rintro ⟨info, hinfo, _⟩
    rw [array_eq_none ht hview] at hinfo
    cases hinfo
  rw [LeavesOut, hostElements_of_ne_array ht hview]
  simp only [not_nameless ht hnamed, hslots, false_and, or_false, false_or]

/-- An array leaves out a name of its elements or none. -/
theorem leavesOut_iff_of_array (ht : t.Agrees) (hview : t.view = .array) {info : ArrayInfo}
    (hinfo : t.array = some info) (he : t.params = [e]) {isArg : Bool} :
    t.LeavesOut scope isArg ↔ info.storage ≠ .byteArray
      ∧ (e.Nameless scope false ∨ info.storage = .ptrArray ∧ e.view = .void) := by
  have hnamed : ¬t.Nameless scope isArg := not_nameless ht (by rw [hview]; exact nofun)
  simp only [LeavesOut, hnamed, hostElements, IsPtrArray, hinfo, he, Option.any_some, beq_iff_eq,
    Option.some.injEq, exists_eq_left', false_or]
  by_cases hbytes : info.storage = .byteArray <;> simp [hbytes]

/-- Where no element is a container or nothing, a host type is complete when there is a value and
no name is left out. -/
theorem complete_iff (ht : t.WellShaped) (helements : ∀ e ∈ t.hostElements, e.IsElement)
    {isArg : Bool} {g : GoType} (hg : resolveHost scope t isArg = .ok g) :
    g.Complete ↔ t.Spelled scope isArg := by
  unfold Spelled
  by_cases hleaf : ¬t.IsContainer
  · rw [complete_iff_of_leaf ht hleaf hg, leavesOut_iff_of_leaf ht.agrees hleaf]
  rcases not_not.mp hleaf with ⟨k, hview⟩ | hview | hview
  · obtain ⟨e, he, hes⟩ := ht.exists_list hview
    have hne := hostElements_of_ne_array ht.agrees (by rw [hview]; exact nofun)
    rw [hne, he, List.forall_mem_singleton] at helements
    obtain ⟨h, hh⟩ := exists_elementHost scope hes
    rw [resolveHost_list ht hview he hh] at hg
    cases hg
    rw [GoType.complete_slice, complete_elementHost_iff hes helements hh,
      leavesOut_iff_of_ne_array ht.agrees (by rw [hview]; exact nofun) (by rw [hview]; exact nofun)]
    simp [he, isVoid_eq_false_of_view hview]
  · obtain ⟨k, v, hkv, hks, hvs⟩ := ht.exists_hash hview
    have hne := hostElements_of_ne_array ht.agrees (by rw [hview]; exact nofun)
    rw [hne, hkv, List.forall_mem_cons, List.forall_mem_singleton] at helements
    obtain ⟨h, hh⟩ := exists_elementHost scope hks
    obtain ⟨h', hh'⟩ := exists_elementHost scope hvs
    rw [resolveHost_hash ht hview hkv hh hh'] at hg
    cases hg
    rw [GoType.complete_map, complete_elementHost_iff hks helements.1 hh,
      complete_elementHost_iff hvs helements.2 hh',
      leavesOut_iff_of_ne_array ht.agrees (by rw [hview]; exact nofun) (by rw [hview]; exact nofun)]
    simp [hkv, isVoid_eq_false_of_view hview]
  · obtain ⟨info, e, hinfo, he, hes⟩ := ht.exists_array hview
    have hvoid : t.isVoid = false := isVoid_eq_false_of_view hview nofun
    simp only [hostElements, hinfo, he, Option.any_some] at helements
    rw [leavesOut_iff_of_array ht.agrees hview hinfo he, and_iff_right hvoid]
    -- Elements of arrays that are no slots have the type that they have elsewhere.
    have hplain : (info.storage = .c ∨ info.storage = .array) → e.IsElement →
        (g.Complete ↔ ¬e.Nameless scope false) := by
      intro hstorage helement
      obtain ⟨h, hh⟩ := exists_resolveHost scope hes false
      rw [resolveHost_array ht hview hinfo hstorage he hh] at hg
      cases hg
      rw [GoType.complete_slice, complete_iff_of_leaf hes helement.leaf hh]
      exact and_iff_right helement.isVoid
    cases hstorage : info.storage with
    | c =>
      rw [hstorage] at helements
      simpa using hplain (Or.inl hstorage) (helements e List.mem_cons_self)
    | array =>
      rw [hstorage] at helements
      simpa using hplain (Or.inr hstorage) (helements e List.mem_cons_self)
    | ptrArray =>
      rw [hstorage] at helements
      obtain ⟨h, hh⟩ := exists_resolveHost scope hes.byValue false
      have hslot : pointerSlotHost scope e = .ok (.pointer h) := by
        rw [pointerSlotHost, hh]
        rfl
      rw [resolveHost_ptrArray ht hview hinfo hstorage he hslot] at hg
      cases hg
      rw [GoType.complete_slice,
        complete_pointerSlotHost_iff hes (helements e List.mem_cons_self) hslot]
      simp
    | byteArray =>
      rw [resolveHost_byteArray ht hview hinfo hstorage he] at hg
      cases hg
      simp

end TypeDesc

end Introspection
