import Introspection.Proofs.Descriptor.Shape
import Introspection.Proofs.Generation.Gap
import Introspection.Resolution.Shape
import Mathlib.Data.List.Basic

/-!
# `Introspection.Proofs.Resolution.Shape`: well-shaped descriptors have the parts asked for

What the code of a class of types asks a descriptor for is there when the descriptor is
well-shaped: the registered type of a named one, the facts and the element of an array, the
elements of lists and hash tables. `check` accepts the well-shaped descriptors and no others.
-/

set_option autoImplicit false

namespace Introspection.TypeDesc

variable {t : TypeDesc}

/-! ### Parts by class -/

/-- The class of a tag tells the tag, wherever parts are asked for. -/
theorem tag_of_view (t : TypeDesc) :
    (t.view = .named → t.tag = .interface) ∧ (t.view = .array → t.tag = .array)
      ∧ (∀ k, t.view = .list k → t.tag.arity = 1) ∧ (t.view = .hash → t.tag.arity = 2) := by
  unfold view
  cases t.tag <;> simp [Tag.view, Tag.arity]

/-- A named type names a registered one. -/
theorem Agrees.exists_entity (h : t.Agrees) (hview : t.view = .named) : ∃ r, t.entity = some r :=
  Option.isSome_iff_exists.mp (h.entity.mp (t.tag_of_view.1 hview))

/-- An array has facts and one type of elements. -/
theorem WellShaped.exists_array (h : t.WellShaped) (hview : t.view = .array) :
    ∃ info element, t.array = some info ∧ t.params = [element] ∧ element.WellShaped := by
  have htag := t.tag_of_view.2.1 hview
  obtain ⟨info, hinfo⟩ := Option.isSome_iff_exists.mp (h.agrees.array.mp htag)
  have hlength := h.agrees.params
  rw [htag] at hlength
  obtain ⟨element, hparams⟩ := List.length_eq_one_iff.mp hlength
  exact ⟨info, element, hinfo, hparams, h.of_mem_params (by rw [hparams]; exact List.mem_cons_self)⟩

/-- A list has one type of elements. -/
theorem WellShaped.exists_list (h : t.WellShaped) {k : ListKind} (hview : t.view = .list k) :
    ∃ element, t.params = [element] ∧ element.WellShaped := by
  have hlength := h.agrees.params.trans (t.tag_of_view.2.2.1 k hview)
  obtain ⟨element, hparams⟩ := List.length_eq_one_iff.mp hlength
  exact ⟨element, hparams, h.of_mem_params (by rw [hparams]; exact List.mem_cons_self)⟩

/-- A hash table has a type of keys and one of values. -/
theorem WellShaped.exists_hash (h : t.WellShaped) (hview : t.view = .hash) :
    ∃ key value, t.params = [key, value] ∧ key.WellShaped ∧ value.WellShaped := by
  have hlength := h.agrees.params.trans (t.tag_of_view.2.2.2 hview)
  obtain ⟨key, value, hparams⟩ := List.length_eq_two.mp hlength
  have hmem : ∀ u ∈ [key, value], u.WellShaped := fun u hu => h.of_mem_params (hparams ▸ hu)
  exact ⟨key, value, hparams, hmem key List.mem_cons_self,
    hmem value (List.mem_cons_of_mem _ List.mem_cons_self)⟩

theorem entityOf_eq_ok {r : EntityRef} (h : t.entity = some r) : t.entityOf = .ok r := by
  rw [entityOf, h]

theorem arrayInfoOf_eq_ok {info : ArrayInfo} (h : t.array = some info) :
    t.arrayInfoOf = .ok info := by
  rw [arrayInfoOf, h]

theorem elementOf_eq_ok {u : TypeDesc} {us : List TypeDesc} (h : t.params = u :: us) :
    t.elementOf = .ok u := by
  rw [elementOf, h]

theorem valueOf_eq_ok {u v : TypeDesc} {us : List TypeDesc} (h : t.params = u :: v :: us) :
    t.valueOf = .ok v := by
  rw [valueOf, h]

theorem entity_of_entityOf {r : EntityRef} (h : t.entityOf = .ok r) : t.entity = some r := by
  unfold entityOf at h
  split at h
  next r' hr =>
    cases h
    exact hr
  next => cases h

theorem mem_params_of_elementOf {e : TypeDesc} (h : t.elementOf = .ok e) : e ∈ t.params := by
  unfold elementOf elementMissing at h
  split at h
  next hparams =>
    cases h
    rw [hparams]
    exact List.mem_cons_self
  next => cases h

theorem mem_params_of_valueOf {e : TypeDesc} (h : t.valueOf = .ok e) : e ∈ t.params := by
  unfold valueOf elementMissing at h
  split at h
  next hparams =>
    cases h
    rw [hparams]
    simp
  next => cases h

/-- The indirection is no matter of shape. -/
theorem WellShaped.of_pointer {tag : Tag} {own pointer : Bool} {params : List TypeDesc}
    {entity : Option EntityRef} {array : Option ArrayInfo}
    (h : (mk tag own params entity array).WellShaped) :
    (mk tag pointer params entity array).WellShaped :=
  wellShaped_iff.mpr ⟨⟨h.agrees.params, h.agrees.entity, h.agrees.array⟩,
    fun _ hu => h.of_mem_params hu⟩

theorem WellShaped.byValue (h : t.WellShaped) : t.byValue.WellShaped := by
  cases t with
  | mk tag pointer params entity array => exact h.of_pointer

/-- A reference to a registered type is well-shaped. -/
theorem wellShaped_named (r : EntityRef) : (named r).WellShaped := by
  refine wellShaped_iff.mpr ⟨⟨rfl, ?_, ?_⟩, nofun⟩
  · simp [named, tag, entity]
  · simp [named, tag, array]

/-- The type of error records is well-shaped. -/
theorem wellShaped_error : error.WellShaped := by
  refine wellShaped_iff.mpr ⟨⟨rfl, ?_, ?_⟩, nofun⟩
  · simp [error, ofTag, toPointer, tag, entity]
  · simp [error, ofTag, toPointer, tag, array]

/-! ### What the check accepts -/

theorem checkAll_eq_ok {ts : List TypeDesc} (h : ∀ t ∈ ts, t.check = .ok ()) :
    checkAll ts = .ok () := by
  induction ts with
  | nil => rfl
  | cons t ts ih =>
    rw [List.forall_mem_cons] at h
    rw [checkAll, h.1, ok_bind]
    exact ih h.2

/-- A well-shaped descriptor is not refused. -/
theorem check_eq_ok : ∀ {t : TypeDesc}, t.WellShaped → t.check = .ok ()
  | mk tag pointer params entity array, h => by
    have ih : ∀ u ∈ params, u.check = .ok () := fun u hu => check_eq_ok (h.of_mem_params hu)
    rw [check, checkAll_eq_ok ih, ok_bind]
    simp only [shapeDefect_eq_none_iff.mpr h, pure_eq_ok]
termination_by t => sizeOf t

/-- A row of descriptors is accepted when each of them is. -/
theorem checkAll_eq_ok_iff {ts : List TypeDesc} :
    checkAll ts = .ok () ↔ ∀ t ∈ ts, t.check = .ok () := by
  constructor
  · intro h
    induction ts with
    | nil => exact nofun
    | cons t ts ih =>
      obtain ⟨_, hfirst, hrest⟩ := bind_eq_ok_iff.mp h
      exact List.forall_mem_cons.mpr ⟨hfirst, ih hrest⟩
  · exact checkAll_eq_ok

/-- The check accepts just the descriptors that are well-shaped at every depth. -/
theorem check_eq_ok_iff : t.check = .ok () ↔ t.WellShaped := by
  constructor
  · intro h
    obtain ⟨tag, pointer, params, entity, array⟩ := t
    rw [check] at h
    obtain ⟨_, _, hown⟩ := bind_eq_ok_iff.mp h
    refine shapeDefect_eq_none_iff.mp ?_
    dsimp only at hown
    split at hown
    · assumption
    · cases hown
  · exact check_eq_ok

end Introspection.TypeDesc
