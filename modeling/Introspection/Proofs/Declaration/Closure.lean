import Introspection.Declaration.Prerequisite
import Introspection.Proofs.Namespace.Cycle

/-!
# `Introspection.Proofs.Declaration.Closure`: what stands behind an interface

`Namespace.closure` works off a queue of references and meets each name once. What it meets are
known interfaces, and whatever one of them requires is met too, unless its name was not to be met
at all. So the closure of an interface has exactly those interfaces that prerequisites lead to
(`mem_closure_iff`), each once (`nodup_names_closure`). Circles of prerequisites are allowed: they
lead back to the interface itself, which is the one name that is not to be met.
-/

set_option autoImplicit false

namespace Introspection

open Relation

namespace Namespace

variable {ns : Namespace}

/-! ### References to interfaces -/

/-- An interface of the namespace has one reference. -/
theorem interface?_eq_some_iff_eq_reference {r : EntityRef} {i : Interface} :
    ns.interface? r = some i ↔ i ∈ ns.interfaces.entries ∧ r = ns.reference .interface i.name := by
  rw [interface?_eq_some_iff]
  constructor
  · rintro ⟨hhome, hi, hkind, hname⟩
    refine ⟨hi, ?_⟩
    obtain ⟨home, name, kind⟩ := r
    cases hhome
    cases hkind
    cases hname
    rfl
  · rintro ⟨hi, rfl⟩
    exact ⟨rfl, hi, rfl, rfl⟩

/-- The known interfaces among references are those that the references stand for. -/
theorem mem_knownInterfaces_iff {refs : List EntityRef} {r : EntityRef} :
    r ∈ ns.knownInterfaces refs ↔ r ∈ refs ∧ ∃ i, ns.interface? r = some i := by
  unfold knownInterfaces
  rw [List.mem_filter, Bool.and_eq_true, Option.isSome_iff_exists, beq_iff_eq]
  refine and_congr_right fun _ => and_iff_right_of_imp ?_
  rintro ⟨i, hi⟩
  exact (interface?_eq_some_iff.mp hi).2.2.1

/-- What the prerequisites of an interface refer to is what it requires. -/
theorem mem_knownInterfaces_prerequisites_iff {i : Interface} {r : EntityRef} :
    r ∈ ns.knownInterfaces i.prerequisites
      ↔ ∃ j, ns.Requires i j ∧ r = ns.reference .interface j.name := by
  rw [mem_knownInterfaces_iff]
  constructor
  · rintro ⟨hr, j, hj⟩
    exact ⟨j, ⟨r, hr, hj⟩, (interface?_eq_some_iff_eq_reference.mp hj).2⟩
  · rintro ⟨j, ⟨r', hr', hj⟩, rfl⟩
    obtain ⟨_, rfl⟩ := interface?_eq_some_iff_eq_reference.mp hj
    exact ⟨hr', j, hj⟩

theorem mem_required_reference_iff {i : Interface} (hi : i ∈ ns.interfaces.entries)
    {r : EntityRef} :
    r ∈ ns.required (ns.reference .interface i.name)
      ↔ ∃ j, ns.Requires i j ∧ r = ns.reference .interface j.name := by
  have hself : ns.interface? (ns.reference .interface i.name) = some i :=
    interface?_eq_some_iff_eq_reference.mpr ⟨hi, rfl⟩
  unfold required
  rw [hself]
  exact mem_knownInterfaces_prerequisites_iff

/-! ### Working off a queue -/

/-- A property of the queue that passes on to what is required holds of all that is met. -/
theorem forall_mem_spread {P : EntityRef → Prop}
    (hstep : ∀ r, P r → ∀ s ∈ ns.required r, P s) {fresh : List String} {queue : List EntityRef}
    (hqueue : ∀ r ∈ queue, P r) : ∀ r ∈ ns.spread fresh queue, P r := by
  induction fresh, queue using spread.induct ns with
  | case1 fresh =>
    rw [spread]
    nofun
  | case2 fresh r queue hfresh ih =>
    obtain ⟨hr, hqueue⟩ := List.forall_mem_cons.mp hqueue
    rw [spread, dif_pos hfresh]
    exact List.forall_mem_cons.mpr ⟨hr, ih (List.forall_mem_append.mpr ⟨hqueue, hstep r hr⟩)⟩
  | case3 fresh r queue hfresh ih =>
    rw [spread, dif_neg hfresh]
    exact ih (List.forall_mem_cons.mp hqueue).2

/-- The names that are met were to be met. -/
theorem name_mem_of_mem_spread {fresh : List String} {queue : List EntityRef} :
    ∀ r ∈ ns.spread fresh queue, r.name ∈ fresh := by
  induction fresh, queue using spread.induct ns with
  | case1 fresh =>
    rw [spread]
    nofun
  | case2 fresh r queue hfresh ih =>
    rw [spread, dif_pos hfresh]
    exact List.forall_mem_cons.mpr ⟨hfresh, fun s hs => List.mem_of_mem_erase (ih s hs)⟩
  | case3 fresh r queue hfresh ih =>
    rw [spread, dif_neg hfresh]
    exact ih

/-- No name is met twice: when it is met it stops being one to meet. -/
theorem nodup_names_spread {fresh : List String} {queue : List EntityRef} (hnodup : fresh.Nodup) :
    ((ns.spread fresh queue).map (·.name)).Nodup := by
  induction fresh, queue using spread.induct ns with
  | case1 fresh =>
    rw [spread]
    exact List.nodup_nil
  | case2 fresh r queue hfresh ih =>
    rw [spread, dif_pos hfresh, List.map_cons, List.nodup_cons]
    refine ⟨?_, ih (hnodup.erase r.name)⟩
    intro hagain
    obtain ⟨s, hs, hname⟩ := List.mem_map.mp hagain
    have hleft := name_mem_of_mem_spread s hs
    rw [hname] at hleft
    exact hnodup.not_mem_erase hleft
  | case3 fresh r queue hfresh ih =>
    rw [spread, dif_neg hfresh]
    exact ih hnodup

/-- The queue is worked off, and what is met is searched in turn: a name that was to be met is met
if it stands in the queue, or is required by something that is met. -/
theorem name_mem_names_spread {fresh : List String} {queue : List EntityRef} {r : EntityRef}
    (hfresh : r.name ∈ fresh)
    (hr : r ∈ queue ∨ ∃ s ∈ ns.spread fresh queue, r ∈ ns.required s) :
    r.name ∈ (ns.spread fresh queue).map (·.name) := by
  induction fresh, queue using spread.induct ns with
  | case1 fresh =>
    rw [spread] at hr
    rcases hr with hr | ⟨s, hs, _⟩
    · cases hr
    · cases hs
  | case2 fresh s queue hs ih =>
    rw [spread, dif_pos hs] at hr ⊢
    rw [List.map_cons, List.mem_cons]
    by_cases hname : r.name = s.name
    · exact Or.inl hname
    · -- Another name than that of the head is still to be met.
      refine Or.inr (ih ((List.mem_erase_of_ne hname).mpr hfresh) ?_)
      rcases hr with hr | ⟨t, ht, hrequired⟩
      · rcases List.mem_cons.mp hr with rfl | hr
        · exact absurd rfl hname
        · exact Or.inl (List.mem_append_left _ hr)
      · rcases List.mem_cons.mp ht with rfl | ht
        · exact Or.inl (List.mem_append_right _ hrequired)
        · exact Or.inr ⟨t, ht, hrequired⟩
  | case3 fresh s queue hs ih =>
    rw [spread, dif_neg hs] at hr ⊢
    refine ih hfresh ?_
    rcases hr with hr | hr
    · rcases List.mem_cons.mp hr with rfl | hr
      · exact absurd hfresh hs
      · exact Or.inl hr
    · exact Or.inr hr

/-! ### The closure of an interface -/

/-- The closure has each name once. -/
theorem nodup_names_closure {i : Interface} : ((ns.closure i).map (·.name)).Nodup :=
  nodup_names_spread (ns.interfaces.nodup.erase i.name)

/-- The closure refers to interfaces that prerequisites lead to. -/
theorem exists_of_mem_closure {i : Interface} {r : EntityRef} (hr : r ∈ ns.closure i) :
    ∃ j, TransGen ns.Requires i j ∧ r = ns.reference .interface j.name := by
  refine forall_mem_spread
    (P := fun r => ∃ j, TransGen ns.Requires i j ∧ r = ns.reference .interface j.name) ?_ ?_ r hr
  · rintro _ ⟨j, hij, rfl⟩ s hs
    obtain ⟨k, hjk, rfl⟩ := (mem_required_reference_iff (mem_of_transGen_requires hij)).mp hs
    exact ⟨k, hij.tail hjk, rfl⟩
  · intro s hs
    obtain ⟨j, hij, rfl⟩ := mem_knownInterfaces_prerequisites_iff.mp hs
    exact ⟨j, .single hij, rfl⟩

/-- An interface is in the closure once its name is. -/
theorem reference_mem_closure_of_name {i j : Interface}
    (h : j.name ∈ (ns.closure i).map (·.name)) : ns.reference .interface j.name ∈ ns.closure i := by
  obtain ⟨r, hr, hname⟩ := List.mem_map.mp h
  obtain ⟨k, _, rfl⟩ := exists_of_mem_closure hr
  have hname : k.name = j.name := hname
  exact hname ▸ hr

/-- What prerequisites lead to is in the closure, but for the interface itself. -/
theorem reference_mem_closure {i j : Interface} (hi : i ∈ ns.interfaces.entries)
    (hij : TransGen ns.Requires i j) (hne : j ≠ i) :
    ns.reference .interface j.name ∈ ns.closure i := by
  -- Another interface has another name, and its name is to be met.
  have hfresh : ∀ k ∈ ns.interfaces.entries, k ≠ i → k.name ∈ ns.interfaces.names.erase i.name := by
    intro k hk hki
    have hname : k.name ≠ i.name := fun h => hki (ns.interfaces.eq_of_name_eq hk hi h)
    exact (List.mem_erase_of_ne hname).mpr (ns.interfaces.name_mem_names hk)
  -- What the interface requires itself stands in the queue from the start.
  have hfirst : ∀ k, ns.Requires i k → k ≠ i → ns.reference .interface k.name ∈ ns.closure i := by
    intro k hik hki
    refine reference_mem_closure_of_name ?_
    refine name_mem_names_spread (r := ns.reference .interface k.name) (hfresh k hik.mem hki) ?_
    exact Or.inl (mem_knownInterfaces_prerequisites_iff.mpr ⟨k, hik, rfl⟩)
  induction hij with
  | single hij => exact hfirst _ hij hne
  | @tail j k hij hjk ih =>
    by_cases hji : j = i
    · exact hfirst k (hji ▸ hjk) hne
    · refine reference_mem_closure_of_name ?_
      refine name_mem_names_spread (r := ns.reference .interface k.name) (hfresh k hjk.mem hne) ?_
      have hrequired := (mem_required_reference_iff (mem_of_transGen_requires hij)).mpr
        ⟨k, hjk, rfl⟩
      exact Or.inr ⟨_, ih hji, hrequired⟩

/-- The closure of an interface has exactly the others that prerequisites lead to. -/
theorem mem_closure_iff {i : Interface} (hi : i ∈ ns.interfaces.entries) {r : EntityRef} :
    r ∈ ns.closure i
      ↔ ∃ j, TransGen ns.Requires i j ∧ j ≠ i ∧ r = ns.reference .interface j.name := by
  constructor
  · intro hr
    obtain ⟨j, hij, rfl⟩ := exists_of_mem_closure hr
    refine ⟨j, hij, ?_, rfl⟩
    rintro rfl
    exact ns.interfaces.nodup.not_mem_erase (name_mem_of_mem_spread _ hr)
  · rintro ⟨j, hij, hne, rfl⟩
    exact reference_mem_closure hi hij hne

end Namespace

end Introspection
