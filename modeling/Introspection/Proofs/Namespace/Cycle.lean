import Introspection.Proofs.Namespace.Reference
import Mathlib.Logic.Relation

/-!
# `Introspection.Proofs.Namespace.Cycle`: chains of parents and circles of interfaces

Objects extend their parents and interfaces require their prerequisites; both relations stay
inside the namespace. `checkInheritance_eq_ok_iff` says that an object is accepted when its chain
of parents comes to an end (`Namespace.Rooted`), and `forall_checkAcyclic_eq_ok_iff` that all
interfaces are accepted when none requires itself through others.

Both searches carry the names that they may still meet. A search that meets no cycle never runs
out of them: whatever lies ahead is in the namespace, and is none of what was passed.
-/

set_option autoImplicit false

namespace Introspection

open Relation

/-- What can be followed only finitely often does not lead back to its start. -/
theorem not_transGen_of_acc {α : Type} {r : α → α → Prop} {a : α} (h : Acc (fun b a => r a b) a) :
    ¬TransGen r a a := by
  induction h with
  | intro a _ ih =>
    intro hcycle
    obtain ⟨b, hab, hba⟩ := TransGen.head'_iff.mp hcycle
    exact ih b hab (TransGen.tail' hba hab)

namespace Namespace

variable {ns : Namespace}

/-! ### Chains of parents -/

/-- The parent of the object is one of the objects of this namespace. -/
def Extends (ns : Namespace) (o p : Object) : Prop := o.parent.bind ns.object? = some p

/-- The parents of an object inside the namespace come to an end. -/
inductive Rooted (ns : Namespace) : Object → Prop
  | root {o : Object} : o.parent.bind ns.object? = none → ns.Rooted o
  | child {o p : Object} : ns.Extends o p → ns.Rooted p → ns.Rooted o

theorem Extends.mem {o p : Object} (h : ns.Extends o p) : p ∈ ns.objects.entries := by
  obtain ⟨r, _, hr⟩ := Option.bind_eq_some_iff.mp h
  exact (object?_eq_some_iff.mp hr).2.1

theorem mem_of_transGen_extends {o p : Object} (h : TransGen ns.Extends o p) :
    p ∈ ns.objects.entries := by
  cases h with
  | single h => exact h.mem
  | tail _ h => exact h.mem

/-- A chain that ends can be followed only finitely often. -/
theorem Rooted.acc {o : Object} (h : ns.Rooted o) : Acc (fun p o => ns.Extends o p) o := by
  induction h with
  | root hroot =>
    refine .intro _ fun p hp => ?_
    unfold Extends at hp
    rw [hroot] at hp
    cases hp
  | child hparent _ ih =>
    refine .intro _ fun q hq => ?_
    unfold Extends at hparent hq
    rw [hparent] at hq
    cases hq
    exact ih

/-- A chain that is followed to its end has one. -/
theorem rooted_of_chainEnds {fresh : List String} {o : Object}
    (h : ns.chainEnds fresh o = true) : ns.Rooted o := by
  induction fresh, o using chainEnds.induct ns with
  | case1 fresh o hroot => exact .root hroot
  | case2 fresh o p hparent hfresh ih =>
    unfold chainEnds at h
    simp only [hparent, hfresh, dif_pos] at h
    exact .child hparent (ih h)
  | case3 fresh o p hparent hfresh =>
    unfold chainEnds at h
    simp [hparent, hfresh] at h

/-- A chain that ends is followed to its end when the names of all ancestors are left. -/
theorem chainEnds_of_rooted {o : Object} (h : ns.Rooted o) :
    ∀ fresh : List String, (∀ p, TransGen ns.Extends o p → p.name ∈ fresh) →
      ns.chainEnds fresh o = true := by
  induction h with
  | root hroot =>
    intro fresh _
    unfold chainEnds
    simp only [hroot]
  | @child o p hparent hp ih =>
    intro fresh hfresh
    have hmem : p.name ∈ fresh := hfresh p (.single hparent)
    have hsome : o.parent.bind ns.object? = some p := hparent
    unfold chainEnds
    simp only [hsome, hmem, dif_pos]
    refine ih (fresh.erase p.name) fun q hq => ?_
    -- An ancestor with the name of `p` would be `p` itself, and `p` is none of its ancestors.
    have hne : q.name ≠ p.name := by
      intro hname
      have heq := ns.objects.eq_of_name_eq (mem_of_transGen_extends hq) hparent.mem hname
      rw [heq] at hq
      exact not_transGen_of_acc hp.acc hq
    exact (List.mem_erase_of_ne hne).mpr (hfresh q (.head hparent hq))

/-- An object of the namespace is accepted when its chain of parents ends. -/
theorem checkInheritance_eq_ok_iff {o : Object} (ho : o ∈ ns.objects.entries) :
    ns.checkInheritance o = .ok () ↔ ns.Rooted o := by
  have hends : ns.chainEnds (ns.objects.names.erase o.name) o = true ↔ ns.Rooted o := by
    constructor
    · exact rooted_of_chainEnds
    · intro h
      refine chainEnds_of_rooted h _ fun p hp => ?_
      have hmem := mem_of_transGen_extends hp
      have hne : p.name ≠ o.name := by
        intro hname
        rw [ns.objects.eq_of_name_eq hmem ho hname] at hp
        exact not_transGen_of_acc h.acc hp
      exact (List.mem_erase_of_ne hne).mpr (ns.objects.name_mem_names hmem)
  unfold checkInheritance
  rw [← hends]
  split
  · simp [*]
  · simp [*]

/-! ### Circles of interfaces -/

/-- The interface has the other one, of this namespace, among its prerequisites. -/
def Requires (ns : Namespace) (i j : Interface) : Prop :=
  ∃ r ∈ i.prerequisites, ns.interface? r = some j

theorem Requires.mem {i j : Interface} (h : ns.Requires i j) : j ∈ ns.interfaces.entries := by
  obtain ⟨r, _, hr⟩ := h
  exact (interface?_eq_some_iff.mp hr).2.1

theorem mem_of_transGen_requires {i j : Interface} (h : TransGen ns.Requires i j) :
    j ∈ ns.interfaces.entries := by
  cases h with
  | single h => exact h.mem
  | tail _ h => exact h.mem

/-- One step of the search: the interface is new, and all that it requires is accepted. -/
theorem checkAcyclic_eq_ok_iff {fresh : List String} {i : Interface} :
    ns.checkAcyclic fresh i = .ok () ↔ i.name ∈ fresh
      ∧ ∀ j, ns.Requires i j → ns.checkAcyclic (fresh.erase i.name) j = .ok () := by
  rw [checkAcyclic]
  by_cases hfresh : i.name ∈ fresh
  · rw [dif_pos hfresh, forM_eq_ok_iff]
    simp only [List.mem_filterMap, hfresh, true_and]
    rfl
  · rw [dif_neg hfresh]
    simp [hfresh]

/-- An accepted interface can be left for its prerequisites only finitely often. -/
theorem acc_of_checkAcyclic {fresh : List String} {i : Interface}
    (h : ns.checkAcyclic fresh i = .ok ()) : Acc (fun j i => ns.Requires i j) i := by
  induction fresh, i using checkAcyclic.induct with
  | case1 fresh i hfresh ih =>
    have hnext := (checkAcyclic_eq_ok_iff.mp h).2
    exact .intro i fun j hj => ih j (hnext j hj)
  | case2 fresh i hfresh => exact absurd (checkAcyclic_eq_ok_iff.mp h).1 hfresh

/-- Without circles an interface is accepted when its name, and the names of all that it
requires through others, are left. -/
theorem checkAcyclic_of_acyclic (hacyclic : ∀ i, ¬TransGen ns.Requires i i) {fresh : List String}
    {i : Interface} (hi : i ∈ ns.interfaces.entries) (hfresh : i.name ∈ fresh)
    (hahead : ∀ j, TransGen ns.Requires i j → j.name ∈ fresh) :
    ns.checkAcyclic fresh i = .ok () := by
  induction fresh, i using checkAcyclic.induct with
  | case1 fresh i _ ih =>
    -- What lies ahead of `i` is another interface, so that it has another name.
    have hleft : ∀ j, TransGen ns.Requires i j → j.name ∈ fresh.erase i.name := by
      intro j hj
      have hne : j.name ≠ i.name := by
        intro hname
        rw [ns.interfaces.eq_of_name_eq (mem_of_transGen_requires hj) hi hname] at hj
        exact hacyclic i hj
      exact (List.mem_erase_of_ne hne).mpr (hahead j hj)
    refine checkAcyclic_eq_ok_iff.mpr ⟨hfresh, fun j hj => ?_⟩
    exact ih j hj.mem (hleft j (.single hj)) fun k hk => hleft k (.head hj hk)
  | case2 fresh i hnot => exact absurd hfresh hnot

/-- All interfaces are accepted when none requires itself through others. -/
theorem forall_checkAcyclic_eq_ok_iff :
    (∀ i ∈ ns.interfaces.entries, ns.checkAcyclic ns.interfaces.names i = .ok ())
      ↔ ∀ i, ¬TransGen ns.Requires i i := by
  constructor
  · intro h i hcycle
    have haccepted := h i (mem_of_transGen_requires hcycle)
    exact not_transGen_of_acc (acc_of_checkAcyclic haccepted) hcycle
  · intro hacyclic i hi
    refine checkAcyclic_of_acyclic hacyclic hi (ns.interfaces.name_mem_names hi) fun j hj => ?_
    exact ns.interfaces.name_mem_names (mem_of_transGen_requires hj)

end Namespace

end Introspection
