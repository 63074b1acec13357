import Introspection.Proofs.Descriptor.Shape
import Introspection.Proofs.Namespace.Cycle
import Introspection.Proofs.Namespace.Occurrence

/-!
# `Introspection.Proofs.Namespace.Validation`: what an accepted namespace satisfies

`Namespace.Valid` collects what is asked of a namespace, rule by rule and without an order.
`validate_eq_ok_iff_valid` says that the search for a fault comes back empty for just the
namespaces that satisfy all rules: no check hides what another one would find, and none finds
fault where there is none.
-/

set_option autoImplicit false

namespace Introspection

open Relation

namespace Namespace

variable {ns : Namespace}

/-- The rules for a namespace without faults. -/
structure Valid (ns : Namespace) : Prop where
  /-- Types do not contradict themselves, at any depth. -/
  wellShaped : ∀ t, ns.Declares t → t.WellShaped
  typeResolves : ∀ t, ns.Declares t → ∀ s : TypeDesc, s.Inside t →
    ∀ r, s.entity = some r → ns.Resolves r
  parentResolves : ∀ o ∈ ns.objects.entries, ∀ r, o.parent = some r → ns.Resolves r
  interfaceResolves : ∀ o ∈ ns.objects.entries, ∀ r ∈ o.interfaces, ns.Resolves r
  prerequisiteResolves : ∀ i ∈ ns.interfaces.entries, ∀ r ∈ i.prerequisites, ns.Resolves r
  parentKind : ∀ o ∈ ns.objects.entries, ∀ r, o.parent = some r → r.kind = .object
  interfaceKind : ∀ o ∈ ns.objects.entries, ∀ r ∈ o.interfaces, r.kind = .interface
  prerequisiteKind : ∀ i ∈ ns.interfaces.entries, ∀ r ∈ i.prerequisites,
    r.kind = .interface ∨ r.kind = .object
  /-- The chain of parents of every object comes to an end. -/
  rooted : ∀ o ∈ ns.objects.entries, ns.Rooted o
  /-- No interface requires itself through others. -/
  acyclic : ∀ i, ¬TransGen ns.Requires i i

/-- A type is accepted when it is well-shaped and what it names resolves. -/
theorem checkOccurrence_eq_ok_iff {o : Occurrence} :
    ns.checkOccurrence o = .ok () ↔ o.type.WellShaped
      ∧ ∀ s : TypeDesc, s.Inside o.type → ∀ r, s.entity = some r → ns.Resolves r := by
  unfold checkOccurrence
  rw [← TypeDesc.shapeDefect_eq_none_iff]
  cases hshape : o.type.shapeDefect with
  | some defect => simp
  | none =>
    simp only [forM_eq_ok_iff, checkKnown_eq_ok_iff, List.mem_filterMap, TypeDesc.mem_nodes_iff,
      true_and]
    constructor
    · intro h s hs r hr
      exact h r ⟨s, hs, hr⟩
    · rintro h r ⟨s, hs, hr⟩
      exact h s hs r hr

/-- An object is accepted when its parent is an object, its interfaces are interfaces, all of
them resolve, and its chain of parents ends. -/
theorem checkObject_eq_ok_iff {o : Object} (ho : o ∈ ns.objects.entries) :
    ns.checkObject o = .ok ()
      ↔ (∀ r, o.parent = some r → r.kind = .object ∧ ns.Resolves r)
        ∧ (∀ r ∈ o.interfaces, r.kind = .interface ∧ ns.Resolves r) ∧ ns.Rooted o := by
  have hparent : ∀ owner, o.parent.forM (ns.checkKind owner .object) = .ok ()
      ↔ ∀ r, o.parent = some r → r.kind = .object ∧ ns.Resolves r := by
    intro owner
    cases o.parent with
    | none => simp [Option.forM]
    | some r => simp [Option.forM, checkKind_eq_ok_iff]
  unfold checkObject
  rw [bind_eq_ok_iff, ← checkInheritance_eq_ok_iff ho]
  constructor
  · rintro ⟨⟨⟩, hp, h⟩
    obtain ⟨⟨⟩, hi, hchain⟩ := bind_eq_ok_iff.mp h
    refine ⟨(hparent _).mp hp, fun r hr => ?_, hchain⟩
    exact checkKind_eq_ok_iff.mp (forM_eq_ok_iff.mp hi r hr)
  · rintro ⟨hp, hi, hchain⟩
    refine ⟨(), (hparent _).mpr hp, bind_eq_ok_iff.mpr ⟨(), forM_eq_ok_iff.mpr ?_, hchain⟩⟩
    intro r hr
    exact checkKind_eq_ok_iff.mpr (hi r hr)

/-- An interface is accepted when its prerequisites are interfaces or objects that resolve, and
none of them leads back to an interface on the way. -/
theorem checkInterface_eq_ok_iff {i : Interface} :
    ns.checkInterface i = .ok ()
      ↔ (∀ r ∈ i.prerequisites, (r.kind = .interface ∨ r.kind = .object) ∧ ns.Resolves r)
        ∧ ns.checkAcyclic ns.interfaces.names i = .ok () := by
  unfold checkInterface
  rw [bind_eq_ok_iff]
  constructor
  · rintro ⟨⟨⟩, hp, hcycle⟩
    refine ⟨fun r hr => ?_, hcycle⟩
    exact checkPrerequisite_eq_ok_iff.mp (forM_eq_ok_iff.mp hp r hr)
  · rintro ⟨hp, hcycle⟩
    refine ⟨(), forM_eq_ok_iff.mpr fun r hr => ?_, hcycle⟩
    exact checkPrerequisite_eq_ok_iff.mpr (hp r hr)

/-- The search for a fault succeeds when each of its three parts does. -/
theorem validate_eq_ok_iff :
    ns.validate = .ok () ↔ (∀ o ∈ ns.occurrences, ns.checkOccurrence o = .ok ())
      ∧ (∀ o ∈ ns.objects.entries, ns.checkObject o = .ok ())
      ∧ ∀ i ∈ ns.interfaces.entries, ns.checkInterface i = .ok () := by
  unfold validate
  rw [bind_eq_ok_iff, ← forM_eq_ok_iff, ← forM_eq_ok_iff, ← forM_eq_ok_iff]
  constructor
  · rintro ⟨⟨⟩, htypes, h⟩
    obtain ⟨⟨⟩, hobjects, hinterfaces⟩ := bind_eq_ok_iff.mp h
    exact ⟨htypes, hobjects, hinterfaces⟩
  · rintro ⟨htypes, hobjects, hinterfaces⟩
    exact ⟨(), htypes, bind_eq_ok_iff.mpr ⟨(), hobjects, hinterfaces⟩⟩

/-- The occurrences are accepted when the types that the namespace names obey the rules. -/
theorem forall_checkOccurrence_eq_ok_iff :
    (∀ o ∈ ns.occurrences, ns.checkOccurrence o = .ok ())
      ↔ ∀ t, ns.Declares t → t.WellShaped
        ∧ ∀ s : TypeDesc, s.Inside t → ∀ r, s.entity = some r → ns.Resolves r := by
  constructor
  · intro h t ht
    obtain ⟨o, ho, rfl⟩ := declares_iff_exists_occurrence.mp ht
    exact checkOccurrence_eq_ok_iff.mp (h o ho)
  · intro h o ho
    have ht := declares_iff_exists_occurrence.mpr ⟨o, ho, rfl⟩
    exact checkOccurrence_eq_ok_iff.mpr (h o.type ht)

/-- A namespace is accepted if and only if it satisfies all rules. -/
theorem validate_eq_ok_iff_valid (ns : Namespace) : ns.validate = .ok () ↔ ns.Valid := by
  rw [validate_eq_ok_iff, forall_checkOccurrence_eq_ok_iff]
  constructor
  · rintro ⟨htypes, hobjects, hinterfaces⟩
    have hobject := fun o ho => (checkObject_eq_ok_iff ho).mp (hobjects o ho)
    have hinterface := fun i hi => checkInterface_eq_ok_iff.mp (hinterfaces i hi)
    exact
      { wellShaped := fun t ht => (htypes t ht).1
        typeResolves := fun t ht => (htypes t ht).2
        parentResolves := fun o ho r hr => ((hobject o ho).1 r hr).2
        interfaceResolves := fun o ho r hr => ((hobject o ho).2.1 r hr).2
        prerequisiteResolves := fun i hi r hr => ((hinterface i hi).1 r hr).2
        parentKind := fun o ho r hr => ((hobject o ho).1 r hr).1
        interfaceKind := fun o ho r hr => ((hobject o ho).2.1 r hr).1
        prerequisiteKind := fun i hi r hr => ((hinterface i hi).1 r hr).1
        rooted := fun o ho => (hobject o ho).2.2
        acyclic := forall_checkAcyclic_eq_ok_iff.mp fun i hi => (hinterface i hi).2 }
  · intro h
    refine ⟨?_, ?_, ?_⟩
    · intro t ht
      exact ⟨h.wellShaped t ht, h.typeResolves t ht⟩
    · intro o ho
      refine (checkObject_eq_ok_iff ho).mpr ⟨?_, ?_, h.rooted o ho⟩
      · exact fun r hr => ⟨h.parentKind o ho r hr, h.parentResolves o ho r hr⟩
      · exact fun r hr => ⟨h.interfaceKind o ho r hr, h.interfaceResolves o ho r hr⟩
    · intro i hi
      refine checkInterface_eq_ok_iff.mpr ⟨?_, forall_checkAcyclic_eq_ok_iff.mpr h.acyclic i hi⟩
      exact fun r hr => ⟨h.prerequisiteKind i hi r hr, h.prerequisiteResolves i hi r hr⟩

end Namespace

end Introspection
