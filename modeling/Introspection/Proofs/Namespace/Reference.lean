import Introspection.Namespace.Validation
import Introspection.Proofs.Support.Except
import Mathlib.Data.List.Nodup

/-!
# `Introspection.Proofs.Namespace.Reference`: what references stand for

A table has one entry for each name, so a reference stands for at most one registered type:
`lookup_eq_some_iff` says which one. `Namespace.Resolves` is what a reference has to satisfy in
a namespace without faults; references to other namespaces satisfy it always.
-/

set_option autoImplicit false

namespace Introspection

namespace Table

variable {α : Type} [Named α]

/-- Two entries of a table that share their name are the same. -/
theorem eq_of_name_eq (t : Table α) {a b : α} (ha : a ∈ t.entries) (hb : b ∈ t.entries)
    (h : Named.name a = Named.name b) : a = b :=
  List.inj_on_of_nodup_map t.nodup ha hb h

/-- Looking a name up gives the entry of that name. -/
theorem find?_eq_some_iff (t : Table α) {name : String} {a : α} :
    t.find? name = some a ↔ a ∈ t.entries ∧ Named.name a = name := by
  constructor
  · intro h
    have hname := List.find?_some h
    exact ⟨List.mem_of_find?_eq_some h, beq_iff_eq.mp hname⟩
  · rintro ⟨ha, rfl⟩
    cases hfind : t.find? (Named.name a) with
    | none =>
      have hnone := List.find?_eq_none.mp hfind a ha
      exact absurd (beq_self_eq_true _) hnone
    | some b =>
      have hb := List.find?_some hfind
      have hmem := List.mem_of_find?_eq_some hfind
      rw [t.eq_of_name_eq hmem ha (beq_iff_eq.mp hb)]

/-- The name of an entry is one of the names of the table. -/
theorem name_mem_names (t : Table α) {a : α} (ha : a ∈ t.entries) : Named.name a ∈ t.names :=
  List.mem_map_of_mem ha

end Table

namespace Namespace

variable {ns : Namespace}

/-- The registered types are the entries of the five tables. -/
theorem mem_entities_iff {e : Entity} : e ∈ ns.entities ↔
    match e with
    | .enum e => e ∈ ns.enums.entries
    | .interface i => i ∈ ns.interfaces.entries
    | .object o => o ∈ ns.objects.entries
    | .struct s => s ∈ ns.structs.entries
    | .union u => u ∈ ns.unions.entries := by
  cases e <;> simp [entities]

/-- A reference stands for the registered type of its kind and name, if it is one into this
namespace. -/
theorem lookup_eq_some_iff {r : EntityRef} {e : Entity} :
    ns.lookup r = some e
      ↔ r.home = ns.name ∧ e ∈ ns.entities ∧ e.kind = r.kind ∧ e.name = r.name := by
  rw [mem_entities_iff]
  unfold lookup
  by_cases hhome : r.home = ns.name
  · rw [if_pos hhome]
    -- Within a table the name decides; between tables the kind does.
    cases hkind : r.kind <;> cases e <;>
      simp [hhome, Table.find?_eq_some_iff, Entity.kind, Entity.name, Named.name]
  · simp [hhome]

theorem object?_eq_some_iff {r : EntityRef} {o : Object} :
    ns.object? r = some o
      ↔ r.home = ns.name ∧ o ∈ ns.objects.entries ∧ r.kind = .object ∧ o.name = r.name := by
  have hlookup : ns.object? r = some o ↔ ns.lookup r = some (.object o) := by
    unfold object?
    split
    · rename_i heq
      simp [heq]
    · rename_i hne
      simp only [reduceCtorEq, false_iff]
      exact fun h => hne o h
  rw [hlookup, lookup_eq_some_iff, mem_entities_iff]
  simp only [Entity.kind, Entity.name, eq_comm]

theorem interface?_eq_some_iff {r : EntityRef} {i : Interface} :
    ns.interface? r = some i
      ↔ r.home = ns.name ∧ i ∈ ns.interfaces.entries ∧ r.kind = .interface ∧ i.name = r.name := by
  have hlookup : ns.interface? r = some i ↔ ns.lookup r = some (.interface i) := by
    unfold interface?
    split
    · rename_i heq
      simp [heq]
    · rename_i hne
      simp only [reduceCtorEq, false_iff]
      exact fun h => hne i h
  rw [hlookup, lookup_eq_some_iff, mem_entities_iff]
  simp only [Entity.kind, Entity.name, eq_comm]

/-! ### References that resolve -/

/-- A reference into this namespace names one of its types, of the kind that it says. -/
def Resolves (ns : Namespace) (r : EntityRef) : Prop :=
  r.home = ns.name → ∃ e ∈ ns.entities, e.kind = r.kind ∧ e.name = r.name

theorem checkKnown_eq_ok_iff {owner : String} {r : EntityRef} :
    ns.checkKnown owner r = .ok () ↔ ns.Resolves r := by
  unfold checkKnown Resolves
  cases hlookup : ns.lookup r with
  | some e =>
    have he := lookup_eq_some_iff.mp hlookup
    simp only [Option.isNone_some, Bool.false_eq_true, and_false, if_false, true_iff]
    intro _
    exact ⟨e, he.2⟩
  | none =>
    simp only [Option.isNone_none, and_true]
    by_cases hhome : r.home = ns.name
    · rw [if_pos hhome]
      simp only [reduceCtorEq, false_iff]
      intro hresolves
      obtain ⟨e, he⟩ := hresolves hhome
      have hsome := lookup_eq_some_iff.mpr ⟨hhome, he⟩
      rw [hlookup] at hsome
      cases hsome
    · rw [if_neg hhome]
      simp [hhome]

theorem checkKind_eq_ok_iff {owner : String} {expected : EntityKind} {r : EntityRef} :
    ns.checkKind owner expected r = .ok () ↔ r.kind = expected ∧ ns.Resolves r := by
  unfold checkKind
  by_cases hkind : r.kind = expected
  · rw [if_pos hkind, checkKnown_eq_ok_iff, and_iff_right hkind]
  · rw [if_neg hkind]
    simp [hkind]

theorem checkPrerequisite_eq_ok_iff {owner : String} {r : EntityRef} :
    ns.checkPrerequisite owner r = .ok ()
      ↔ (r.kind = .interface ∨ r.kind = .object) ∧ ns.Resolves r := by
  unfold checkPrerequisite
  by_cases hkind : r.kind = .interface ∨ r.kind = .object
  · rw [if_pos hkind, checkKnown_eq_ok_iff, and_iff_right hkind]
  · rw [if_neg hkind]
    simp [hkind]

end Namespace

end Introspection
