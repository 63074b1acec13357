import Introspection.Descriptor.TypeDesc

/-!
# `Introspection.Proofs.Descriptor.Shape`: descriptors without contradictions

`TypeDesc.WellShaped` says what it means that the parts of a descriptor and of all its elements
agree, with no mention of the order in which they are looked at. `shapeDefect_eq_none_iff` says
that the search for a contradiction finds nothing in just these descriptors, and
`mem_nodes_iff` that the list of nodes holds the descriptors at every depth.
-/

set_option autoImplicit false

namespace Introspection

namespace TypeDesc

/-- A descriptor is part of another: the same, or part of one of its elements. -/
inductive Inside : TypeDesc → TypeDesc → Prop
  | self (t : TypeDesc) : Inside t t
  | element {s t u : TypeDesc} : u ∈ t.params → Inside s u → Inside s t

/-- The parts of one descriptor agree, those of its elements left aside. -/
structure Agrees (t : TypeDesc) : Prop where
  params : t.params.length = t.tag.arity
  entity : t.tag = .interface ↔ t.entity.isSome = true
  array : t.tag = .array ↔ t.array.isSome = true

/-- The parts of a descriptor agree at every depth. -/
def WellShaped (t : TypeDesc) : Prop := ∀ s : TypeDesc, s.Inside t → s.Agrees

/-! ### The nodes of a descriptor -/

theorem inside_iff {s t : TypeDesc} : s.Inside t ↔ s = t ∨ ∃ u ∈ t.params, s.Inside u := by
  constructor
  · intro h
    cases h with
    | self => exact Or.inl rfl
    | element hu hs => exact Or.inr ⟨_, hu, hs⟩
  · rintro (rfl | ⟨u, hu, hs⟩)
    · exact .self s
    · exact .element hu hs

theorem nodesOf_eq_flatMap (ts : List TypeDesc) : nodesOf ts = ts.flatMap nodes := by
  induction ts with
  | nil => rfl
  | cons t ts ih => rw [nodesOf, List.flatMap_cons, ih]

/-- The nodes of a descriptor are the descriptors inside it. -/
theorem mem_nodes_iff {s : TypeDesc} : ∀ {t : TypeDesc}, s ∈ t.nodes ↔ s.Inside t
  | mk tag pointer params entity array => by
    have ih : ∀ u ∈ params, (s ∈ u.nodes ↔ s.Inside u) := fun u _ => mem_nodes_iff
    rw [nodes, nodesOf_eq_flatMap, List.mem_cons, List.mem_flatMap, inside_iff]
    constructor
    · rintro (rfl | ⟨u, hu, hs⟩)
      · exact Or.inl rfl
      · exact Or.inr ⟨u, hu, (ih u hu).mp hs⟩
    · rintro (rfl | ⟨u, hu, hs⟩)
      · exact Or.inl rfl
      · exact Or.inr ⟨u, hu, (ih u hu).mpr hs⟩
termination_by t => sizeOf t

/-! ### Contradictions -/

/-- The elements of a well-shaped descriptor are well-shaped. -/
theorem WellShaped.of_mem_params {t u : TypeDesc} (h : t.WellShaped) (hu : u ∈ t.params) :
    u.WellShaped :=
  fun s hs => h s (.element hu hs)

theorem WellShaped.agrees {t : TypeDesc} (h : t.WellShaped) : t.Agrees := h t (.self t)

theorem wellShaped_iff {t : TypeDesc} :
    t.WellShaped ↔ t.Agrees ∧ ∀ u ∈ t.params, u.WellShaped := by
  constructor
  · intro h
    exact ⟨h.agrees, fun u hu => h.of_mem_params hu⟩
  · rintro ⟨hown, hparams⟩ s hs
    cases hs with
    | self => exact hown
    | element hu hs => exact hparams _ hu s hs

/-- The four checks of one descriptor together say that its parts agree. -/
theorem ownDefect_eq_none_iff {t : TypeDesc} : t.ownDefect = none ↔ t.Agrees := by
  have hparts : t.ownDefect = none ↔ t.params.length = t.tag.arity
      ∧ (t.tag == .interface) = t.entity.isSome ∧ (t.tag == .array) = t.array.isSome := by
    unfold ownDefect
    cases t.array <;> by_cases hlength : t.params.length = t.tag.arity
      <;> by_cases hentity : (t.tag == .interface) = t.entity.isSome
      <;> cases htag : t.tag == .array <;> simp [hlength, hentity, htag, bne]
  rw [hparts]
  constructor
  · rintro ⟨hparams, hentity, harray⟩
    exact ⟨hparams, by rw [← hentity, beq_iff_eq], by rw [← harray, beq_iff_eq]⟩
  · rintro ⟨hparams, hentity, harray⟩
    exact ⟨hparams, Bool.eq_iff_iff.mpr (by rw [beq_iff_eq, hentity]),
      Bool.eq_iff_iff.mpr (by rw [beq_iff_eq, harray])⟩

theorem shapeDefects_eq_none_iff {ts : List TypeDesc} :
    shapeDefects ts = none ↔ ∀ t ∈ ts, t.shapeDefect = none := by
  induction ts with
  | nil => simp [shapeDefects]
  | cons t ts ih => rw [shapeDefects, Option.or_eq_none_iff, ih, List.forall_mem_cons]

/-- No contradiction is found in just those descriptors that are well-shaped at every depth. -/
theorem shapeDefect_eq_none_iff : ∀ {t : TypeDesc}, t.shapeDefect = none ↔ t.WellShaped
  | mk tag pointer params entity array => by
    have ih : ∀ u ∈ params, (u.shapeDefect = none ↔ u.WellShaped) :=
      fun u _ => shapeDefect_eq_none_iff
    rw [shapeDefect, Option.or_eq_none_iff, ownDefect_eq_none_iff, shapeDefects_eq_none_iff,
      wellShaped_iff]
    constructor
    · rintro ⟨hown, hparams⟩
      exact ⟨hown, fun u hu => (ih u hu).mp (hparams u hu)⟩
    · rintro ⟨hown, hparams⟩
      exact ⟨hown, fun u hu => (ih u hu).mpr (hparams u hu)⟩
termination_by t => sizeOf t

end TypeDesc

end Introspection
