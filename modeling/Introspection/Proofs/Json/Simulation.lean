import Introspection.Json.Codec
import Introspection.Proofs.Support.Except

/-!
# `Introspection.Proofs.Json.Simulation`: two records read from the same text

Two records have fields of the same names, and each field of the second one reads whatever the
field of the first one reads (`Field.Matches`). Then the second record reads every node that the
first one reads, and the two results are related value by value (`Fields.Matches.decode`).

The statement holds for members in any order, with members that belong to no field and with
fields left out, and for arrays of values, since both readers take the same steps.
-/

set_option autoImplicit false

namespace Introspection.Json

variable {levels : Nat}

/-- A node that is refused is not read. -/
theorem follows_refuse {α β : Type} {r : α → β → Prop} (node : Node) (expected : String)
    (y : Decoded β) : Follows r (node.refuse expected : Decoded α) y := by
  unfold Node.refuse
  split <;> exact follows_error _ _ _

/-- A field of the same name that reads whatever the first field reads. -/
structure Field.Matches {α β : Type} (levels : Nat) (r : α → β → Prop) (f : Field α)
    (f' : Field β) : Prop where
  name : f'.name = f.name
  default : ∀ a, f.default? = some a → ∃ b, f'.default? = some b ∧ r a b
  decode : ∀ node, Follows r (f.codec.decode levels node) (f'.codec.decode levels node)

/-- Every field matches itself. -/
theorem Field.Matches.refl {α : Type} (levels : Nat) (f : Field α) : f.Matches levels Eq f where
  name := rfl
  default a h := ⟨a, h, rfl⟩
  decode _ := follows_refl _

namespace Fields

/-- The fields of the second record match those of the first one by one. `r` relates the values
of the two records and `s` their slots. -/
inductive Matches (levels : Nat) : {τ σ τ' σ' : Type} → (r : τ → τ' → Prop) → (s : σ → σ' → Prop) →
    Fields τ σ → Fields τ' σ' → Prop
  | none : Matches levels (fun _ _ => True) (fun _ _ => True) .none .none
  | field {α β τ σ τ' σ' : Type} {r : α → β → Prop} {rs : τ → τ' → Prop} {s : σ → σ' → Prop}
      {f : Field α} {f' : Field β} {rest : Fields τ σ} {rest' : Fields τ' σ'}
      (first : f.Matches levels r f') (others : Matches levels rs s rest rest') :
      Matches levels (fun t t' => r t.1 t'.1 ∧ rs t.2 t'.2)
        (fun slots slots' => Option.Rel r slots.1 slots'.1 ∧ s slots.2 slots'.2)
        (.field f rest) (.field f' rest')

variable {τ σ τ' σ' : Type} {r : τ → τ' → Prop} {s : σ → σ' → Prop} {fs : Fields τ σ}
  {fs' : Fields τ' σ'}

/-- Nothing is read yet on either side. -/
theorem Matches.empty (h : Matches levels r s fs fs') : s fs.empty fs'.empty := by
  induction h with
  | none => trivial
  | field first others ih => exact ⟨.none, ih⟩

/-- A member goes into the slots of both records, or is skipped by both. -/
theorem Matches.place (h : Matches levels r s fs fs') {slots : σ} {slots' : σ'}
    (hslots : s slots slots') (key : String) (value : Node) :
    Follows s (fs.place levels key value slots) (fs'.place levels key value slots') := by
  induction h with
  | none =>
    intro a ha
    exact ⟨a, ha, trivial⟩
  | field first others ih =>
    obtain ⟨slot, slots⟩ := slots
    obtain ⟨slot', slots'⟩ := slots'
    obtain ⟨hslot, hrest⟩ := hslots
    simp only [Fields.place, first.name]
    split
    · cases hslot with
      | some _ => exact follows_error _ _ _
      | none =>
        exact follows_bind (first.decode value) fun a b hab => follows_ok ⟨.some hab, hrest⟩
    · exact follows_bind (ih hrest) fun others others' hothers => follows_ok ⟨hslot, hothers⟩

/-- All members of an object go the same way. -/
theorem Matches.placeAll (h : Matches levels r s fs fs') : ∀ (ms : Members) {slots : σ}
    {slots' : σ'}, s slots slots' →
      Follows s (fs.placeAll levels ms slots) (fs'.placeAll levels ms slots')
  | .closed, _, _, hslots => follows_ok hslots
  | .broken _, _, _, _ => follows_error _ _ _
  | .keyless, _, _, _ => follows_error _ _ _
  | .cons key value rest, slots, slots', hslots => by
    rw [Fields.placeAll, Fields.placeAll]
    refine follows_bind (follows_refl (Decoded.ofDefect key)) ?_
    rintro k _ rfl
    exact follows_bind (h.place hslots k value) fun _ _ hnext => h.placeAll rest hnext

/-- Slots and defaults give related values. -/
theorem Matches.finish (h : Matches levels r s fs fs') {slots : σ} {slots' : σ'}
    (hslots : s slots slots') : Follows r (fs.finish slots) (fs'.finish slots') := by
  induction h with
  | none => exact follows_ok trivial
  | @field _ _ _ _ _ _ r rs s f f' rest rest' first others ih =>
    obtain ⟨slot, slots⟩ := slots
    obtain ⟨slot', slots'⟩ := slots'
    obtain ⟨hslot, hrest⟩ := hslots
    have hfirst : ∀ a, slot.or f.default? = some a →
        ∃ b, slot'.or f'.default? = some b ∧ r a b := by
      intro a ha
      cases hslot with
      | some hab =>
        cases ha
        exact ⟨_, rfl, hab⟩
      | none => exact first.default a ha
    rw [Fields.finish, Fields.finish]
    split
    · rename_i a ha
      obtain ⟨b, hb, hab⟩ := hfirst a ha
      rw [hb]
      exact follows_bind (ih hrest) fun t t' ht => follows_ok ⟨hab, ht⟩
    · exact follows_error _ _ _

/-- Both readers leave the same items. -/
theorem Matches.takeItems (h : Matches levels r s fs fs') (expected : String) (done : Nat)
    (items : Items) :
    Follows (fun p p' => r p.1 p'.1 ∧ p'.2 = p.2)
      (fs.takeItems levels expected done items) (fs'.takeItems levels expected done items) := by
  induction h generalizing done items with
  | none => exact follows_ok ⟨trivial, rfl⟩
  | field first others ih =>
    cases items with
    | cons node items =>
      rw [Fields.takeItems, Fields.takeItems]
      refine follows_bind (first.decode node) fun a b hab => ?_
      exact follows_bind (ih (done + 1) items) fun p p' hp => follows_ok ⟨⟨hab, hp.1⟩, hp.2⟩
    | closed =>
      rw [Fields.takeItems, Fields.takeItems]
      split
      · rename_i a ha
        obtain ⟨b, hb, hab⟩ := first.default a ha
        rw [hb]
        exact follows_bind (ih (done + 1) .closed) fun p p' hp => follows_ok ⟨⟨hab, hp.1⟩, hp.2⟩
      · exact follows_error _ _ _
    | broken d => exact follows_error _ _ _

theorem Matches.size (h : Matches levels r s fs fs') : fs'.size = fs.size := by
  induction h with
  | none => rfl
  | field first others ih => exact congrArg (· + 1) ih

/-- The second record reads what the first one reads. -/
theorem Matches.decode (h : Matches (levels - 1) r s fs fs') (type : String) (node : Node) :
    Follows r (fs.decode type levels node) (fs'.decode type levels node) := by
  unfold Fields.decode
  rw [h.size]
  split
  · split
    · exact follows_error _ _ _
    · exact follows_bind (h.placeAll _ h.empty) fun _ _ hslots => h.finish hslots
  · split
    · exact follows_error _ _ _
    · refine follows_bind (h.takeItems _ 0 _) ?_
      rintro ⟨t, _⟩ ⟨t', left⟩ ⟨ht, rfl⟩
      exact follows_bind (follows_refl (Items.expectEnd left)) fun _ _ _ => follows_ok ht
  · exact follows_refuse _ _ _

end Fields

end Introspection.Json
