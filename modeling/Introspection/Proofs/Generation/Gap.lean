import Introspection.Generation.Error
import Introspection.Proofs.Support.Except

/-!
# `Introspection.Proofs.Generation.Gap`: steps that fail for gaps only

Generation has known gaps: types without a rule in some place, and arrays whose length nothing
tells. `GapsOnly` says of a step that it fails for no other reason. Chains of such steps are such
steps, so the property is proved function by function along the code.
-/

set_option autoImplicit false

namespace Introspection

/-- The error tells of a gap: a rule or the length of an array is missing. -/
def GenerationError.IsGap (e : GenerationError) : Prop :=
  (∃ use type, e = .unsupported use type) ∨ ∃ name, e = .unboundedArray name

/-- The step fails for gaps only. -/
def GapsOnly {α : Type} (r : Generated α) : Prop := ∀ e, r = .error e → e.IsGap

variable {α β : Type}

@[simp] theorem gapsOnly_ok (a : α) : GapsOnly (.ok a : Generated α) := nofun

@[simp] theorem gapsOnly_pure (a : α) : GapsOnly (pure a : Generated α) := nofun

@[simp] theorem gapsOnly_unsupported (use : Use) (t : TypeDesc) :
    GapsOnly (unsupported use t : Generated α) := by
  intro e he
  cases he
  exact Or.inl ⟨use, t.text, rfl⟩

@[simp] theorem gapsOnly_unboundedArray (name : String) :
    GapsOnly (.error (.unboundedArray name) : Generated α) := by
  intro e he
  cases he
  exact Or.inr ⟨name, rfl⟩

/-- A step that succeeds fails for no reason at all. -/
theorem gapsOnly_of_exists_ok {r : Generated α} (h : ∃ a, r = .ok a) : GapsOnly r := by
  obtain ⟨a, rfl⟩ := h
  exact gapsOnly_ok a

/-- A chain fails for gaps only when both its steps do. -/
theorem GapsOnly.bind {r : Generated α} {f : α → Generated β} (hr : GapsOnly r)
    (hf : ∀ a, GapsOnly (f a)) : GapsOnly (r >>= f) := by
  intro e he
  rcases bind_eq_error_iff.mp he with hfirst | ⟨a, _, hsecond⟩
  · exact hr e hfirst
  · exact hf a e hsecond

/-- The item at work is told only when there is an error. -/
theorem within_eq_ok_iff {context : String} {r : Generated α} {a : α} :
    Generated.within context r = .ok a ↔ r = .ok a := by
  cases r with
  | error e => exact ⟨nofun, nofun⟩
  | ok b => exact Iff.rfl

/-- What is done to a result can be done to it before the item at work is told. -/
theorem map_within (context : String) (r : Generated α) (f : α → β) :
    (Generated.within context r).map f = Generated.within context (r.map f) := by
  cases r with
  | error e => rfl
  | ok a => rfl

/-- With a context, a step that fails for gaps only succeeds or reports one in that context. -/
theorem GapsOnly.within {r : Generated α} (hr : GapsOnly r) (context : String) :
    (∃ a, Generated.within context r = .ok a)
      ∨ ∃ e, Generated.within context r = .error (.within context e) ∧ e.IsGap := by
  cases r with
  | ok a => exact Or.inl ⟨a, rfl⟩
  | error e => exact Or.inr ⟨e, rfl, hr e rfl⟩

/-- Steps for all items of a list fail for gaps only when the step for each item does. -/
theorem gapsOnly_mapM {f : α → Generated β} {as : List α} (h : ∀ a ∈ as, GapsOnly (f a)) :
    GapsOnly (as.mapM f) := by
  induction as with
  | nil =>
    rw [List.mapM_nil]
    exact gapsOnly_pure []
  | cons a as ih =>
    rw [List.mapM_cons]
    have has := ih fun b hb => h b (List.mem_cons_of_mem _ hb)
    exact (h a List.mem_cons_self).bind fun _ => has.bind fun _ => gapsOnly_pure _

end Introspection
