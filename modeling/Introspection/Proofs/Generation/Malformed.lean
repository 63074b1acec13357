import Introspection.Proofs.Generation.Gap

/-!
# `Introspection.Proofs.Generation.Malformed`: steps that fail for a malformed type

A type whose parts contradict each other, or are not there, is a fault of the data. `FailsMalformed`
says that a step reports such a type. Steps in a row report one just when the first of them that
fails does.
-/

set_option autoImplicit false

namespace Introspection

/-- Below all contexts, the error tells of a type whose parts contradict each other or are
missing. -/
def GenerationError.IsMalformed (e : GenerationError) : Prop :=
  (∃ type defect, e.root = .malformedType type defect) ∨ ∃ type, e.root = .missingArrayInfo type

theorem GenerationError.isMalformed_within_iff {context : String} {e : GenerationError} :
    (GenerationError.within context e).IsMalformed ↔ e.IsMalformed :=
  Iff.rfl

/-- A gap is no fault of the data. -/
theorem GenerationError.IsGap.not_isMalformed {e : GenerationError} (h : e.IsGap) :
    ¬e.IsMalformed := by
  rcases h with ⟨use, type, rfl⟩ | ⟨name, rfl⟩
  all_goals
    rintro (⟨_, _, hroot⟩ | ⟨_, hroot⟩)
    · cases hroot
    · cases hroot

/-- The step fails for a malformed type. -/
def FailsMalformed {α : Type} (r : Generated α) : Prop := ∃ e, r = .error e ∧ e.IsMalformed

variable {α β : Type}

@[simp] theorem not_failsMalformed_ok (a : α) : ¬FailsMalformed (.ok a : Generated α) := nofun

@[simp] theorem not_failsMalformed_pure (a : α) : ¬FailsMalformed (pure a : Generated α) := nofun

theorem GapsOnly.not_failsMalformed {r : Generated α} (h : GapsOnly r) : ¬FailsMalformed r := by
  rintro ⟨e, he, hmalformed⟩
  exact (h e he).not_isMalformed hmalformed

theorem failsMalformed_within_iff {context : String} {r : Generated α} :
    FailsMalformed (Generated.within context r) ↔ FailsMalformed r := by
  cases r with
  | ok a => exact ⟨nofun, nofun⟩
  | error e =>
    constructor
    · rintro ⟨_, he, hmalformed⟩
      cases he
      exact ⟨e, rfl, GenerationError.isMalformed_within_iff.mp hmalformed⟩
    · rintro ⟨_, he, hmalformed⟩
      cases he
      exact ⟨_, rfl, GenerationError.isMalformed_within_iff.mpr hmalformed⟩

/-- A chain reports a malformed type in its first step, or in its second after the first went
well. -/
theorem failsMalformed_bind_iff {r : Generated α} {f : α → Generated β} :
    FailsMalformed (r >>= f) ↔ FailsMalformed r ∨ ∃ a, r = .ok a ∧ FailsMalformed (f a) := by
  cases r with
  | ok a => simp
  | error e => simp [FailsMalformed]

/-- A chain whose second step reports none reports what its first step does. -/
theorem failsMalformed_bind_of_not {r : Generated α} {f : α → Generated β}
    (hf : ∀ a, r = .ok a → ¬FailsMalformed (f a)) :
    FailsMalformed (r >>= f) ↔ FailsMalformed r := by
  rw [failsMalformed_bind_iff, or_iff_left]
  rintro ⟨a, ha, hsecond⟩
  exact hf a ha hsecond

theorem not_failsMalformed_bind {r : Generated α} {f : α → Generated β} (hr : ¬FailsMalformed r)
    (hf : ∀ a, r = .ok a → ¬FailsMalformed (f a)) : ¬FailsMalformed (r >>= f) := by
  rwa [failsMalformed_bind_of_not hf]

/-- Steps for all items report a malformed type in the first item whose step fails. -/
theorem failsMalformed_mapM_iff {f : α → Generated β} {as : List α} :
    FailsMalformed (as.mapM f) ↔ ∃ before a after, as = before ++ a :: after
      ∧ (∀ b ∈ before, ∃ c, f b = .ok c) ∧ FailsMalformed (f a) := by
  constructor
  · rintro ⟨e, he, hmalformed⟩
    obtain ⟨before, a, after, has, hbefore, ha⟩ := mapM_eq_error_iff.mp he
    exact ⟨before, a, after, has, hbefore, e, ha, hmalformed⟩
  · rintro ⟨before, a, after, has, hbefore, e, ha, hmalformed⟩
    exact ⟨e, mapM_eq_error_iff.mpr ⟨before, a, after, has, hbefore, ha⟩, hmalformed⟩

theorem not_failsMalformed_mapM {f : α → Generated β} {as : List α}
    (h : ∀ a ∈ as, ¬FailsMalformed (f a)) : ¬FailsMalformed (as.mapM f) := by
  rw [failsMalformed_mapM_iff]
  rintro ⟨before, a, after, rfl, _, ha⟩
  exact h a (by simp) ha

end Introspection
