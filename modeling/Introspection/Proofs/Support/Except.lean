import Mathlib.Data.List.Forall2
import Mathlib.Data.List.Perm.Basic

/-!
# `Introspection.Proofs.Support.Except`: results step by step

A reader, a check or a generator of this library returns an `Except`. The lemmas here say how a
chain of such steps computes when the first step is known, and which steps a successful chain
went through.

The steps belong to no single part of the library, so this module stands apart from all of them.
-/

set_option autoImplicit false

namespace Introspection

variable {ε α β : Type}

/-- A step after a success goes on with its value. -/
@[simp] theorem ok_bind (a : α) (f : α → Except ε β) : ((Except.ok a : Except ε α) >>= f) = f a :=
  rfl

/-- A step after a failure is not taken. -/
@[simp] theorem error_bind (e : ε) (f : α → Except ε β) :
    ((Except.error e : Except ε α) >>= f) = .error e :=
  rfl

@[simp] theorem pure_eq_ok (a : α) : (pure a : Except ε α) = .ok a := rfl

@[simp] theorem map_ok (f : α → β) (a : α) : (Except.ok a : Except ε α).map f = .ok (f a) := rfl

@[simp] theorem map_error (f : α → β) (e : ε) :
    (Except.error e : Except ε α).map f = .error e := rfl

/-- What is done to the result of a chain can be done to that of its last step. -/
theorem map_bind {γ : Type} (x : Except ε α) (f : α → Except ε β) (g : β → γ) :
    (x >>= f).map g = x >>= fun a => (f a).map g := by
  cases x with
  | error e => rfl
  | ok a => rfl

/-- A chain succeeds when both its steps do. -/
theorem bind_eq_ok_iff {x : Except ε α} {f : α → Except ε β} {b : β} :
    (x >>= f) = .ok b ↔ ∃ a, x = .ok a ∧ f a = .ok b := by
  cases x with
  | error e => simp
  | ok a => simp

/-- A chain fails in its first step or in its second. -/
theorem bind_eq_error_iff {x : Except ε α} {f : α → Except ε β} {e : ε} :
    (x >>= f) = .error e ↔ x = .error e ∨ ∃ a, x = .ok a ∧ f a = .error e := by
  cases x with
  | error e' => simp
  | ok a => simp

/-- A mapped result is a success when the result is. -/
theorem map_eq_ok_iff {x : Except ε α} {f : α → β} {b : β} :
    x.map f = .ok b ↔ ∃ a, x = .ok a ∧ f a = b := by
  cases x with
  | error e => simp
  | ok a => simp

/-- A check of all items succeeds when the check of each item does. -/
theorem forM_eq_ok_iff {check : α → Except ε Unit} {as : List α} :
    as.forM check = .ok () ↔ ∀ a ∈ as, check a = .ok () := by
  induction as with
  | nil => simp
  | cons a as ih =>
    show (check a >>= fun _ => as.forM check) = .ok () ↔ _
    rw [bind_eq_ok_iff, List.forall_mem_cons]
    constructor
    · rintro ⟨_, ha, has⟩
      exact ⟨ha, ih.mp has⟩
    · rintro ⟨ha, has⟩
      exact ⟨(), ha, ih.mpr has⟩

/-- A check of all items fails in the first item whose check fails. -/
theorem forM_eq_error_iff {check : α → Except ε Unit} {as : List α} {e : ε} :
    as.forM check = .error e ↔ ∃ before a after, as = before ++ a :: after
      ∧ (∀ b ∈ before, check b = .ok ()) ∧ check a = .error e := by
  induction as with
  | nil => simp
  | cons a as ih =>
    show (check a >>= fun _ => as.forM check) = .error e ↔ _
    rw [bind_eq_error_iff]
    constructor
    · rintro (hfirst | ⟨⟨⟩, hok, hrest⟩)
      · exact ⟨[], a, as, rfl, nofun, hfirst⟩
      · obtain ⟨before, b, after, rfl, hbefore, hb⟩ := ih.mp hrest
        exact ⟨a :: before, b, after, rfl, List.forall_mem_cons.mpr ⟨hok, hbefore⟩, hb⟩
    · rintro ⟨before, b, after, hsplit, hbefore, hb⟩
      cases before with
      | nil =>
        cases hsplit
        exact Or.inl hb
      | cons _ before =>
        cases hsplit
        obtain ⟨hok, hbefore⟩ := List.forall_mem_cons.mp hbefore
        exact Or.inr ⟨(), hok, ih.mpr ⟨before, b, after, rfl, hbefore, hb⟩⟩

/-- The results of a step that succeeds for all items are its results for each of them. -/
theorem mem_of_mapM_eq_ok {f : α → Except ε β} {as : List α} {bs : List β}
    (h : as.mapM f = .ok bs) {b : β} : b ∈ bs ↔ ∃ a ∈ as, f a = .ok b := by
  induction as generalizing bs with
  | nil =>
    rw [List.mapM_nil] at h
    cases h
    simp
  | cons a as ih =>
    rw [List.mapM_cons] at h
    obtain ⟨first, hfirst, hrest⟩ := bind_eq_ok_iff.mp h
    obtain ⟨rest, has, hbs⟩ := bind_eq_ok_iff.mp hrest
    cases hbs
    rw [List.mem_cons, ih has]
    simp only [List.mem_cons, exists_eq_or_imp, hfirst, Except.ok.injEq]
    rw [eq_comm]

/-- A step that succeeds for all items succeeds for each of them. -/
theorem exists_ok_of_mapM_eq_ok {f : α → Except ε β} {as : List α} {bs : List β}
    (h : as.mapM f = .ok bs) {a : α} (ha : a ∈ as) : ∃ b, f a = .ok b := by
  induction as generalizing bs with
  | nil => cases ha
  | cons a' as ih =>
    rw [List.mapM_cons] at h
    obtain ⟨first, hfirst, hrest⟩ := bind_eq_ok_iff.mp h
    obtain ⟨rest, has, _⟩ := bind_eq_ok_iff.mp hrest
    rcases List.mem_cons.mp ha with rfl | ha
    · exact ⟨first, hfirst⟩
    · exact ih has ha

/-- A step that succeeds for all items gives one result for each, in their order. -/
theorem forall₂_of_mapM_eq_ok {f : α → Except ε β} {as : List α} {bs : List β}
    (h : as.mapM f = .ok bs) : List.Forall₂ (fun a b => f a = .ok b) as bs := by
  induction as generalizing bs with
  | nil =>
    rw [List.mapM_nil] at h
    cases h
    exact .nil
  | cons a as ih =>
    rw [List.mapM_cons] at h
    obtain ⟨first, hfirst, hrest⟩ := bind_eq_ok_iff.mp h
    obtain ⟨rest, has, hbs⟩ := bind_eq_ok_iff.mp hrest
    cases hbs
    exact .cons hfirst (ih has)

/-- Results that stand one for one beside the items are those of the step. -/
theorem mapM_eq_ok_of_forall₂ {f : α → Except ε β} {as : List α} {bs : List β}
    (h : List.Forall₂ (fun a b => f a = .ok b) as bs) : as.mapM f = .ok bs := by
  induction h with
  | nil => rw [List.mapM_nil, pure_eq_ok]
  | cons hfirst _ ih => rw [List.mapM_cons, hfirst, ok_bind, ih, ok_bind, pure_eq_ok]

/-- The same items in another order give the same results in another order. -/
theorem exists_mapM_perm {f : α → Except ε β} {as as' : List α} {bs : List β}
    (hperm : as.Perm as') (h : as.mapM f = .ok bs) :
    ∃ bs', as'.mapM f = .ok bs' ∧ bs'.Perm bs := by
  obtain ⟨bs', hall, hbs⟩ := List.perm_comp_forall₂ hperm.symm (forall₂_of_mapM_eq_ok h)
  exact ⟨bs', mapM_eq_ok_of_forall₂ hall, hbs⟩

/-- What is done to the result of each step can be done to all results at the end. -/
theorem mapM_map {γ : Type} (f : α → Except ε β) (g : β → γ) (as : List α) :
    as.mapM (fun a => (f a).map g) = (as.mapM f).map (List.map g) := by
  induction as with
  | nil => simp
  | cons a as ih =>
    rw [List.mapM_cons, List.mapM_cons, ih]
    cases f a with
    | error e => simp
    | ok b =>
      cases as.mapM f with
      | error e => simp
      | ok bs => simp

/-- The result of a step stands where its item does. -/
theorem getElem?_of_mapM_eq_ok {f : α → Except ε β} {as : List α} {bs : List β}
    (h : as.mapM f = .ok bs) {i : Nat} {a : α} (ha : as[i]? = some a) :
    ∃ b, bs[i]? = some b ∧ f a = .ok b := by
  have hall := forall₂_of_mapM_eq_ok h
  obtain ⟨hi, hget⟩ := List.getElem?_eq_some_iff.mp ha
  have hib : i < bs.length := hall.length_eq ▸ hi
  refine ⟨bs[i], List.getElem?_eq_getElem hib, ?_⟩
  rw [← hget]
  exact hall.get hi hib

/-- Steps for all items fail in the first item whose step fails. -/
theorem mapM_eq_error_iff {f : α → Except ε β} {as : List α} {e : ε} :
    as.mapM f = .error e ↔ ∃ before a after, as = before ++ a :: after
      ∧ (∀ b ∈ before, ∃ c, f b = .ok c) ∧ f a = .error e := by
  induction as with
  | nil =>
    rw [List.mapM_nil]
    simp
  | cons a as ih =>
    rw [List.mapM_cons, bind_eq_error_iff]
    constructor
    · rintro (hfirst | ⟨c, hc, hrest⟩)
      · exact ⟨[], a, as, rfl, nofun, hfirst⟩
      · obtain hlater | ⟨cs, _, hpure⟩ := bind_eq_error_iff.mp hrest
        · obtain ⟨before, b, after, rfl, hbefore, hb⟩ := ih.mp hlater
          exact ⟨a :: before, b, after, rfl, List.forall_mem_cons.mpr ⟨⟨c, hc⟩, hbefore⟩, hb⟩
        · cases hpure
    · rintro ⟨before, b, after, hsplit, hbefore, hb⟩
      cases before with
      | nil =>
        cases hsplit
        exact Or.inl hb
      | cons _ before =>
        cases hsplit
        obtain ⟨⟨c, hc⟩, hbefore⟩ := List.forall_mem_cons.mp hbefore
        have hlater := ih.mpr ⟨before, b, after, rfl, hbefore, hb⟩
        exact Or.inr ⟨c, hc, bind_eq_error_iff.mpr (Or.inl hlater)⟩

/-- Steps for all items succeed when the step for each of them does. -/
theorem exists_mapM_eq_ok_iff {f : α → Except ε β} {as : List α} :
    (∃ bs, as.mapM f = .ok bs) ↔ ∀ a ∈ as, ∃ b, f a = .ok b := by
  constructor
  · rintro ⟨bs, hbs⟩ a ha
    exact exists_ok_of_mapM_eq_ok hbs ha
  · intro h
    cases hall : as.mapM f with
    | ok bs => exact ⟨bs, rfl⟩
    | error e =>
      obtain ⟨before, a, after, rfl, _, ha⟩ := mapM_eq_error_iff.mp hall
      obtain ⟨b, hb⟩ := h a (by simp)
      rw [ha] at hb
      cases hb

/-- Whatever the step gives satisfies the predicate; that it gives anything is not said. -/
def Yields (p : α → Prop) (r : Except ε α) : Prop := ∀ a, r = .ok a → p a

@[simp] theorem yields_ok_iff {p : α → Prop} {a : α} :
    Yields p (.ok a : Except ε α) ↔ p a := by
  constructor
  · intro h
    exact h a rfl
  · intro h b hb
    cases hb
    exact h

@[simp] theorem yields_pure_iff {p : α → Prop} {a : α} :
    Yields p (pure a : Except ε α) ↔ p a := yields_ok_iff

@[simp] theorem yields_error (p : α → Prop) (e : ε) : Yields p (.error e : Except ε α) := nofun

/-- A chain gives what its second step gives for a value that the first step gave. -/
theorem yields_bind {p : β → Prop} {r : Except ε α} {f : α → Except ε β}
    (h : ∀ a, r = .ok a → Yields p (f a)) : Yields p (r >>= f) := by
  intro b hb
  obtain ⟨a, ha, hfa⟩ := bind_eq_ok_iff.mp hb
  exact h a ha b hfa

/-- The second result is a success whenever the first is, and its value is related to that of the
first. -/
def Follows {γ : Type} (r : α → γ → Prop) (x : Except ε α) (y : Except ε γ) : Prop :=
  ∀ a, x = .ok a → ∃ c, y = .ok c ∧ r a c

theorem follows_ok {γ : Type} {r : α → γ → Prop} {a : α} {c : γ} (h : r a c) :
    Follows r (.ok a : Except ε α) (.ok c) := by
  intro b hb
  cases hb
  exact ⟨c, rfl, h⟩

theorem follows_refl (x : Except ε α) : Follows Eq x x := fun a ha => ⟨a, ha, rfl⟩

@[simp] theorem follows_error {γ : Type} (r : α → γ → Prop) (e : ε) (y : Except ε γ) :
    Follows r (.error e : Except ε α) y := nofun

/-- A chain follows another one step by step. -/
theorem follows_bind {γ δ : Type} {r : α → γ → Prop} {s : β → δ → Prop} {x : Except ε α}
    {y : Except ε γ} {f : α → Except ε β} {g : γ → Except ε δ} (hfirst : Follows r x y)
    (hsecond : ∀ a c, r a c → Follows s (f a) (g c)) : Follows s (x >>= f) (y >>= g) := by
  intro b hb
  obtain ⟨a, ha, hfa⟩ := bind_eq_ok_iff.mp hb
  obtain ⟨c, hc, hac⟩ := hfirst a ha
  obtain ⟨d, hd, hbd⟩ := hsecond a c hac b hfa
  exact ⟨d, bind_eq_ok_iff.mpr ⟨c, hc, hd⟩, hbd⟩

end Introspection
