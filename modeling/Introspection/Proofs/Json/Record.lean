import Introspection.Json.Codec
import Introspection.Proofs.Json.Spacing
import Introspection.Proofs.Support.Except

/-!
# `Introspection.Proofs.Json.Record`: what reading the fields of a record gives

Reading a record fills one slot for each of its fields and takes a default for a slot that stays
empty. Two statements sum that up for all records.

* `decode_of_reads`: members in the order of the fields, some with a default left out, read as
  the tuple that they hold (`Fields.Reads`).
* `drawn_of_decode`: every value of a tuple that was read is a default, or was read off some
  node (`Fields.Drawn`). This holds for objects and arrays alike.
-/

set_option autoImplicit false

namespace Introspection.Json

namespace Fields

/-- Names of the fields, in order. -/
def names : {τ σ : Type} → Fields τ σ → List String
  | _, _, .none => []
  | _, _, .field f rest => f.name :: rest.names

/-- The members hold the tuple: those that are there read as its values, in the order of the
fields, and for each one left out the default is the value. -/
def Reads (levels : Nat) : {τ σ : Type} → Fields τ σ → List (String × Value) → τ → Prop
  | _, _, .none, ms, _ => ms = []
  | _, _, .field f rest, ms, (a, t) =>
    (∃ v others, ms = (f.name, v) :: others
        ∧ f.codec.decode levels (.ofValue v) = .ok a ∧ rest.Reads levels others t)
      ∨ (f.default? = some a ∧ rest.Reads levels ms t)

/-- Each value of the tuple is the default of its field, or was read off a node. -/
def Drawn (levels : Nat) : {τ σ : Type} → Fields τ σ → τ → Prop
  | _, _, .none, _ => True
  | _, _, .field f rest, (a, t) =>
    (f.default? = some a ∨ ∃ node, f.codec.decode levels node = .ok a) ∧ rest.Drawn levels t

/-- What fills a slot was read off a node. -/
def Filled (levels : Nat) : {τ σ : Type} → Fields τ σ → σ → Prop
  | _, _, .none, _ => True
  | _, _, .field f rest, (slot, slots) =>
    (∀ a, slot = some a → ∃ node, f.codec.decode levels node = .ok a) ∧ rest.Filled levels slots

variable {levels : Nat}

/-! ### From members to the tuple -/

/-- Members in the order of the fields have names of fields only. -/
theorem names_of_reads {τ σ : Type} {fs : Fields τ σ} {ms : List (String × Value)} {t : τ}
    (h : fs.Reads levels ms t) : ∀ m ∈ ms, m.1 ∈ fs.names := by
  induction fs generalizing ms with
  | none =>
    intro m hm
    rw [h] at hm
    cases hm
  | field f rest ih =>
    obtain ⟨a, t⟩ := t
    intro m hm
    rcases h with ⟨v, others, rfl, _, hrest⟩ | ⟨_, hrest⟩
    · cases hm with
      | head => exact List.mem_cons_self
      | tail _ hm => exact List.mem_cons_of_mem _ (ih hrest m hm)
    · exact List.mem_cons_of_mem _ (ih hrest m hm)

/-- The first slot stays as it is when no member has the name of its field. -/
theorem placeAll_field (levels : Nat) {α τ σ : Type} (f : Field α) (rest : Fields τ σ)
    (slot : Option α) {ms : List (String × Value)} (h : ∀ m ∈ ms, m.1 ≠ f.name) (slots : σ) :
    (Fields.field f rest).placeAll levels (.ofValues ms) (slot, slots)
      = (rest.placeAll levels (.ofValues ms) slots).map (Prod.mk slot) := by
  induction ms generalizing slots with
  | nil => rfl
  | cons m ms ih =>
    obtain ⟨k, v⟩ := m
    have hk : k ≠ f.name := h _ List.mem_cons_self
    have hms : ∀ m ∈ ms, m.1 ≠ f.name := fun m hm => h m (List.mem_cons_of_mem _ hm)
    simp only [Members.ofValues, placeAll, place, Decoded.ofDefect, ok_bind, if_neg hk]
    cases rest.place levels k (.ofValue v) slots with
    | error e => rfl
    | ok slots' => exact ih hms slots'

/-- Members that hold a tuple fill the slots, and the slots give the tuple. -/
theorem placeAll_of_reads {τ σ : Type} {fs : Fields τ σ} (hnames : fs.names.Nodup)
    {ms : List (String × Value)} {t : τ} (h : fs.Reads levels ms t) :
    ∃ slots, fs.placeAll levels (.ofValues ms) fs.empty = .ok slots ∧ fs.finish slots = .ok t := by
  induction fs generalizing ms with
  | none =>
    rw [h]
    exact ⟨(), rfl, rfl⟩
  | field f rest ih =>
    obtain ⟨a, t⟩ := t
    rw [names, List.nodup_cons] at hnames
    -- A field has only one member, since the names of the fields are distinct.
    have hother : ∀ {others : List (String × Value)}, rest.Reads levels others t →
        ∀ m ∈ others, m.1 ≠ f.name := by
      intro others hrest m hm heq
      exact hnames.1 (heq ▸ names_of_reads hrest m hm)
    rcases h with ⟨v, others, rfl, hv, hrest⟩ | ⟨hdefault, hrest⟩
    · obtain ⟨slots, hplace, hfinish⟩ := ih hnames.2 hrest
      refine ⟨(some a, slots), ?_, ?_⟩
      · have hskip := placeAll_field levels f rest (some a) (hother hrest) rest.empty
        simp only [Members.ofValues, placeAll, empty, place, Decoded.ofDefect, ok_bind, if_true,
          hv, pure_eq_ok, hskip, hplace, map_ok]
      · simp only [finish, Option.some_or, hfinish, ok_bind, pure_eq_ok]
    · obtain ⟨slots, hplace, hfinish⟩ := ih hnames.2 hrest
      refine ⟨(Option.none, slots), ?_, ?_⟩
      · rw [empty, placeAll_field levels f rest _ (hother hrest), hplace, map_ok]
      · simp only [finish, Option.none_or, hdefault, hfinish, ok_bind, pure_eq_ok]

/-- An object whose members hold a tuple reads as that tuple. -/
theorem decode_of_reads {τ σ : Type} {fs : Fields τ σ} (type : String) (hnames : fs.names.Nodup)
    {ms : List (String × Value)} {t : τ} (h : fs.Reads levels ms t) :
    fs.decode type (levels + 1) (.object (.ofValues ms)) = .ok t := by
  obtain ⟨slots, hplace, hfinish⟩ := placeAll_of_reads hnames h
  simp only [decode, Nat.add_one_ne_zero, if_false, Nat.add_sub_cancel, hplace, ok_bind, hfinish]

/-! ### From the tuple to what was read -/

/-- Before anything is read no slot is filled. -/
theorem filled_empty {τ σ : Type} (fs : Fields τ σ) : fs.Filled levels fs.empty := by
  induction fs with
  | none => trivial
  | field f rest ih =>
    refine ⟨?_, ih⟩
    intro a ha
    cases ha

/-- Placing one member keeps what fills the slots read. -/
theorem filled_place {τ σ : Type} {fs : Fields τ σ} {key : String} {value : Node}
    {slots slots' : σ} (h : fs.Filled levels slots)
    (hplace : fs.place levels key value slots = .ok slots') : fs.Filled levels slots' := by
  induction fs with
  | none => trivial
  | field f rest ih =>
    obtain ⟨slot, slots⟩ := slots
    simp only [place] at hplace
    split at hplace
    · cases slot with
      | some a => cases hplace
      | none =>
        obtain ⟨a, ha, heq⟩ := bind_eq_ok_iff.mp hplace
        cases heq
        refine ⟨?_, h.2⟩
        intro b hb
        cases hb
        exact ⟨value, ha⟩
    · obtain ⟨slots'', hrest, heq⟩ := bind_eq_ok_iff.mp hplace
      cases heq
      exact ⟨h.1, ih h.2 hrest⟩

/-- Placing all members keeps what fills the slots read. -/
theorem filled_placeAll {τ σ : Type} {fs : Fields τ σ} :
    ∀ (ms : Members) {slots slots' : σ}, fs.Filled levels slots →
      fs.placeAll levels ms slots = .ok slots' → fs.Filled levels slots'
  | .closed, _, _, h, hplace => by
    cases hplace
    exact h
  | .broken _, _, _, _, hplace => by cases hplace
  | .keyless, _, _, _, hplace => by cases hplace
  | .cons key value rest, slots, slots', h, hplace => by
    obtain ⟨k, _, hplace⟩ := bind_eq_ok_iff.mp hplace
    obtain ⟨slots'', hfirst, hrest⟩ := bind_eq_ok_iff.mp hplace
    exact filled_placeAll rest (filled_place h hfirst) hrest

/-- The tuple takes its values from filled slots and defaults. -/
theorem drawn_finish {τ σ : Type} {fs : Fields τ σ} {slots : σ} {t : τ}
    (h : fs.Filled levels slots) (hfinish : fs.finish slots = .ok t) : fs.Drawn levels t := by
  induction fs with
  | none => trivial
  | field f rest ih =>
    obtain ⟨slot, slots⟩ := slots
    obtain ⟨a, t⟩ := t
    rw [finish] at hfinish
    split at hfinish
    · rename_i b hb
      obtain ⟨t', hrest, heq⟩ := bind_eq_ok_iff.mp hfinish
      cases heq
      refine ⟨?_, ih h.2 hrest⟩
      cases slot with
      | some c =>
        cases hb
        exact Or.inr (h.1 _ rfl)
      | none => exact Or.inl hb
    · cases hfinish

/-- The tuple read off an array takes its values from items and defaults. -/
theorem drawn_takeItems {τ σ : Type} {fs : Fields τ σ} {expected : String} {done : Nat}
    {items left : Items} {t : τ}
    (h : fs.takeItems levels expected done items = .ok (t, left)) : fs.Drawn levels t := by
  induction fs generalizing done items with
  | none => trivial
  | field f rest ih =>
    cases items with
    | closed =>
      rw [takeItems] at h
      split at h
      · rename_i b hb
        obtain ⟨⟨t', left'⟩, hrest, heq⟩ := bind_eq_ok_iff.mp h
        cases heq
        exact ⟨Or.inl hb, ih hrest⟩
      · cases h
    | broken d => cases h
    | cons node items =>
      rw [takeItems] at h
      obtain ⟨b, hb, h⟩ := bind_eq_ok_iff.mp h
      obtain ⟨⟨t', left'⟩, hrest, heq⟩ := bind_eq_ok_iff.mp h
      cases heq
      exact ⟨Or.inr ⟨node, hb⟩, ih hrest⟩

/-- A record can be read only with a level for it, and each of its values is a default or was
read one level further in. -/
theorem drawn_of_decode {τ σ : Type} {fs : Fields τ σ} {type : String} {n : Nat} {node : Node}
    {t : τ} (h : fs.decode type n node = .ok t) : 0 < n ∧ fs.Drawn (n - 1) t := by
  unfold decode at h
  split at h
  · split at h
    · cases h
    · obtain ⟨slots, hplace, hfinish⟩ := bind_eq_ok_iff.mp h
      exact ⟨by omega, drawn_finish (filled_placeAll _ (filled_empty fs) hplace) hfinish⟩
  · split at h
    · cases h
    · obtain ⟨⟨t', left⟩, htake, h⟩ := bind_eq_ok_iff.mp h
      obtain ⟨_, _, heq⟩ := bind_eq_ok_iff.mp h
      cases heq
      exact ⟨by omega, drawn_takeItems htake⟩
  · unfold Node.refuse at h
    split at h <;> cases h

end Fields

end Introspection.Json
