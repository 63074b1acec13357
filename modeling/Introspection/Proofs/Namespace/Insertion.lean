import Introspection.Namespace.Table
import Mathlib.Data.List.Induction
import Mathlib.Data.List.Nodup

/-!
# `Introspection.Proofs.Namespace.Insertion`: what is in a table after insertions

A table that things are put in, one after the other, is an ordered map from names to things
(`Keyed.ofHistory`): the keys are the names of the entries. `Table.Records` says what it holds.
The names stand in the order in which they first came, and to each of them belongs the thing that
came last with that name (`latest`).

`Table.records_foldl` proves this for all sequences of insertions. A table that is made of a list
is one of them (`Table.foldl_insert_entries`).
-/

set_option autoImplicit false

namespace Introspection

variable {α : Type} [Named α]

/-- The first thing of a name is the first one, or the first of the others. -/
theorem find?_name_cons (a : α) (as : List α) (name : String) :
    (a :: as).find? (fun b => Named.name b == name)
      = if Named.name a = name then some a else as.find? fun b => Named.name b == name := by
  by_cases h : Named.name a = name
  · rw [if_pos h]
    exact List.find?_cons_of_pos (beq_iff_eq.mpr h)
  · rw [if_neg h]
    exact List.find?_cons_of_neg (by rwa [beq_iff_eq])

theorem namesOf_concat (as : List α) (a : α) :
    namesOf (as ++ [a]) = namesOf as ++ [Named.name a] :=
  List.map_append

/-- The thing of that name that came last. -/
def latest (history : List α) (name : String) : Option α :=
  history.reverse.find? fun a => Named.name a == name

theorem latest_concat (history : List α) (a : α) (name : String) :
    latest (history ++ [a]) name = if Named.name a = name then some a else latest history name := by
  rw [latest, List.reverse_concat, find?_name_cons]
  rfl

/-! ### Maps with keys -/

/-- Entries under keys, in order. -/
abbrev Keyed (α : Type) : Type := List (String × α)

namespace Keyed

/-- Puts a value under a key: in the place of the old one, or at the end. -/
def put {α : Type} (key : String) (a : α) : Keyed α → Keyed α
  | [] => [(key, a)]
  | (k, b) :: rest => if k = key then (k, a) :: rest else (k, b) :: put key a rest

/-- Things under their names, put there one after the other. -/
def ofHistory (history : List α) : Keyed α :=
  history.foldl (fun m a => m.put (Named.name a) a) []

/-- Things under their names. -/
def ofEntries (as : List α) : Keyed α := as.map fun a => (Named.name a, a)

/-- Putting by name is putting under the name. -/
theorem put_ofEntries (a : α) (as : List α) :
    (ofEntries as).put (Named.name a) a = ofEntries (putByName a as) := by
  induction as with
  | nil => rfl
  | cons b bs ih =>
    change (if Named.name b = Named.name a then (Named.name b, a) :: ofEntries bs
      else (Named.name b, b) :: (ofEntries bs).put (Named.name a) a) = _
    by_cases h : Named.name b = Named.name a
    · rw [if_pos h, putByName, if_pos h, h]
      rfl
    · rw [if_neg h, putByName, if_neg h, ih]
      rfl

end Keyed

/-! ### Looking up -/

theorem find?_putByName (a : α) (as : List α) (name : String) :
    (putByName a as).find? (fun b => Named.name b == name)
      = if Named.name a = name then some a else as.find? fun b => Named.name b == name := by
  induction as with
  | nil => exact find?_name_cons a [] name
  | cons b bs ih =>
    rw [putByName, find?_name_cons b bs]
    by_cases hsame : Named.name b = Named.name a
    · rw [if_pos hsame, find?_name_cons, hsame]
      split <;> rfl
    · rw [if_neg hsame, find?_name_cons, ih]
      by_cases h : Named.name b = name
      · rw [if_pos h, if_pos h, if_neg fun ha => hsame (h.trans ha.symm)]
      · rw [if_neg h, if_neg h]

/-- Where names are distinct, one thing has the name, or none. -/
theorem filter_name_eq {as : List α} (h : (namesOf as).Nodup) (name : String) :
    as.filter (fun a => Named.name a = name)
      = (as.find? fun a => Named.name a == name).toList := by
  induction as with
  | nil => rfl
  | cons a as ih =>
    rw [namesOf_cons, List.nodup_cons] at h
    rw [find?_name_cons]
    by_cases hname : Named.name a = name
    · have hothers : ∀ b ∈ as, ¬Named.name b = name := by
        intro b hb heq
        exact h.1 (hname.trans heq.symm ▸ List.mem_map_of_mem hb)
      simpa [hname] using hothers
    · simpa [hname] using ih h.2

namespace Table

theorem find?_insert (t : Table α) (a : α) (name : String) :
    (t.insert a).find? name = if Named.name a = name then some a else t.find? name :=
  find?_putByName a t.entries name

theorem names_insert (t : Table α) (a : α) :
    (t.insert a).names = if Named.name a ∈ t.names then t.names else t.names ++ [Named.name a] :=
  namesOf_putByName a t.entries

/-- The table holds what has come: `history`, from the first thing to the last. -/
structure Records (t : Table α) (history : List α) : Prop where
  /-- The keys are the names of the entries. -/
  keyed : Keyed.ofHistory history = Keyed.ofEntries t.entries
  /-- Names stand where they first came. -/
  order : t.names = (namesOf history).eraseDups
  /-- Each name has the thing that came last. -/
  find? : ∀ name, t.find? name = latest history name

/-- The next thing is recorded. -/
theorem Records.insert {t : Table α} {history : List α} (h : t.Records history) (a : α) :
    (t.insert a).Records (history ++ [a]) where
  keyed := by
    rw [Keyed.ofHistory, List.foldl_concat]
    show (Keyed.ofHistory history).put (Named.name a) a = _
    rw [h.keyed, Keyed.put_ofEntries]
    rfl
  order := by
    have hmem : Named.name a ∈ t.names ↔ Named.name a ∈ namesOf history := by
      rw [h.order, List.mem_eraseDups]
    rw [names_insert, namesOf_concat, List.eraseDups_append, ← h.order]
    -- A name that is there already adds nothing on either side.
    by_cases hold : Named.name a ∈ namesOf history
    · rw [if_pos (hmem.mpr hold)]
      simp [List.removeAll, hold]
    · rw [if_neg (mt hmem.mp hold)]
      simp [List.removeAll, hold, List.eraseDups_cons]
  find? name := by
    rw [find?_insert, latest_concat, h.find?]

/-- Whatever is put in a table one after the other, the table records it. -/
theorem records_foldl (history : List α) : (history.foldl insert empty).Records history := by
  induction history using List.reverseRecOn with
  | nil => exact ⟨rfl, rfl, fun _ => rfl⟩
  | append_singleton history a ih =>
    rw [List.foldl_concat]
    exact ih.insert a

theorem ext {t t' : Table α} (h : t.entries = t'.entries) : t = t' := by
  cases t
  cases t'
  cases h
  rfl

/-- A thing with a new name comes last. -/
theorem putByName_of_not_mem {a : α} {as : List α} (h : Named.name a ∉ namesOf as) :
    putByName a as = as ++ [a] := by
  induction as with
  | nil => rfl
  | cons b bs ih =>
    rw [namesOf_cons, List.mem_cons, not_or] at h
    rw [putByName, if_neg (Ne.symm h.1), ih h.2, List.cons_append]

/-- Things with distinct names, put in one after the other, are the entries. -/
theorem entries_foldl_insert {as : List α} (h : (namesOf as).Nodup) :
    (as.foldl insert empty).entries = as := by
  induction as using List.reverseRecOn with
  | nil => rfl
  | append_singleton as a ih =>
    rw [namesOf_concat, List.nodup_append] at h
    obtain ⟨hfirst, -, hnew⟩ := h
    rw [List.foldl_concat]
    show putByName a (as.foldl insert empty).entries = _
    rw [ih hfirst]
    refine putByName_of_not_mem fun hmem => ?_
    exact hnew _ hmem _ (List.mem_singleton.mpr rfl) rfl

/-- A table is what comes of putting its entries in one after the other. -/
theorem foldl_insert_entries (t : Table α) : t.entries.foldl insert empty = t :=
  ext (entries_foldl_insert t.nodup)

end Table

end Introspection
