import Introspection.Entity.Callable
import Introspection.Json.Codec

/-!
# `Introspection.Namespace.Table`: named things in order

A `Table` keeps named things in the order in which their names first came, at most one for each
name. Adding a thing whose name is there puts it in the place of the old one.

* `Table.ofList?` makes a table of a list whose names are distinct, or tells the first name that
  comes again.
* `Table.insert` adds or replaces.
* `Table.find?` looks a name up.
-/

set_option autoImplicit false

namespace Introspection

open Introspection.Json

/-- The names of a list of things, in order. -/
def namesOf {α : Type} [Named α] (as : List α) : List String := as.map Named.name

/-- Puts a thing in the place of the one with its name, or at the end. -/
def putByName {α : Type} [Named α] (a : α) : List α → List α
  | [] => [a]
  | b :: bs => if Named.name b = Named.name a then a :: bs else b :: putByName a bs

@[simp] theorem namesOf_nil {α : Type} [Named α] : namesOf ([] : List α) = [] := rfl

@[simp] theorem namesOf_cons {α : Type} [Named α] (a : α) (as : List α) :
    namesOf (a :: as) = Named.name a :: namesOf as := rfl

/-- Replacing keeps the names as they are, appending adds the one name. -/
theorem namesOf_putByName {α : Type} [Named α] (a : α) (as : List α) :
    namesOf (putByName a as)
      = if Named.name a ∈ namesOf as then namesOf as else namesOf as ++ [Named.name a] := by
  induction as with
  | nil => simp [putByName]
  | cons b bs ih =>
    by_cases h : Named.name b = Named.name a
    · simp [putByName, h]
    · have h' : ¬Named.name a = Named.name b := fun e => h e.symm
      by_cases hm : Named.name a ∈ namesOf bs
      · simp [putByName, h, ih, hm]
      · simp [putByName, h, h', ih, hm]

/-- Names stay distinct when a thing is put by its name. -/
theorem nodup_putByName {α : Type} [Named α] (a : α) {as : List α} (h : (namesOf as).Nodup) :
    (namesOf (putByName a as)).Nodup := by
  rw [namesOf_putByName]
  split
  · exact h
  · rename_i hn
    exact List.nodup_append.mpr
      ⟨h, by simp, fun x hx y hy e => hn (by simp_all)⟩

/-- Named things in order, with distinct names. -/
structure Table (α : Type) [Named α] where
  entries : List α
  nodup : (namesOf entries).Nodup

namespace Table

variable {α : Type} [Named α]

/-- No entries. -/
def empty : Table α := ⟨[], .nil⟩

instance : Inhabited (Table α) := ⟨empty⟩

/-- Names of the entries, in order. -/
def names (t : Table α) : List String := namesOf t.entries

/-- Adds an entry at the end, or in the place of the entry with its name. -/
def insert (t : Table α) (a : α) : Table α := ⟨putByName a t.entries, nodup_putByName a t.nodup⟩

/-- The entry of a name. -/
def find? (t : Table α) (name : String) : Option α :=
  t.entries.find? fun a => Named.name a == name

/-- The first name of a list that has come before. -/
def firstRepeated (seen : List String) : List α → Option String
  | [] => none
  | a :: as =>
    if Named.name a ∈ seen then some (Named.name a) else firstRepeated (Named.name a :: seen) as

/-- Without a repeated name, the names are distinct and new. -/
theorem nodup_of_firstRepeated {seen : List String} {as : List α}
    (h : firstRepeated seen as = none) :
    (namesOf as).Nodup ∧ ∀ n ∈ namesOf as, n ∉ seen := by
  induction as generalizing seen with
  | nil => simp
  | cons a as ih =>
    unfold firstRepeated at h
    split at h
    · simp at h
    · rename_i hn
      obtain ⟨hd, hs⟩ := ih h
      simp only [namesOf_cons, List.nodup_cons, List.mem_cons]
      refine ⟨⟨fun hm => ?_, hd⟩, ?_⟩
      · exact hs _ hm (by simp)
      · rintro n (rfl | hm)
        · exact hn
        · exact fun hs' => hs n hm (by simp [hs'])

/-- The table of a list of entries, or the first name that comes again. -/
def ofList? (as : List α) : Except String (Table α) :=
  match h : firstRepeated [] as with
  | some name => .error name
  | none => .ok ⟨as, (nodup_of_firstRepeated h).1⟩

/-- Tables as arrays. Names are compared once the whole array is read. -/
def codec (c : Codec α) : Codec (Table α) where
  encode t := c.list.encode t.entries
  decode levels node := do
    match ofList? (← c.list.decode levels node) with
    | .ok t => .ok t
    | .error name => .error (.repeatedEntry name)

end Table

end Introspection
