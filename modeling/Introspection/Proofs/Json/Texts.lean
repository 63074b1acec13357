import Introspection.Json.Codec
import Introspection.Proofs.Text.Escape

/-!
# `Introspection.Proofs.Json.Texts`: the texts in written values

Everything that a value of the data knows is in its written form, so the texts in that form
(`Value.texts`) are all texts that the value has. `Codec.EscapeFree` says that none of them holds an
escape character. Numbers and truth values have no texts, and a record has those of its fields.
-/

set_option autoImplicit false

namespace Introspection.Json

namespace Value

mutual

/-- The texts in a value, the names of members left aside. -/
def texts : Value → List String
  | .string s => [s]
  | .array items => textsOfItems items
  | .object members => textsOfMembers members
  | _ => []

/-- The texts in items. -/
def textsOfItems : List Value → List String
  | [] => []
  | v :: vs => v.texts ++ textsOfItems vs

/-- The texts in members. -/
def textsOfMembers : List (String × Value) → List String
  | [] => []
  | (_, v) :: rest => v.texts ++ textsOfMembers rest

end

/-- No text in the value holds an escape character. -/
def EscapeFree (v : Value) : Prop := ∀ s ∈ v.texts, Text.EscapeFree s

instance : DecidablePred EscapeFree :=
  fun v => inferInstanceAs (Decidable (∀ s ∈ v.texts, Text.EscapeFree s))

theorem textsOfItems_eq_flatMap (vs : List Value) : textsOfItems vs = vs.flatMap texts := by
  induction vs with
  | nil => rfl
  | cons v vs ih => rw [textsOfItems, List.flatMap_cons, ih]

theorem textsOfMembers_eq_flatMap (ms : List (String × Value)) :
    textsOfMembers ms = ms.flatMap fun m => m.2.texts := by
  induction ms with
  | nil => rfl
  | cons m ms ih => rw [textsOfMembers, List.flatMap_cons, ih]

@[simp] theorem escapeFree_null : EscapeFree .null := nofun

@[simp] theorem escapeFree_bool (b : Bool) : EscapeFree (.bool b) := nofun

@[simp] theorem escapeFree_integer (n : Int) : EscapeFree (.integer n) := nofun

@[simp] theorem escapeFree_string {s : String} : EscapeFree (.string s) ↔ Text.EscapeFree s :=
  List.forall_mem_singleton

@[simp] theorem escapeFree_array {vs : List Value} :
    EscapeFree (.array vs) ↔ ∀ v ∈ vs, v.EscapeFree := by
  unfold EscapeFree
  rw [texts, textsOfItems_eq_flatMap]
  exact List.forall_mem_flatMap

@[simp] theorem escapeFree_object {ms : List (String × Value)} :
    EscapeFree (.object ms) ↔ ∀ m ∈ ms, m.2.EscapeFree := by
  unfold EscapeFree
  rw [texts, textsOfMembers_eq_flatMap]
  exact List.forall_mem_flatMap

end Value

/-! ### Values by their codecs -/

/-- The written form has no text with an escape character. -/
def Codec.EscapeFree {α : Type} (c : Codec α) (a : α) : Prop := (c.encode a).EscapeFree

/-- The written fields have no text with an escape character. -/
def Fields.EscapeFree {τ σ : Type} (fs : Fields τ σ) (t : τ) : Prop :=
  ∀ m ∈ fs.encode t, m.2.EscapeFree

namespace Codec

variable {α τ σ : Type}

@[simp] theorem escapeFree_bool (b : Bool) : bool.EscapeFree b := Value.escapeFree_bool b

@[simp] theorem escapeFree_int64 (n : Int64) : int64.EscapeFree n := Value.escapeFree_integer _

@[simp] theorem escapeFree_uint64 (n : UInt64) : uint64.EscapeFree n := Value.escapeFree_integer _

@[simp] theorem escapeFree_string {s : String} : string.EscapeFree s ↔ Text.EscapeFree s :=
  Value.escapeFree_string

@[simp] theorem escapeFree_choice {nameOf : α → String} {all : List α} {a : α} :
    (choice nameOf all).EscapeFree a ↔ Text.EscapeFree (nameOf a) :=
  Value.escapeFree_string

@[simp] theorem escapeFree_optional {c : Codec α} {o : Option α} :
    c.optional.EscapeFree o ↔ ∀ a, o = some a → c.EscapeFree a := by
  cases o with
  | none => exact ⟨nofun, fun _ => Value.escapeFree_null⟩
  | some a => exact ⟨fun h b hb => Option.some.inj hb ▸ h, fun h => h a rfl⟩

@[simp] theorem escapeFree_list {c : Codec α} {as : List α} :
    c.list.EscapeFree as ↔ ∀ a ∈ as, c.EscapeFree a := by
  unfold EscapeFree
  rw [list, Value.escapeFree_array]
  exact List.forall_mem_map

/-- A record has the texts of its fields. -/
theorem escapeFree_record {type : String} {fs : Fields τ σ} {toTuple : α → τ} {ofTuple : τ → α}
    {a : α} : (record type fs toTuple ofTuple).EscapeFree a ↔ fs.EscapeFree (toTuple a) :=
  Value.escapeFree_object

end Codec

namespace Fields

variable {α τ σ : Type}

@[simp] theorem escapeFree_none (t : Unit) : none.EscapeFree t := nofun

/-- A field has the texts of its value, if it is written at all. -/
@[simp] theorem escapeFree_field {f : Field α} {rest : Fields τ σ} {a : α} {t : τ} :
    (field f rest).EscapeFree (a, t)
      ↔ (f.hidden a = false → f.codec.EscapeFree a) ∧ rest.EscapeFree t := by
  unfold EscapeFree
  rw [encode]
  cases f.hidden a with
  | true => simp
  | false => simp [Codec.EscapeFree]

end Fields

namespace Field

variable {α : Type} {name : String} {c : Codec α}

@[simp] theorem escapeFree_required {a : α} :
    ((required name c).hidden a = false → (required name c).codec.EscapeFree a)
      ↔ c.EscapeFree a :=
  forall_prop_of_true rfl

@[simp] theorem escapeFree_withDefault {a default : α} :
    ((withDefault name c default).hidden a = false
        → (withDefault name c default).codec.EscapeFree a)
      ↔ c.EscapeFree a :=
  forall_prop_of_true rfl

@[simp] theorem escapeFree_maybe {o : Option α} :
    ((maybe name c).hidden o = false → (maybe name c).codec.EscapeFree o)
      ↔ ∀ a, o = some a → c.EscapeFree a := by
  cases o with
  | none => exact ⟨nofun, nofun⟩
  | some a => exact (forall_prop_of_true rfl).trans Codec.escapeFree_optional

end Field

end Introspection.Json
