import Introspection.Proofs.Json.Record

/-!
# `Introspection.Proofs.Json.Codec`: laws of codecs

Two laws carry the round trip of all written types.

* `Codec.Faithful`: a value is written without loss and what is written reads as that value, as
  long as there are enough levels for it.
* `Codec.Bounded`: a value that was read with so many levels is written no deeper than that.
  Defaults are not read off the text, so the law has a `floor` that says how deep they may go.

Each codec that is made of others has the laws when its parts have them, one level further in. A
record needs distinct names of fields besides. The lemmas are tagged for `simp`, which proves the
laws of the fields of a record from those of their codecs.
-/

set_option autoImplicit false

namespace Introspection.Json

variable {α : Type}

/-- A value is written without loss and reads back. -/
structure Codec.Faithful (c : Codec α) (a : α) : Prop where
  exact : (c.encode a).Exact
  decode_encode : ∀ levels, (c.encode a).depth ≤ levels →
    c.decode levels (.ofValue (c.encode a)) = .ok a

/-- What was read with `levels` levels is written no deeper than that, or than `floor`. -/
def Codec.Bounded (c : Codec α) (levels floor : Nat) : Prop :=
  ∀ node a, c.decode levels node = .ok a → (c.encode a).depth ≤ max levels floor

/-- One level further out there is one more level. -/
theorem succ_le_max {d levels floor : Nat} (hpos : 0 < levels)
    (h : d ≤ max (levels - 1) (floor - 1)) : d + 1 ≤ max levels floor := by
  omega

namespace Codec

/-- A codec that opens no array and no object is bounded by anything. -/
theorem bounded_of_depth {c : Codec α} {levels floor : Nat} (h : ∀ a, (c.encode a).depth = 0) :
    c.Bounded levels floor := by
  intro node a _
  rw [h a]
  exact Nat.zero_le _

/-! ### Scalars -/

@[simp] theorem faithful_bool (b : Bool) : bool.Faithful b := ⟨trivial, fun _ _ => rfl⟩

@[simp] theorem bounded_bool (levels floor : Nat) : bool.Bounded levels floor :=
  bounded_of_depth fun _ => rfl

@[simp] theorem faithful_string (s : String) : string.Faithful s := ⟨trivial, fun _ _ => rfl⟩

@[simp] theorem bounded_string (levels floor : Nat) : string.Bounded levels floor :=
  bounded_of_depth fun _ => rfl

/-- Every whole number of 64 bits with a sign is written exactly and read. -/
@[simp] theorem faithful_int64 (n : Int64) : int64.Faithful n := by
  have hlow := n.minValue_le_toInt
  have hhigh := n.toInt_le
  have hmax : Int64.maxValue.toInt < UInt64.size := by decide
  refine ⟨⟨hlow, by omega⟩, ?_⟩
  intro levels _
  simp only [int64, Node.ofValue, if_pos (And.intro hlow hhigh), Int64.ofInt_toInt]

@[simp] theorem bounded_int64 (levels floor : Nat) : int64.Bounded levels floor :=
  bounded_of_depth fun _ => rfl

/-- Every whole number of 64 bits without a sign is written exactly and read. -/
@[simp] theorem faithful_uint64 (n : UInt64) : uint64.Faithful n := by
  have hhigh : n.toNat < UInt64.size := n.toFin.isLt
  have hmin : Int64.minValue.toInt ≤ 0 := by decide
  have hrange : (0 : Int) ≤ n.toNat ∧ (n.toNat : Int) < UInt64.size := ⟨by omega, by omega⟩
  refine ⟨⟨by omega, hrange.2⟩, ?_⟩
  intro levels _
  simp only [uint64, Node.ofValue, if_pos hrange, Int.toNat_natCast, UInt64.ofNat_toNat]

@[simp] theorem bounded_uint64 (levels floor : Nat) : uint64.Bounded levels floor :=
  bounded_of_depth fun _ => rfl

/-- A name reads back when it is the name of nothing that comes earlier. -/
theorem faithful_choice {nameOf : α → String} {all : List α} {a : α}
    (h : (all.map fun b => (nameOf b, b)).lookup (nameOf a) = some a) :
    (choice nameOf all).Faithful a := by
  refine ⟨trivial, ?_⟩
  intro levels _
  show decodeName _ (nameOf a) = _
  rw [decodeName, h]

@[simp] theorem bounded_choice (nameOf : α → String) (all : List α) (levels floor : Nat) :
    (choice nameOf all).Bounded levels floor :=
  bounded_of_depth fun _ => rfl

/-! ### Values that may be null -/

/-- A value that is not written as `null` is not mistaken for nothing. -/
theorem faithful_optional {c : Codec α} {a : α} (h : c.Faithful a) (hnull : c.encode a ≠ .null) :
    c.optional.Faithful (some a) := by
  refine ⟨h.exact, ?_⟩
  intro levels hlevels
  have hread := h.decode_encode levels hlevels
  simp only [optional]
  split
  · rename_i heq
    cases hvalue : c.encode a with
    | null => exact absurd hvalue hnull
    | _ =>
      rw [hvalue] at heq
      cases heq
  · rw [hread, map_ok]

@[simp] theorem bounded_optional {c : Codec α} {levels floor : Nat} (h : c.Bounded levels floor) :
    c.optional.Bounded levels floor := by
  intro node a hread
  cases a with
  | none => exact Nat.zero_le _
  | some a =>
    refine h node a ?_
    simp only [optional] at hread
    split at hread
    · cases hread
    · obtain ⟨b, hb, heq⟩ := map_eq_ok_iff.mp hread
      cases heq
      exact hb

/-! ### What is never null, and what opens a level -/

@[simp] theorem encode_string_ne_null (s : String) : string.encode s ≠ .null := nofun

@[simp] theorem encode_uint64_ne_null (n : UInt64) : uint64.encode n ≠ .null := nofun

@[simp] theorem depth_encode_bool (b : Bool) : (bool.encode b).depth = 0 := (rfl)

@[simp] theorem depth_encode_uint64 (n : UInt64) : (uint64.encode n).depth = 0 := (rfl)

@[simp] theorem depth_encode_choice (nameOf : α → String) (all : List α) (a : α) :
    ((choice nameOf all).encode a).depth = 0 :=
  (rfl)

@[simp] theorem depth_encode_nil (c : Codec α) : (c.list.encode []).depth = 1 := (rfl)

/-! ### Arrays -/

/-- Items that read back one by one read back together. -/
theorem decode_ofValues {write : α → Value} {read : Node → Decoded α} {as : List α}
    (h : ∀ a ∈ as, read (.ofValue (write a)) = .ok a) :
    (Items.ofValues (as.map write)).decode read = .ok as := by
  induction as with
  | nil => rfl
  | cons a as ih =>
    have ha := h a List.mem_cons_self
    have has := ih fun b hb => h b (List.mem_cons_of_mem _ hb)
    simp only [List.map_cons, Items.ofValues, Items.decode, ha, has, ok_bind, pure_eq_ok]

/-- Every item of an array that was read was read off a node. -/
theorem exists_node_of_decode {read : Node → Decoded α} :
    ∀ {items : Items} {as : List α}, items.decode read = .ok as →
      ∀ a ∈ as, ∃ node, read node = .ok a
  | .closed, _, h, a, ha => by
    cases h
    cases ha
  | .broken _, _, h, _, _ => by cases h
  | .cons node rest, as, h, a, ha => by
    rw [Items.decode] at h
    obtain ⟨b, hb, h⟩ := bind_eq_ok_iff.mp h
    obtain ⟨bs, hbs, heq⟩ := bind_eq_ok_iff.mp h
    cases heq
    cases ha with
    | head => exact ⟨node, hb⟩
    | tail _ ha => exact exists_node_of_decode hbs a ha

/-- An array can be read only with a level for it, and then its items one level further in. -/
theorem levels_of_decodeList {read : Node → Decoded α} {levels : Nat} {node : Node}
    {as : List α} (h : node.decodeList levels read = .ok as) :
    0 < levels ∧ ∀ a ∈ as, ∃ item, read item = .ok a := by
  unfold Node.decodeList at h
  split at h
  · split at h
    · cases h
    · exact ⟨by omega, exists_node_of_decode h⟩
  · unfold Node.refuse at h
    split at h <;> cases h

theorem exactItems_map {write : α → Value} {as : List α} (h : ∀ a ∈ as, (write a).Exact) :
    Value.ExactItems (as.map write) := by
  induction as with
  | nil => trivial
  | cons a as ih =>
    exact ⟨h a List.mem_cons_self, ih fun b hb => h b (List.mem_cons_of_mem _ hb)⟩

/-- The items of an array are no deeper than the deepest one. -/
theorem depthOfItems_map_le_iff {write : α → Value} {as : List α} {n : Nat} :
    Value.depthOfItems (as.map write) ≤ n ↔ ∀ a ∈ as, (write a).depth ≤ n := by
  induction as with
  | nil => simp [Value.depthOfItems]
  | cons a as ih =>
    simp only [List.map_cons, Value.depthOfItems, List.forall_mem_cons, Nat.max_le, ih]

@[simp] theorem faithful_list {c : Codec α} {as : List α} (h : ∀ a ∈ as, c.Faithful a) :
    c.list.Faithful as := by
  refine ⟨exactItems_map fun a ha => (h a ha).exact, ?_⟩
  intro levels hlevels
  cases levels with
  | zero => exact absurd hlevels (Nat.not_succ_le_zero _)
  | succ levels =>
    have hitems := depthOfItems_map_le_iff.mp (Nat.le_of_succ_le_succ hlevels)
    have hread : Items.decode (c.decode levels) (.ofValues (as.map c.encode)) = .ok as :=
      decode_ofValues fun a ha => (h a ha).decode_encode levels (hitems a ha)
    simpa only [list, Node.ofValue, Node.decodeList, Nat.add_one_ne_zero, if_false,
      Nat.add_sub_cancel] using hread

/-- The items of an array are one level further in than the array. -/
@[simp] theorem bounded_list {c : Codec α} {levels floor : Nat}
    (h : c.Bounded (levels - 1) (floor - 1)) : c.list.Bounded levels floor := by
  intro node as hread
  obtain ⟨hpos, hitems⟩ := levels_of_decodeList hread
  have hdepth : Value.depthOfItems (as.map c.encode) ≤ max (levels - 1) (floor - 1) := by
    rw [depthOfItems_map_le_iff]
    intro a ha
    obtain ⟨item, hitem⟩ := hitems a ha
    exact h item a hitem
  exact succ_le_max hpos hdepth

end Codec

/-! ### Fields -/

/-- A value of a field reads back: a hidden one is the default. -/
def Field.Faithful (f : Field α) (a : α) : Prop :=
  (f.hidden a = true ∧ f.default? = some a) ∨ (f.hidden a = false ∧ f.codec.Faithful a)

/-- What a field holds after reading is no deeper than the levels that there were, or `floor`. -/
def Field.Bounded (f : Field α) (levels floor : Nat) : Prop :=
  f.codec.Bounded levels floor
    ∧ ∀ a, f.default? = some a → f.hidden a = false → (f.codec.encode a).depth ≤ floor

namespace Field

@[simp] theorem faithful_required {name : String} {c : Codec α} {a : α} (h : c.Faithful a) :
    (required name c).Faithful a :=
  Or.inr ⟨rfl, h⟩

@[simp] theorem bounded_required {name : String} {c : Codec α} {levels floor : Nat}
    (h : c.Bounded levels floor) : (required name c).Bounded levels floor :=
  ⟨h, fun _ hdefault => by cases hdefault⟩

@[simp] theorem faithful_withDefault {name : String} {c : Codec α} {default a : α}
    (h : c.Faithful a) : (withDefault name c default).Faithful a :=
  Or.inr ⟨rfl, h⟩

/-- A default is not read, so that it has to be within the floor by itself. -/
@[simp] theorem bounded_withDefault {name : String} {c : Codec α} {default : α}
    {levels floor : Nat} (h : c.Bounded levels floor)
    (hdefault : (c.encode default).depth ≤ floor) :
    (withDefault name c default).Bounded levels floor := by
  refine ⟨h, ?_⟩
  intro a ha _
  cases ha
  exact hdefault

/-- Nothing is hidden and is the default; something is written. -/
@[simp] theorem faithful_maybe {name : String} {c : Codec α} {a : Option α}
    (h : ∀ b, c.Faithful b) (hnull : ∀ b, c.encode b ≠ .null) : (maybe name c).Faithful a := by
  cases a with
  | none => exact Or.inl ⟨rfl, rfl⟩
  | some b => exact Or.inr ⟨rfl, Codec.faithful_optional (h b) (hnull b)⟩

@[simp] theorem bounded_maybe {name : String} {c : Codec α} {levels floor : Nat}
    (h : c.Bounded levels floor) : (maybe name c).Bounded levels floor := by
  refine ⟨Codec.bounded_optional h, ?_⟩
  intro a ha _
  cases ha
  exact Nat.zero_le _

end Field

namespace Fields

/-- All values of a tuple read back. -/
def Faithful : {τ σ : Type} → Fields τ σ → τ → Prop
  | _, _, .none, _ => True
  | _, _, .field f rest, (a, t) => f.Faithful a ∧ rest.Faithful t

/-- All fields are bounded. -/
def Bounded (levels floor : Nat) : {τ σ : Type} → Fields τ σ → Prop
  | _, _, .none => True
  | _, _, .field f rest => f.Bounded levels floor ∧ rest.Bounded levels floor

@[simp] theorem faithful_none : Fields.none.Faithful () := trivial

@[simp] theorem faithful_field {τ σ : Type} (f : Field α) (rest : Fields τ σ) (a : α) (t : τ) :
    (Fields.field f rest).Faithful (a, t) ↔ f.Faithful a ∧ rest.Faithful t :=
  Iff.rfl

@[simp] theorem bounded_none (levels floor : Nat) : Fields.none.Bounded levels floor := trivial

@[simp] theorem bounded_field {τ σ : Type} (f : Field α) (rest : Fields τ σ)
    (levels floor : Nat) : (Fields.field f rest).Bounded levels floor
      ↔ f.Bounded levels floor ∧ rest.Bounded levels floor :=
  Iff.rfl

theorem exactMembers_encode {τ σ : Type} {fs : Fields τ σ} {t : τ} (h : fs.Faithful t) :
    Value.ExactMembers (fs.encode t) := by
  induction fs with
  | none => trivial
  | field f rest ih =>
    obtain ⟨a, t⟩ := t
    rw [encode]
    rcases h.1 with ⟨hhidden, _⟩ | ⟨hhidden, hfaithful⟩
    · rw [if_pos hhidden]
      exact ih h.2
    · rw [if_neg (by simp [hhidden])]
      exact ⟨hfaithful.exact, ih h.2⟩

/-- The members of a tuple hold that tuple. -/
theorem reads_encode {τ σ : Type} {fs : Fields τ σ} {t : τ} (h : fs.Faithful t) {levels : Nat}
    (hlevels : Value.depthOfMembers (fs.encode t) ≤ levels) : fs.Reads levels (fs.encode t) t := by
  induction fs with
  | none => rfl
  | field f rest ih =>
    obtain ⟨a, t⟩ := t
    rw [encode] at hlevels ⊢
    rcases h.1 with ⟨hhidden, hdefault⟩ | ⟨hhidden, hfaithful⟩
    · rw [if_pos hhidden] at hlevels ⊢
      exact Or.inr ⟨hdefault, ih h.2 hlevels⟩
    · rw [if_neg (by simp [hhidden])] at hlevels ⊢
      rw [Value.depthOfMembers, Nat.max_le] at hlevels
      exact Or.inl ⟨_, _, rfl, hfaithful.decode_encode levels hlevels.1, ih h.2 hlevels.2⟩

/-- The members of a tuple that was read are no deeper than the levels that there were. -/
theorem depthOfMembers_encode_le {τ σ : Type} {fs : Fields τ σ} {floor levels : Nat}
    (h : fs.Bounded levels floor) {t : τ} (hdrawn : fs.Drawn levels t) :
    Value.depthOfMembers (fs.encode t) ≤ max levels floor := by
  induction fs with
  | none => exact Nat.zero_le _
  | field f rest ih =>
    obtain ⟨a, t⟩ := t
    have hrest := ih h.2 hdrawn.2
    rw [encode]
    cases hhidden : f.hidden a with
    | true => exact hrest
    | false =>
      have ha : (f.codec.encode a).depth ≤ max levels floor := by
        rcases hdrawn.1 with hdefault | ⟨node, hread⟩
        · have hdepth := h.1.2 a hdefault hhidden
          omega
        · exact h.1.1 node a hread
      exact Nat.max_le.mpr ⟨ha, hrest⟩

end Fields

/-! ### Records -/

namespace Codec

variable {τ σ : Type} {type : String} {fs : Fields τ σ} {toTuple : α → τ} {ofTuple : τ → α}

/-- A record reads back when its values do and its fields have distinct names. -/
theorem faithful_record {a : α} (hnames : fs.names.Nodup) (hof : ofTuple (toTuple a) = a)
    (h : fs.Faithful (toTuple a)) : (record type fs toTuple ofTuple).Faithful a := by
  refine ⟨Fields.exactMembers_encode h, ?_⟩
  intro levels hlevels
  cases levels with
  | zero => exact absurd hlevels (Nat.not_succ_le_zero _)
  | succ levels =>
    have hreads := Fields.reads_encode h (Nat.le_of_succ_le_succ hlevels)
    have hread := Fields.decode_of_reads type hnames hreads
    show (fs.decode type (levels + 1) _).map ofTuple = _
    exact (congrArg (Except.map ofTuple) hread).trans (congrArg Except.ok hof)

/-- A record is bounded when its fields are. -/
theorem bounded_record {levels floor : Nat} (hto : ∀ t, toTuple (ofTuple t) = t)
    (h : fs.Bounded (levels - 1) (floor - 1)) :
    (record type fs toTuple ofTuple).Bounded levels floor := by
  intro node a hread
  obtain ⟨t, ht, rfl⟩ := map_eq_ok_iff.mp hread
  obtain ⟨hpos, hdrawn⟩ := Fields.drawn_of_decode ht
  have hdepth := Fields.depthOfMembers_encode_le h hdrawn
  show Value.depthOfMembers (fs.encode (toTuple (ofTuple t))) + 1 ≤ _
  rw [hto]
  exact succ_le_max hpos hdepth

end Codec

end Introspection.Json
