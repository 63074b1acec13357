import Introspection.Descriptor.Written
import Introspection.Proofs.Json.Codec

/-!
# `Introspection.Proofs.Descriptor.Written`: descriptors read back

The codecs of references, array facts and type descriptors have the laws of codecs. A descriptor
nests as deep as it likes, so for it both laws are proved by induction: `TypeDesc.faithful_codec`
on the descriptor, and `TypeDesc.bounded_codec` on the levels that are left, two for each level
of elements.
-/

set_option autoImplicit false

namespace Introspection

open Introspection.Json

/-! ### Names -/

@[simp] theorem Tag.faithful_codec (t : Tag) : Tag.codec.Faithful t :=
  Codec.faithful_choice (by cases t <;> rfl)

@[simp] theorem Tag.bounded_codec (levels floor : Nat) : Tag.codec.Bounded levels floor :=
  Codec.bounded_choice _ _ levels floor

@[simp] theorem Tag.depth_encode (t : Tag) : (Tag.codec.encode t).depth = 0 := (rfl)

@[simp] theorem ArrayStorage.faithful_codec (s : ArrayStorage) : ArrayStorage.codec.Faithful s :=
  Codec.faithful_choice (by cases s <;> rfl)

@[simp] theorem ArrayStorage.bounded_codec (levels floor : Nat) :
    ArrayStorage.codec.Bounded levels floor :=
  Codec.bounded_choice _ _ levels floor

@[simp] theorem ArrayStorage.depth_encode (s : ArrayStorage) :
    (ArrayStorage.codec.encode s).depth = 0 :=
  (rfl)

@[simp] theorem EntityKind.faithful_codec (k : EntityKind) : EntityKind.codec.Faithful k :=
  Codec.faithful_choice (by cases k <;> rfl)

@[simp] theorem EntityKind.bounded_codec (levels floor : Nat) :
    EntityKind.codec.Bounded levels floor :=
  Codec.bounded_choice _ _ levels floor

/-! ### References and array facts -/

@[simp] theorem EntityRef.faithful_codec (r : EntityRef) : EntityRef.codec.Faithful r :=
  Codec.faithful_record (by decide) rfl (by simp)

@[simp] theorem EntityRef.bounded_codec (levels floor : Nat) :
    EntityRef.codec.Bounded levels floor :=
  Codec.bounded_record (fun _ => rfl) (by simp)

@[simp] theorem EntityRef.encode_ne_null (r : EntityRef) : EntityRef.codec.encode r ≠ .null := nofun

@[simp] theorem ArrayInfo.faithful_codec (a : ArrayInfo) : ArrayInfo.codec.Faithful a :=
  Codec.faithful_record (by decide) rfl (by simp)

@[simp] theorem ArrayInfo.bounded_codec (levels floor : Nat) :
    ArrayInfo.codec.Bounded levels floor :=
  Codec.bounded_record (fun _ => rfl) (by simp)

@[simp] theorem ArrayInfo.encode_ne_null (a : ArrayInfo) : ArrayInfo.codec.encode a ≠ .null := nofun

/-! ### Descriptors -/

namespace TypeDesc

/-- A descriptor reads back when its elements do; without elements there is nothing to read. -/
theorem faithful_codecWith {params : Codec (List TypeDesc)} {t : TypeDesc}
    (h : t.params ≠ [] → params.Faithful t.params) : (codecWith params).Faithful t := by
  have hnames : ["tag", "pointer", "params", "interface", "array"].Nodup := by decide
  have hparams : Field.Faithful
      { name := "params", codec := params, default? := some [], hidden := List.isEmpty }
      t.params := by
    cases hts : t.params with
    | nil => exact Or.inl ⟨rfl, rfl⟩
    | cons u us => exact Or.inr ⟨rfl, hts ▸ h (by simp [hts])⟩
  have hof : mk t.tag t.pointer t.params t.entity t.array = t := by cases t; rfl
  exact Codec.faithful_record hnames hof (by simp [hparams])

/-- A descriptor is bounded when its elements are one level further in. -/
theorem bounded_codecWith {params : Codec (List TypeDesc)} {levels floor : Nat}
    (h : params.Bounded (levels - 1) (floor - 1)) : (codecWith params).Bounded levels floor := by
  -- The default of the elements is hidden.
  have hparams : Field.Bounded
      { name := "params", codec := params, default? := some [], hidden := List.isEmpty }
      (levels - 1) (floor - 1) := by
    refine ⟨h, ?_⟩
    intro ts hdefault hhidden
    cases hdefault
    cases hhidden
  exact Codec.bounded_record (fun _ => rfl) (by simp [hparams])

theorem encodeAll_eq_map (ts : List TypeDesc) : encodeAll ts = ts.map encode := by
  induction ts with
  | nil => rfl
  | cons t ts ih => rw [encodeAll, List.map_cons, ih]

/-- What is written does not depend on how elements are read. -/
theorem encode_eq (levels : Nat) (element : Node → Decoded TypeDesc) (t : TypeDesc) :
    t.encode = (codecWith (paramsCodec levels element)).encode t := by
  cases t with
  | mk tag pointer ts entity array =>
    rw [encode]
    rfl

/-- A descriptor with elements is two levels deeper than they are. -/
theorem depth_params_lt {t : TypeDesc} (h : t.params ≠ []) :
    Value.depthOfItems (t.params.map encode) + 1 < t.encode.depth := by
  cases t with
  | mk tag pointer ts entity array =>
    cases ts with
    | nil => exact absurd rfl h
    | cons t ts =>
      rw [← encodeAll_eq_map]
      show _ < max _ (max _ (max (Value.depthOfItems (encodeAll (t :: ts)) + 1) _)) + 1
      simp only [params]
      omega

/-- Elements that read back one by one read back together. -/
theorem faithful_paramsCodec {levels : Nat} {element : Node → Decoded TypeDesc}
    {ts : List TypeDesc} (hexact : ∀ t ∈ ts, t.encode.Exact)
    (h : ∀ t ∈ ts, element (.ofValue t.encode) = .ok t) :
    (paramsCodec (levels + 1) element).Faithful ts := by
  have hitems := Codec.decode_ofValues h
  refine ⟨?_, ?_⟩
  · show Value.ExactItems (encodeAll ts)
    rw [encodeAll_eq_map]
    exact Codec.exactItems_map hexact
  · intro _ _
    show Items.decode element (.ofValues (encodeAll ts)) = .ok ts
    rw [encodeAll_eq_map, hitems]

/-- Every descriptor is written without loss and reads back. -/
@[simp] theorem faithful_codec : ∀ t : TypeDesc, codec.Faithful t
  | mk tag pointer ts entity array => by
    have ih : ∀ t ∈ ts, codec.Faithful t := fun t _ => faithful_codec t
    -- Elements read back when the deepest of them has enough levels.
    have hwhole : ∀ {levels n}, Value.depthOfItems (ts.map encode) ≤ levels →
        (codecWith (paramsCodec (n + 1) (decode levels))).Faithful
          (mk tag pointer ts entity array) := by
      intro levels n hlevels
      refine faithful_codecWith fun _ => faithful_paramsCodec (fun t ht => (ih t ht).exact) ?_
      intro t ht
      exact (ih t ht).decode_encode levels (Codec.depthOfItems_map_le_iff.mp hlevels t ht)
    have hdeep : ts ≠ [] → Value.depthOfItems (ts.map encode) + 1
        < (encode (mk tag pointer ts entity array)).depth :=
      depth_params_lt (t := mk tag pointer ts entity array)
    refine ⟨?_, ?_⟩
    · show (encode _).Exact
      rw [encode_eq 1 (decode (Value.depthOfItems (ts.map encode)))]
      exact (hwhole (Nat.le_refl _)).exact
    · intro levels hlevels
      change (encode _).depth ≤ levels at hlevels
      match levels, hlevels with
      | 0, hlevels =>
        rw [encode] at hlevels
        exact absurd hlevels (Nat.not_succ_le_zero _)
      | 1, hlevels =>
        have hnone : ts = [] := by
          by_cases hts : ts = []
          · exact hts
          · have hlt := hdeep hts
            omega
        have hwith : (codecWith (paramsCodec 0 fun _ => .error (.defect .tooDeep))).Faithful
            (mk tag pointer ts entity array) :=
          faithful_codecWith fun hts => absurd hnone hts
        have hread := hwith.decode_encode 1
        rw [← encode_eq] at hread
        exact hread hlevels
      | levels + 2, hlevels =>
        have hitems : Value.depthOfItems (ts.map encode) ≤ levels := by
          by_cases hts : ts = []
          · rw [hts]
            exact Nat.zero_le _
          · have hlt := hdeep hts
            omega
        have hread := (hwhole (n := levels) hitems).decode_encode (levels + 2)
        rw [← encode_eq] at hread
        exact hread hlevels
termination_by t => sizeOf t

/-- A descriptor that was read is written no deeper than the levels that there were. -/
@[simp] theorem bounded_codec (levels floor : Nat) : codec.Bounded levels floor := by
  intro node t hread
  change decode levels node = .ok t at hread
  suffices h : (encode t).depth ≤ levels from Nat.le_trans h (Nat.le_max_left levels floor)
  induction levels using Nat.strongRecOn generalizing node t with
  | ind levels ih =>
    match levels, ih, hread with
    | 0, _, hread =>
      obtain ⟨tuple, hrecord, _⟩ := map_eq_ok_iff.mp hread
      exact absurd (Fields.drawn_of_decode hrecord).1 (Nat.lt_irrefl 0)
    | 1, _, hread =>
      -- With one level there is none for the elements.
      have hparams : (paramsCodec 0 fun _ => .error (.defect .tooDeep)).Bounded 0 0 := by
        intro item ts hts
        exact absurd (Codec.levels_of_decodeList hts).1 (Nat.lt_irrefl 0)
      have hbound : (codecWith _).Bounded 1 0 := bounded_codecWith hparams
      have hdepth := hbound node t hread
      rw [← encode_eq] at hdepth
      omega
    | levels + 2, ih, hread =>
      have hparams : (paramsCodec (levels + 1) (decode levels)).Bounded (levels + 1) 0 := by
        intro item ts hts
        have hitems := (Codec.levels_of_decodeList hts).2
        have hdepth : Value.depthOfItems (ts.map encode) ≤ levels := by
          rw [Codec.depthOfItems_map_le_iff]
          intro t ht
          obtain ⟨node, hnode⟩ := hitems t ht
          have hle := ih levels (by omega) node t hnode
          omega
        show Value.depthOfItems (encodeAll ts) + 1 ≤ _
        rw [encodeAll_eq_map]
        omega
      have hbound : (codecWith _).Bounded (levels + 2) 0 := bounded_codecWith hparams
      have hdepth := hbound node t hread
      rw [← encode_eq] at hdepth
      omega

@[simp] theorem depth_encode_void : (codec.encode void).depth = 1 := (rfl)

end TypeDesc

end Introspection
