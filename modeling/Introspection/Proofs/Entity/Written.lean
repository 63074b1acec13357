import Introspection.Entity.Written
import Introspection.Proofs.Descriptor.Written

/-!
# `Introspection.Proofs.Entity.Written`: entities read back

The codecs of functions, constants and registered types have the laws of codecs. The one value
that may not read back is a binary64 number in a constant: its shortest written form may be a
whole number for another reader. `ConstantValue.IsFloat` names that case, and every type that
holds constants asks that none of them is one.

The floor of a type comes from its defaults: roles and results that are left out of a text are
written as objects, lists of members as arrays.
-/

set_option autoImplicit false

namespace Introspection

open Introspection.Json

/-! ### Functions, signals and members -/

@[simp] theorem Direction.faithful_codec (d : Direction) : Direction.codec.Faithful d :=
  Codec.faithful_choice (by cases d <;> rfl)

@[simp] theorem Direction.bounded_codec (levels floor : Nat) :
    Direction.codec.Bounded levels floor :=
  Codec.bounded_choice _ _ levels floor

@[simp] theorem Direction.depth_encode (d : Direction) : (Direction.codec.encode d).depth = 0 :=
  (rfl)

@[simp] theorem Transfer.faithful_codec (t : Transfer) : Transfer.codec.Faithful t :=
  Codec.faithful_choice (by cases t <;> rfl)

@[simp] theorem Transfer.bounded_codec (levels floor : Nat) :
    Transfer.codec.Bounded levels floor :=
  Codec.bounded_choice _ _ levels floor

@[simp] theorem Transfer.depth_encode (t : Transfer) : (Transfer.codec.encode t).depth = 0 :=
  (rfl)

@[simp] theorem Parameter.faithful_codec (p : Parameter) : Parameter.codec.Faithful p :=
  Codec.faithful_record (by decide) rfl (by simp)

@[simp] theorem Parameter.bounded_codec (levels floor : Nat) :
    Parameter.codec.Bounded levels floor :=
  Codec.bounded_record (fun _ => rfl) (by simp)

@[simp] theorem FunctionFlags.faithful_codec (f : FunctionFlags) : FunctionFlags.codec.Faithful f :=
  Codec.faithful_record (by decide) rfl (by simp)

@[simp] theorem FunctionFlags.bounded_codec (levels floor : Nat) :
    FunctionFlags.codec.Bounded levels floor :=
  Codec.bounded_record (fun _ => rfl) (by simp)

@[simp] theorem FunctionFlags.depth_encode (f : FunctionFlags) :
    (FunctionFlags.codec.encode f).depth = 1 :=
  (rfl)

@[simp] theorem Function.faithful_codec (f : Function) : Function.codec.Faithful f :=
  Codec.faithful_record (by decide) rfl (by simp)

@[simp] theorem Function.bounded_codec (levels floor : Nat) :
    Function.codec.Bounded levels (floor + 2) :=
  Codec.bounded_record (fun _ => rfl) (by simp)

@[simp] theorem Signal.faithful_codec (s : Signal) : Signal.codec.Faithful s :=
  Codec.faithful_record (by decide) rfl (by simp)

@[simp] theorem Signal.bounded_codec (levels floor : Nat) :
    Signal.codec.Bounded levels (floor + 2) :=
  Codec.bounded_record (fun _ => rfl) (by simp)

@[simp] theorem VirtualSlot.faithful_codec (s : VirtualSlot) : VirtualSlot.codec.Faithful s :=
  Codec.faithful_record (by decide) rfl (by simp)

@[simp] theorem VirtualSlot.bounded_codec (levels floor : Nat) :
    VirtualSlot.codec.Bounded levels (floor + 2) :=
  Codec.bounded_record (fun _ => rfl) (by simp)

@[simp] theorem Property.faithful_codec (p : Property) : Property.codec.Faithful p :=
  Codec.faithful_record (by decide) rfl (by simp)

@[simp] theorem Property.bounded_codec (levels floor : Nat) :
    Property.codec.Bounded levels floor :=
  Codec.bounded_record (fun _ => rfl) (by simp)

@[simp] theorem FieldDecl.faithful_codec (f : FieldDecl) : FieldDecl.codec.Faithful f :=
  Codec.faithful_record (by decide) rfl (by simp)

@[simp] theorem FieldDecl.bounded_codec (levels floor : Nat) :
    FieldDecl.codec.Bounded levels floor :=
  Codec.bounded_record (fun _ => rfl) (by simp)

/-! ### Constants -/

/-- The value is a binary64 number. -/
def ConstantValue.IsFloat (v : ConstantValue) : Prop := ∃ x, v = .float x

/-- Every value but a binary64 number is written without loss and reads back as what it was. -/
theorem ConstantValue.faithful_codec {v : ConstantValue} (h : ¬v.IsFloat) :
    ConstantValue.codec.Faithful v := by
  cases v with
  | bool b => exact ⟨trivial, fun _ _ => rfl⟩
  | int n =>
    have hvalue : ofValue? (.integer n.toInt) = some (.int n) := by
      rw [ofValue?, if_pos ⟨n.minValue_le_toInt, n.toInt_le⟩, Int64.ofInt_toInt]
    refine ⟨(Codec.faithful_int64 n).exact, ?_⟩
    intro levels _
    simp only [codec, Codec.value, Node.ofValue, Node.value, Decoded.ofDefect, ok_bind, hvalue]
  | float x => exact absurd ⟨x, rfl⟩ h
  | string s => exact ⟨trivial, fun _ _ => rfl⟩

@[simp] theorem ConstantValue.bounded_codec (levels floor : Nat) :
    ConstantValue.codec.Bounded levels floor := by
  refine Codec.bounded_of_depth fun v => ?_
  cases v <;> rfl

theorem Constant.faithful_codec {c : Constant} (h : ¬c.value.IsFloat) :
    Constant.codec.Faithful c :=
  Codec.faithful_record (by decide) rfl (by simp [ConstantValue.faithful_codec h])

@[simp] theorem Constant.bounded_codec (levels floor : Nat) :
    Constant.codec.Bounded levels floor :=
  Codec.bounded_record (fun _ => rfl) (by simp)

/-! ### Registered types -/

@[simp] theorem EnumValue.faithful_codec (v : EnumValue) : EnumValue.codec.Faithful v :=
  Codec.faithful_record (by decide) rfl (by simp)

@[simp] theorem EnumValue.bounded_codec (levels floor : Nat) :
    EnumValue.codec.Bounded levels floor :=
  Codec.bounded_record (fun _ => rfl) (by simp)

@[simp] theorem Enumeration.faithful_codec (e : Enumeration) : Enumeration.codec.Faithful e :=
  Codec.faithful_record (by decide) rfl (by simp)

@[simp] theorem Enumeration.bounded_codec (levels floor : Nat) :
    Enumeration.codec.Bounded levels (floor + 4) :=
  Codec.bounded_record (fun _ => rfl) (by simp)

theorem Interface.faithful_codec {i : Interface} (h : ∀ c ∈ i.constants, ¬c.value.IsFloat) :
    Interface.codec.Faithful i := by
  have hconstants : (Codec.list Constant.codec).Faithful i.constants :=
    Codec.faithful_list fun c hc => Constant.faithful_codec (h c hc)
  exact Codec.faithful_record (by decide) rfl (by simp [hconstants])

@[simp] theorem Interface.bounded_codec (levels floor : Nat) :
    Interface.codec.Bounded levels (floor + 4) :=
  Codec.bounded_record (fun _ => rfl) (by simp)

theorem Object.faithful_codec {o : Object} (h : ∀ c ∈ o.constants, ¬c.value.IsFloat) :
    Object.codec.Faithful o := by
  have hconstants : (Codec.list Constant.codec).Faithful o.constants :=
    Codec.faithful_list fun c hc => Constant.faithful_codec (h c hc)
  exact Codec.faithful_record (by decide) rfl (by simp [hconstants])

@[simp] theorem Object.bounded_codec (levels floor : Nat) :
    Object.codec.Bounded levels (floor + 4) :=
  Codec.bounded_record (fun _ => rfl) (by simp)

@[simp] theorem Struct.faithful_codec (s : Struct) : Struct.codec.Faithful s :=
  Codec.faithful_record (by decide) rfl (by simp)

@[simp] theorem Struct.bounded_codec (levels floor : Nat) :
    Struct.codec.Bounded levels (floor + 4) :=
  Codec.bounded_record (fun _ => rfl) (by simp)

@[simp] theorem Union.faithful_codec (u : Union) : Union.codec.Faithful u :=
  Codec.faithful_record (by decide) rfl (by simp)

@[simp] theorem Union.bounded_codec (levels floor : Nat) :
    Union.codec.Bounded levels (floor + 4) :=
  Codec.bounded_record (fun _ => rfl) (by simp)

end Introspection
