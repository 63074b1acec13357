import Introspection.Namespace.Basic
import Introspection.Proofs.Descriptor.Written
import Introspection.Proofs.Json.Texts

/-!
# `Introspection.Proofs.Entity.Texts`: the texts of entities

What it means for the parts of an entity, and of a namespace, that no text of the whole holds an
escape character. Names of tags, directions and the like are known and hold none.
-/

set_option autoImplicit false

namespace Introspection

open Introspection.Json
open Introspection.Text (EscapeFree)

/-! ### Names -/

@[simp] theorem Tag.escapeFree_name (t : Tag) : EscapeFree t.name := by
  cases t <;> decide

@[simp] theorem Tag.escapeFree (t : Tag) : Tag.codec.EscapeFree t :=
  Codec.escapeFree_choice.mpr t.escapeFree_name

@[simp] theorem EntityKind.escapeFree (k : EntityKind) : EntityKind.codec.EscapeFree k :=
  Codec.escapeFree_choice.mpr (by cases k <;> decide)

@[simp] theorem ArrayStorage.escapeFree (s : ArrayStorage) : ArrayStorage.codec.EscapeFree s :=
  Codec.escapeFree_choice.mpr (by cases s <;> decide)

@[simp] theorem Direction.escapeFree_name (d : Direction) : EscapeFree d.name := by
  cases d <;> decide

@[simp] theorem Direction.escapeFree (d : Direction) : Direction.codec.EscapeFree d :=
  Codec.escapeFree_choice.mpr d.escapeFree_name

@[simp] theorem Transfer.escapeFree (t : Transfer) : Transfer.codec.EscapeFree t :=
  Codec.escapeFree_choice.mpr (by cases t <;> decide)

@[simp] theorem ArrayInfo.escapeFree (a : ArrayInfo) : ArrayInfo.codec.EscapeFree a := by
  simp [ArrayInfo.codec, Codec.escapeFree_record]

@[simp] theorem FunctionFlags.escapeFree (f : FunctionFlags) :
    FunctionFlags.codec.EscapeFree f := by
  simp [FunctionFlags.codec, Codec.escapeFree_record]

/-! ### Types -/

theorem EntityRef.escapeFree_iff {r : EntityRef} :
    EntityRef.codec.EscapeFree r ↔ EscapeFree r.home ∧ EscapeFree r.name := by
  simp [EntityRef.codec, Codec.escapeFree_record]

/-- A type has the texts of the registered type that it names and of its elements. -/
theorem TypeDesc.escapeFree_iff {t : TypeDesc} : TypeDesc.codec.EscapeFree t ↔
    (∀ r, t.entity = some r → EntityRef.codec.EscapeFree r)
      ∧ ∀ u ∈ t.params, TypeDesc.codec.EscapeFree u := by
  let elements := paramsCodec 0 fun _ => .error (.defect .tooDeep)
  have hparams : ∀ ts : List TypeDesc,
      elements.EscapeFree ts ↔ ∀ u ∈ ts, TypeDesc.codec.EscapeFree u := by
    intro ts
    show (Value.array (encodeAll ts)).EscapeFree ↔ _
    rw [Value.escapeFree_array, encodeAll_eq_map]
    exact List.forall_mem_map
  -- without elements nothing is written for them, and nothing is asked of them
  have hwritten : (t.params ≠ [] → elements.EscapeFree t.params)
      ↔ ∀ u ∈ t.params, TypeDesc.codec.EscapeFree u := by
    rw [hparams]
    cases t.params <;> simp
  have hrecord : TypeDesc.codec.EscapeFree t ↔ (codecWith elements).EscapeFree t := by
    unfold Codec.EscapeFree
    rw [← encode_eq 0 _ t]
    rfl
  rw [hrecord, codecWith, Codec.escapeFree_record]
  simpa [and_comm] using and_congr_right fun _ => hwritten

/-! ### Callables -/

theorem Parameter.escapeFree_iff {p : Parameter} : Parameter.codec.EscapeFree p ↔
    EscapeFree p.name ∧ TypeDesc.codec.EscapeFree p.type := by
  simp [Parameter.codec, Codec.escapeFree_record]

theorem Function.escapeFree_iff {f : Function} : Function.codec.EscapeFree f ↔
    EscapeFree f.name ∧ EscapeFree f.symbol ∧ (∀ p ∈ f.params, Parameter.codec.EscapeFree p)
      ∧ TypeDesc.codec.EscapeFree f.returnType := by
  simp [Function.codec, Codec.escapeFree_record]

theorem Signal.escapeFree_iff {s : Signal} : Signal.codec.EscapeFree s ↔
    EscapeFree s.name ∧ (∀ p ∈ s.params, Parameter.codec.EscapeFree p)
      ∧ TypeDesc.codec.EscapeFree s.returnType := by
  simp [Signal.codec, Codec.escapeFree_record]

theorem VirtualSlot.escapeFree_iff {s : VirtualSlot} : VirtualSlot.codec.EscapeFree s ↔
    EscapeFree s.name ∧ (∀ p ∈ s.params, Parameter.codec.EscapeFree p)
      ∧ TypeDesc.codec.EscapeFree s.returnType ∧ ∀ i, s.invoker = some i → EscapeFree i := by
  simp [VirtualSlot.codec, Codec.escapeFree_record]

/-! ### Members and registered types -/

theorem Property.escapeFree_iff {p : Property} : Property.codec.EscapeFree p ↔
    EscapeFree p.name ∧ TypeDesc.codec.EscapeFree p.type := by
  simp [Property.codec, Codec.escapeFree_record]

theorem FieldDecl.escapeFree_iff {f : FieldDecl} : FieldDecl.codec.EscapeFree f ↔
    EscapeFree f.name ∧ TypeDesc.codec.EscapeFree f.type := by
  simp [FieldDecl.codec, Codec.escapeFree_record]

theorem Constant.escapeFree_iff {c : Constant} : Constant.codec.EscapeFree c ↔
    EscapeFree c.name ∧ TypeDesc.codec.EscapeFree c.type
      ∧ ConstantValue.codec.EscapeFree c.value := by
  simp [Constant.codec, Codec.escapeFree_record]

theorem EnumValue.escapeFree_iff {v : EnumValue} : EnumValue.codec.EscapeFree v ↔
    EscapeFree v.name ∧ ∀ s, v.symbol = some s → EscapeFree s := by
  simp [EnumValue.codec, Codec.escapeFree_record]

theorem Enumeration.escapeFree_iff {e : Enumeration} : Enumeration.codec.EscapeFree e ↔
    EscapeFree e.name ∧ (∀ v ∈ e.values, EnumValue.codec.EscapeFree v)
      ∧ (∀ m ∈ e.methods, Function.codec.EscapeFree m)
      ∧ ∀ d, e.errorDomain = some d → EscapeFree d := by
  simp [Enumeration.codec, Codec.escapeFree_record]

theorem Interface.escapeFree_iff {i : Interface} : Interface.codec.EscapeFree i ↔
    EscapeFree i.name ∧ (∀ r ∈ i.prerequisites, EntityRef.codec.EscapeFree r)
      ∧ (∀ m ∈ i.methods, Function.codec.EscapeFree m)
      ∧ (∀ s ∈ i.signals, Signal.codec.EscapeFree s)
      ∧ (∀ s ∈ i.slots, VirtualSlot.codec.EscapeFree s)
      ∧ (∀ p ∈ i.properties, Property.codec.EscapeFree p)
      ∧ ∀ c ∈ i.constants, Constant.codec.EscapeFree c := by
  simp [Interface.codec, Codec.escapeFree_record]

theorem Object.escapeFree_iff {o : Object} : Object.codec.EscapeFree o ↔
    EscapeFree o.name ∧ (∀ r, o.parent = some r → EntityRef.codec.EscapeFree r)
      ∧ (∀ r ∈ o.interfaces, EntityRef.codec.EscapeFree r)
      ∧ (∀ f ∈ o.fields, FieldDecl.codec.EscapeFree f)
      ∧ (∀ m ∈ o.methods, Function.codec.EscapeFree m)
      ∧ (∀ s ∈ o.signals, Signal.codec.EscapeFree s)
      ∧ (∀ s ∈ o.slots, VirtualSlot.codec.EscapeFree s)
      ∧ (∀ p ∈ o.properties, Property.codec.EscapeFree p)
      ∧ ∀ c ∈ o.constants, Constant.codec.EscapeFree c := by
  simp [Object.codec, Codec.escapeFree_record]

theorem Struct.escapeFree_iff {s : Struct} : Struct.codec.EscapeFree s ↔
    EscapeFree s.name ∧ (∀ f ∈ s.fields, FieldDecl.codec.EscapeFree f)
      ∧ ∀ m ∈ s.methods, Function.codec.EscapeFree m := by
  simp [Struct.codec, Codec.escapeFree_record]

theorem Union.escapeFree_iff {u : Union} : Union.codec.EscapeFree u ↔
    EscapeFree u.name ∧ (∀ f ∈ u.fields, FieldDecl.codec.EscapeFree f)
      ∧ ∀ m ∈ u.methods, Function.codec.EscapeFree m := by
  simp [Union.codec, Codec.escapeFree_record]

/-! ### Namespaces -/

/-- A table has the texts of its entries. -/
theorem Table.escapeFree_iff {α : Type} [Named α] {c : Codec α} {t : Table α} :
    (Table.codec c).EscapeFree t ↔ ∀ a ∈ t.entries, c.EscapeFree a :=
  Codec.escapeFree_list

namespace Namespace

/-- No text of the namespace holds an escape character. -/
def EscapeFree (ns : Namespace) : Prop := codec.EscapeFree ns

theorem escapeFree_iff {ns : Namespace} : ns.EscapeFree ↔
    Text.EscapeFree ns.name ∧ (∀ v, ns.version = some v → Text.EscapeFree v)
      ∧ (∀ d ∈ ns.dependencies, Text.EscapeFree d)
      ∧ (∀ c ∈ ns.constants.entries, Constant.codec.EscapeFree c)
      ∧ (∀ e ∈ ns.enums.entries, Enumeration.codec.EscapeFree e)
      ∧ (∀ i ∈ ns.interfaces.entries, Interface.codec.EscapeFree i)
      ∧ (∀ o ∈ ns.objects.entries, Object.codec.EscapeFree o)
      ∧ (∀ s ∈ ns.structs.entries, Struct.codec.EscapeFree s)
      ∧ (∀ u ∈ ns.unions.entries, Union.codec.EscapeFree u)
      ∧ ∀ f ∈ ns.functions.entries, Function.codec.EscapeFree f := by
  unfold EscapeFree
  simp [codec, Codec.escapeFree_record, Table.escapeFree_iff]

end Namespace

end Introspection
