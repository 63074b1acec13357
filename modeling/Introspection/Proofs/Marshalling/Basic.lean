import Introspection.Marshalling.Basic
import Introspection.Proofs.Marshalling.Container

/-!
# `Introspection.Proofs.Marshalling.Basic`: arguments leave no block open

What is written around a call for an argument are the operations of the statements of its
`Conversion` (`Argument.marshal_eq`). So in each of the three pieces every block is closed that is
opened (`Stmt.closed_opsOf`), and the pieces read as the statements are printed.

A value that goes in and comes back is written in one of two ways, and in the second its code is
never written for the local itself. That it could be does not depend on the local
(`Input.permits_convert`).
-/

set_option autoImplicit false

namespace Introspection

open Introspection.Code
open Introspection.Code.Stmt

/-! ### The name of a local decides no success -/

/-- The second result is a success whenever the first is. -/
abbrev Permits {α β : Type} (x : Generated α) (y : Generated β) : Prop :=
  Follows (fun _ _ => True) x y

theorem permits_ok {α β : Type} {x : Generated α} {b : β} : Permits x (.ok b) :=
  fun _ _ => ⟨b, rfl, trivial⟩

/-- The first step is the same, the second succeeds whenever the other does. -/
theorem permits_bind {α β γ : Type} (x : Generated α) {f : α → Generated β}
    {g : α → Generated γ} (h : ∀ a, Permits (f a) (g a)) : Permits (x >>= f) (x >>= g) :=
  follows_bind (follows_refl x) fun a _ hac => hac ▸ h a

namespace TypeDesc

variable (t : TypeDesc) (v v' : Expr)

theorem permits_wordIn : Permits (t.wordIn v) (t.wordIn v') := by
  unfold wordIn unsupported
  cases t.view with
  | void => cases t.pointer <;> simp [permits_ok]
  | basic n => cases n <;> exact permits_ok
  | typeHandle | boolean | string => exact permits_ok
  | named =>
    refine permits_bind _ fun r => ?_
    cases r.kind <;> exact permits_ok
  | array | list | hash | error => exact follows_error _ _ _

theorem permits_valueIn : Permits (t.valueIn v) (t.valueIn v') := by
  unfold valueIn unsupported
  refine permits_bind _ fun native => ?_
  cases t.view with
  | void | basic | typeHandle | boolean => cases t.pointer <;> simp [permits_ok]
  | string => exact permits_ok
  | named =>
    refine permits_bind _ fun r => ?_
    cases r.kind <;> cases t.pointer <;> simp [permits_ok]
  | array | list | hash | error => exact follows_error _ _ _

end TypeDesc

namespace Input

variable (i : Input) (real : String) (t : TypeDesc)

theorem permits_list (k : ListKind) : Permits (i.list k t) ({ i with real }.list k t) := by
  unfold list
  refine permits_bind _ fun element => permits_bind _ fun native => ?_
  exact follows_bind (element.permits_wordIn _ _) fun _ _ _ => permits_ok

theorem permits_hash : Permits (i.hash t) ({ i with real }.hash t) := by
  unfold hash
  refine permits_bind _ fun key => permits_bind _ fun value => ?_
  refine follows_bind (key.permits_wordIn _ _) fun _ _ _ => ?_
  exact follows_bind (value.permits_wordIn _ _) fun _ _ _ => permits_ok

theorem permits_array : Permits (i.array t) ({ i with real }.array t) := by
  unfold array
  refine permits_bind _ fun info => permits_bind _ fun element => ?_
  cases info.storage with
  | c | array =>
    refine permits_bind _ fun native => ?_
    exact follows_bind (element.permits_valueIn _ _) fun _ _ _ => permits_ok
  | ptrArray => exact follows_bind (element.permits_wordIn _ _) fun _ _ _ => permits_ok
  | byteArray => exact permits_ok

theorem permits_named (nullable : Bool) :
    Permits (i.named nullable t) ({ i with real }.named nullable t) := by
  unfold named
  refine permits_bind _ fun native => permits_bind _ fun r => ?_
  split
  · split <;> exact permits_ok
  · split
    · exact permits_ok
    · split <;> exact permits_ok

/-- A value that can be passed under one name can be passed under any other. -/
theorem permits_convert (nullable : Bool) :
    Permits (i.convert nullable t) ({ i with real }.convert nullable t) := by
  have hscalar : Permits (i.scalar t) ({ i with real }.scalar t) := by
    unfold scalar
    refine permits_bind _ fun native => ?_
    split <;> exact permits_ok
  unfold convert unsupported
  cases t.view with
  | void | boolean => cases t.pointer <;> simp [permits_ok]
  | basic | typeHandle => exact hscalar
  | string => exact permits_ok
  | named => exact follows_bind (i.permits_named real t nullable) fun _ _ _ => permits_ok
  | array => exact i.permits_array real t
  | list k => exact i.permits_list real t k
  | hash => exact i.permits_hash real t
  | error => exact follows_error _ _ _

/-! ### Values that go in -/

theorem writeNamed_eq (nullable : Bool) :
    i.writeNamed nullable t = (i.named nullable t).map opsOf := by
  unfold writeNamed named
  simp only [map_bind]
  refine bind_congr fun native => bind_congr fun r => ?_
  split
  · split <;> simp
  · split
    · simp
    · split <;> simp

theorem writeScalar_eq : i.writeScalar t = (i.scalar t).map Passing.ops := by
  unfold writeScalar scalar
  cases t.pointer <;> simp [map_bind, Passing.ops]

theorem write_eq (nullable : Bool) :
    i.write nullable t = (i.convert nullable t).map Passing.ops := by
  unfold write convert unsupported
  cases t.view with
  | void | boolean => cases t.pointer <;> simp [Passing.ops]
  | basic | typeHandle => exact i.writeScalar_eq t
  | string => simp [Passing.ops]
  | named =>
    rw [i.writeNamed_eq t nullable]
    cases i.named nullable t <;> simp [Passing.ops]
  | array => exact i.writeArray_eq t
  | list k => exact i.writeList_eq t k
  | hash => exact i.writeHash_eq t
  | error => simp

end Input

/-! ### Values that come out -/

namespace Output

variable (scope : Scope) (o : Output) (t : TypeDesc)

theorem writeNamed_eq : o.writeNamed scope t = (o.named scope t).map opsOf := by
  unfold writeNamed named unsupported
  simp only [map_bind]
  refine bind_congr fun r => ?_
  cases r.kind <;> cases t.pointer <;> simp [map_bind]

theorem writeScalar_eq : o.writeScalar scope t = (o.scalar scope t).map opsOf := by
  unfold writeScalar scalar
  cases t.pointer <;> simp [map_bind]

theorem write_eq : o.write scope t = (o.convert scope t).map opsOf := by
  unfold write convert unsupported
  cases t.view with
  | void | string | error => simp
  | basic | typeHandle => exact o.writeScalar_eq scope t
  | boolean => cases t.pointer <;> simp
  | named => exact o.writeNamed_eq scope t
  | array => exact o.writeArray_eq scope t
  | list k => exact o.writeList_eq scope t k
  | hash => exact o.writeHash_eq scope t

end Output

/-! ### Arguments -/

/-- What is written around a call. -/
def Conversion.ops (c : Conversion) : Marshal := ⟨opsOf c.before, opsOf c.release, opsOf c.after⟩

/-- Only code that there is writes anything. -/
theorem isEmpty_written_opsOf (depth : Nat) (xs : List Stmt) :
    (Op.written depth (opsOf xs)).isEmpty = xs.isEmpty := by
  rw [written_opsOf]
  cases xs with
  | nil => rfl
  | cons s rest =>
    obtain ⟨l, ls, hlines⟩ := List.exists_cons_of_ne_nil
      (linesOf_ne_nil (List.cons_ne_nil s rest))
    rw [listText_eq, hlines, List.map_cons, Text.joined_empty_cons, lineAt]
    simp

namespace Argument

variable (scope : Scope) (a : Argument)

theorem marshalReceiver_eq (via : Option EntityRef) :
    a.marshalReceiver via = (a.convertReceiver via).map Conversion.ops := by
  unfold marshalReceiver convertReceiver
  rw [map_bind]
  refine bind_congr fun owner => ?_
  split <;> simp [map_bind, Conversion.ops, Conversion.ofBefore, Marshal.ofBefore]

theorem marshalHidden_eq (direction : Direction) (hidden : Hidden) :
    a.marshalHidden direction hidden = (a.convertHidden direction hidden).map Conversion.ops := by
  unfold marshalHidden convertHidden
  rw [map_bind]
  refine bind_congr fun native => ?_
  cases hidden with
  | skipped => simp [Conversion.ops, Conversion.ofBefore, Marshal.ofBefore]
  | lengthOf array =>
    dsimp only
    split <;> simp [Conversion.ops, Conversion.ofBefore, Marshal.ofBefore]

theorem marshalBuffer_eq (p : ParamRole) :
    a.marshalBuffer scope p = (a.convertBuffer scope p).map Conversion.ops := by
  unfold marshalBuffer convertBuffer
  simp only [map_bind, Output.write_eq]
  refine bind_congr fun info => bind_congr fun element => bind_congr fun native => ?_
  cases info.fixedSize <;> cases Output.convert scope _ a.type <;> simp [Conversion.ops]

theorem marshalStructure_eq :
    a.marshalStructure scope = (a.convertStructure scope).map Conversion.ops := by
  unfold marshalStructure convertStructure
  simp [map_bind, Conversion.ops]

theorem marshalOutput_eq (transfer : Transfer) (length : Option String) :
    a.marshalOutput scope transfer length
      = (a.convertOutput scope transfer length).map Conversion.ops := by
  unfold marshalOutput convertOutput
  simp only [map_bind, Output.write_eq]
  refine bind_congr fun native => ?_
  cases Output.convert scope _ a.type <;> simp [Conversion.ops]

theorem marshalInout_eq (p : ParamRole) :
    a.marshalInout scope p = (a.convertInout scope p).map Conversion.ops := by
  unfold marshalInout convertInout
  simp only [map_bind, Input.write_eq, Output.write_eq]
  have hdirect := Input.permits_convert ⟨a.nativeLocal ++ "_in", a.hostValue, p.transfer⟩
    a.nativeLocal a.type p.nullable
  cases hpassing :
      Input.convert ⟨a.nativeLocal ++ "_in", a.hostValue, p.transfer⟩ p.nullable a.type with
  | error e => simp
  | ok passing =>
    -- What is not needed succeeds none the less.
    obtain ⟨direct, hdirect, _⟩ := hdirect passing hpassing
    rw [hdirect]
    simp only [map_ok, ok_bind, Passing.ops, isEmpty_written_opsOf]
    cases passing.release.isEmpty <;>
      cases Output.convert scope _ a.type <;> simp [Conversion.ops]

theorem marshalParam_eq (p : ParamRole) :
    a.marshalParam scope p = (a.convertParam scope p).map Conversion.ops := by
  unfold marshalParam convertParam
  cases p.hidden with
  | some hidden => exact a.marshalHidden_eq p.direction hidden
  | none =>
    cases p.direction with
    | input =>
      dsimp only
      rw [Input.write_eq]
      cases Input.convert _ p.nullable a.type <;> simp [Conversion.ops, Passing.ops]
    | inout => exact a.marshalInout_eq scope p
    | output =>
      dsimp only
      rw [marshalBuffer_eq, marshalStructure_eq, marshalOutput_eq]
      split
      · rfl
      · split <;> rfl

/-- What is written for an argument are the operations of its conversion, and nothing is written
for the same reason. -/
theorem marshal_eq : a.marshal scope = (a.convert scope).map Conversion.ops := by
  unfold marshal convert
  cases a.role with
  | receiver via => exact a.marshalReceiver_eq via
  | param p => exact a.marshalParam_eq scope p
  | result r =>
    dsimp only
    split
    · exact a.marshalOutput_eq scope r.transfer r.length
    · simp [Conversion.ops, Conversion.nothing, Marshal.nothing]

end Argument

end Introspection
