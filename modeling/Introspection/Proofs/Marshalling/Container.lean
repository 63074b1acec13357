import Introspection.Marshalling.Container
import Introspection.Proofs.Code.Buffer
import Introspection.Proofs.Support.Except

/-!
# `Introspection.Proofs.Marshalling.Container`: containers leave no block open

What is written for a container are the operations of a tree of statements, in which each block
holds its body: the one that `Input.list`, `Output.array` and so on build for the same container.
The same containers are refused, for the same reason. There is one lemma for each function that
writes, and one for each condition under which something more is written, on either side.
-/

set_option autoImplicit false

namespace Introspection

open Introspection.Code
open Introspection.Code.Stmt

/-- What is written for a value that goes in. -/
def Passing.ops (p : Passing) : Sink := ⟨opsOf p.code, opsOf p.release⟩

@[simp] theorem ops_listWalk (node : String) (start : Expr) (body : List Stmt) :
    (listWalk node start body).ops = enterListWalk node start :: opsOf body ++ [.leave] := by
  rw [listWalk, ops_block, enterListWalk]

/-- The loop over the entries of a hash table is left open for its body. -/
@[simp] theorem opsOf_hashWalk (stem : String) (real : Expr) (body : List Stmt) :
    opsOf (hashWalk stem real body) = openHashWalk stem real ++ opsOf body ++ [.leave] := by
  simp [hashWalk, openHashWalk]

namespace Input

variable (i : Input) (t : TypeDesc)

@[simp] theorem opsOf_whenKept (release : List Stmt) :
    opsOf (i.whenKept release) = if i.keeps then opsOf release else [] := by
  rw [whenKept, opsOf_ite, opsOf_nil]

@[simp] theorem opsOf_freeCopies (element : TypeDesc) (view : Expr) :
    opsOf (i.freeCopies element view) = i.releaseCopies element view := by
  unfold freeCopies releaseCopies
  cases element.isCopied <;> simp

theorem writeList_eq (k : ListKind) : i.writeList k t = (i.list k t).map Passing.ops := by
  unfold writeList list
  simp [map_bind, Passing.ops]

theorem writeHash_eq : i.writeHash t = (i.hash t).map Passing.ops := by
  unfold writeHash hash
  simp [map_bind, Passing.ops]

theorem writeArray_eq : i.writeArray t = (i.array t).map Passing.ops := by
  unfold writeArray array
  simp only [map_bind]
  refine bind_congr fun info => bind_congr fun element => ?_
  cases info.storage <;> simp [map_bind, Passing.ops]

end Input

namespace Output

variable (scope : Scope) (o : Output) (t : TypeDesc)

@[simp] theorem opsOf_whenTaken (release : List Stmt) :
    opsOf (o.whenTaken release) = if o.takesContainer then opsOf release else [] := by
  rw [whenTaken, opsOf_ite, opsOf_nil, takesContainer]

@[simp] theorem opsOf_whenElementsTaken (element : TypeDesc) (release : List Stmt) :
    opsOf (o.whenElementsTaken element release)
      = if o.takesElements element then opsOf release else [] := by
  rw [whenElementsTaken, opsOf_ite, opsOf_nil, takesElements]

@[simp] theorem ops_append (e : Expr) : (o.append e).ops = [o.writeAppend e] := by
  rw [append, ops_assign, writeAppend]

theorem writeList_eq (k : ListKind) : o.writeList scope k t = (o.list scope k t).map opsOf := by
  unfold writeList list
  simp [map_bind]

theorem writeHash_eq : o.writeHash scope t = (o.hash scope t).map opsOf := by
  unfold writeHash hash
  simp [map_bind]

/-- The loop that counts elements is closed before the count is used. -/
theorem writeCount_eq (element : TypeDesc) (native : GoType) (info : ArrayInfo) :
    o.writeCount element native info
      = (o.count element native info).map fun counted => (opsOf counted.1, counted.2) := by
  unfold writeCount count
  cases info.fixedSize with
  | some size => simp
  | none =>
    cases o.length with
    | some length => simp
    | none => cases info.zeroTerminated <;> simp [map_bind]

theorem writeArray_eq : o.writeArray scope t = (o.array scope t).map opsOf := by
  unfold writeArray array
  simp only [map_bind]
  refine bind_congr fun info => bind_congr fun element => ?_
  cases info.storage with
  | c =>
    simp only [map_bind, writeCount_eq]
    refine bind_congr fun native => ?_
    cases o.count element native info <;> simp
  | array => simp [map_bind]
  | ptrArray =>
    simp only [map_bind]
    refine bind_congr fun value => ?_
    cases element.storesPointer <;> simp
  | byteArray => simp

end Output

end Introspection
