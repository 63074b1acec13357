import Introspection.Code.Buffer
import Introspection.Proofs.Code.Line

/-!
# `Introspection.Proofs.Code.Buffer`: blocks opened and closed by hand

The operations that are issued to a buffer are `Closed` when each block is closed by a later
operation and no operation closes a block that is not open. Then the depth of the buffer never goes
below the one that it starts from, so that it never stops at zero, and it ends where it starts
(`Buffer.balances_of_closed`).

`Stmt.ops` lists the operations that write a tree of statements. They are closed, and write what
the tree is printed as (`Stmt.written_opsOf`). So code that is written by hand is known to be closed
once it is known to be the operations of a tree.
-/

set_option autoImplicit false

namespace Introspection.Code

namespace Op

/-- The number of open blocks after an operation, with `depth` of them open in front of it. There is
no answer when the operation closes a block and none is open. -/
def depthBehind (depth : Nat) : Op → Option Nat
  | line _ => some depth
  | opening _ => some (depth + 1)
  | closing _ =>
    match depth with
    | 0 => none
    | outer + 1 => some outer
  | lines _ => some depth

/-- The number of open blocks after all operations. -/
def depthAfter (depth : Nat) (ops : List Op) : Option Nat := ops.foldlM depthBehind depth

/-- Every block that the operations open is closed, and they close no other. -/
def Closed (ops : List Op) : Prop := depthAfter 0 ops = some 0

instance (ops : List Op) : Decidable (Closed ops) :=
  inferInstanceAs (Decidable (depthAfter 0 ops = some 0))

theorem depthAfter_nil (depth : Nat) : depthAfter depth [] = some depth := rfl

theorem depthAfter_cons (depth : Nat) (op : Op) (ops : List Op) :
    depthAfter depth (op :: ops) = (depthBehind depth op).bind (depthAfter · ops) :=
  List.foldlM_cons

theorem depthAfter_append (depth : Nat) (xs ys : List Op) :
    depthAfter depth (xs ++ ys) = (depthAfter depth xs).bind (depthAfter · ys) :=
  List.foldlM_append

end Op

/-! ### What a buffer does with operations -/

namespace Buffer

theorem run_nil (b : Buffer) : b.run [] = b := rfl

theorem run_cons (b : Buffer) (op : Op) (ops : List Op) :
    b.run (op :: ops) = (b.step op).run ops := rfl

theorem run_append (b : Buffer) (xs ys : List Op) : b.run (xs ++ ys) = (b.run xs).run ys :=
  List.foldl_append

/-- Lines leave the depth as it is. -/
theorem foldl_line (b : Buffer) (ls : List String) :
    ls.foldl line b = ⟨b.text ++ Text.joined "" (ls.map (lineAt b.depth)), b.depth⟩ := by
  induction ls generalizing b with
  | nil =>
    rw [List.foldl_nil, List.map_nil, Text.joined, String.append_empty]
  | cons l ls ih =>
    rw [List.foldl_cons, ih, List.map_cons, Text.joined_empty_cons, ← String.append_assoc]
    rfl

/-- One operation changes the depth of a buffer as it changes the number of open blocks, when it
closes none that is not open. -/
theorem depth_step {b : Buffer} {op : Op} {margin depth next : Nat}
    (hdepth : b.depth = margin + depth) (h : op.depthBehind depth = some next) :
    (b.step op).depth = margin + next := by
  cases op with
  | line s =>
    cases h
    exact hdepth
  | opening head =>
    cases h
    show b.depth + 1 = margin + (depth + 1)
    rw [hdepth, Nat.add_assoc]
  | closing tail =>
    cases depth with
    | zero => cases h
    | succ outer =>
      obtain rfl : outer = next := Option.some.inj h
      show b.depth - 1 = margin + outer
      rw [hdepth]
      rfl
  | lines s =>
    cases h
    rw [step, foldl_line]
    exact hdepth

/-- The depth of a buffer follows the number of open blocks. -/
theorem depth_run {ops : List Op} {b : Buffer} {margin depth next : Nat}
    (hdepth : b.depth = margin + depth) (h : Op.depthAfter depth ops = some next) :
    (b.run ops).depth = margin + next := by
  induction ops generalizing b depth with
  | nil =>
    cases h
    exact hdepth
  | cons op ops ih =>
    obtain ⟨middle, hop, hops⟩ :=
      Option.bind_eq_some_iff.mp ((Op.depthAfter_cons depth op ops).symm.trans h)
    exact ih (depth_step hdepth hop) hops

/-- Operations on a buffer that starts at a depth lead back to that depth, and whenever they close a
block the buffer is deeper: the block was opened by them. -/
structure Balances (depth : Nat) (ops : List Op) : Prop where
  depth_eq : ((new depth).run ops).depth = depth
  depth_lt : ∀ before tail after, ops = before ++ .closing tail :: after →
    depth < ((new depth).run before).depth

/-- The depth of a buffer never stops at zero when all blocks are closed that are opened. -/
theorem balances_of_closed {ops : List Op} (h : Op.Closed ops) (depth : Nat) :
    Balances depth ops := by
  refine ⟨depth_run (Nat.add_zero depth).symm h, ?_⟩
  rintro before tail after rfl
  -- A block can only be closed in front of which one is open.
  obtain ⟨depth', hbefore, hafter⟩ :=
    Option.bind_eq_some_iff.mp ((Op.depthAfter_append 0 before _).symm.trans h)
  rw [depth_run (Nat.add_zero depth).symm hbefore]
  cases depth' with
  | zero => cases hafter
  | succ outer => exact Nat.lt_add_of_pos_right (Nat.succ_pos outer)

end Buffer

/-! ### The operations that write statements -/

namespace Stmt

mutual

/-- The operations that write a statement. -/
def ops : Stmt → List Op
  | declare names type => [.declare names type]
  | define name value => [.define name value]
  | assign target value => [.assign target value]
  | run e => [.eval e]
  | block head body => .enter head :: opsOf body ++ [.leave]

/-- The operations that write statements in a row. -/
def opsOf : List Stmt → List Op
  | [] => []
  | s :: rest => s.ops ++ opsOf rest

end

section

variable (names : List String) (name : String) (type : GoType) (e f : Expr) (head : Head)
  (s : Stmt) (xs ys : List Stmt)

@[simp] theorem opsOf_nil : opsOf [] = [] := by rw [opsOf]

@[simp] theorem opsOf_cons : opsOf (s :: xs) = s.ops ++ opsOf xs := by rw [opsOf]

@[simp] theorem ops_declare : (declare names type).ops = [.declare names type] := by rw [ops]

@[simp] theorem ops_declareOne : (declareOne name type).ops = [.declare [name] type] := by
  rw [declareOne, ops]

@[simp] theorem ops_define : (define name e).ops = [.define name e] := by rw [ops]

@[simp] theorem ops_assign : (assign e f).ops = [.assign e f] := by rw [ops]

@[simp] theorem ops_run : (run e).ops = [.eval e] := by rw [ops]

@[simp] theorem ops_block : (block head xs).ops = .enter head :: opsOf xs ++ [.leave] := by
  rw [ops]

@[simp] theorem opsOf_append : opsOf (xs ++ ys) = opsOf xs ++ opsOf ys := by
  induction xs with
  | nil => rw [List.nil_append, opsOf_nil, List.nil_append]
  | cons s xs ih => rw [List.cons_append, opsOf_cons, opsOf_cons, ih, List.append_assoc]

/-- Statements that are needed under a condition are written under it. -/
@[simp] theorem opsOf_ite (c : Prop) [Decidable c] :
    opsOf (if c then xs else ys) = if c then opsOf xs else opsOf ys := apply_ite ..

end

mutual

/-- Writing a statement appends its lines and leaves the depth as it is. -/
theorem run_ops (b : Buffer) : (s : Stmt) →
    b.run s.ops = ⟨b.text ++ s.text b.depth, b.depth⟩
  | declare .. | define .. | assign .. | run _ => rfl
  | block head body => by
    -- The body is written one deeper, and its end at the depth of its head again.
    rw [ops_block, List.cons_append, Buffer.run_cons, Buffer.run_append, run_opsOf _ body, text]
    simp only [← String.append_assoc]
    rfl

/-- Writing statements appends what they are printed as, and leaves the depth as it is. -/
theorem run_opsOf (b : Buffer) : (xs : List Stmt) →
    b.run (opsOf xs) = ⟨b.text ++ listText b.depth xs, b.depth⟩
  | [] => by rw [opsOf_nil, Buffer.run_nil, listText, String.append_empty]
  | s :: rest => by
    rw [opsOf_cons, Buffer.run_append, run_ops b s, run_opsOf _ rest, listText,
      String.append_assoc]

end

/-- The operations of statements write what the statements are printed as. -/
theorem written_opsOf (depth : Nat) (xs : List Stmt) :
    Op.written depth (opsOf xs) = listText depth xs := by
  rw [Op.written, run_opsOf, Buffer.new, String.empty_append]

mutual

theorem depthAfter_ops (depth : Nat) : (s : Stmt) → Op.depthAfter depth s.ops = some depth
  | declare .. | define .. | assign .. | run _ => rfl
  | block head body => by
    rw [ops_block, List.cons_append, Op.depthAfter_cons]
    show Op.depthAfter (depth + 1) (opsOf body ++ [.leave]) = some depth
    rw [Op.depthAfter_append, depthAfter_opsOf (depth + 1) body]
    rfl

/-- The operations of statements close what they open. -/
theorem depthAfter_opsOf (depth : Nat) : (xs : List Stmt) →
    Op.depthAfter depth (opsOf xs) = some depth
  | [] => by rw [opsOf_nil, Op.depthAfter_nil]
  | s :: rest => by
    rw [opsOf_cons, Op.depthAfter_append, depthAfter_ops depth s, Option.bind_some,
      depthAfter_opsOf depth rest]

end

theorem closed_opsOf (xs : List Stmt) : Op.Closed (opsOf xs) := depthAfter_opsOf 0 xs

end Stmt

end Introspection.Code
