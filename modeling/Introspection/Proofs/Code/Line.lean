import Introspection.Code.Stmt
import Introspection.Proofs.Text.Line

/-!
# `Introspection.Proofs.Code.Line`: the lines of generated code

A statement is printed as lines, and those of a block one tab deeper than its head. So the lines of
code are the same at every depth but for the tabs in front (`Stmt.listText_eq`). When no name in it
ends a line, `Text.lines` reads them back off the printed code (`Stmt.lines_listText`).
-/

set_option autoImplicit false

namespace Introspection.Code

open Introspection.Text (OneLine)

/-- A line that is one level deeper has one more tab in front. -/
theorem lineAt_succ (depth : Nat) (s : String) :
    lineAt (depth + 1) s = lineAt depth (tabs 1 ++ s) := by
  have htabs : tabs (depth + 1) = tabs depth ++ tabs 1 := by
    unfold tabs
    rw [← String.ofList_append, List.replicate_append_replicate]
  unfold lineAt
  rw [htabs]
  simp only [String.append_assoc]

theorem lineAt_zero (s : String) : lineAt 0 s = s ++ "\n" := by
  unfold lineAt
  rw [show tabs 0 = "" from rfl, String.empty_append]

namespace Stmt

mutual

/-- The lines of a statement. -/
def lines : Stmt → List String
  | declare names type => ["var " ++ Text.joined ", " names ++ " " ++ type.text]
  | define name value => [name ++ " := " ++ value.text]
  | assign target value => [target.text ++ " = " ++ value.text]
  | run e => [e.text]
  | block head body =>
    (head.text ++ " \x7b") :: (linesOf body).map (tabs 1 ++ ·) ++ ["\x7d"]

/-- The lines of statements in a row. -/
def linesOf : List Stmt → List String
  | [] => []
  | s :: rest => s.lines ++ linesOf rest

end

mutual

theorem text_eq (depth : Nat) : (s : Stmt) →
    s.text depth = Text.joined "" (s.lines.map (lineAt depth))
  | declare .. | define .. | assign .. | run _ => rfl
  | block head body => by
    -- The body is printed one level deeper, where its lines have a tab in front of their own.
    have hdeeper : (linesOf body).map (lineAt (depth + 1))
        = ((linesOf body).map (tabs 1 ++ ·)).map (lineAt depth) := by
      rw [List.map_map]
      exact List.map_congr_left fun s _ => lineAt_succ depth s
    rw [text, lines, listText_eq (depth + 1) body, hdeeper, List.cons_append, List.map_cons,
      Text.joined_empty_cons, List.map_append, Text.joined_empty_append, String.append_assoc]
    rfl

/-- Code is printed as its lines, at any depth. -/
theorem listText_eq (depth : Nat) : (code : List Stmt) →
    listText depth code = Text.joined "" ((linesOf code).map (lineAt depth))
  | [] => rfl
  | s :: rest => by
    rw [listText, linesOf, List.map_append, Text.joined_empty_append, text_eq depth s,
      listText_eq depth rest]

end

theorem linesOf_append (xs ys : List Stmt) : linesOf (xs ++ ys) = linesOf xs ++ linesOf ys := by
  induction xs with
  | nil => rfl
  | cons s xs ih => rw [List.cons_append, linesOf, linesOf, ih, List.append_assoc]

/-- Code in a row is printed piece by piece. -/
theorem listText_flatMap {α : Type} (depth : Nat) (code : α → List Stmt) (as : List α) :
    listText depth (as.flatMap code)
      = Text.joined "" (as.map fun a => listText depth (code a)) := by
  induction as with
  | nil => rfl
  | cons a as ih =>
    rw [List.map_cons, Text.joined_empty_cons, ← ih, List.flatMap_cons, listText_eq,
      linesOf_append, List.map_append, Text.joined_empty_append, ← listText_eq, ← listText_eq]

theorem linesOf_singleton (s : Stmt) : linesOf [s] = s.lines := List.append_nil s.lines

theorem lines_ne_nil (s : Stmt) : s.lines ≠ [] := by
  cases s <;> simp [lines]

/-- Every statement has a line. -/
theorem linesOf_ne_nil {code : List Stmt} (h : code ≠ []) : linesOf code ≠ [] := by
  cases code with
  | nil => exact absurd rfl h
  | cons s rest => exact List.append_ne_nil_of_left_ne_nil (lines_ne_nil s) _

/-! ### Code whose lines are lines -/

/-- No line of the code breaks in two. -/
def OneLined (code : List Stmt) : Prop := ∀ l ∈ linesOf code, OneLine l

theorem oneLined_nil : OneLined [] := nofun

theorem oneLined_append_iff {xs ys : List Stmt} :
    OneLined (xs ++ ys) ↔ OneLined xs ∧ OneLined ys := by
  unfold OneLined
  rw [linesOf_append, List.forall_mem_append]

theorem oneLined_cons_cons_iff {s t : Stmt} {rest : List Stmt} :
    OneLined (s :: t :: rest) ↔ OneLined [s] ∧ OneLined (t :: rest) := by
  rw [← List.singleton_append, oneLined_append_iff]

theorem oneLined_declare_iff {names : List String} {type : GoType} :
    OneLined [declare names type] ↔ OneLine (Text.joined ", " names) ∧ OneLine type.text := by
  unfold OneLined
  rw [linesOf_singleton, lines, List.forall_mem_singleton]
  simp only [Text.oneLine_append_iff, show OneLine "var " by decide, show OneLine " " by decide,
    true_and, and_true]

theorem oneLined_run_iff {e : Expr} : OneLined [run e] ↔ OneLine e.text := by
  unfold OneLined
  rw [linesOf_singleton, lines, List.forall_mem_singleton]

theorem oneLined_block_iff {head : Head} {body : List Stmt} :
    OneLined [block head body] ↔ OneLine head.text ∧ OneLined body := by
  unfold OneLined
  rw [linesOf_singleton, lines, List.cons_append, List.forall_mem_cons, List.forall_mem_append,
    List.forall_mem_singleton, List.forall_mem_map, Text.oneLine_append_iff]
  simp only [Text.oneLine_append_iff, show OneLine (tabs 1) by decide,
    show OneLine " \x7b" by decide, show OneLine "\x7d" by decide, true_and, and_true]

/-- The lines of the printed code are the lines of its statements. -/
theorem lines_listText {code : List Stmt} (h : OneLined code) :
    Text.lines (listText 0 code) = linesOf code := by
  have hzero : (linesOf code).map (lineAt 0) = (linesOf code).map (· ++ "\n") :=
    List.map_congr_left fun s _ => lineAt_zero s
  rw [listText_eq, hzero, Text.lines_joined h]

end Stmt

end Introspection.Code
