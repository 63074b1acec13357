import Introspection.Code.Stmt
import Introspection.Text.Search

/-!
# `Introspection.Code.Buffer`: code written line by line

Generated code is written into a `Buffer`, which knows behind how many tabs its next line starts.
Opening a block and closing one are two operations (`Op`), issued one after the other by whoever
writes the code. Nothing in a buffer ties the one to the other: a block can be left open, and at
depth zero a block that was never opened can be closed, since the depth stops there.
-/

set_option autoImplicit false

namespace Introspection.Code

/-- Code written so far, and the number of tabs in front of the next line. -/
structure Buffer where
  text : String
  depth : Nat

/-- What is done to a buffer. -/
inductive Op
  | line (s : String)
  /-- Writes the head of a block and indents what follows. -/
  | opening (head : String)
  /-- Dedents and writes the end of a block, followed by what is done with the block there. -/
  | closing (tail : String)
  /-- Writes the lines of code that was written elsewhere. -/
  | lines (s : String)

namespace Buffer

/-- A buffer whose lines start behind `depth` tabs. -/
def new (depth : Nat) : Buffer := ⟨"", depth⟩

def line (b : Buffer) (s : String) : Buffer := ⟨b.text ++ lineAt b.depth s, b.depth⟩

/-- The effect of one operation. The depth of a buffer stops at zero. -/
def step (b : Buffer) : Op → Buffer
  | .line s => b.line s
  | .opening head => ⟨(b.line (head ++ " \x7b")).text, b.depth + 1⟩
  | .closing tail => Buffer.line ⟨b.text, b.depth - 1⟩ ("\x7d" ++ tail)
  | .lines s => (Text.lines s).foldl line b

/-- The effect of operations in a row. -/
def run (b : Buffer) (ops : List Op) : Buffer := ops.foldl step b

end Buffer

namespace Op

/-- Declares variables of one type. -/
def declare (names : List String) (type : GoType) : Op :=
  line ("var " ++ Text.joined ", " names ++ " " ++ type.text)

/-- Declares a variable with its first value. -/
def define (name : String) (value : Expr) : Op := line (name ++ " := " ++ value.text)

def assign (target value : Expr) : Op := line (target.text ++ " = " ++ value.text)

/-- Evaluates an expression for its effect. -/
def eval (e : Expr) : Op := line e.text

/-- Opens the block of a condition or loop. -/
def enter (head : Head) : Op := opening head.text

/-- Closes the block of a condition or loop. -/
def leave : Op := closing ""

/-- What the operations write into a new buffer. -/
def written (depth : Nat) (ops : List Op) : String := ((Buffer.new depth).run ops).text

end Op

end Introspection.Code
