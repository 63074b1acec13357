import Introspection.Code.Expr

/-!
# `Introspection.Code.Stmt`: Go statements

Statements of generated functions. A block holds its statements, so blocks nest by
construction; `Stmt.text` indents each line by one tab for each enclosing block.
-/

set_option autoImplicit false

namespace Introspection.Code

/-- What a counting loop does after each round. -/
inductive Step
  | assign (name : String) (value : Expr)
  | increment (name : String)

/-- The spelling of a step. -/
def Step.text : Step → String
  | assign name value => name ++ " = " ++ value.text
  | increment name => name ++ "++"

/-- What opens a block. -/
inductive Head
  | ifTrue (condition : Expr)
  /-- A loop over positions and elements. -/
  | range (index element : String) (items : Expr)
  /-- A loop as long as a condition holds. -/
  | loop (condition : Expr)
  /-- A loop with a variable of its own. -/
  | walk (name : String) (start condition : Expr) (step : Step)

/-- The spelling of a head. -/
def Head.text : Head → String
  | ifTrue condition => "if " ++ condition.text
  | range index element items => "for " ++ index ++ ", " ++ element ++ " := range " ++ items.text
  | loop condition => "for " ++ condition.text
  | walk name start condition step =>
    "for " ++ name ++ " := " ++ start.text ++ "; " ++ condition.text ++ "; " ++ step.text

/-- A Go statement in generated code. -/
inductive Stmt
  /-- Declares variables of one type. -/
  | declare (names : List String) (type : GoType)
  /-- Declares a variable with its first value. -/
  | define (name : String) (value : Expr)
  | assign (target value : Expr)
  /-- Evaluates an expression for its effect. -/
  | run (e : Expr)
  | block (head : Head) (body : List Stmt)

/-- One tab for each level. -/
def tabs (depth : Nat) : String := String.ofList (List.replicate depth '\t')

/-- A line of text at a depth. -/
def lineAt (depth : Nat) (s : String) : String := tabs depth ++ s ++ "\n"

namespace Stmt

mutual

/-- The lines of a statement at a depth. -/
def text (depth : Nat) : Stmt → String
  | declare names type => lineAt depth ("var " ++ Text.joined ", " names ++ " " ++ type.text)
  | define name value => lineAt depth (name ++ " := " ++ value.text)
  | assign target value => lineAt depth (target.text ++ " = " ++ value.text)
  | run e => lineAt depth e.text
  | block head body =>
    lineAt depth (head.text ++ " \x7b") ++ listText (depth + 1) body ++ lineAt depth "\x7d"

/-- The lines of statements in a row. -/
def listText (depth : Nat) : List Stmt → String
  | [] => ""
  | s :: rest => s.text depth ++ listText depth rest

end

/-- Declares one variable. -/
def declareOne (name : String) (type : GoType) : Stmt := declare [name] type

end Stmt

/-- A name with its type, as parameters, results and receivers are declared. -/
structure Variable where
  name : String
  type : GoType

/-- The spelling of a declared name. -/
def Variable.text (v : Variable) : String := v.name ++ " " ++ v.type.text

/-- Name, parameters and results of a function. -/
structure Signature where
  name : String
  params : List Variable
  results : List Variable

/-- The spelling of a signature; results that there are stand in parentheses. -/
def Signature.text (s : Signature) : String :=
  s.name ++ "(" ++ Text.joined ", " (s.params.map Variable.text) ++ ")"
    ++ if s.results.isEmpty then ""
      else " (" ++ Text.joined ", " (s.results.map Variable.text) ++ ")"

end Introspection.Code
