import Introspection.Code.Stmt
import Introspection.Proofs.Text.Qualifier

/-!
# `Introspection.Proofs.Code.Token`: which words of code stand in front of points

Code is data before it is text. `Expr.tokens` and `Stmt.tokensOf` list the pieces of code that may
bring a point into the text: the names of other packages, fields and methods behind the values they
belong to, and names and literals that the data supplies.

Between two pieces the text has a mark, so the words in front of points in the text are those of the
pieces, whatever names the code contains: `Expr.qualifiersIn_text`, `Stmt.qualifiersIn_listText`.
-/

set_option autoImplicit false

namespace Introspection.Code

open Introspection.Text

/-- A piece of code. -/
inductive Token
  /-- A name, a number or an operator. -/
  | plain (s : String)
  /-- A name of another package, or of the C library. -/
  | qualified (package name : String)
  /-- A field or method of the value that is spelled `value`. -/
  | selected (value name : String)
  /-- The literal of a constant, or a comment. -/
  | literal (s : String)

/-- The words in front of points in a piece of code. Of a selected field or method, the value in
front of it is a piece by itself; only the word that this ends in counts here. -/
def Token.qualifiers : Token → List (List Char)
  | plain s => qualifiersIn s
  | qualified package name => qualifiersIn (package ++ "." ++ name)
  | selected value name => Text.qualifiers (begun (some []) value.toList) ("." ++ name).toList
  | literal s => qualifiersIn s

/-- The words in front of points in pieces of code. -/
def Token.allQualifiers (ts : List Token) : List (List Char) := ts.flatMap qualifiers

namespace Token

@[simp] theorem qualifiers_plain (s : String) : (plain s).qualifiers = qualifiersIn s := rfl

@[simp] theorem qualifiers_literal (s : String) : (literal s).qualifiers = qualifiersIn s := rfl

@[simp] theorem allQualifiers_nil : allQualifiers [] = [] := rfl

@[simp] theorem allQualifiers_cons (t : Token) (ts : List Token) :
    allQualifiers (t :: ts) = t.qualifiers ++ allQualifiers ts :=
  rfl

@[simp] theorem allQualifiers_append (ts us : List Token) :
    allQualifiers (ts ++ us) = allQualifiers ts ++ allQualifiers us :=
  List.flatMap_append

theorem allQualifiers_map_plain (names : List String) :
    allQualifiers (names.map plain) = names.flatMap qualifiersIn := by
  rw [allQualifiers, List.flatMap_map]
  rfl

/-- Texts that are read piece by piece can be so read in a row. -/
theorem flatMap_qualifiersIn_map {α : Type} {text : α → String} {tokens : α → List Token}
    (h : ∀ a, qualifiersIn (text a) = allQualifiers (tokens a)) (as : List α) :
    (as.map text).flatMap qualifiersIn = allQualifiers (as.flatMap tokens) := by
  rw [allQualifiers, List.flatMap_assoc, List.flatMap_map]
  simp only [h]
  rfl

/-- A word is the qualifier of what it stands in front of, and the first one listed. -/
theorem qualifiers_qualified {package : String} (h : IsWord package) (name : String) :
    (qualified package name).qualifiers
      = package.toList :: Text.qualifiers none name.toList := by
  show Text.qualifiers (some []) (package ++ "." ++ name).toList = _
  rw [String.toList_append, String.toList_append, List.append_assoc, Text.qualifiers_append,
    begun_of_isWord h, qualifiers_eq_nil (not_mem_point_of_isWord h)]
  simp

end Token

/-! ### Types -/

namespace GoType

/-- The names in a type. -/
def tokens : GoType → List Token
  | void => []
  | plain name => [.plain name]
  | qualified package name => [.qualified package name]
  | pointer target => target.tokens
  | slice element => element.tokens
  | map key value => key.tokens ++ value.tokens

theorem qualifiersIn_text (t : GoType) : qualifiersIn t.text = Token.allQualifiers t.tokens := by
  induction t with
  | void => rfl
  | plain name | qualified package name => simp [text, tokens, Token.qualifiers]
  | pointer target ih | slice target ih =>
    simp (disch := decide) only [text, tokens, qualifiersIn_behind, ih]
  | map key value ihkey ihvalue =>
    simp (disch := decide) only [text, tokens, qualifiersIn_behind, qualifiersIn_between, ihkey,
      ihvalue, Token.allQualifiers_append]

end GoType

/-! ### Expressions -/

namespace Expr

mutual

/-- The pieces of an expression. -/
def tokens : Expr → List Token
  | host name | inner name | plain name => [.plain name]
  | qualified package name => [.qualified package name]
  | typed t => t.tokens
  | member e name => e.tokens ++ [.selected e.text name]
  | index e i => e.tokens ++ i.tokens
  | call f args => f.tokens ++ argsTokens args
  | convert t e | cast t e => t.tokens ++ e.tokens
  | deref e | address e | paren e | not e | succ e => e.tokens
  | binary op a b => a.tokens ++ [.plain op] ++ b.tokens

/-- The pieces of arguments. -/
def argsTokens : List Expr → List Token
  | [] => []
  | e :: rest => e.tokens ++ argsTokens rest

end

mutual

/-- The words in front of points in an expression are those of its pieces. -/
theorem qualifiersIn_text : (e : Expr) → qualifiersIn e.text = Token.allQualifiers e.tokens
  | host name | inner name | plain name | qualified package name => by
    simp [text, tokens, Token.qualifiers]
  | typed t => t.qualifiersIn_text
  | member e name => by
    -- The point stands right behind the value, so the value's last word counts.
    rw [text, tokens, Token.allQualifiers_append, ← e.qualifiersIn_text, String.append_assoc]
    simp only [qualifiersIn, String.toList_append, qualifiers_append, Token.allQualifiers_cons,
      Token.qualifiers, Token.allQualifiers_nil, List.append_nil]
  | index e i => by
    simp (disch := decide) only [text, tokens, qualifiersIn_between, qualifiersIn_before,
      qualifiersIn_text, Token.allQualifiers_append]
  | call f args => by
    simp (disch := decide) only [text, tokens, qualifiersIn_between, qualifiersIn_before,
      qualifiersIn_text, qualifiersIn_argsText, Token.allQualifiers_append]
  | convert t e => by
    simp (disch := decide) only [text, tokens, qualifiersIn_between, qualifiersIn_before,
      qualifiersIn_text, GoType.qualifiersIn_text, Token.allQualifiers_append]
  | cast t e => by
    simp (disch := decide) only [text, tokens, qualifiersIn_between, qualifiersIn_before,
      qualifiersIn_behind, qualifiersIn_text, GoType.qualifiersIn_text,
      Token.allQualifiers_append]
  | deref e | address e => by
    simp (disch := decide) only [text, tokens, qualifiersIn_behind, qualifiersIn_text]
  | paren e | not e | succ e => by
    simp (disch := decide) only [text, tokens, qualifiersIn_behind, qualifiersIn_before,
      qualifiersIn_text]
  | binary op a b => by
    simp (disch := decide) only [text, tokens, qualifiersIn_between, qualifiersIn_text,
      Token.allQualifiers_append, Token.allQualifiers_cons, Token.qualifiers_plain,
      Token.allQualifiers_nil, List.append_nil]

theorem qualifiersIn_argsText : (es : List Expr) →
    qualifiersIn (argsText es) = Token.allQualifiers (argsTokens es)
  | [] => rfl
  | [e] => by
    rw [argsText, argsTokens, argsTokens, List.append_nil]
    exact e.qualifiersIn_text
  | e :: f :: rest => by
    rw [argsText, argsTokens, Token.allQualifiers_append, ← qualifiersIn_argsText (f :: rest),
      ← e.qualifiersIn_text]
    exact qualifiersIn_between (by decide) (by decide) (by decide) _ _

end

end Expr

/-! ### Statements -/

theorem closes_lineAt (depth : Nat) (s : String) : Closes (lineAt depth s) :=
  Closes.append (by decide)

/-- A line is read by itself. -/
theorem qualifiersIn_lineAt (depth : Nat) (s : String) :
    qualifiersIn (lineAt depth s) = qualifiersIn s := by
  have hpoint : '.' ∉ (tabs depth).toList := by
    rw [tabs, String.toList_ofList]
    exact fun h => absurd (List.eq_of_mem_replicate h) (by decide)
  rw [lineAt, qualifiersIn_before (by decide) (by decide)]
  cases depth with
  | zero => rw [tabs, List.replicate_zero, String.ofList_nil, String.empty_append]
  | succ depth =>
    have hcloses : Closes (tabs (depth + 1)) := by
      rw [Closes, tabs, String.toList_ofList, closes, List.getLast?_replicate,
        if_neg (Nat.succ_ne_zero depth)]
      decide
    exact qualifiersIn_behind hpoint hcloses s

/-- Lines are read one by one. -/
theorem qualifiersIn_joined_lineAt (depth : Nat) (texts : List String) :
    qualifiersIn (joined "" (texts.map (lineAt depth))) = texts.flatMap qualifiersIn := by
  have hlines : ∀ s ∈ texts.map (lineAt depth), Whole s := by
    intro s hs
    obtain ⟨t, _, rfl⟩ := List.mem_map.mp hs
    exact Or.inr (closes_lineAt depth t)
  rw [qualifiersIn_joined_empty hlines, List.flatMap_map]
  simp only [qualifiersIn_lineAt]

/-- The pieces of a step. -/
def Step.tokens : Step → List Token
  | assign name value => .plain name :: value.tokens
  | increment name => [.plain name]

theorem Step.qualifiersIn_text (s : Step) :
    qualifiersIn s.text = Token.allQualifiers s.tokens := by
  cases s with
  | assign name value =>
    simp (disch := decide) only [text, tokens, qualifiersIn_between, Expr.qualifiersIn_text,
      Token.allQualifiers_cons, Token.qualifiers_plain]
  | increment name =>
    simp (disch := decide) only [text, tokens, qualifiersIn_before, Token.allQualifiers_cons,
      Token.qualifiers_plain, Token.allQualifiers_nil, List.append_nil]

/-- The pieces of what opens a block. -/
def Head.tokens : Head → List Token
  | ifTrue condition => condition.tokens
  | range index element items => .plain index :: .plain element :: items.tokens
  | loop condition => condition.tokens
  | walk name start condition step =>
    .plain name :: (start.tokens ++ condition.tokens ++ step.tokens)

theorem Head.qualifiersIn_text (h : Head) :
    qualifiersIn h.text = Token.allQualifiers h.tokens := by
  cases h with
  | ifTrue condition | loop condition =>
    simp (disch := decide) only [text, tokens, qualifiersIn_behind, Expr.qualifiersIn_text]
  | range index element items =>
    simp (disch := decide) only [text, tokens, qualifiersIn_behind, qualifiersIn_between,
      Expr.qualifiersIn_text, Token.allQualifiers_cons, Token.qualifiers_plain, List.append_assoc]
  | walk name start condition step =>
    simp (disch := decide) only [text, tokens, qualifiersIn_behind, qualifiersIn_between,
      Expr.qualifiersIn_text, Step.qualifiersIn_text, Token.allQualifiers_cons,
      Token.allQualifiers_append, Token.qualifiers_plain, List.append_assoc]

namespace Stmt

mutual

/-- The pieces of a statement. -/
def tokens : Stmt → List Token
  | declare names type => names.map .plain ++ type.tokens
  | define name value => .plain name :: value.tokens
  | assign target value => target.tokens ++ value.tokens
  | run e => e.tokens
  | block head body => head.tokens ++ tokensOf body

/-- The pieces of statements in a row. -/
def tokensOf : List Stmt → List Token
  | [] => []
  | s :: rest => s.tokens ++ tokensOf rest

end

theorem closes_text (depth : Nat) (s : Stmt) : Closes (s.text depth) := by
  cases s with
  | declare | define | assign | run =>
    rw [text]
    exact closes_lineAt ..
  | block =>
    rw [text]
    exact (closes_lineAt ..).append

theorem whole_listText (depth : Nat) (code : List Stmt) : Whole (listText depth code) := by
  induction code with
  | nil => exact Or.inl rfl
  | cons s code ih => exact .append (Or.inr (closes_text depth s)) ih

mutual

/-- The words in front of points in a statement are those of its pieces. -/
theorem qualifiersIn_text (depth : Nat) :
    (s : Stmt) → qualifiersIn (s.text depth) = Token.allQualifiers s.tokens
  | declare names type => by
    simp (disch := decide) only [text, tokens, qualifiersIn_lineAt, qualifiersIn_behind,
      qualifiersIn_between, qualifiersIn_joined, GoType.qualifiersIn_text,
      Token.allQualifiers_append, Token.allQualifiers_map_plain]
  | define name value => by
    simp (disch := decide) only [text, tokens, qualifiersIn_lineAt, qualifiersIn_between,
      Expr.qualifiersIn_text, Token.allQualifiers_cons, Token.qualifiers_plain]
  | assign target value => by
    simp (disch := decide) only [text, tokens, qualifiersIn_lineAt, qualifiersIn_between,
      Expr.qualifiersIn_text, Token.allQualifiers_append]
  | run e => by
    rw [text, tokens, qualifiersIn_lineAt, e.qualifiersIn_text]
  | block head body => by
    have hopened : Whole (lineAt depth (head.text ++ " \x7b")) := Or.inr (closes_lineAt ..)
    rw [text, tokens, qualifiersIn_append_of_whole (hopened.append (whole_listText ..)),
      qualifiersIn_append_of_whole hopened, qualifiersIn_lineAt, qualifiersIn_lineAt,
      qualifiersIn_before (by decide) (by decide), head.qualifiersIn_text, qualifiersIn_listText,
      Token.allQualifiers_append, qualifiersIn_eq_nil (by decide), List.append_nil]

/-- The words in front of points in statements in a row are those of their pieces. -/
theorem qualifiersIn_listText (depth : Nat) :
    (code : List Stmt) → qualifiersIn (listText depth code) = Token.allQualifiers (tokensOf code)
  | [] => rfl
  | s :: rest => by
    rw [listText, tokensOf, qualifiersIn_append_of_closes (closes_text depth s),
      qualifiersIn_text depth s, qualifiersIn_listText depth rest, Token.allQualifiers_append]

end

end Stmt

/-! ### Signatures -/

/-- The pieces of a declared name with its type. -/
def Variable.tokens (v : Variable) : List Token := .plain v.name :: v.type.tokens

theorem Variable.qualifiersIn_text (v : Variable) :
    qualifiersIn v.text = Token.allQualifiers v.tokens := by
  simp (disch := decide) only [text, tokens, qualifiersIn_between, GoType.qualifiersIn_text,
    Token.allQualifiers_cons, Token.qualifiers_plain]

theorem qualifiersIn_joined_variables (vs : List Variable) :
    qualifiersIn (joined ", " (vs.map Variable.text))
      = Token.allQualifiers (vs.flatMap Variable.tokens) := by
  rw [qualifiersIn_joined (by decide) (by decide) (by decide)]
  exact Token.flatMap_qualifiersIn_map Variable.qualifiersIn_text vs

/-- The pieces of a signature. -/
def Signature.tokens (s : Signature) : List Token :=
  .plain s.name :: (s.params.flatMap Variable.tokens ++ s.results.flatMap Variable.tokens)

theorem Signature.qualifiersIn_text (s : Signature) :
    qualifiersIn s.text = Token.allQualifiers s.tokens := by
  have hfront : qualifiersIn (s.name ++ "(" ++ joined ", " (s.params.map Variable.text) ++ ")")
      = qualifiersIn s.name ++ Token.allQualifiers (s.params.flatMap Variable.tokens) := by
    simp (disch := decide) only [qualifiersIn_before, qualifiersIn_between,
      qualifiersIn_joined_variables]
  have hback : qualifiersIn (" (" ++ joined ", " (s.results.map Variable.text) ++ ")")
      = Token.allQualifiers (s.results.flatMap Variable.tokens) := by
    simp (disch := decide) only [qualifiersIn_before, qualifiersIn_behind,
      qualifiersIn_joined_variables]
  rw [text, tokens, qualifiersIn_append_of_closes (.append (by decide)), hfront,
    Token.allQualifiers_cons, Token.allQualifiers_append, Token.qualifiers_plain, List.append_assoc]
  split
  next hnone => simp [List.isEmpty_iff.mp hnone, qualifiersIn_eq_nil]
  next => rw [hback]

end Introspection.Code
