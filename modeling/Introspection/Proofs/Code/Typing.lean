import Introspection.Code.Stmt

/-!
# `Introspection.Proofs.Code.Typing`: the types of values that code stores

`Expr.type?` is the Go type of an expression: that of a conversion is written in it, that of a call
is the declared result of the function, and that of a variable follows from its declaration.
`Stmt.storesOf` lists what code puts into slices and maps, each with the type of its index and that
of its value.
-/

set_option autoImplicit false

namespace Introspection.Code

/-- What is declared where code stands. -/
structure TypeEnv where
  /-- Result type of a function, by its spelling. -/
  result : String → Option GoType
  /-- Type of a variable of the body. -/
  variableType : String → Option GoType

/-- The result types of the functions outside the generated packages that make host values. -/
def libraryResult (f : String) : Option GoType :=
  if f = "C.GoString" then some (.plain "string")
  else if f = "C.GoBytes" then some (.slice (.plain "byte"))
  else if f = "math.Float32frombits" then some (.plain "float32")
  else if f = "math.Float64frombits" then some (.plain "float64")
  else none

/-- The type behind a pointer. -/
def GoType.target? : GoType → Option GoType
  | pointer t => some t
  | _ => none

namespace Expr

/-- The Go type of an expression, where it is known. -/
def type? (env : TypeEnv) : Expr → Option GoType
  | inner name => env.variableType name
  | call f _ => env.result f.text
  | convert t _ => some t
  | cast t _ => some t
  | deref e => (e.type? env).bind GoType.target?
  | address e => (e.type? env).map .pointer
  | paren e => e.type? env
  | not _ => some (.plain "bool")
  | binary op _ _ => if op = "!=" then some (.plain "bool") else none
  | _ => none

/-- The index of an element. -/
def index? : Expr → Option Expr
  | index _ i => some i
  | _ => none

/-- What is put behind the elements of a slice. -/
def appended? : Expr → Option Expr
  | call (plain f) [_, e] => if f = "append" then some e else none
  | _ => none

end Expr

/-- A value that is put into a slice or a map, by its type and that of its index. -/
structure Store where
  index : Option GoType
  value : Option GoType

/-- What an assignment puts into a slice or a map: an element at its index, an element behind the
last one, or all elements of another slice. -/
def storesOfAssign (env : TypeEnv) (target value : Expr) : List Store :=
  match target.index?, value.appended?, value.type? env with
  | some i, _, t => [⟨i.type? env, t⟩]
  | none, some e, _ => [⟨none, e.type? env⟩]
  | none, none, some (.slice t) => [⟨none, some t⟩]
  | none, none, _ => []

/-- What is declared behind a statement. -/
def TypeEnv.behind (env : TypeEnv) : Stmt → TypeEnv
  | .declare names t =>
    { env with variableType := fun n => if n ∈ names then some t else env.variableType n }
  | .define name e =>
    { env with variableType := fun n => if n = name then e.type? env else env.variableType n }
  | _ => env

namespace Stmt

mutual

/-- What a statement puts into slices and maps. -/
def stores (env : TypeEnv) : Stmt → List Store
  | assign target value => storesOfAssign env target value
  | block _ body => storesOf env body
  | _ => []

/-- What statements in a row put into slices and maps. -/
def storesOf (env : TypeEnv) : List Stmt → List Store
  | [] => []
  | s :: rest => s.stores env ++ storesOf (env.behind s) rest

end

/-! ### Statements that store nothing -/

/-- Code that puts nothing into a slice or a map, whatever is declared. -/
def StoresNothing (code : List Stmt) : Prop := ∀ env, storesOf env code = []

theorem storesNothing_nil : StoresNothing [] := fun _ => rfl

theorem storesNothing_run (e : Expr) : StoresNothing [run e] := fun _ => rfl

/-- What stands behind code stores what it does with the variables of that code declared. -/
theorem storesOf_append (env : TypeEnv) (xs ys : List Stmt) :
    storesOf env (xs ++ ys) = storesOf env xs ++ storesOf (xs.foldl TypeEnv.behind env) ys := by
  induction xs generalizing env with
  | nil => rfl
  | cons s xs ih =>
    show s.stores env ++ storesOf (env.behind s) (xs ++ ys)
      = s.stores env ++ storesOf (env.behind s) xs ++ _
    rw [ih, List.append_assoc]
    rfl

/-- Nothing is added by code that stores nothing. -/
theorem storesOf_append_of_storesNothing {ys : List Stmt} (hys : StoresNothing ys) (env : TypeEnv)
    (xs : List Stmt) : storesOf env (xs ++ ys) = storesOf env xs := by
  rw [storesOf_append, hys, List.append_nil]

/-- Code declares no functions. -/
theorem result_foldl_behind (env : TypeEnv) (xs : List Stmt) :
    (xs.foldl TypeEnv.behind env).result = env.result := by
  induction xs generalizing env with
  | nil => rfl
  | cons s xs ih =>
    have hs : (env.behind s).result = env.result := by cases s <;> rfl
    rw [List.foldl_cons, ih, hs]

/-- An assignment of the null value stores nothing. -/
theorem storesOf_nil_cons {env : TypeEnv} {target : Expr} (htarget : target.index? = none)
    (rest : List Stmt) : storesOf env (assign target .nil :: rest) = storesOf env rest := by
  show storesOfAssign env target .nil ++ _ = _
  unfold storesOfAssign
  rw [htarget]
  rfl

end Stmt

end Introspection.Code
