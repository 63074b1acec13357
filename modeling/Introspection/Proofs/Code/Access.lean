import Introspection.Conversion.Container
import Introspection.Proofs.Code.Effect

/-!
# `Introspection.Proofs.Code.Access`: native memory that code reads and gives back

`Stmt.accessesOf` lists the calls of the C library that copy native characters into a Go string or
give native memory back, in the order in which they are evaluated. Calls inside expressions and
inside the heads of blocks count like those that are statements of their own.

There is one lemma for each way of building an expression or a statement, so what code accesses is
computed by `simp`.
-/

set_option autoImplicit false

namespace Introspection.Code

/-- A call of the C library that copies or gives back the native value that it is passed first. -/
structure Access where
  /-- What opens the blocks around the call, outermost first. -/
  inside : List Head
  function : String
  /-- The value below conversions. -/
  value : Expr

/-- Functions of the C library that copy native characters or give native memory back. -/
def accessors : List String := "GoString" :: givers

/-- The accesses that give native memory back. -/
def returned (accesses : List Access) : List Access := accesses.filter (·.function ∈ givers)

/-- The access inside one block more. -/
def Access.within (head : Head) (a : Access) : Access := { a with inside := head :: a.inside }

namespace Expr

/-- The value below conversions, written either way. -/
def origin : Expr → Expr
  | convert _ e => e.origin
  | cast _ e => e.origin
  | e => e

/-- The access that a call of a function is. -/
def access? : Expr → List Expr → Option Access
  | qualified package f, e :: _ =>
    if package = "C" ∧ f ∈ accessors then some ⟨[], f, e.origin⟩ else none
  | _, _ => none

mutual

/-- What the evaluation of an expression accesses. -/
def accesses : Expr → List Access
  | host _ | inner _ | plain _ | qualified _ _ | typed _ => []
  | member e _ => e.accesses
  | index e i => e.accesses ++ i.accesses
  | call f args => f.accesses ++ argsAccesses args ++ (access? f args).toList
  | convert _ e | cast _ e | deref e | address e | paren e | not e | succ e => e.accesses
  | binary _ a b => a.accesses ++ b.accesses

/-- What the evaluation of arguments accesses. -/
def argsAccesses : List Expr → List Access
  | [] => []
  | e :: rest => e.accesses ++ argsAccesses rest

end

/-- A variable, or what is reached from one without a call. -/
def isPlace : Expr → Bool
  | host _ | inner _ => true
  | member e _ | deref e | paren e => e.isPlace
  | _ => false

variable (e f : Expr) (es : List Expr) (t : GoType) (name : String)

@[simp] theorem argsAccesses_nil : argsAccesses [] = [] := rfl

@[simp] theorem argsAccesses_cons : argsAccesses (e :: es) = e.accesses ++ argsAccesses es := rfl

@[simp] theorem accesses_host : (host name).accesses = [] := rfl
@[simp] theorem accesses_inner : (inner name).accesses = [] := rfl
@[simp] theorem accesses_plain : (plain name).accesses = [] := rfl
@[simp] theorem accesses_typed : (typed t).accesses = [] := rfl
@[simp] theorem accesses_qualified (package : String) : (qualified package name).accesses = [] :=
  rfl

@[simp] theorem accesses_member : (member e name).accesses = e.accesses := rfl
@[simp] theorem accesses_index : (index e f).accesses = e.accesses ++ f.accesses := rfl
@[simp] theorem accesses_convert : (convert t e).accesses = e.accesses := rfl
@[simp] theorem accesses_cast : (cast t e).accesses = e.accesses := rfl
@[simp] theorem accesses_deref : (deref e).accesses = e.accesses := rfl
@[simp] theorem accesses_address : (address e).accesses = e.accesses := rfl
@[simp] theorem accesses_paren : (paren e).accesses = e.accesses := rfl
@[simp] theorem accesses_not : (not e).accesses = e.accesses := rfl
@[simp] theorem accesses_succ : (succ e).accesses = e.accesses := rfl

@[simp] theorem accesses_binary (op : String) :
    (binary op e f).accesses = e.accesses ++ f.accesses := rfl

/-- A function of another package accesses what its arguments do. -/
theorem accesses_call_qualified {package : String} (h : package = "C" → name ∉ accessors) :
    (call (qualified package name) es).accesses = argsAccesses es := by
  have hnone : access? (qualified package name) es = none := by
    cases es with
    | nil => rfl
    | cons e es => exact if_neg fun hc => h hc.1 hc.2
  rw [accesses, hnone]
  simp

@[simp] theorem accesses_call_plain : (call (plain name) es).accesses = argsAccesses es :=
  List.append_nil _

@[simp] theorem accesses_builtin : (builtin name es).accesses = argsAccesses es :=
  accesses_call_plain es name

/-- Of the functions of the C library some access what they are passed first. -/
@[simp] theorem accesses_native_cons : (native name (e :: es)).accesses
    = e.accesses ++ argsAccesses es
      ++ if name ∈ accessors then [⟨[], name, e.origin⟩] else [] := by
  by_cases h : name ∈ accessors <;> simp [native, accesses, access?, h]

@[simp] theorem accesses_native_nil : (native name []).accesses = [] := rfl

@[simp] theorem accesses_invoke : (invoke e name).accesses = e.accesses := by
  show e.accesses ++ [] ++ [] = e.accesses
  simp

@[simp] theorem accesses_nil : nil.accesses = [] := rfl
@[simp] theorem accesses_nativeConst : (nativeConst name).accesses = [] := rfl
@[simp] theorem accesses_toUnsafe : e.toUnsafe.accesses = e.accesses := rfl
@[simp] theorem accesses_toGpointer : e.toGpointer.accesses = e.accesses := rfl
@[simp] theorem accesses_toNative : (toNative name e).accesses = e.accesses := rfl
@[simp] theorem accesses_toWord : e.toWord.accesses = e.accesses := rfl
@[simp] theorem accesses_gboolean (b : Bool) : (gboolean b).accesses = [] := rfl
@[simp] theorem accesses_differs : (differs e f).accesses = e.accesses ++ f.accesses := rfl
@[simp] theorem accesses_notNil : e.notNil.accesses = e.accesses := List.append_nil _
@[simp] theorem accesses_len : e.len.accesses = e.accesses := by simp [len]

@[simp] theorem accesses_sizeOf : e.sizeOf.accesses = e.accesses := by
  rw [sizeOf, accesses_call_qualified _ _ (by decide)]
  simp

@[simp] theorem accesses_slice : (slice e f).accesses = e.accesses ++ f.accesses := by
  rw [slice, accesses_call_qualified _ _ (by decide)]
  simp

@[simp] theorem accesses_indexable : e.indexable.accesses = e.accesses := by
  cases e <;> rfl

/-- Copying characters is an access. -/
@[simp] theorem accesses_goString :
    e.goString.accesses = e.accesses ++ [⟨[], "GoString", e.origin⟩] := by
  rw [goString, accesses_native_cons, if_pos (by decide)]
  simp

/-- So is giving memory back. -/
@[simp] theorem accesses_gFree : e.gFree.accesses = e.accesses ++ [⟨[], "g_free", e.origin⟩] := by
  rw [gFree, accesses_native_cons, if_pos (by decide)]
  simp [origin, toGpointer, toUnsafe]

/-- Reading a variable calls nothing. -/
theorem accesses_of_isPlace : ∀ {e : Expr}, e.isPlace = true → e.accesses = []
  | host _, _ | inner _, _ => rfl
  | member e _, h => accesses_of_isPlace (e := e) h
  | deref e, h => accesses_of_isPlace (e := e) h
  | paren e, h => accesses_of_isPlace (e := e) h

theorem origin_of_isPlace : ∀ {e : Expr}, e.isPlace = true → e.origin = e
  | host _, _ | inner _, _ | member _ _, _ | deref _, _ | paren _, _ => rfl

end Expr

/-- What a loop accesses after each round. -/
def Step.accesses : Step → List Access
  | assign _ value => value.accesses
  | increment _ => []

/-- What is accessed to open a block. -/
def Head.accesses : Head → List Access
  | ifTrue condition => condition.accesses
  | range _ _ items => items.accesses
  | loop condition => condition.accesses
  | walk _ start condition step => start.accesses ++ condition.accesses ++ step.accesses

namespace Stmt

mutual

/-- What a statement accesses. -/
def accesses : Stmt → List Access
  | declare _ _ => []
  | define _ value => value.accesses
  | assign target value => target.accesses ++ value.accesses
  | run e => e.accesses
  | block head body => head.accesses ++ (accessesOf body).map (Access.within head)

/-- What statements in a row access. -/
def accessesOf : List Stmt → List Access
  | [] => []
  | s :: rest => s.accesses ++ accessesOf rest

end

variable (e f : Expr) (t : GoType) (name : String) (s : Stmt) (head : Head) (code : List Stmt)

@[simp] theorem accesses_declare (names : List String) : (declare names t).accesses = [] := rfl
@[simp] theorem accesses_declareOne : (declareOne name t).accesses = [] := rfl
@[simp] theorem accesses_define : (define name e).accesses = e.accesses := rfl
@[simp] theorem accesses_assign : (assign e f).accesses = e.accesses ++ f.accesses := rfl
@[simp] theorem accesses_run : (run e).accesses = e.accesses := rfl

@[simp] theorem accesses_block : (block head code).accesses
    = head.accesses ++ (accessesOf code).map (Access.within head) := rfl

@[simp] theorem accessesOf_nil : accessesOf [] = [] := rfl
@[simp] theorem accessesOf_cons : accessesOf (s :: code) = s.accesses ++ accessesOf code := rfl

@[simp] theorem accessesOf_append (rest : List Stmt) :
    accessesOf (code ++ rest) = accessesOf code ++ accessesOf rest := by
  induction code with
  | nil => rfl
  | cons s code ih => simp [ih]

end Stmt

end Introspection.Code
