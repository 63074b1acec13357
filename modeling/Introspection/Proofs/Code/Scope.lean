import Introspection.Conversion.Container

/-!
# `Introspection.Proofs.Code.Scope`: the signature names that code mentions

`Expr.hosts` lists the names of the signature that an expression reads: the receiver, parameters and
results of the wrapper. `Stmt.hostsOf` lists those that statements read or write. Locals and names
of other packages are not among them.

There is one lemma for each way of building an expression or a statement, so what code mentions is
computed by `simp`.
-/

set_option autoImplicit false

namespace Introspection.Code

namespace Expr

mutual

/-- The names of the signature in an expression. -/
def hosts : Expr → List String
  | host name => [name]
  | inner _ | plain _ | qualified _ _ | typed _ => []
  | member e _ => e.hosts
  | index e i => e.hosts ++ i.hosts
  | call f args => f.hosts ++ argsHosts args
  | convert _ e | cast _ e | deref e | address e | paren e | not e | succ e => e.hosts
  | binary _ a b => a.hosts ++ b.hosts

/-- The names of the signature in arguments. -/
def argsHosts : List Expr → List String
  | [] => []
  | e :: rest => e.hosts ++ argsHosts rest

end

variable (e f : Expr) (es : List Expr) (t : GoType) (name : String)

@[simp] theorem argsHosts_nil : argsHosts [] = [] := rfl
@[simp] theorem argsHosts_cons : argsHosts (e :: es) = e.hosts ++ argsHosts es := rfl

@[simp] theorem hosts_host : (host name).hosts = [name] := rfl
@[simp] theorem hosts_inner : (inner name).hosts = [] := rfl
@[simp] theorem hosts_plain : (plain name).hosts = [] := rfl
@[simp] theorem hosts_qualified (package : String) : (qualified package name).hosts = [] := rfl
@[simp] theorem hosts_typed : (typed t).hosts = [] := rfl
@[simp] theorem hosts_member : (member e name).hosts = e.hosts := rfl
@[simp] theorem hosts_index : (index e f).hosts = e.hosts ++ f.hosts := rfl
@[simp] theorem hosts_call : (call e es).hosts = e.hosts ++ argsHosts es := rfl
@[simp] theorem hosts_convert : (convert t e).hosts = e.hosts := rfl
@[simp] theorem hosts_cast : (cast t e).hosts = e.hosts := rfl
@[simp] theorem hosts_deref : (deref e).hosts = e.hosts := rfl
@[simp] theorem hosts_address : (address e).hosts = e.hosts := rfl
@[simp] theorem hosts_paren : (paren e).hosts = e.hosts := rfl
@[simp] theorem hosts_not : (not e).hosts = e.hosts := rfl
@[simp] theorem hosts_succ : (succ e).hosts = e.hosts := rfl
@[simp] theorem hosts_binary (op : String) : (binary op e f).hosts = e.hosts ++ f.hosts := rfl

@[simp] theorem hosts_native : (native name es).hosts = argsHosts es := rfl
@[simp] theorem hosts_builtin : (builtin name es).hosts = argsHosts es := rfl
@[simp] theorem hosts_invoke : (invoke e name).hosts = e.hosts := List.append_nil _
@[simp] theorem hosts_nil : nil.hosts = [] := rfl
@[simp] theorem hosts_nativeConst : (nativeConst name).hosts = [] := rfl
@[simp] theorem hosts_toUnsafe : e.toUnsafe.hosts = e.hosts := rfl
@[simp] theorem hosts_toGpointer : e.toGpointer.hosts = e.hosts := rfl
@[simp] theorem hosts_toNative : (toNative name e).hosts = e.hosts := rfl
@[simp] theorem hosts_toWord : e.toWord.hosts = e.hosts := rfl
@[simp] theorem hosts_gboolean (b : Bool) : (gboolean b).hosts = [] := rfl
@[simp] theorem hosts_len : e.len.hosts = e.hosts := List.append_nil _
@[simp] theorem hosts_differs : (differs e f).hosts = e.hosts ++ f.hosts := rfl
@[simp] theorem hosts_notNil : e.notNil.hosts = e.hosts := List.append_nil _
@[simp] theorem hosts_sizeOf : e.sizeOf.hosts = e.hosts := List.append_nil _
@[simp] theorem hosts_sizeOfType : (sizeOfType t).hosts = [] := rfl
@[simp] theorem hosts_goString : e.goString.hosts = e.hosts := List.append_nil _
@[simp] theorem hosts_cString : e.cString.hosts = e.hosts := List.append_nil _
@[simp] theorem hosts_free : e.free.hosts = e.hosts := List.append_nil _
@[simp] theorem hosts_gFree : e.gFree.hosts = e.hosts := List.append_nil _

@[simp] theorem hosts_slice : (slice e f).hosts = e.hosts ++ f.hosts := by
  simp [slice]

@[simp] theorem hosts_indexable : e.indexable.hosts = e.hosts := by
  cases e <;> rfl

end Expr

/-- The names of the signature in what a loop does after each round. -/
def Step.hosts : Step → List String
  | assign _ value => value.hosts
  | increment _ => []

/-- The names of the signature in what opens a block. -/
def Head.hosts : Head → List String
  | ifTrue condition => condition.hosts
  | range _ _ items => items.hosts
  | loop condition => condition.hosts
  | walk _ start condition step => start.hosts ++ condition.hosts ++ step.hosts

namespace Stmt

mutual

/-- The names of the signature in a statement. -/
def hosts : Stmt → List String
  | declare _ _ => []
  | define _ value => value.hosts
  | assign target value => target.hosts ++ value.hosts
  | run e => e.hosts
  | block head body => head.hosts ++ hostsOf body

/-- The names of the signature in statements in a row. -/
def hostsOf : List Stmt → List String
  | [] => []
  | s :: rest => s.hosts ++ hostsOf rest

end

variable (e f : Expr) (t : GoType) (name : String) (s : Stmt) (code : List Stmt)

@[simp] theorem hosts_declare (names : List String) : (declare names t).hosts = [] := rfl
@[simp] theorem hosts_declareOne : (declareOne name t).hosts = [] := rfl
@[simp] theorem hosts_define : (define name e).hosts = e.hosts := rfl
@[simp] theorem hosts_assign : (assign e f).hosts = e.hosts ++ f.hosts := rfl
@[simp] theorem hosts_run : (run e).hosts = e.hosts := rfl
@[simp] theorem hosts_ifTrue : (block (.ifTrue e) code).hosts = e.hosts ++ hostsOf code := rfl
@[simp] theorem hosts_loop : (block (.loop e) code).hosts = e.hosts ++ hostsOf code := rfl

@[simp] theorem hosts_range (index : String) :
    (block (.range index name e) code).hosts = e.hosts ++ hostsOf code :=
  rfl

@[simp] theorem hosts_walk (step : Step) :
    (block (.walk name e f step) code).hosts
      = e.hosts ++ f.hosts ++ step.hosts ++ hostsOf code :=
  rfl

@[simp] theorem hostsOf_nil : hostsOf [] = [] := rfl
@[simp] theorem hostsOf_cons : hostsOf (s :: code) = s.hosts ++ hostsOf code := rfl

@[simp] theorem hostsOf_append (rest : List Stmt) :
    hostsOf (code ++ rest) = hostsOf code ++ hostsOf rest := by
  induction code with
  | nil => rfl
  | cons s code ih => simp [ih]

end Stmt

end Introspection.Code
