import Introspection.Conversion.Container
import Introspection.Proofs.Code.Token
import Introspection.Proofs.Descriptor.Shape

/-!
# `Introspection.Proofs.Code.Foreign`: names of other packages in code

A name that code takes from another package is accounted for when it is known why it is there: it
belongs to the C library, it is one of the few names of the standard library that conversions use,
or it stands for a registered type of another namespace (`Scope.Foreign`). The last are names of
references that the data makes, which `R` stands for here, and the name of the type handle.

There is one lemma for each way of building a type, an expression or a statement, so that `simp`
reduces code to the types and values it is built from.
-/

set_option autoImplicit false

namespace Introspection

open Introspection.Code
open Introspection.Naming

/-- A name in the package of another namespace: the type handle, or one of the names that go with a
registered type, which are that of the type, of its method set and of the function that wraps its
handle. -/
def Scope.Foreign (scope : Scope) (R : EntityRef → Prop) (home name : String) : Prop :=
  home ≠ scope.home ∧ ((home = "GObject" ∧ name = "GType") ∨ ∃ r, R r ∧ r.home = home
    ∧ (name = r.name ∨ name = "I" ++ r.name ∨ name = "Wrap" ++ r.name))

/-- Foreign references in a descriptor, at any depth, are among `R`. -/
def TypeDesc.RefersWithin (scope : Scope) (R : EntityRef → Prop) (t : TypeDesc) : Prop :=
  ∀ s : TypeDesc, s.Inside t → ∀ r, s.entity = some r → r.home ≠ scope.home → R r

namespace Code

/-- The names of the standard library that conversions use. -/
def standardNames : List (String × String) :=
  [("unsafe", "Pointer"), ("unsafe", "Sizeof"), ("unsafe", "Slice"), ("unsafe", "Add"),
    ("math", "Float32bits"), ("math", "Float64bits"), ("math", "Float32frombits"),
    ("math", "Float64frombits"), ("errors", "New")]

/-- It is known why a name of another package is there. -/
def Token.Accounted (scope : Scope) (R : EntityRef → Prop) : Token → Prop
  | qualified package name =>
    package = "C" ∨ (package, name) ∈ standardNames
      ∨ ∃ home, scope.Foreign R home name ∧ package = packageName home
  | _ => True

variable {scope : Scope} {R : EntityRef → Prop}

@[simp] theorem Token.accounted_plain (s : String) : (plain s).Accounted scope R := trivial

@[simp] theorem Token.accounted_selected (value name : String) :
    (selected value name).Accounted scope R :=
  trivial

@[simp] theorem Token.accounted_literal (s : String) : (literal s).Accounted scope R := trivial

@[simp] theorem Token.accounted_native (name : String) : (qualified "C" name).Accounted scope R :=
  Or.inl rfl

theorem Token.accounted_of_standard {package name : String} (h : (package, name) ∈ standardNames) :
    (qualified package name).Accounted scope R :=
  Or.inr (Or.inl h)

/-! ### Types -/

namespace GoType

/-- Every name of another package in the type is accounted for. -/
def Accounted (scope : Scope) (R : EntityRef → Prop) (t : GoType) : Prop :=
  ∀ k ∈ t.tokens, k.Accounted scope R

variable (t : GoType) (name : String)

@[simp] theorem accounted_void : void.Accounted scope R := nofun

@[simp] theorem accounted_plain : (plain name).Accounted scope R := by
  simp [Accounted, tokens]

@[simp] theorem accounted_native : (native name).Accounted scope R := by
  simp [native, Accounted, tokens]

@[simp] theorem accounted_gpointer : gpointer.Accounted scope R := accounted_native "gpointer"

@[simp] theorem accounted_unsafePointer : unsafePointer.Accounted scope R :=
  List.forall_mem_singleton.mpr (Token.accounted_of_standard (by decide))

@[simp] theorem accounted_pointer : (pointer t).Accounted scope R ↔ t.Accounted scope R := Iff.rfl

@[simp] theorem accounted_slice : (slice t).Accounted scope R ↔ t.Accounted scope R := Iff.rfl

@[simp] theorem accounted_map (value : GoType) :
    (map t value).Accounted scope R ↔ t.Accounted scope R ∧ value.Accounted scope R :=
  List.forall_mem_append

@[simp] theorem accounted_pointerIf (indirect : Bool) :
    (pointerIf indirect t).Accounted scope R ↔ t.Accounted scope R := by
  cases indirect <;> rfl

/-- Types of the namespace at home need no package, others are foreign names. -/
theorem accounted_typeName {home name : String}
    (h : home ≠ scope.home → scope.Foreign R home name) :
    (scope.typeName home name).Accounted scope R := by
  unfold Scope.typeName Scope.isLocal
  split
  next => exact accounted_plain name
  next hforeign =>
    have hforeign : home ≠ scope.home := by simpa using hforeign
    exact List.forall_mem_singleton.mpr (Or.inr (Or.inr ⟨home, h hforeign, rfl⟩))

end GoType

/-! ### Expressions -/

namespace Expr

/-- Every name of another package in the expression is accounted for. -/
def Accounted (scope : Scope) (R : EntityRef → Prop) (e : Expr) : Prop :=
  ∀ k ∈ e.tokens, k.Accounted scope R

variable (e f : Expr) (es : List Expr) (t : GoType) (name : String)

theorem mem_argsTokens_iff {k : Token} : k ∈ argsTokens es ↔ ∃ e ∈ es, k ∈ e.tokens := by
  induction es with
  | nil => simp [argsTokens]
  | cons e es ih => simp [argsTokens, ih]

theorem accounted_of_standard {package name : String} (h : (package, name) ∈ standardNames) :
    (qualified package name).Accounted scope R :=
  List.forall_mem_singleton.mpr (Token.accounted_of_standard h)

@[simp] theorem accounted_host : (host name).Accounted scope R := by
  simp [Accounted, tokens]

@[simp] theorem accounted_inner : (inner name).Accounted scope R := accounted_host name

@[simp] theorem accounted_plain : (plain name).Accounted scope R := accounted_host name

@[simp] theorem accounted_nativeConst : (nativeConst name).Accounted scope R :=
  List.forall_mem_singleton.mpr (Or.inl rfl)

@[simp] theorem accounted_typed : (typed t).Accounted scope R ↔ t.Accounted scope R := Iff.rfl

@[simp] theorem accounted_member : (member e name).Accounted scope R ↔ e.Accounted scope R := by
  simp [Accounted, tokens, or_imp, forall_and]

@[simp] theorem accounted_index :
    (index e f).Accounted scope R ↔ e.Accounted scope R ∧ f.Accounted scope R :=
  List.forall_mem_append

@[simp] theorem accounted_call :
    (call f es).Accounted scope R ↔ f.Accounted scope R ∧ ∀ e ∈ es, e.Accounted scope R := by
  unfold Accounted
  rw [tokens, List.forall_mem_append]
  simp only [mem_argsTokens_iff]
  grind

@[simp] theorem accounted_convert :
    (convert t e).Accounted scope R ↔ t.Accounted scope R ∧ e.Accounted scope R :=
  List.forall_mem_append

@[simp] theorem accounted_cast :
    (cast t e).Accounted scope R ↔ t.Accounted scope R ∧ e.Accounted scope R :=
  List.forall_mem_append

@[simp] theorem accounted_deref : (deref e).Accounted scope R ↔ e.Accounted scope R := Iff.rfl

@[simp] theorem accounted_address : (address e).Accounted scope R ↔ e.Accounted scope R := Iff.rfl

@[simp] theorem accounted_paren : (paren e).Accounted scope R ↔ e.Accounted scope R := Iff.rfl

@[simp] theorem accounted_not : (not e).Accounted scope R ↔ e.Accounted scope R := Iff.rfl

@[simp] theorem accounted_succ : (succ e).Accounted scope R ↔ e.Accounted scope R := Iff.rfl

@[simp] theorem accounted_binary (op : String) :
    (binary op e f).Accounted scope R ↔ e.Accounted scope R ∧ f.Accounted scope R := by
  simp [Accounted, tokens, or_imp, forall_and]

@[simp] theorem accounted_native :
    (native name es).Accounted scope R ↔ ∀ e ∈ es, e.Accounted scope R := by
  have hname : (qualified "C" name).Accounted scope R := accounted_nativeConst name
  simp [native, hname]

@[simp] theorem accounted_builtin :
    (builtin name es).Accounted scope R ↔ ∀ e ∈ es, e.Accounted scope R := by
  simp [builtin]

@[simp] theorem accounted_invoke : (invoke e name).Accounted scope R ↔ e.Accounted scope R := by
  simp [invoke]

@[simp] theorem accounted_nil : nil.Accounted scope R := accounted_plain "nil"

@[simp] theorem accounted_toUnsafe : e.toUnsafe.Accounted scope R ↔ e.Accounted scope R := by
  simp [toUnsafe]

@[simp] theorem accounted_toGpointer : e.toGpointer.Accounted scope R ↔ e.Accounted scope R := by
  simp [toGpointer]

@[simp] theorem accounted_toNative :
    (toNative name e).Accounted scope R ↔ e.Accounted scope R := by
  simp [toNative]

@[simp] theorem accounted_toWord : e.toWord.Accounted scope R ↔ e.Accounted scope R := by
  simp [toWord]

@[simp] theorem accounted_gboolean (b : Bool) : (gboolean b).Accounted scope R := by
  simp [gboolean]

@[simp] theorem accounted_len : e.len.Accounted scope R ↔ e.Accounted scope R := by
  simp [len]

@[simp] theorem accounted_differs :
    (differs e f).Accounted scope R ↔ e.Accounted scope R ∧ f.Accounted scope R := by
  simp [differs]

@[simp] theorem accounted_notNil : e.notNil.Accounted scope R ↔ e.Accounted scope R := by
  simp [notNil]

@[simp] theorem accounted_sizeOf : e.sizeOf.Accounted scope R ↔ e.Accounted scope R := by
  have hname : (qualified "unsafe" "Sizeof").Accounted scope R :=
    accounted_of_standard (by decide)
  simp [sizeOf, hname]

@[simp] theorem accounted_sizeOfType :
    (sizeOfType t).Accounted scope R ↔ t.Accounted scope R := by
  simp [sizeOfType]

@[simp] theorem accounted_slice :
    (slice e f).Accounted scope R ↔ e.Accounted scope R ∧ f.Accounted scope R := by
  have hname : (qualified "unsafe" "Slice").Accounted scope R := accounted_of_standard (by decide)
  simp [slice, hname]

@[simp] theorem accounted_goString : e.goString.Accounted scope R ↔ e.Accounted scope R := by
  simp [goString]

@[simp] theorem accounted_cString : e.cString.Accounted scope R ↔ e.Accounted scope R := by
  simp [cString]

@[simp] theorem accounted_free : e.free.Accounted scope R ↔ e.Accounted scope R := by
  simp [free]

@[simp] theorem accounted_gFree : e.gFree.Accounted scope R ↔ e.Accounted scope R := by
  simp [gFree]

/-- A registered type at home is wrapped by a function at home, any other by a foreign one. -/
theorem accounted_wrap {r : EntityRef}
    (h : r.home ≠ scope.home → scope.Foreign R r.home ("Wrap" ++ r.name)) :
    (scope.wrap r e).Accounted scope R ↔ e.Accounted scope R := by
  have hfunction : (scope.wrapFunction r).Accounted scope R := by
    unfold Scope.wrapFunction Scope.isLocal
    split
    next => exact accounted_plain _
    next hforeign =>
      have hforeign : r.home ≠ scope.home := by simpa using hforeign
      exact List.forall_mem_singleton.mpr (Or.inr (Or.inr ⟨r.home, h hforeign, rfl⟩))
  simp [Scope.wrap, hfunction]

@[simp] theorem accounted_indexable : e.indexable.Accounted scope R ↔ e.Accounted scope R := by
  cases e <;> rfl

end Expr

/-! ### Statements -/

/-- Every name of another package in what a loop does after each round is accounted for. -/
def Step.Accounted (scope : Scope) (R : EntityRef → Prop) (s : Step) : Prop :=
  ∀ k ∈ s.tokens, k.Accounted scope R

@[simp] theorem Step.accounted_assign (name : String) (value : Expr) :
    (assign name value).Accounted scope R ↔ value.Accounted scope R := by
  simp [Accounted, tokens, Expr.Accounted]

@[simp] theorem Step.accounted_increment (name : String) :
    (increment name).Accounted scope R := by
  simp [Accounted, tokens]

namespace Stmt

/-- Every name of another package in the statement is accounted for. -/
def Accounted (scope : Scope) (R : EntityRef → Prop) (s : Stmt) : Prop :=
  ∀ k ∈ s.tokens, k.Accounted scope R

variable (e f : Expr) (t : GoType) (name : String) (code : List Stmt)

theorem mem_tokensOf_iff {k : Token} : k ∈ tokensOf code ↔ ∃ s ∈ code, k ∈ s.tokens := by
  induction code with
  | nil => simp [tokensOf]
  | cons s code ih => simp [tokensOf, ih]

/-- Every name of another package in statements in a row is accounted for. -/
def AllAccounted (scope : Scope) (R : EntityRef → Prop) (code : List Stmt) : Prop :=
  ∀ s ∈ code, s.Accounted scope R

@[simp] theorem allAccounted_nil : AllAccounted scope R [] := nofun

@[simp] theorem allAccounted_cons (s : Stmt) :
    AllAccounted scope R (s :: code) ↔ s.Accounted scope R ∧ AllAccounted scope R code :=
  List.forall_mem_cons

@[simp] theorem allAccounted_append (rest : List Stmt) : AllAccounted scope R (code ++ rest)
    ↔ AllAccounted scope R code ∧ AllAccounted scope R rest :=
  List.forall_mem_append

theorem forall_mem_tokensOf_iff :
    (∀ k ∈ tokensOf code, k.Accounted scope R) ↔ AllAccounted scope R code := by
  simp only [mem_tokensOf_iff]
  exact ⟨fun h s hs k hk => h k ⟨s, hs, hk⟩, fun h k ⟨s, hs, hk⟩ => h s hs k hk⟩

@[simp] theorem accounted_declare (names : List String) :
    (declare names t).Accounted scope R ↔ t.Accounted scope R := by
  simp [Accounted, tokens, or_imp, forall_and, GoType.Accounted]

@[simp] theorem accounted_declareOne :
    (declareOne name t).Accounted scope R ↔ t.Accounted scope R := by
  simp [declareOne]

@[simp] theorem accounted_define :
    (define name e).Accounted scope R ↔ e.Accounted scope R := by
  simp [Accounted, tokens, Expr.Accounted]

@[simp] theorem accounted_assign :
    (assign e f).Accounted scope R ↔ e.Accounted scope R ∧ f.Accounted scope R :=
  List.forall_mem_append

@[simp] theorem accounted_run : (run e).Accounted scope R ↔ e.Accounted scope R := Iff.rfl

theorem accounted_block (head : Head) : (block head code).Accounted scope R
    ↔ (∀ k ∈ head.tokens, k.Accounted scope R) ∧ AllAccounted scope R code := by
  rw [← forall_mem_tokensOf_iff]
  exact List.forall_mem_append

@[simp] theorem accounted_ifTrue : (block (.ifTrue e) code).Accounted scope R
    ↔ e.Accounted scope R ∧ AllAccounted scope R code :=
  accounted_block ..

@[simp] theorem accounted_loop : (block (.loop e) code).Accounted scope R
    ↔ e.Accounted scope R ∧ AllAccounted scope R code :=
  accounted_block ..

@[simp] theorem accounted_range (index : String) :
    (block (.range index name e) code).Accounted scope R
      ↔ e.Accounted scope R ∧ AllAccounted scope R code := by
  rw [accounted_block]
  simp [Head.tokens, Expr.Accounted]

@[simp] theorem accounted_walk (step : Step) : (block (.walk name e f step) code).Accounted scope R
    ↔ e.Accounted scope R ∧ f.Accounted scope R ∧ step.Accounted scope R
      ∧ AllAccounted scope R code := by
  rw [accounted_block]
  simp [Head.tokens, Expr.Accounted, Step.Accounted, or_imp, forall_and, and_assoc]

end Stmt

end Code

end Introspection
