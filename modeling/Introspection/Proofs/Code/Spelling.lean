import Introspection.Conversion.Container

/-!
# `Introspection.Proofs.Code.Spelling`: types that can be written down

A value that does not exist has no type, and so nothing to print where a type is to stand. A Go type
is `GoType.Complete` when no such gap is left in it, at any depth. `Stmt.AllTyped` says of code that
it prints a type in each declaration without a value.
-/

set_option autoImplicit false

namespace Introspection.Code

/-! ### Types without a gap -/

namespace GoType

/-- Every name in the type is there, and so is every type that it is built from. -/
def Complete : GoType → Prop
  | void => False
  | plain name => name ≠ ""
  | qualified package name => package ≠ "" ∧ name ≠ ""
  | pointer target => target.Complete
  | slice element => element.Complete
  | map key value => key.Complete ∧ value.Complete

variable (t : GoType) (name : String)

@[simp] theorem complete_void : ¬void.Complete := id

@[simp] theorem complete_plain : (plain name).Complete ↔ name ≠ "" := Iff.rfl

@[simp] theorem complete_pointer : (pointer t).Complete ↔ t.Complete := Iff.rfl

@[simp] theorem complete_slice : (slice t).Complete ↔ t.Complete := Iff.rfl

@[simp] theorem complete_map (value : GoType) :
    (map t value).Complete ↔ t.Complete ∧ value.Complete :=
  Iff.rfl

@[simp] theorem complete_pointerIf (indirect : Bool) :
    (pointerIf indirect t).Complete ↔ t.Complete := by
  cases indirect <;> rfl

@[simp] theorem complete_unsafePointer : unsafePointer.Complete := ⟨by decide, by decide⟩

@[simp] theorem text_pointer_ne : (pointer t).text ≠ "" := by simp [text]

@[simp] theorem text_qualified_ne (package : String) : (qualified package name).text ≠ "" := by
  simp [text]

@[simp] theorem text_native_ne : (native name).text ≠ "" := text_qualified_ne name "C"

@[simp] theorem text_gpointer_ne : gpointer.text ≠ "" := text_native_ne "gpointer"

end GoType

/-! ### Declarations without a value -/

namespace Stmt

mutual

/-- The types with which a statement declares variables that get no value, those of inner blocks
included. -/
def declaredTypes : Stmt → List GoType
  | declare _ type => [type]
  | block _ body => declaredTypesOf body
  | _ => []

/-- The types with which statements in a row declare variables that get no value. -/
def declaredTypesOf : List Stmt → List GoType
  | [] => []
  | s :: rest => s.declaredTypes ++ declaredTypesOf rest

end

variable (s : Stmt) (code rest : List Stmt)

@[simp] theorem declaredTypes_declare (names : List String) (type : GoType) :
    (declare names type).declaredTypes = [type] :=
  rfl

@[simp] theorem declaredTypes_declareOne (name : String) (type : GoType) :
    (declareOne name type).declaredTypes = [type] :=
  rfl

@[simp] theorem declaredTypes_define (name : String) (value : Expr) :
    (define name value).declaredTypes = [] :=
  rfl

@[simp] theorem declaredTypes_assign (target value : Expr) :
    (assign target value).declaredTypes = [] :=
  rfl

@[simp] theorem declaredTypes_run (e : Expr) : (run e).declaredTypes = [] := rfl

@[simp] theorem declaredTypes_block (head : Head) :
    (block head code).declaredTypes = declaredTypesOf code :=
  rfl

@[simp] theorem declaredTypesOf_nil : declaredTypesOf [] = [] := rfl

@[simp] theorem declaredTypesOf_cons :
    declaredTypesOf (s :: code) = s.declaredTypes ++ declaredTypesOf code :=
  rfl

@[simp] theorem declaredTypesOf_append :
    declaredTypesOf (code ++ rest) = declaredTypesOf code ++ declaredTypesOf rest := by
  induction code with
  | nil => rfl
  | cons s code ih => simp [ih]

/-- The visit of a hash table declares its position and the places of an entry. -/
theorem declaredTypesOf_hashWalk (stem : String) (real : Expr) :
    declaredTypesOf (hashWalk stem real code)
      = [.native "GHashTableIter", .gpointer] ++ declaredTypesOf code := by
  simp [hashWalk]

/-- The types with which code declares variables without a value are printed. -/
def AllTyped (code : List Stmt) : Prop := ∀ g ∈ declaredTypesOf code, g.text ≠ ""

variable {code rest : List Stmt}

/-- Code that declares no variable without a value leaves no type out. -/
theorem allTyped_of_declaredTypesOf_eq_nil (h : declaredTypesOf code = []) : AllTyped code := by
  rw [AllTyped, h]
  exact fun _ => nofun

@[simp] theorem allTyped_nil : AllTyped [] := allTyped_of_declaredTypesOf_eq_nil rfl

@[simp] theorem allTyped_append : AllTyped (code ++ rest) ↔ AllTyped code ∧ AllTyped rest := by
  simp only [AllTyped, declaredTypesOf_append, List.forall_mem_append]

theorem allTyped_declareOne_iff {name : String} {type : GoType} :
    AllTyped [declareOne name type] ↔ type.text ≠ "" := by
  simp [AllTyped]

end Stmt

end Introspection.Code
