import Introspection.Code.Stmt

/-!
# `Introspection.Proofs.Code.Effect`: what generated code declares and gives back

`Stmt.declaredBy` lists the variables that statements declare for what follows them in the same
block; those of inner blocks are not among them.

Native memory is given back by calls of functions of the C library (`givers`).
`Stmt.releasesOf` lists these calls in the order in which they stand, each with the value that is
given back and with the heads of the loops and conditions around it. The value is read below the
conversions to untyped pointers that the functions ask for.
-/

set_option autoImplicit false

namespace Introspection.Code

/-- The value below conversions. -/
def Expr.underlying : Expr → Expr
  | .convert _ e => e.underlying
  | e => e

/-- A native value that code gives back. -/
structure Release where
  /-- What opens the blocks around the call, outermost first. -/
  inside : List Head
  /-- The function of the C library that is called. -/
  giver : String
  value : Expr

/-- Functions of the C library that give back what they are passed first: memory, strings and
errors, each kind of container, and instances. Generated code does not call all of them. -/
def givers : List String :=
  ["free", "g_free", "g_strfreev", "g_error_free", "g_list_free", "g_list_free_full",
    "g_slist_free", "g_slist_free_full", "g_array_free", "g_array_unref", "g_ptr_array_free",
    "g_ptr_array_unref", "g_byte_array_free", "g_byte_array_unref", "g_hash_table_destroy",
    "g_hash_table_unref", "g_object_unref"]

/-- What the evaluation of an expression gives back. -/
def Expr.release? : Expr → Option Release
  | .call (.qualified package f) (e :: _) =>
    if package = "C" ∧ f ∈ givers then some ⟨[], f, e.underlying⟩ else none
  | _ => none

namespace Stmt

/-! ### Declarations -/

/-- The variables that a statement declares for those behind it. -/
def declared : Stmt → List String
  | declare names _ => names
  | define name _ => [name]
  | _ => []

/-- The variables that statements declare in the block in which they stand. -/
def declaredBy (code : List Stmt) : List String := code.flatMap declared

@[simp] theorem declaredBy_append (xs ys : List Stmt) :
    declaredBy (xs ++ ys) = declaredBy xs ++ declaredBy ys := List.flatMap_append

/-- A name with something behind it is no shorter name. -/
theorem append_ne_of_length_le {real name s : String} (hs : 0 < s.length)
    (hname : name.length ≤ real.length) : real ++ s ≠ name := by
  rintro rfl
  rw [String.length_append] at hname
  omega

/-! ### Releases -/

mutual

/-- What a statement gives back. -/
def releases : Stmt → List Release
  | run e => e.release?.toList
  | block head body => (releasesOf body).map fun r => { r with inside := head :: r.inside }
  | _ => []

/-- What statements in a row give back. -/
def releasesOf : List Stmt → List Release
  | [] => []
  | s :: rest => s.releases ++ releasesOf rest

end

@[simp] theorem releasesOf_append (xs ys : List Stmt) :
    releasesOf (xs ++ ys) = releasesOf xs ++ releasesOf ys := by
  induction xs with
  | nil => rfl
  | cons s xs ih =>
    show s.releases ++ releasesOf (xs ++ ys) = s.releases ++ releasesOf xs ++ releasesOf ys
    rw [ih, List.append_assoc]

/-- A call of a giver gives back what it is passed first. -/
theorem releases_run_native {f : String} (hf : f ∈ givers) (e : Expr) (es : List Expr) :
    (run (.native f (e :: es))).releases = [⟨[], f, e.underlying⟩] := by
  show (if "C" = "C" ∧ f ∈ givers then some (Release.mk [] f e.underlying) else none).toList = _
  rw [if_pos ⟨rfl, hf⟩]
  rfl

@[simp] theorem releasesOf_nil : releasesOf [] = [] := rfl

theorem releasesOf_singleton (s : Stmt) : releasesOf [s] = s.releases :=
  List.append_nil s.releases

/-- A call of any other function gives nothing back. -/
theorem releases_run_native_of_not_mem {f : String} (hf : f ∉ givers) (es : List Expr) :
    (run (.native f es)).releases = [] := by
  cases es with
  | nil => rfl
  | cons e es =>
    show (if "C" = "C" ∧ f ∈ givers then some (Release.mk [] f e.underlying) else none).toList = _
    rw [if_neg fun h => hf h.2]
    rfl

end Stmt

end Introspection.Code
