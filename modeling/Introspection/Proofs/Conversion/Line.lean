import Introspection.Proofs.Code.Line
import Introspection.Proofs.Conversion.Release
import Introspection.Proofs.Resolution.Unchecked

/-!
# `Introspection.Proofs.Conversion.Line`: what is deferred, line by line

The code that gives back what an argument allocated frees the elements that are copies, in a loop,
and behind that the value itself, by one call. `Cleanup` says as much as deferring it depends on:
the code ends in a call, so that code of one line is just that call, and none of its lines breaks
in two, so that it can be moved line by line. `Argument.cleanup_convert` says it of every argument
whose name is a text of one line.
-/

set_option autoImplicit false

namespace Introspection

open Introspection.Code
open Introspection.Text (OneLine)

/-- No line of the code breaks in two, and where there is code, its last statement is a call. -/
structure Cleanup (code : List Stmt) : Prop where
  oneLined : Stmt.OneLined code
  call : code ≠ [] → ∃ copies f args, code = copies ++ [.run (.call f args)]

theorem cleanup_nil : Cleanup [] := ⟨Stmt.oneLined_nil, fun h => absurd rfl h⟩

theorem cleanup_append {copies : List Stmt} {f : Expr} {args : List Expr}
    (hcopies : Stmt.OneLined copies) (hcall : OneLine (Expr.call f args).text) :
    Cleanup (copies ++ [.run (.call f args)]) where
  oneLined := Stmt.oneLined_append_iff.mpr ⟨hcopies, Stmt.oneLined_run_iff.mpr hcall⟩
  call := fun _ => ⟨copies, f, args, rfl⟩

/-- Code of one line is one call. -/
theorem Cleanup.eq_call {code : List Stmt} (h : Cleanup code)
    (hone : (Stmt.linesOf code).length = 1) : ∃ f args, code = [.run (.call f args)] := by
  have hne : code ≠ [] := by
    rintro rfl
    cases hone
  obtain ⟨copies, f, args, rfl⟩ := h.call hne
  rw [Stmt.linesOf_append, List.length_append, Stmt.linesOf_singleton, Stmt.lines,
    List.length_singleton, Nat.add_eq_right, List.length_eq_zero_iff] at hone
  -- Any statement in front of the call would have a line of its own.
  have hcopies : copies = [] := by
    by_contra hcopies
    exact Stmt.linesOf_ne_nil hcopies hone
  exact ⟨f, args, by rw [hcopies, List.nil_append]⟩

/-! ### Calls that give memory back -/

/-- A call of the C library is on one line when its arguments are. -/
theorem oneLine_native_iff {name : String} (hname : OneLine name) {args : List Expr} :
    OneLine (Expr.native name args).text ↔ OneLine (Expr.argsText args) := by
  simp +decide [Expr.native, Expr.text, hname]

theorem oneLine_free_iff {e : Expr} : OneLine (Expr.free e).text ↔ OneLine e.text := by
  rw [Expr.free, oneLine_native_iff (by decide)]
  simp +decide [Expr.argsText, Expr.toUnsafe, Expr.text, GoType.text, GoType.unsafePointer]

theorem oneLine_gFree_iff {e : Expr} : OneLine (Expr.gFree e).text ↔ OneLine e.text := by
  rw [Expr.gFree, oneLine_native_iff (by decide)]
  simp +decide [Expr.argsText, Expr.toUnsafe, Expr.toGpointer, Expr.text, GoType.text,
    GoType.unsafePointer, GoType.gpointer, GoType.native]

/-! ### Values that go in -/

namespace Input

variable {i : Input}

theorem cleanup_whenKept {release : List Stmt} (h : Cleanup release) :
    Cleanup (i.whenKept release) := by
  unfold whenKept
  split
  · exact h
  · exact cleanup_nil

/-- The loop over the elements of a slice that are copies. -/
theorem oneLined_freeCopies {element : TypeDesc} {view : Expr} (hreal : OneLine i.real)
    (hview : element.isCopied = true → OneLine view.text) :
    Stmt.OneLined (i.freeCopies element view) := by
  unfold freeCopies
  by_cases hcopied : element.isCopied = true
  · rw [if_pos hcopied, Stmt.oneLined_block_iff, Stmt.oneLined_run_iff, oneLine_free_iff]
    simp +decide [Head.text, Expr.text, hreal, hview hcopied]
  · rw [if_neg hcopied]
    exact Stmt.oneLined_nil

theorem cleanup_list {k : ListKind} {t : TypeDesc} (hreal : OneLine i.real) :
    Yields (fun p => Cleanup p.release) (i.list k t) := by
  have hgiver : OneLine (k.symbol ++ "_free") := by cases k <;> decide
  unfold list
  refine yields_bind fun e _ => yields_bind fun native _ => yields_bind fun word _ => ?_
  refine yields_pure_iff.mpr (cleanup_whenKept (cleanup_append ?_ ?_))
  · split
    · rw [listWalk, Stmt.oneLined_block_iff, Stmt.oneLined_run_iff, oneLine_free_iff]
      simp +decide [Head.text, Step.text, Expr.text, Expr.notNil, Expr.differs, Expr.nil, realExpr,
        hreal]
    · exact Stmt.oneLined_nil
  · exact (oneLine_native_iff hgiver).mpr hreal

/-- The loop over the entries of a hash table. -/
theorem oneLined_hashWalk {real : String} {body : List Stmt} (hreal : OneLine real)
    (hbody : Stmt.OneLined body) : Stmt.OneLined (hashWalk real (.inner real) body) := by
  unfold hashWalk Stmt.declareOne
  rw [Stmt.oneLined_cons_cons_iff, Stmt.oneLined_cons_cons_iff, Stmt.oneLined_cons_cons_iff,
    Stmt.oneLined_declare_iff, Stmt.oneLined_declare_iff, Stmt.oneLined_run_iff,
    Stmt.oneLined_block_iff, oneLine_native_iff (by decide)]
  simp +decide [Head.text, Text.joined, Expr.text, Expr.argsText, Expr.native, Expr.nativeConst,
    Expr.differs, hreal, hbody]

theorem cleanup_hash {t : TypeDesc} (hreal : OneLine i.real) :
    Yields (fun p => Cleanup p.release) (i.hash t) := by
  have hentry : ∀ (copied : Bool) (s : String), OneLine s →
      Stmt.OneLined (if copied then [.run (.free (.inner (i.real ++ s)))] else []) := by
    intro copied s hs
    split
    · rw [Stmt.oneLined_run_iff, oneLine_free_iff]
      exact Text.oneLine_append_iff.mpr ⟨hreal, hs⟩
    · exact Stmt.oneLined_nil
  unfold hash
  refine yields_bind fun k _ => yields_bind fun v _ => ?_
  refine yields_bind fun keyWord _ => yields_bind fun valueWord _ => ?_
  refine yields_pure_iff.mpr (cleanup_whenKept (cleanup_append ?_ ?_))
  · split
    · exact oneLined_hashWalk hreal (Stmt.oneLined_append_iff.mpr
        ⟨hentry k.isCopied "_k" (by decide), hentry v.isCopied "_v" (by decide)⟩)
    · exact Stmt.oneLined_nil
  · exact (oneLine_native_iff (by decide)).mpr hreal

/-- The native type of an element that is a copy is that of characters. -/
theorem resolveNative_of_isCopied {e : TypeDesc} {native : GoType}
    (h : resolveNative e = .ok native) (hcopied : e.isCopied = true) :
    native = .pointer (.native "gchar") := by
  rw [resolveNative_eq_check] at h
  obtain ⟨_, _, hnative⟩ := bind_eq_ok_iff.mp h
  have hview : e.view = .string := beq_iff_eq.mp hcopied
  obtain ⟨tag, pointer, params, entity, array⟩ := e
  have hview : tag.view = .string := hview
  unfold TypeDesc.nativeType at hnative
  simp only [hview, Except.ok.injEq] at hnative
  exact hnative.symm

/-- The arguments of the calls that give back an array with the memory of its elements. -/
theorem oneLine_realAndTrue (hreal : OneLine i.real) :
    OneLine (Expr.argsText [i.realExpr, .gboolean true]) := by
  simp +decide [realExpr, Expr.argsText, Expr.text, Expr.gboolean, Expr.toNative,
    Expr.nativeConst, GoType.text, GoType.native, hreal]

theorem cleanup_array {t : TypeDesc} (hreal : OneLine i.real) :
    Yields (fun p => Cleanup p.release) (i.array t) := by
  unfold array
  refine yields_bind fun info _ => yields_bind fun e _ => ?_
  cases info.storage with
  | c =>
    refine yields_bind fun native _ => yields_bind fun value _ => ?_
    refine yields_pure_iff.mpr (cleanup_whenKept (cleanup_append ?_ ?_))
    · exact oneLined_freeCopies hreal fun _ => Text.oneLine_append_iff.mpr ⟨hreal, by decide⟩
    · exact oneLine_gFree_iff.mpr hreal
  | array =>
    refine yields_bind fun native hnative => yields_bind fun value _ => ?_
    refine yields_pure_iff.mpr (cleanup_whenKept (cleanup_append ?_ ?_))
    · refine oneLined_freeCopies hreal fun hcopied => ?_
      -- The elements are read through their native type, which is written in the loop.
      rw [resolveNative_of_isCopied hnative hcopied]
      simp +decide [arrayView, realExpr, Expr.slice, Expr.text, Expr.argsText, Expr.toUnsafe,
        GoType.text, GoType.native, GoType.unsafePointer, hreal]
    · exact (oneLine_native_iff (by decide)).mpr (oneLine_realAndTrue hreal)
  | ptrArray =>
    refine yields_bind fun word _ => ?_
    refine yields_pure_iff.mpr (cleanup_whenKept (cleanup_append ?_ ?_))
    · refine oneLined_freeCopies hreal fun _ => ?_
      simp +decide [ptrArrayView, realExpr, Expr.slice, Expr.text, Expr.argsText, GoType.text,
        hreal]
    · exact (oneLine_native_iff (by decide)).mpr (oneLine_realAndTrue hreal)
  | byteArray =>
    -- There is nothing in front of the call.
    refine yields_pure_iff.mpr (cleanup_whenKept (cleanup_append Stmt.oneLined_nil ?_))
    exact (oneLine_native_iff (by decide)).mpr hreal

/-- What passing a value of any type gives back. -/
theorem cleanup_convert (nullable : Bool) (t : TypeDesc) (hreal : OneLine i.real) :
    Yields (fun p => Cleanup p.release) (i.convert nullable t) := by
  have hscalar : Yields (fun p => Cleanup p.release) (i.scalar t) := by
    unfold scalar
    refine yields_bind fun native _ => ?_
    split <;> exact yields_pure_iff.mpr cleanup_nil
  unfold convert
  cases t.view with
  | void =>
    cases t.pointer with
    | true => exact yields_ok_iff.mpr cleanup_nil
    | false => exact yields_error _ _
  | boolean =>
    cases t.pointer with
    | true => exact yields_error _ _
    | false => exact yields_ok_iff.mpr cleanup_nil
  | basic | typeHandle => exact hscalar
  | string =>
    refine yields_ok_iff.mpr (cleanup_whenKept (cleanup_append Stmt.oneLined_nil ?_))
    exact oneLine_free_iff.mpr hreal
  | named => exact yields_bind fun code _ => yields_pure_iff.mpr cleanup_nil
  | array => exact cleanup_array hreal
  | list k => exact cleanup_list hreal
  | hash => exact cleanup_hash hreal
  | error => exact yields_error _ _

end Input

/-! ### Arguments -/

namespace Argument

variable {scope : Scope} {a : Argument}

/-- What the conversion of an argument gives back when the call is over. -/
theorem cleanup_convert (scope : Scope) (hname : OneLine a.name) :
    Yields (fun c => Cleanup c.release) (a.convert scope) := by
  have hlocal : OneLine a.nativeLocal := Text.oneLine_append_iff.mpr ⟨by decide, hname⟩
  have hnone : ∀ {r : Generated Conversion}, Yields (fun c => c.release = []) r →
      Yields (fun c => Cleanup c.release) r := by
    intro r h c hc
    rw [show c.release = [] from h c hc]
    exact cleanup_nil
  refine yields_convert scope a ?_ ?_ ?_ ?_ ?_ ?_ ?_ ?_ ?_
  · exact fun via _ => hnone (release_convertReceiver a via)
  · exact fun p why _ _ => hnone (release_convertHidden a p.direction why)
  · exact fun p _ _ _ => Input.cleanup_convert p.nullable a.type hlocal
  · intro p _ _ _
    unfold convertInout
    refine yields_bind fun passing hpassing => yields_bind fun direct _ => ?_
    refine yields_bind fun after _ => yields_pure_iff.mpr ?_
    exact Input.cleanup_convert p.nullable a.type
      (Text.oneLine_append_iff.mpr ⟨hlocal, by decide⟩) passing hpassing
  · intro p _ _ _
    unfold convertBuffer
    refine yields_bind fun info _ => yields_bind fun e _ => yields_bind fun native _ => ?_
    refine yields_bind fun after _ => yields_pure_iff.mpr ?_
    exact cleanup_append Stmt.oneLined_nil (oneLine_gFree_iff.mpr hlocal)
  · exact fun p _ _ _ _ _ => hnone (release_convertStructure scope a)
  · exact fun p _ _ _ _ _ => hnone (release_convertOutput scope a p.transfer p.length)
  · exact fun r _ _ => hnone (release_convertOutput scope a r.transfer r.length)
  · exact fun _ _ _ => cleanup_nil

end Argument

end Introspection
