import Introspection.Proofs.Conversion.Complete
import Introspection.Proofs.Conversion.Gap
import Introspection.Proofs.Conversion.Role

/-!
# `Introspection.Proofs.Conversion.Spelling`: types in the code for an argument

Conversions refuse elements that do not exist and containers of containers, so the host types of
what they convert are as `TypeDesc.complete_iff` says (`isElement_of_convert`). The variables that
their code declares have native types of what exists, but for the local of the argument itself:
`allTyped_convert_iff` says when that is declared without a type.
-/

set_option autoImplicit false

namespace Introspection

open Introspection.Code
open Introspection.Code.Stmt

namespace TypeDesc

variable {scope : Scope} {t e : TypeDesc}

/-! ### Elements that are converted -/

/-- A step that refuses values that do not exist and containers is taken for elements only. -/
theorem isElement_of_refused {α : Type} {r : Generated α}
    (hvoid : e.view = .void → e.pointer = false → ∀ a, r ≠ .ok a)
    (hcontainer : e.IsContainer → ∀ a, r ≠ .ok a) : Yields (fun _ => e.IsElement) r := by
  intro a ha
  refine ⟨?_, fun h => hcontainer h a ha⟩
  rw [← Bool.not_eq_true, isVoid_eq_true_iff]
  exact fun h => hvoid h.1 h.2 a ha

theorem isElement_of_wordIn (v : Expr) : Yields (fun _ => e.IsElement) (e.wordIn v) := by
  refine isElement_of_refused (fun hview hpointer => ?_) ?_
  · simp [wordIn, unsupported, hview, hpointer]
  · rintro (⟨k, hview⟩ | hview | hview) <;> simp [wordIn, unsupported, hview]

theorem isElement_of_wordOut (w : Expr) : Yields (fun _ => e.IsElement) (e.wordOut scope w) := by
  refine isElement_of_refused (fun hview hpointer => ?_) ?_
  · simp [wordOut, unsupported, hview, hpointer]
  · rintro (⟨k, hview⟩ | hview | hview) <;> simp [wordOut, unsupported, hview]

theorem isElement_of_valueIn (v : Expr) : Yields (fun _ => e.IsElement) (e.valueIn v) := by
  refine isElement_of_refused (fun hview hpointer => ?_) ?_
  · simp [valueIn, unsupported, hview, hpointer, bind_eq_ok_iff]
  · rintro (⟨k, hview⟩ | hview | hview) <;> simp [valueIn, unsupported, hview, bind_eq_ok_iff]

theorem isElement_of_valueOut (v : Expr) : Yields (fun _ => e.IsElement) (e.valueOut scope v) := by
  refine isElement_of_refused (fun hview hpointer => ?_) ?_
  · simp [valueOut, unsupported, hview, hpointer]
  · rintro (⟨k, hview⟩ | hview | hview) <;> simp [valueOut, unsupported, hview]

/-- The code converts a value whose elements are elements that there are, and all variables that it
declares have a type. -/
def SpelledBy (t : TypeDesc) (code : List Stmt) : Prop :=
  (∀ e ∈ t.hostElements, e.IsElement) ∧ AllTyped code

/-- A value without elements has no further condition. -/
theorem spelledBy_of_leaf (ht : t.WellShaped) (hleaf : ¬t.IsContainer) {code : List Stmt}
    (hcode : AllTyped code) : t.SpelledBy code := by
  refine ⟨?_, hcode⟩
  rw [hostElements_of_ne_array ht.agrees fun h => hleaf (Or.inr (Or.inr h)),
    params_eq_nil ht.agrees hleaf]
  exact fun _ => nofun

end TypeDesc

namespace Input

variable {i : Input} {t e : TypeDesc}

theorem declaredTypesOf_freeCopies (view : Expr) : declaredTypesOf (i.freeCopies e view) = [] := by
  unfold freeCopies
  split <;> rfl

theorem allTyped_whenKept {code : List Stmt} (h : AllTyped code) : AllTyped (i.whenKept code) := by
  unfold whenKept
  split
  · exact h
  · exact allTyped_nil

theorem spelledBy_list (ht : t.WellShaped) {k : ListKind} (hview : t.view = .list k) :
    Yields (fun p => t.SpelledBy (p.code ++ p.release)) (i.list k t) := by
  obtain ⟨e, he, hes⟩ := ht.exists_list hview
  unfold list
  rw [TypeDesc.elementOf_eq_ok he, ok_bind]
  refine yields_bind fun native hnative => yields_bind fun word hword => yields_pure_iff.mpr ?_
  have htyped := (TypeDesc.text_ne_iff_of_resolveNative hnative).mpr
    (TypeDesc.isVoid_eq_false_of_view hview nofun)
  refine ⟨?_, allTyped_append.mpr ⟨?_, allTyped_whenKept ?_⟩⟩
  · refine TypeDesc.forall_mem_hostElements ?_
    rw [he, List.forall_mem_singleton]
    exact TypeDesc.isElement_of_wordIn _ word hword
  · simp [AllTyped, htyped]
  · split <;> simp [AllTyped, listWalk]

theorem spelledBy_hash (ht : t.WellShaped) (hview : t.view = .hash) :
    Yields (fun p => t.SpelledBy (p.code ++ p.release)) (i.hash t) := by
  obtain ⟨k, v, hkv, hks, hvs⟩ := ht.exists_hash hview
  unfold hash
  rw [TypeDesc.elementOf_eq_ok hkv, TypeDesc.valueOf_eq_ok hkv, ok_bind, ok_bind]
  refine yields_bind fun word hword => yields_bind fun word' hword' => yields_pure_iff.mpr ?_
  refine ⟨?_, allTyped_append.mpr ⟨?_, allTyped_whenKept ?_⟩⟩
  · refine TypeDesc.forall_mem_hostElements ?_
    rw [hkv, List.forall_mem_cons, List.forall_mem_singleton]
    exact ⟨TypeDesc.isElement_of_wordIn _ word hword, TypeDesc.isElement_of_wordIn _ word' hword'⟩
  · exact allTyped_of_declaredTypesOf_eq_nil rfl
  · have hfree : ∀ (copied : Bool) (x : Expr),
        declaredTypesOf (if copied then [Stmt.run (.free x)] else []) = [] := fun copied x => by
      cases copied <;> rfl
    split <;> simp [AllTyped, declaredTypesOf_hashWalk, hfree]

/-- The code for an array declares no variable without a value, and it converts elements but where
bytes are copied. -/
theorem spelledBy_array (ht : t.WellShaped) (hview : t.view = .array) :
    Yields (fun p => t.SpelledBy (p.code ++ p.release)) (i.array t) := by
  obtain ⟨info, e, hinfo, he, hes⟩ := ht.exists_array hview
  unfold array
  rw [TypeDesc.arrayInfoOf_eq_ok hinfo, TypeDesc.elementOf_eq_ok he, ok_bind, ok_bind]
  have hspelled : e.IsElement → ∀ {code release : List Stmt}, declaredTypesOf code = [] →
      declaredTypesOf release = [] → t.SpelledBy (code ++ i.whenKept release) := by
    intro helement code release hcode hrelease
    refine ⟨TypeDesc.forall_mem_hostElements ?_, allTyped_append.mpr ⟨?_, ?_⟩⟩
    · rwa [he, List.forall_mem_singleton]
    · exact allTyped_of_declaredTypesOf_eq_nil hcode
    · exact allTyped_whenKept (allTyped_of_declaredTypesOf_eq_nil hrelease)
  cases hstorage : info.storage with
  | c =>
    refine yields_bind fun native _ => yields_bind fun x hx => yields_pure_iff.mpr ?_
    refine hspelled (TypeDesc.isElement_of_valueIn _ x hx) rfl ?_
    simp [declaredTypesOf_freeCopies]
  | array =>
    refine yields_bind fun native _ => yields_bind fun x hx => yields_pure_iff.mpr ?_
    refine hspelled (TypeDesc.isElement_of_valueIn _ x hx) rfl ?_
    simp [declaredTypesOf_freeCopies]
  | ptrArray =>
    refine yields_bind fun x hx => yields_pure_iff.mpr ?_
    refine hspelled (TypeDesc.isElement_of_wordIn _ x hx) rfl ?_
    simp [declaredTypesOf_freeCopies]
  | byteArray =>
    refine yields_pure_iff.mpr ⟨?_, allTyped_append.mpr ⟨?_, allTyped_whenKept ?_⟩⟩
    · rw [TypeDesc.hostElements_eq_nil hinfo hstorage]
      exact fun _ => nofun
    · exact allTyped_of_declaredTypesOf_eq_nil rfl
    · exact allTyped_of_declaredTypesOf_eq_nil rfl

/-- The local of a registered type is declared without a value only where it is a pointer. -/
theorem allTyped_named (hview : t.view = .named) (nullable : Bool) :
    Yields AllTyped (i.named nullable t) := by
  unfold named
  refine yields_bind fun native hnative => yields_bind fun r _ => ?_
  have htyped := (TypeDesc.text_ne_iff_of_resolveNative hnative).mpr
    (TypeDesc.isVoid_eq_false_of_view hview nofun)
  have hvalued : ∀ x, AllTyped [.define i.real x] := fun x =>
    allTyped_of_declaredTypesOf_eq_nil rfl
  split
  · split <;> exact yields_pure_iff.mpr (hvalued _)
  · split
    · exact yields_pure_iff.mpr (hvalued _)
    · split
      · exact yields_pure_iff.mpr (by simp [AllTyped, htyped])
      · exact yields_pure_iff.mpr (hvalued _)

/-- What goes in exists, and all variables that its code declares have a type. -/
theorem spelledBy_convert (ht : t.WellShaped) (nullable : Bool) :
    Yields (fun p => t.isVoid = false ∧ t.SpelledBy (p.code ++ p.release))
      (i.convert nullable t) := by
  have hleaf : ∀ {c : TagClass}, t.view = c → (c ≠ .array ∧ c ≠ .hash ∧ ∀ k, c ≠ .list k) →
      t.isVoid = false → ∀ {code release : List Stmt}, AllTyped code → AllTyped release →
      t.isVoid = false ∧ t.SpelledBy (code ++ release) := by
    intro c hview hc hvoid code release hcode hrelease
    have hnot := TypeDesc.not_isContainer_of_view hview hc
    exact ⟨hvoid, TypeDesc.spelledBy_of_leaf ht hnot (allTyped_append.mpr ⟨hcode, hrelease⟩)⟩
  have hvalued : ∀ x, AllTyped [.define i.real x] := fun x =>
    allTyped_of_declaredTypesOf_eq_nil rfl
  have hscalar : ∀ {c : TagClass}, t.view = c → c ≠ .void →
      (c ≠ .array ∧ c ≠ .hash ∧ ∀ k, c ≠ .list k) →
      Yields (fun p => t.isVoid = false ∧ t.SpelledBy (p.code ++ p.release)) (i.scalar t) := by
    intro c hview hvoid hc
    have hexists := TypeDesc.isVoid_eq_false_of_view hview hvoid
    unfold scalar
    refine yields_bind fun native _ => ?_
    split <;> exact yields_pure_iff.mpr (hleaf hview hc hexists (hvalued _) allTyped_nil)
  unfold convert
  cases hview : t.view with
  | void =>
    cases hpointer : t.pointer with
    | false => exact yields_error _ _
    | true =>
      refine yields_ok_iff.mpr (hleaf hview (by simp) ?_ (hvalued _) allTyped_nil)
      rw [← Bool.not_eq_true, TypeDesc.isVoid_eq_true_iff, hpointer]
      exact fun h => nomatch h.2
  | basic | typeHandle => exact hscalar hview nofun (by simp)
  | boolean =>
    have hexists := TypeDesc.isVoid_eq_false_of_view hview nofun
    cases t.pointer with
    | true => exact yields_error _ _
    | false =>
      refine yields_ok_iff.mpr (hleaf hview (by simp) hexists ?_ allTyped_nil)
      exact allTyped_of_declaredTypesOf_eq_nil rfl
  | string =>
    have hexists := TypeDesc.isVoid_eq_false_of_view hview nofun
    refine yields_ok_iff.mpr (hleaf hview (by simp) hexists (hvalued _) (allTyped_whenKept ?_))
    exact allTyped_of_declaredTypesOf_eq_nil rfl
  | named =>
    have hexists := TypeDesc.isVoid_eq_false_of_view hview nofun
    refine yields_bind fun code hcode => yields_pure_iff.mpr ?_
    exact hleaf hview (by simp) hexists (allTyped_named hview nullable code hcode) allTyped_nil
  | array =>
    exact fun p hp => ⟨TypeDesc.isVoid_eq_false_of_view hview nofun, spelledBy_array ht hview p hp⟩
  | list k =>
    exact fun p hp => ⟨TypeDesc.isVoid_eq_false_of_view hview nofun, spelledBy_list ht hview p hp⟩
  | hash =>
    exact fun p hp => ⟨TypeDesc.isVoid_eq_false_of_view hview nofun, spelledBy_hash ht hview p hp⟩
  | error => exact yields_error _ _

end Input

namespace Output

variable {scope : Scope} {o : Output} {t e : TypeDesc}

theorem declaredTypesOf_whenTaken (x : Expr) : declaredTypesOf (o.whenTaken [.run x]) = [] := by
  unfold whenTaken
  split <;> rfl

theorem declaredTypesOf_whenElementsTaken (x : Expr) :
    declaredTypesOf (o.whenElementsTaken e [.run x]) = [] := by
  unfold whenElementsTaken
  split <;> rfl

theorem spelledBy_list (ht : t.WellShaped) {k : ListKind} (hview : t.view = .list k) :
    Yields t.SpelledBy (o.list scope k t) := by
  obtain ⟨e, he, hes⟩ := ht.exists_list hview
  unfold list
  rw [TypeDesc.elementOf_eq_ok he, ok_bind]
  refine yields_bind fun x hx => yields_pure_iff.mpr ⟨?_, allTyped_of_declaredTypesOf_eq_nil ?_⟩
  · refine TypeDesc.forall_mem_hostElements ?_
    rw [he, List.forall_mem_singleton]
    exact TypeDesc.isElement_of_wordOut _ x hx
  · simp [listWalk, append, declaredTypesOf_whenTaken, declaredTypesOf_whenElementsTaken]

theorem spelledBy_hash (ht : t.WellShaped) (hview : t.view = .hash) :
    Yields t.SpelledBy (o.hash scope t) := by
  obtain ⟨k, v, hkv, hks, hvs⟩ := ht.exists_hash hview
  unfold hash
  rw [TypeDesc.elementOf_eq_ok hkv, TypeDesc.valueOf_eq_ok hkv, ok_bind, ok_bind]
  refine yields_bind fun host _ => yields_bind fun x hx => yields_bind fun y hy => ?_
  refine yields_pure_iff.mpr ⟨TypeDesc.forall_mem_hostElements ?_, ?_⟩
  · rw [hkv, List.forall_mem_cons, List.forall_mem_singleton]
    exact ⟨TypeDesc.isElement_of_wordOut _ x hx, TypeDesc.isElement_of_wordOut _ y hy⟩
  · simp [AllTyped, declaredTypesOf_hashWalk, declaredTypesOf_whenTaken]

theorem declaredTypesOf_count (native : GoType) (info : ArrayInfo) :
    Yields (fun r => declaredTypesOf r.1 = []) (o.count e native info) := by
  unfold count
  cases info.fixedSize with
  | some size => exact yields_ok_iff.mpr rfl
  | none =>
    cases o.length with
    | some length => exact yields_ok_iff.mpr rfl
    | none =>
      dsimp only
      split
      · exact yields_bind fun zero _ => yields_pure_iff.mpr rfl
      · exact yields_error _ _

theorem spelledBy_array (ht : t.WellShaped) (hview : t.view = .array) :
    Yields t.SpelledBy (o.array scope t) := by
  obtain ⟨info, e, hinfo, he, hes⟩ := ht.exists_array hview
  have hspelled : e.IsElement → ∀ {code : List Stmt}, declaredTypesOf code = [] →
      t.SpelledBy code := by
    intro helement code hcode
    refine ⟨TypeDesc.forall_mem_hostElements ?_, allTyped_of_declaredTypesOf_eq_nil hcode⟩
    rwa [he, List.forall_mem_singleton]
  unfold array
  rw [TypeDesc.arrayInfoOf_eq_ok hinfo, TypeDesc.elementOf_eq_ok he, ok_bind, ok_bind]
  cases hstorage : info.storage with
  | c =>
    refine yields_bind fun native _ => yields_bind fun counted hcounted => ?_
    refine yields_bind fun host _ => yields_bind fun x hx => yields_pure_iff.mpr ?_
    refine hspelled (TypeDesc.isElement_of_valueOut _ x hx) ?_
    simp [declaredTypesOf_count native info counted hcounted, declaredTypesOf_whenTaken,
      declaredTypesOf_whenElementsTaken]
  | array =>
    refine yields_bind fun native _ => yields_bind fun x hx => yields_pure_iff.mpr ?_
    refine hspelled (TypeDesc.isElement_of_valueOut _ x hx) ?_
    simp [append, declaredTypesOf_whenTaken, declaredTypesOf_whenElementsTaken]
  | ptrArray =>
    refine yields_bind fun x hx => yields_pure_iff.mpr ?_
    refine hspelled (TypeDesc.isElement_of_wordOut _ x hx) ?_
    split <;> simp [append, declaredTypesOf_whenTaken]
  | byteArray =>
    refine yields_pure_iff.mpr ⟨?_, allTyped_of_declaredTypesOf_eq_nil ?_⟩
    · rw [TypeDesc.hostElements_eq_nil hinfo hstorage]
      exact fun _ => nofun
    · simp [declaredTypesOf_whenTaken]

theorem declaredTypesOf_named : Yields (declaredTypesOf · = []) (o.named scope t) := by
  intro code hcode
  obtain ⟨e, rfl | rfl⟩ := exists_assign_of_named code hcode <;> rfl

theorem declaredTypesOf_scalar : Yields (declaredTypesOf · = []) (o.scalar scope t) := by
  intro code hcode
  obtain ⟨e, rfl⟩ := exists_assign_of_scalar code hcode
  rfl

/-- All variables have a type where a value that comes out is converted. -/
theorem spelledBy_convert (ht : t.WellShaped) : Yields t.SpelledBy (o.convert scope t) := by
  have hleaf : ∀ {c : TagClass}, t.view = c → (c ≠ .array ∧ c ≠ .hash ∧ ∀ k, c ≠ .list k) →
      ∀ {code : List Stmt}, declaredTypesOf code = [] → t.SpelledBy code := by
    intro c hview hc code hcode
    have hnot := TypeDesc.not_isContainer_of_view hview hc
    exact TypeDesc.spelledBy_of_leaf ht hnot (allTyped_of_declaredTypesOf_eq_nil hcode)
  unfold convert
  cases hview : t.view with
  | void =>
    refine yields_ok_iff.mpr (hleaf hview (by simp) ?_)
    split <;> rfl
  | basic | typeHandle =>
    exact fun code hcode => hleaf hview (by simp) (declaredTypesOf_scalar code hcode)
  | boolean =>
    cases t.pointer with
    | true => exact yields_error _ _
    | false => exact yields_ok_iff.mpr (hleaf hview (by simp) rfl)
  | string =>
    refine yields_ok_iff.mpr (hleaf hview (by simp) ?_)
    split <;> rfl
  | named =>
    exact fun code hcode => hleaf hview (by simp) (declaredTypesOf_named code hcode)
  | array => exact spelledBy_array ht hview
  | list k => exact spelledBy_list ht hview
  | hash => exact spelledBy_hash ht hview
  | error =>
    refine yields_ok_iff.mpr (hleaf hview (by simp) ?_)
    split <;> rfl

end Output

/-- All variables that the code around a call declares without a value have a type. -/
def Conversion.AllTyped (c : Conversion) : Prop :=
  Stmt.AllTyped c.before ∧ Stmt.AllTyped c.release ∧ Stmt.AllTyped c.after

namespace Argument

variable {scope : Scope} {a : Argument} {c : Conversion}

/-- Only structures of a registered type are filled. -/
theorem isSome_entity_of_fillsStructure {p : ParamRole} (h : a.fillsStructure p = true) :
    a.type.entity.isSome = true := by
  cases hentity : a.type.entity with
  | some r => rfl
  | none => simp [fillsStructure, TypeDesc.entityKind, hentity] at h

/-- Only arrays are filled. -/
theorem isVoid_of_fillsBuffer (h : a.type.Agrees) (hfills : a.fillsBuffer = true) :
    a.type.isVoid = false := by
  have harray : a.type.array.isSome = true := by
    unfold fillsBuffer at hfills
    cases hinfo : a.type.array with
    | some info => rfl
    | none => cases hrole : a.role <;> simp [hrole, hinfo] at hfills
  rw [TypeDesc.isVoid, h.array.mpr harray]
  rfl

/-- A value that is converted has elements that there are, if it is a parameter of the host function
or a result that is kept. -/
theorem isElement_of_convert (h : a.WellTyped) (hparam : ∀ p, a.role = .param p → p.hidden = none)
    (hresult : ∀ r, a.role = .result r → a.capturesReturn = true)
    (hc : a.convert scope = .ok c) : ∀ e ∈ a.type.hostElements, e.IsElement := by
  have hnamed : a.type.entity.isSome = true → ∀ e ∈ a.type.hostElements, e.IsElement := by
    intro hentity
    have hlength := h.type.agrees.params
    rw [h.type.agrees.entity.mpr hentity] at hlength
    refine TypeDesc.forall_mem_hostElements ?_
    rw [List.eq_nil_of_length_eq_zero hlength]
    exact fun _ => nofun
  refine yields_convert (motive := fun _ => ∀ e ∈ a.type.hostElements, e.IsElement) scope a
    ?receiver ?hidden ?input ?inout ?buffer ?struct ?output ?result ?dropped c hc
  case receiver =>
    exact fun via hrole _ _ => hnamed (h.receiver (by rw [isReceiver, hrole]))
  case hidden =>
    intro p why hrole hwhy
    rw [hparam p hrole] at hwhy
    cases hwhy
  case input =>
    intro p _ _ _ passing hpassing
    exact (Input.spelledBy_convert h.type _ passing hpassing).2.1
  case inout =>
    intro p _ _ _
    unfold convertInout
    refine yields_bind fun passing hpassing => yields_bind fun direct _ => ?_
    refine yields_bind fun after _ => yields_pure_iff.mpr ?_
    exact (Input.spelledBy_convert h.type _ passing hpassing).2.1
  case buffer =>
    intro p _ _ _
    unfold convertBuffer
    refine yields_bind fun info _ => yields_bind fun e _ => yields_bind fun native _ => ?_
    refine yields_bind fun after hafter => yields_pure_iff.mpr ?_
    exact (Output.spelledBy_convert h.type after hafter).1
  case struct =>
    exact fun p _ _ _ _ hfills _ _ => hnamed (isSome_entity_of_fillsStructure hfills)
  case output =>
    intro p _ _ _ _ _
    unfold convertOutput
    refine yields_bind fun native _ => yields_bind fun after hafter => yields_pure_iff.mpr ?_
    exact (Output.spelledBy_convert h.type after hafter).1
  case result =>
    intro r _ _
    unfold convertOutput
    refine yields_bind fun native _ => yields_bind fun after hafter => yields_pure_iff.mpr ?_
    exact (Output.spelledBy_convert h.type after hafter).1
  case dropped =>
    intro r hrole hdropped
    rw [hresult r hrole] at hdropped
    cases hdropped

theorem allTyped_ofBefore_define (name : String) (value : Expr) :
    (Conversion.ofBefore (.define name value)).AllTyped :=
  ⟨allTyped_of_declaredTypesOf_eq_nil rfl, allTyped_nil, allTyped_nil⟩

theorem allTyped_ofBefore_declareOne_iff {name : String} {type : GoType} :
    (Conversion.ofBefore (.declareOne name type)).AllTyped ↔ type.text ≠ "" :=
  (and_iff_left ⟨allTyped_nil, allTyped_nil⟩).trans allTyped_declareOne_iff

/-- A value that only comes back has a local of its native type. -/
theorem allTyped_convertOutput_iff (h : a.type.WellShaped) (transfer : Transfer)
    (length : Option String) :
    Yields (fun c => c.AllTyped ↔ a.type.isVoid = false)
      (a.convertOutput scope transfer length) := by
  unfold convertOutput
  refine yields_bind fun native hnative => yields_bind fun after hafter => yields_pure_iff.mpr ?_
  rw [← TypeDesc.text_ne_iff_of_resolveNative hnative, ← allTyped_declareOne_iff]
  exact and_iff_left ⟨allTyped_nil, (Output.spelledBy_convert h after hafter).2⟩

/-- The native type of a registered type is printed, also without its indirection. -/
theorem allTyped_convertStructure (h : a.type.entity.isSome = true) (ht : a.type.Agrees) :
    Yields Conversion.AllTyped (a.convertStructure scope) := by
  have hvoid : a.type.byValue.isVoid = false := by
    refine TypeDesc.isVoid_eq_false_of_view (TypeDesc.view_byValue a.type) ?_
    rw [TypeDesc.view, ht.entity.mpr h]
    decide
  unfold convertStructure
  refine yields_bind fun native hnative => yields_bind fun copy _ => yields_pure_iff.mpr ?_
  have htyped := (TypeDesc.text_ne_iff_of_resolveNative hnative).mpr hvoid
  exact ⟨allTyped_declareOne_iff.mpr htyped, allTyped_nil, allTyped_of_declaredTypesOf_eq_nil rfl⟩

theorem allTyped_convertBuffer (h : a.type.WellShaped) (p : ParamRole) :
    Yields Conversion.AllTyped (a.convertBuffer scope p) := by
  unfold convertBuffer
  refine yields_bind fun info _ => yields_bind fun e _ => yields_bind fun native _ => ?_
  refine yields_bind fun after hafter => yields_pure_iff.mpr ?_
  exact ⟨allTyped_of_declaredTypesOf_eq_nil rfl, allTyped_of_declaredTypesOf_eq_nil rfl,
    (Output.spelledBy_convert h after hafter).2⟩

theorem allTyped_convertInout (h : a.type.WellShaped) (p : ParamRole) :
    Yields (fun c => a.type.isVoid = false ∧ c.AllTyped) (a.convertInout scope p) := by
  unfold convertInout
  refine yields_bind fun passing hpassing => yields_bind fun direct hdirect => ?_
  refine yields_bind fun after hafter => yields_pure_iff.mpr ?_
  obtain ⟨hexists, _, hpassed⟩ := Input.spelledBy_convert h _ passing hpassing
  obtain ⟨_, _, htyped⟩ := Input.spelledBy_convert h _ direct hdirect
  rw [allTyped_append] at hpassed htyped
  refine ⟨hexists, ?_, hpassed.2, (Output.spelledBy_convert h after hafter).2⟩
  dsimp only
  split
  · exact htyped.1
  · exact allTyped_append.mpr ⟨hpassed.1, allTyped_of_declaredTypesOf_eq_nil rfl⟩

/-- The value is a parameter that is passed as its native zero value or that only comes back: its
local is declared without a value. -/
def LeftToCallee (a : Argument) : Prop :=
  ∃ p, a.role = .param p ∧ (p.direction = .output ∨ ¬∃ array, p.hidden = some (.lengthOf array))

/-- The code for an argument leaves out a type just when it declares the local of a value that does
not exist and has no value for it. -/
theorem allTyped_convert_iff (h : a.WellTyped) (hc : a.convert scope = .ok c) :
    c.AllTyped ↔ ¬(a.type.isVoid = true ∧ a.LeftToCallee) := by
  have htyped : ∀ {c : Conversion}, a.type.isVoid = false → c.AllTyped →
      (c.AllTyped ↔ ¬(a.type.isVoid = true ∧ a.LeftToCallee)) := by
    intro c hexists hc
    simp [hc, hexists]
  have hother : ∀ {c : Conversion}, (∀ p, a.role ≠ .param p) → c.AllTyped →
      (c.AllTyped ↔ ¬(a.type.isVoid = true ∧ a.LeftToCallee)) := by
    intro c hrole hc
    simp [LeftToCallee, hc, hrole]
  refine yields_convert (motive := fun c => c.AllTyped ↔ ¬(a.type.isVoid = true ∧ a.LeftToCallee))
    scope a ?receiver ?hidden ?input ?inout ?buffer ?struct ?output ?result ?dropped c hc
  case receiver =>
    intro via hrole
    unfold convertReceiver
    have hnot : ∀ p, a.role ≠ .param p := by simp [hrole]
    refine yields_bind fun owner _ => ?_
    split
    · exact yields_pure_iff.mpr (hother hnot (allTyped_ofBefore_define _ _))
    · exact yields_bind fun native _ =>
        yields_pure_iff.mpr (hother hnot (allTyped_ofBefore_define _ _))
  case hidden =>
    intro p why hrole hwhy
    have hleft : a.LeftToCallee ↔ p.direction = .output ∨ ¬∃ array, why = .lengthOf array := by
      simp [LeftToCallee, hrole, hwhy]
    unfold convertHidden
    refine yields_bind fun native hnative => ?_
    have hdeclared : (Conversion.ofBefore (.declareOne a.nativeLocal native)).AllTyped
        ↔ a.type.isVoid = false :=
      allTyped_ofBefore_declareOne_iff.trans (TypeDesc.text_ne_iff_of_resolveNative hnative)
    cases why with
    | skipped =>
      refine yields_pure_iff.mpr ?_
      rw [hdeclared, hleft]
      simp
    | lengthOf array =>
      dsimp only
      by_cases hdirection : p.direction = .output
      · rw [hdirection]
        refine yields_pure_iff.mpr ?_
        rw [hdeclared, hleft]
        simp [hdirection]
      · rw [if_pos (by simpa using hdirection)]
        refine yields_pure_iff.mpr ?_
        simp [allTyped_ofBefore_define, hleft, hdirection]
  case input =>
    intro p _ _ _ passing hpassing
    obtain ⟨hexists, _, hcode⟩ := Input.spelledBy_convert h.type _ passing hpassing
    rw [allTyped_append] at hcode
    exact htyped hexists ⟨hcode.1, hcode.2, allTyped_nil⟩
  case inout =>
    intro p _ _ _ c hc
    obtain ⟨hexists, hcode⟩ := allTyped_convertInout h.type p c hc
    exact htyped hexists hcode
  case buffer =>
    intro p hrole _ hfills c hc
    exact htyped (isVoid_of_fillsBuffer h.type.agrees hfills)
      (allTyped_convertBuffer h.type p c hc)
  case struct =>
    intro p hrole _ _ _ hfills c hc
    have hentity := isSome_entity_of_fillsStructure hfills
    have hexists : a.type.isVoid = false := by
      rw [TypeDesc.isVoid, h.type.agrees.entity.mpr hentity]
      rfl
    exact htyped hexists (allTyped_convertStructure hentity h.type.agrees c hc)
  case output =>
    intro p hrole _ hdirection _ _ c hc
    have hleft : a.LeftToCallee := ⟨p, hrole, Or.inl hdirection⟩
    have htype : c.AllTyped ↔ a.type.isVoid = false := allTyped_convertOutput_iff h.type _ _ c hc
    rw [htype, and_iff_left hleft, Bool.not_eq_true]
  case result =>
    intro r hrole hcaptures c hc
    refine hother (by simp [hrole]) ((allTyped_convertOutput_iff h.type _ _ c hc).mpr ?_)
    simp only [capturesReturn, hrole, isOutput, Bool.and_eq_true, Bool.not_eq_true'] at hcaptures
    exact hcaptures.2
  case dropped =>
    exact fun r hrole _ => hother (by simp [hrole]) ⟨allTyped_nil, allTyped_nil, allTyped_nil⟩

end Argument

end Introspection
