import Introspection.Conversion.Basic
import Introspection.Proofs.Resolution.Unchecked

/-!
# `Introspection.Proofs.Conversion.Gap`: conversions fail for gaps only

For arguments of well-shaped types the code that converts them is missing only where a type has
no rule or an array no length: every part of a descriptor that a conversion asks for is there.
The lemmas go up the calls, from elements over containers to whole arguments
(`Argument.gapsOnly_convert`), one for each function.
-/

set_option autoImplicit false

namespace Introspection

open Introspection.Code

variable {t : TypeDesc} (scope : Scope)

/-! ### Elements of containers -/

namespace TypeDesc

theorem gapsOnly_heapCopy {r : EntityRef} (hr : t.entity = some r) (place : Expr) :
    GapsOnly (t.heapCopy scope place) := by
  rw [heapCopy, entityOf_eq_ok hr, ok_bind]
  exact gapsOnly_pure _

theorem gapsOnly_wordIn (h : t.WellShaped) (v : Expr) : GapsOnly (t.wordIn v) := by
  unfold wordIn
  cases hview : t.view with
  | void => cases t.pointer <;> simp
  | basic n => cases n <;> exact gapsOnly_ok _
  | typeHandle | boolean | string => exact gapsOnly_ok _
  | named =>
    obtain ⟨r, hr⟩ := h.agrees.exists_entity hview
    simp only [entityOf_eq_ok hr, ok_bind]
    cases r.kind <;> exact gapsOnly_pure _
  | array | list | hash | error => exact gapsOnly_unsupported _ _

theorem gapsOnly_wordOut (h : t.WellShaped) (w : Expr) : GapsOnly (t.wordOut scope w) := by
  have hhost : GapsOnly (do
      return Expr.convert (← resolveHost scope t.byValue false) (.toWord w)) :=
    (gapsOnly_resolveHost scope h.byValue false).bind fun _ => gapsOnly_pure _
  unfold wordOut
  cases hview : t.view with
  | void => cases t.pointer <;> simp
  | basic n =>
    cases n with
    | float | double => exact gapsOnly_ok _
    | _ => exact hhost
  | typeHandle => exact hhost
  | boolean | string => exact gapsOnly_ok _
  | named =>
    obtain ⟨r, hr⟩ := h.agrees.exists_entity hview
    have helement := gapsOnly_of_exists_ok (exists_elementHost scope h)
    simp only [entityOf_eq_ok hr, ok_bind]
    cases r.kind with
    | enum => exact helement.bind fun _ => gapsOnly_pure _
    | _ => exact gapsOnly_pure _
  | array | list | hash | error => exact gapsOnly_unsupported _ _

theorem gapsOnly_valueIn (h : t.WellShaped) (v : Expr) : GapsOnly (t.valueIn v) := by
  unfold valueIn
  refine (gapsOnly_resolveNative h).bind fun native => ?_
  cases hview : t.view with
  | void | basic | typeHandle | boolean => cases t.pointer <;> simp
  | string => exact gapsOnly_pure _
  | named =>
    obtain ⟨r, hr⟩ := h.agrees.exists_entity hview
    simp only [entityOf_eq_ok hr, ok_bind]
    cases r.kind <;> cases t.pointer <;> simp
  | array | list | hash | error => exact gapsOnly_unsupported _ _

theorem gapsOnly_valueOut (h : t.WellShaped) (v : Expr) : GapsOnly (t.valueOut scope v) := by
  have hhost : GapsOnly (do return Expr.convert (← resolveHost scope t false) v) :=
    (gapsOnly_resolveHost scope h false).bind fun _ => gapsOnly_pure _
  unfold valueOut
  cases hview : t.view with
  | void | boolean => cases t.pointer <;> simp
  | basic | typeHandle =>
    cases t.pointer with
    | true => exact gapsOnly_unsupported _ _
    | false => exact hhost
  | string => exact gapsOnly_ok _
  | named =>
    obtain ⟨r, hr⟩ := h.agrees.exists_entity hview
    have hcopy : GapsOnly (do return Expr.deref (← t.heapCopy scope v)) :=
      (gapsOnly_heapCopy scope hr v).bind fun _ => gapsOnly_pure _
    simp only [entityOf_eq_ok hr, ok_bind]
    cases hkind : r.kind <;> cases t.pointer
    case enum.false => exact hhost
    case struct.false => exact hcopy
    case union.false => exact hcopy
    all_goals simp
  | array | list | hash | error => exact gapsOnly_unsupported _ _

theorem gapsOnly_terminator (h : t.WellShaped) (native : GoType) :
    GapsOnly (t.terminator native) := by
  unfold terminator
  split
  · exact gapsOnly_ok _
  · cases hview : t.view with
    | basic | boolean | typeHandle => exact gapsOnly_ok _
    | named =>
      obtain ⟨r, hr⟩ := h.agrees.exists_entity hview
      simp only [entityOf_eq_ok hr, ok_bind]
      split
      · exact gapsOnly_pure _
      · exact gapsOnly_unsupported _ _
    | void | string | array | list | hash | error => exact gapsOnly_unsupported _ _

end TypeDesc

open TypeDesc

/-! ### Containers on their way in -/

namespace Input

variable (i : Input)

theorem gapsOnly_list (h : t.WellShaped) {k : ListKind} (hview : t.view = .list k) :
    GapsOnly (i.list k t) := by
  obtain ⟨element, hparams, helement⟩ := h.exists_list hview
  unfold list
  rw [elementOf_eq_ok hparams, ok_bind]
  refine (gapsOnly_resolveNative h).bind fun native => ?_
  exact (gapsOnly_wordIn helement _).bind fun _ => gapsOnly_pure _

theorem gapsOnly_hash (h : t.WellShaped) (hview : t.view = .hash) : GapsOnly (i.hash t) := by
  obtain ⟨key, value, hparams, hkey, hvalue⟩ := h.exists_hash hview
  unfold hash
  rw [elementOf_eq_ok hparams, ok_bind, valueOf_eq_ok hparams, ok_bind]
  refine (gapsOnly_wordIn hkey _).bind fun keyWord => ?_
  exact (gapsOnly_wordIn hvalue _).bind fun _ => gapsOnly_pure _

theorem gapsOnly_array (h : t.WellShaped) (hview : t.view = .array) : GapsOnly (i.array t) := by
  obtain ⟨info, element, hinfo, hparams, helement⟩ := h.exists_array hview
  unfold array
  rw [arrayInfoOf_eq_ok hinfo, ok_bind, elementOf_eq_ok hparams, ok_bind]
  cases info.storage with
  | c | array =>
    refine (gapsOnly_resolveNative helement).bind fun native => ?_
    exact (gapsOnly_valueIn helement _).bind fun _ => gapsOnly_pure _
  | ptrArray => exact (gapsOnly_wordIn helement _).bind fun _ => gapsOnly_pure _
  | byteArray => exact gapsOnly_pure _

end Input

/-! ### Containers on their way out -/

namespace Output

variable (o : Output)

theorem gapsOnly_list (h : t.WellShaped) {k : ListKind} (hview : t.view = .list k) :
    GapsOnly (o.list scope k t) := by
  obtain ⟨element, hparams, helement⟩ := h.exists_list hview
  unfold list
  rw [elementOf_eq_ok hparams, ok_bind]
  exact (gapsOnly_wordOut scope helement _).bind fun _ => gapsOnly_pure _

theorem gapsOnly_hash (h : t.WellShaped) (hview : t.view = .hash) :
    GapsOnly (o.hash scope t) := by
  obtain ⟨key, value, hparams, hkey, hvalue⟩ := h.exists_hash hview
  unfold hash
  rw [elementOf_eq_ok hparams, ok_bind, valueOf_eq_ok hparams, ok_bind]
  refine (gapsOnly_resolveHost scope h false).bind fun host => ?_
  refine (gapsOnly_wordOut scope hkey _).bind fun k => ?_
  exact (gapsOnly_wordOut scope hvalue _).bind fun _ => gapsOnly_pure _

/-- The one place where the length of an array may be missing. -/
theorem gapsOnly_count (h : t.WellShaped) (native : GoType) (info : ArrayInfo) :
    GapsOnly (o.count t native info) := by
  unfold count
  split
  · exact gapsOnly_ok _
  · exact gapsOnly_ok _
  · split
    · exact (gapsOnly_terminator h native).bind fun _ => gapsOnly_pure _
    · exact gapsOnly_unboundedArray _

theorem gapsOnly_array (h : t.WellShaped) (hview : t.view = .array) :
    GapsOnly (o.array scope t) := by
  obtain ⟨info, element, hinfo, hparams, helement⟩ := h.exists_array hview
  unfold array
  rw [arrayInfoOf_eq_ok hinfo, ok_bind, elementOf_eq_ok hparams, ok_bind]
  cases info.storage with
  | c =>
    refine (gapsOnly_resolveNative helement).bind fun native => ?_
    refine (gapsOnly_count o helement native info).bind fun ⟨counting, count⟩ => ?_
    refine (gapsOnly_resolveHost scope h false).bind fun host => ?_
    exact (gapsOnly_valueOut scope helement _).bind fun _ => gapsOnly_pure _
  | array =>
    refine (gapsOnly_resolveNative helement).bind fun native => ?_
    exact (gapsOnly_valueOut scope helement _).bind fun _ => gapsOnly_pure _
  | ptrArray => exact (gapsOnly_wordOut scope helement _).bind fun _ => gapsOnly_pure _
  | byteArray => exact gapsOnly_pure _

end Output

/-! ### Values of any type -/

namespace Input

variable (i : Input)

theorem gapsOnly_named (h : t.WellShaped) (hview : t.view = .named) (nullable : Bool) :
    GapsOnly (i.named nullable t) := by
  obtain ⟨r, hr⟩ := h.agrees.exists_entity hview
  unfold named
  refine (gapsOnly_resolveNative h).bind fun native => ?_
  simp only [entityOf_eq_ok hr, ok_bind]
  split
  · split <;> exact gapsOnly_pure _
  · split
    · exact gapsOnly_pure _
    · split <;> exact gapsOnly_pure _

theorem gapsOnly_scalar (h : t.WellShaped) : GapsOnly (i.scalar t) := by
  unfold scalar
  refine (gapsOnly_resolveNative h).bind fun native => ?_
  split <;> exact gapsOnly_pure _

/-- A host value of a well-shaped type is passed, unless there is a gap. -/
theorem gapsOnly_convert (h : t.WellShaped) (nullable : Bool) :
    GapsOnly (i.convert nullable t) := by
  unfold convert
  cases hview : t.view with
  | void | boolean => cases t.pointer <;> simp
  | basic | typeHandle => exact gapsOnly_scalar i h
  | string => exact gapsOnly_ok _
  | named => exact (gapsOnly_named i h hview nullable).bind fun _ => gapsOnly_pure _
  | array => exact gapsOnly_array i h hview
  | list k => exact gapsOnly_list i h hview
  | hash => exact gapsOnly_hash i h hview
  | error => exact gapsOnly_unsupported _ _

end Input

namespace Output

variable (o : Output)

theorem gapsOnly_named (h : t.WellShaped) (hview : t.view = .named) :
    GapsOnly (o.named scope t) := by
  obtain ⟨r, hr⟩ := h.agrees.exists_entity hview
  have hhost := gapsOnly_resolveHost scope h false
  have hcopy := gapsOnly_heapCopy scope hr o.real
  unfold named
  rw [entityOf_eq_ok hr, ok_bind]
  cases hkind : r.kind <;> cases t.pointer
  case enum.true => exact hhost.bind fun _ => gapsOnly_pure _
  case enum.false => exact hhost.bind fun _ => gapsOnly_pure _
  case struct.false => exact hcopy.bind fun _ => gapsOnly_pure _
  case union.false => exact hcopy.bind fun _ => gapsOnly_pure _
  all_goals simp

theorem gapsOnly_scalar (h : t.WellShaped) : GapsOnly (o.scalar scope t) := by
  unfold scalar
  refine (gapsOnly_resolveHost scope h false).bind fun host => ?_
  split <;> exact gapsOnly_pure _

/-- A native value of a well-shaped type is converted, unless there is a gap. -/
theorem gapsOnly_convert (h : t.WellShaped) : GapsOnly (o.convert scope t) := by
  unfold convert
  cases hview : t.view with
  | void | string | error => exact gapsOnly_ok _
  | basic | typeHandle => exact gapsOnly_scalar scope o h
  | boolean => cases t.pointer <;> simp
  | named => exact gapsOnly_named scope o h hview
  | array => exact gapsOnly_array scope o h hview
  | list k => exact gapsOnly_list scope o h hview
  | hash => exact gapsOnly_hash scope o h hview

end Output

/-! ### Arguments -/

namespace Argument

variable (a : Argument)

/-- A receiver is of a registered type, as the one of a method is. -/
theorem gapsOnly_convertReceiver (h : a.type.entity.isSome = true) (via : Option EntityRef) :
    GapsOnly (a.convertReceiver via) := by
  obtain ⟨r, hr⟩ := Option.isSome_iff_exists.mp h
  unfold convertReceiver
  simp only [entityOf_eq_ok hr, ok_bind]
  split
  · exact gapsOnly_pure _
  · exact (gapsOnly_resolveNative (wellShaped_named _)).bind fun _ => gapsOnly_pure _

theorem gapsOnly_convertHidden (h : a.type.WellShaped) (direction : Direction)
    (hidden : Hidden) : GapsOnly (a.convertHidden direction hidden) := by
  unfold convertHidden
  refine (gapsOnly_resolveNative h).bind fun native => ?_
  cases hidden with
  | lengthOf array =>
    cases direction <;> exact gapsOnly_pure _
  | skipped => exact gapsOnly_pure _

theorem gapsOnly_convertBuffer (h : a.type.WellShaped) (p : ParamRole)
    (hfills : a.type.array.isSome = true) : GapsOnly (a.convertBuffer scope p) := by
  have hview : a.type.view = .array := by
    rw [view, h.agrees.array.mpr hfills]
    rfl
  obtain ⟨info, element, hinfo, hparams, helement⟩ := h.exists_array hview
  unfold convertBuffer
  rw [arrayInfoOf_eq_ok hinfo, ok_bind, elementOf_eq_ok hparams, ok_bind]
  refine (gapsOnly_resolveNative helement).bind fun native => ?_
  exact (Output.gapsOnly_convert scope _ h).bind fun _ => gapsOnly_pure _

theorem gapsOnly_convertStructure (h : a.type.WellShaped) {r : EntityRef}
    (hr : a.type.entity = some r) : GapsOnly (a.convertStructure scope) := by
  have hbyValue : a.type.byValue.entity = some r := by
    rw [← hr]
    cases a.type
    rfl
  unfold convertStructure
  refine (gapsOnly_resolveNative h.byValue).bind fun native => ?_
  exact (gapsOnly_heapCopy scope hbyValue _).bind fun _ => gapsOnly_pure _

theorem gapsOnly_convertInout (h : a.type.WellShaped) (p : ParamRole) :
    GapsOnly (a.convertInout scope p) := by
  unfold convertInout
  refine (Input.gapsOnly_convert _ h _).bind fun passing => ?_
  refine (Input.gapsOnly_convert _ h _).bind fun direct => ?_
  exact (Output.gapsOnly_convert scope _ h).bind fun _ => gapsOnly_pure _

theorem gapsOnly_convertOutput (h : a.type.WellShaped) (transfer : Transfer)
    (length : Option String) : GapsOnly (a.convertOutput scope transfer length) := by
  unfold convertOutput
  refine (gapsOnly_resolveNative h).bind fun native => ?_
  exact (Output.gapsOnly_convert scope _ h).bind fun _ => gapsOnly_pure _

theorem gapsOnly_convertParam (h : a.type.WellShaped) {p : ParamRole} (hp : a.role = .param p) :
    GapsOnly (a.convertParam scope p) := by
  unfold convertParam
  split
  · exact gapsOnly_convertHidden a h _ _
  · exact (Input.gapsOnly_convert _ h _).bind fun _ => gapsOnly_pure _
  · exact gapsOnly_convertInout scope a h p
  · split
    · -- Only arrays are filled by the callee.
      rename_i hfills
      have harray : a.type.array.isSome = true := by
        unfold fillsBuffer at hfills
        rw [hp] at hfills
        cases harray : a.type.array with
        | some info => rfl
        | none => simp [harray] at hfills
      exact gapsOnly_convertBuffer scope a h p harray
    · split
      · -- Only structs and unions are.
        rename_i hfills
        cases hr : a.type.entity with
        | some r => exact gapsOnly_convertStructure scope a h hr
        | none => simp [fillsStructure, entityKind, hr] at hfills
      · exact gapsOnly_convertOutput scope a h _ _

/-- The type of the argument is well-shaped, and that of a receiver names a registered type. -/
structure WellTyped (a : Argument) : Prop where
  type : a.type.WellShaped
  receiver : a.isReceiver = true → a.type.entity.isSome = true

variable {a}

/-- An argument is converted, unless there is a gap. -/
theorem gapsOnly_convert (h : a.WellTyped) : GapsOnly (a.convert scope) := by
  unfold convert
  cases hrole : a.role with
  | receiver via =>
    exact gapsOnly_convertReceiver a (h.receiver (by rw [isReceiver, hrole])) via
  | param p => exact gapsOnly_convertParam scope a h.type hrole
  | result r =>
    dsimp only
    split
    · exact gapsOnly_convertOutput scope a h.type _ _
    · exact gapsOnly_ok _

/-- The entry of an argument in the list of parameters is found, if it has one. -/
theorem gapsOnly_hostParam (h : a.WellTyped) : GapsOnly (a.hostParam scope) := by
  unfold hostParam
  split
  · split
    · exact gapsOnly_ok _
    · split
      · exact (gapsOnly_resolveHost scope h.type true).bind fun _ => gapsOnly_pure _
      · exact (gapsOnly_resolveHost scope h.type false).bind fun _ => gapsOnly_pure _
  · exact gapsOnly_ok _

/-- The entry of an argument in the list of results is found, if it has one. -/
theorem gapsOnly_hostResult (h : a.WellTyped) : GapsOnly (a.hostResult scope) := by
  unfold hostResult
  split
  · exact (gapsOnly_resolveHost scope h.type false).bind fun _ => gapsOnly_pure _
  · exact gapsOnly_ok _

end Argument

end Introspection
