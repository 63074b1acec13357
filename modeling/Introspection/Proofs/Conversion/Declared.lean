import Introspection.Proofs.Conversion.Release

/-!
# `Introspection.Proofs.Conversion.Declared`: the locals of an argument

The native call reads one local for each argument. Its code may declare more of them in the block of
the call, each named by a suffix to the first: the slice of the elements of a C array (`_view`), the
value that is passed both ways and given back (`_in`), and the number of elements that are counted
up to a terminator (`_n`). Which of them there are depends on the type of the argument, on its
direction and on its transfer (`Argument.passSuffixes`, `Argument.countSuffixes`).

`declares_convert` says that the conversion of the argument declares these locals and no others, and
`declaresLocal_convert` that it declares the first one once. Only a result that is dropped has no
local.
-/

set_option autoImplicit false

namespace Introspection

open Introspection.Code
open Introspection.Code.Stmt

/-! ### Suffixes by type -/

namespace TypeDesc

instance (t : TypeDesc) : Decidable t.Allocates :=
  decidable_of_iff (t.view = .string ∨ t.view = .array
      ∨ (t.view = .list .double ∨ t.view = .list .single) ∨ t.view = .hash) <| by
    have hkinds : (t.view = .list .double ∨ t.view = .list .single) ↔ ∃ k, t.view = .list k := by
      constructor
      · rintro (h | h) <;> exact ⟨_, h⟩
      · rintro ⟨k, h⟩
        cases k with
        | double => exact Or.inl h
        | single => exact Or.inr h
    rw [hkinds, Allocates]

/-- An array that is passed as the pointer to its first element. -/
def isCArray (t : TypeDesc) : Bool := t.view == .array && t.array.any (·.storage == .c)

/-- The elements of the array are counted up to a terminator, unless their number is known. -/
def isCounted (t : TypeDesc) : Bool :=
  t.isCArray && t.array.any fun info => info.fixedSize.isNone && info.zeroTerminated

/-- The array names the parameter that carries its length. -/
def namesLength (t : TypeDesc) : Bool := (t.array.bind (·.length)).isSome

/-- Suffix of the local that holds the elements of a C array on its way in. -/
def viewSuffixes (t : TypeDesc) : List String := if t.isCArray then ["_view"] else []

/-- Suffix of the local that holds the number of elements that were counted. -/
def countSuffixes (known : Bool) (t : TypeDesc) : List String :=
  if t.isCounted && !known then ["_n"] else []

variable {t : TypeDesc}

theorem isCArray_eq_false (hview : t.view ≠ .array) : t.isCArray = false := by
  rw [isCArray, beq_eq_false_iff_ne.mpr hview, Bool.false_and]

theorem array_eq_some {info : ArrayInfo} (hinfo : t.arrayInfoOf = .ok info) :
    t.array = some info := by
  unfold arrayInfoOf at hinfo
  cases harray : t.array with
  | none =>
    rw [harray] at hinfo
    cases hinfo
  | some found =>
    rw [harray] at hinfo
    cases hinfo
    rfl

theorem isCArray_eq {info : ArrayInfo} (hview : t.view = .array)
    (hinfo : t.arrayInfoOf = .ok info) : t.isCArray = (info.storage == .c) := by
  simp [isCArray, hview, array_eq_some hinfo]

end TypeDesc

namespace Input

variable (i : Input)

/-- A value that goes in has one local; a C array has a second one, the slice of its elements. -/
def DeclaresLocals (t : TypeDesc) (code : List Stmt) : Prop :=
  declaredBy code = i.real :: t.viewSuffixes.map (i.real ++ ·)

theorem declaresLocals_of_ne_array {t : TypeDesc} (hview : t.view ≠ .array) {code : List Stmt}
    (hcode : declaredBy code = [i.real]) : i.DeclaresLocals t code := by
  rw [DeclaresLocals, hcode, TypeDesc.viewSuffixes, TypeDesc.isCArray_eq_false hview]
  rfl

theorem declaredBy_named (nullable : Bool) (t : TypeDesc) :
    Yields (fun code => declaredBy code = [i.real]) (i.named nullable t) := by
  unfold named
  refine yields_bind fun native _ => yields_bind fun r _ => ?_
  split
  · split <;> exact yields_pure_iff.mpr rfl
  · split
    · exact yields_pure_iff.mpr rfl
    · split <;> exact yields_pure_iff.mpr rfl

theorem declaredBy_scalar (t : TypeDesc) :
    Yields (fun p => declaredBy p.code = [i.real]) (i.scalar t) := by
  unfold scalar
  refine yields_bind fun native _ => ?_
  split <;> exact yields_pure_iff.mpr rfl

theorem declaredBy_list (k : ListKind) (t : TypeDesc) :
    Yields (fun p => declaredBy p.code = [i.real]) (i.list k t) := by
  unfold list
  refine yields_bind fun e _ => yields_bind fun native _ => yields_bind fun word _ => ?_
  exact yields_pure_iff.mpr rfl

theorem declaredBy_hash (t : TypeDesc) :
    Yields (fun p => declaredBy p.code = [i.real]) (i.hash t) := by
  unfold hash
  refine yields_bind fun k _ => yields_bind fun v _ => ?_
  refine yields_bind fun keyWord _ => yields_bind fun valueWord _ => ?_
  exact yields_pure_iff.mpr rfl

theorem declaresLocals_array {t : TypeDesc} (hview : t.view = .array) :
    Yields (fun p => i.DeclaresLocals t p.code) (i.array t) := by
  unfold array
  refine yields_bind fun info hinfo => yields_bind fun e _ => ?_
  unfold DeclaresLocals TypeDesc.viewSuffixes
  rw [TypeDesc.isCArray_eq hview hinfo]
  cases info.storage with
  | c => exact yields_bind fun native _ => yields_bind fun value _ => yields_pure_iff.mpr rfl
  | array => exact yields_bind fun native _ => yields_bind fun value _ => yields_pure_iff.mpr rfl
  | ptrArray => exact yields_bind fun word _ => yields_pure_iff.mpr rfl
  | byteArray => exact yields_pure_iff.mpr rfl

/-- A value of any type that goes in has its locals. -/
theorem declaresLocals_convert (nullable : Bool) (t : TypeDesc) :
    Yields (fun p => i.DeclaresLocals t p.code) (i.convert nullable t) := by
  unfold convert
  cases hview : t.view with
  | void =>
    cases t.pointer with
    | true => exact yields_ok_iff.mpr (i.declaresLocals_of_ne_array (by simp [hview]) rfl)
    | false => exact yields_error _ _
  | boolean =>
    cases t.pointer with
    | true => exact yields_error _ _
    | false => exact yields_ok_iff.mpr (i.declaresLocals_of_ne_array (by simp [hview]) rfl)
  | basic | typeHandle =>
    exact fun p hp =>
      i.declaresLocals_of_ne_array (by simp [hview]) (i.declaredBy_scalar t p hp)
  | string => exact yields_ok_iff.mpr (i.declaresLocals_of_ne_array (by simp [hview]) rfl)
  | named =>
    refine yields_bind fun code hcode => yields_pure_iff.mpr ?_
    exact i.declaresLocals_of_ne_array (by simp [hview]) (i.declaredBy_named nullable t code hcode)
  | array => exact i.declaresLocals_array hview
  | list k =>
    exact fun p hp => i.declaresLocals_of_ne_array (by simp [hview]) (i.declaredBy_list k t p hp)
  | hash =>
    exact fun p hp => i.declaresLocals_of_ne_array (by simp [hview]) (i.declaredBy_hash t p hp)
  | error => exact yields_error _ _

end Input

namespace Output

variable (scope : Scope) (o : Output)

/-- A value that comes out is converted without locals; a C array may have one for the number of its
elements. -/
def DeclaresLocals (t : TypeDesc) (code : List Stmt) : Prop :=
  declaredBy code = (t.countSuffixes o.length.isSome).map (o.stem ++ ·)

variable {o}

theorem declaresLocals_of_not_isCArray {t : TypeDesc} (ht : t.isCArray = false) {code : List Stmt}
    (hcode : declaredBy code = []) : o.DeclaresLocals t code := by
  rw [DeclaresLocals, hcode, TypeDesc.countSuffixes, TypeDesc.isCounted, ht]
  rfl

variable (o)

theorem declaredBy_whenTaken (x : Expr) : declaredBy (o.whenTaken [.run x]) = [] := by
  unfold whenTaken
  split <;> rfl

theorem declaredBy_named (t : TypeDesc) : Yields (declaredBy · = []) (o.named scope t) := by
  intro code hcode
  obtain ⟨e, rfl | rfl⟩ := exists_assign_of_named code hcode <;> rfl

theorem declaredBy_scalar (t : TypeDesc) : Yields (declaredBy · = []) (o.scalar scope t) := by
  intro code hcode
  obtain ⟨e, rfl⟩ := exists_assign_of_scalar code hcode
  rfl

theorem declaredBy_list (k : ListKind) (t : TypeDesc) :
    Yields (declaredBy · = []) (o.list scope k t) := by
  unfold list
  refine yields_bind fun e _ => yields_bind fun value _ => yields_pure_iff.mpr ?_
  rw [declaredBy_append, declaredBy_whenTaken]
  rfl

theorem declaredBy_hash (t : TypeDesc) : Yields (declaredBy · = []) (o.hash scope t) := by
  unfold hash
  refine yields_bind fun k _ => yields_bind fun v _ => yields_bind fun host _ => ?_
  exact yields_bind fun key _ => yields_bind fun value _ => yields_pure_iff.mpr rfl

/-- Elements are counted when neither a fixed size nor another argument tells their number. -/
theorem declaredBy_count (e : TypeDesc) (native : GoType) (info : ArrayInfo) :
    Yields (fun r => declaredBy r.1
        = if info.fixedSize.isNone && info.zeroTerminated && !o.length.isSome then [o.stem ++ "_n"]
          else [])
      (o.count e native info) := by
  unfold count
  cases info.fixedSize with
  | some size => exact yields_ok_iff.mpr rfl
  | none =>
    cases o.length with
    | some length =>
      refine yields_ok_iff.mpr ?_
      simp [declaredBy]
    | none =>
      dsimp only
      cases info.zeroTerminated with
      | true => exact yields_bind fun zero _ => yields_pure_iff.mpr rfl
      | false => exact yields_error _ _

theorem declaresLocals_array {t : TypeDesc} (hview : t.view = .array) :
    Yields (o.DeclaresLocals t) (o.array scope t) := by
  unfold array
  refine yields_bind fun info hinfo => yields_bind fun e _ => ?_
  have hcarray := TypeDesc.isCArray_eq hview hinfo
  cases hstorage : info.storage with
  | c =>
    refine yields_bind fun native _ => yields_bind fun counted hcounted => ?_
    refine yields_bind fun host _ => yields_bind fun value _ => yields_pure_iff.mpr ?_
    have hcount := o.declaredBy_count e native info counted hcounted
    have hcounts : t.isCounted = (info.fixedSize.isNone && info.zeroTerminated) := by
      simp [TypeDesc.isCounted, hcarray, hstorage, TypeDesc.array_eq_some hinfo]
    unfold DeclaresLocals TypeDesc.countSuffixes
    rw [declaredBy_append, hcount, hcounts]
    split <;> rfl
  | array =>
    refine yields_bind fun native _ => yields_bind fun value _ => yields_pure_iff.mpr ?_
    exact declaresLocals_of_not_isCArray (by rw [hcarray, hstorage]; rfl) rfl
  | ptrArray =>
    refine yields_bind fun word _ => yields_pure_iff.mpr ?_
    exact declaresLocals_of_not_isCArray (by rw [hcarray, hstorage]; rfl) rfl
  | byteArray =>
    exact yields_pure_iff.mpr
      (declaresLocals_of_not_isCArray (by rw [hcarray, hstorage]; rfl) rfl)

/-- A value of any type that comes out is converted with a local for its count or without. -/
theorem declaresLocals_convert (t : TypeDesc) :
    Yields (o.DeclaresLocals t) (o.convert scope t) := by
  have hplain : t.view ≠ .array → ∀ {r : Generated (List Stmt)}, Yields (declaredBy · = []) r →
      Yields (o.DeclaresLocals t) r := fun hview _ hr code hcode =>
    declaresLocals_of_not_isCArray (TypeDesc.isCArray_eq_false hview) (hr code hcode)
  unfold convert
  cases hview : t.view with
  | void =>
    refine hplain (by simp [hview]) (yields_ok_iff.mpr ?_)
    split <;> rfl
  | basic | typeHandle => exact hplain (by simp [hview]) (o.declaredBy_scalar scope t)
  | boolean =>
    cases t.pointer with
    | true => exact yields_error _ _
    | false => exact hplain (by simp [hview]) (yields_ok_iff.mpr rfl)
  | string =>
    refine hplain (by simp [hview]) (yields_ok_iff.mpr ?_)
    split <;> rfl
  | named => exact hplain (by simp [hview]) (o.declaredBy_named scope t)
  | array => exact o.declaresLocals_array scope hview
  | list k => exact hplain (by simp [hview]) (o.declaredBy_list scope k t)
  | hash => exact hplain (by simp [hview]) (o.declaredBy_hash scope t)
  | error => exact hplain (by simp [hview]) (yields_ok_iff.mpr rfl)

end Output

/-! ### Suffixes by argument -/

namespace Argument

/-- Suffixes of the locals that are declared before the call besides the one that the call reads. A
value that is passed both ways and that allocates is passed in a local of its own. -/
def passSuffixes (a : Argument) : List String :=
  match a.role with
  | .receiver _ => []
  | .param p =>
    if p.hidden.isSome then []
    else
      match p.direction with
      | .input => a.type.viewSuffixes
      | .inout =>
        if p.transfer = .full ∨ ¬a.type.Allocates then a.type.viewSuffixes
        else "_in" :: a.type.viewSuffixes.map ("_in" ++ ·)
      | .output => []
  | .result _ => []

/-- Suffixes of the locals that are declared behind the call. -/
def countSuffixes (a : Argument) : List String :=
  match a.role with
  | .receiver _ => []
  | .param p =>
    if p.hidden.isSome then []
    else
      match p.direction with
      | .input => []
      | .inout => a.type.countSuffixes a.type.namesLength
      | .output =>
        if a.fillsBuffer || a.fillsStructure p then []
        else a.type.countSuffixes a.type.namesLength
  | .result _ => if a.capturesReturn then a.type.countSuffixes a.type.namesLength else []

/-- The number of elements stands in the local of another argument. -/
def knowsLength (a : Argument) : Bool :=
  match a.role with
  | .receiver _ => false
  | .param p => p.length.isSome
  | .result r => r.length.isSome

/-- There is a local that the call reads or that keeps its result. -/
def hasLocal (a : Argument) : Bool :=
  match a.role with
  | .result _ => a.capturesReturn
  | _ => true

/-- The locals that are declared before the call. -/
def passLocals (a : Argument) : List String :=
  if a.hasLocal then a.nativeLocal :: a.passSuffixes.map (a.nativeLocal ++ ·) else []

/-- The code around the call declares the locals of the argument, and no others in the block of the
call. -/
structure Declares (a : Argument) (c : Conversion) : Prop where
  before : (declaredBy c.before).Perm a.passLocals
  after : a.knowsLength = a.type.namesLength →
    declaredBy c.after = a.countSuffixes.map (a.nativeLocal ++ ·)

variable {scope : Scope} {a : Argument} {p : ParamRole}

/-- A local without further ones is declared and nothing is declared behind the call. -/
theorem declares_single {c : Conversion} (hlocal : a.hasLocal = true) (hpass : a.passSuffixes = [])
    (hcount : a.countSuffixes = []) (hbefore : declaredBy c.before = [a.nativeLocal])
    (hafter : declaredBy c.after = []) : a.Declares c := by
  refine ⟨?_, fun _ => ?_⟩
  · rw [hbefore, passLocals, if_pos hlocal, hpass]
    exact .refl _
  · rw [hafter, hcount]
    rfl

theorem declares_convertReceiver {via : Option EntityRef} (hrole : a.role = .receiver via) :
    Yields a.Declares (a.convertReceiver via) := by
  have hlocal : a.hasLocal = true := by rw [hasLocal, hrole]
  have hpass : a.passSuffixes = [] := by rw [passSuffixes, hrole]
  have hcount : a.countSuffixes = [] := by rw [countSuffixes, hrole]
  unfold convertReceiver
  refine yields_bind fun owner _ => ?_
  split
  · exact yields_pure_iff.mpr (declares_single hlocal hpass hcount rfl rfl)
  · exact yields_bind fun native _ =>
      yields_pure_iff.mpr (declares_single hlocal hpass hcount rfl rfl)

theorem declares_convertHidden (hrole : a.role = .param p) {why : Hidden}
    (hwhy : p.hidden = some why) : Yields a.Declares (a.convertHidden p.direction why) := by
  have hlocal : a.hasLocal = true := by rw [hasLocal, hrole]
  have hpass : a.passSuffixes = [] := by simp [passSuffixes, hrole, hwhy]
  have hcount : a.countSuffixes = [] := by simp [countSuffixes, hrole, hwhy]
  unfold convertHidden
  refine yields_bind fun native _ => ?_
  cases why with
  | lengthOf array =>
    dsimp only
    split <;> exact yields_pure_iff.mpr (declares_single hlocal hpass hcount rfl rfl)
  | skipped => exact yields_pure_iff.mpr (declares_single hlocal hpass hcount rfl rfl)

theorem declares_input (hrole : a.role = .param p) (hshown : p.hidden = none)
    (hdirection : p.direction = .input) {passing : Passing}
    (hcode : Input.DeclaresLocals ⟨a.nativeLocal, a.hostValue, p.transfer⟩ a.type passing.code) :
    a.Declares ⟨passing.code, passing.release, []⟩ := by
  have hlocal : a.hasLocal = true := by rw [hasLocal, hrole]
  have hpass : a.passSuffixes = a.type.viewSuffixes := by
    simp [passSuffixes, hrole, hshown, hdirection]
  have hcount : a.countSuffixes = [] := by simp [countSuffixes, hrole, hdirection]
  refine ⟨?_, fun _ => ?_⟩
  · rw [passLocals, if_pos hlocal, hpass]
    exact .of_eq hcode
  · rw [hcount]
    rfl

/-- What comes back is counted, unless the length is the local of another argument. -/
theorem declaredBy_after {transfer : Transfer} {length : Option String}
    (hlength : a.knowsLength = length.isSome)
    (hcount : a.countSuffixes = a.type.countSuffixes a.type.namesLength) {after : List Stmt}
    (hafter : (a.output transfer (length.map Expr.inner)).convert scope a.type = .ok after)
    (hknows : a.knowsLength = a.type.namesLength) :
    declaredBy after = a.countSuffixes.map (a.nativeLocal ++ ·) := by
  have hdeclared := Output.declaresLocals_convert scope _ a.type after hafter
  have hknown : (a.output transfer (length.map Expr.inner)).length.isSome = a.type.namesLength := by
    rw [← hknows, hlength]
    exact Option.isSome_map
  rw [Output.DeclaresLocals, hknown, ← hcount] at hdeclared
  exact hdeclared

/-- A value that is passed both ways has a second local when it owes something, and behind the call
it is converted like any other that comes back. -/
theorem declares_convertInout (hrole : a.role = .param p) (hshown : p.hidden = none)
    (hdirection : p.direction = .inout) : Yields a.Declares (a.convertInout scope p) := by
  have hlocal : a.hasLocal = true := by rw [hasLocal, hrole]
  unfold convertInout
  refine yields_bind fun passing hpassing => yields_bind fun direct hdirect => ?_
  refine yields_bind fun after hafter => yields_pure_iff.mpr ?_
  have hpassed := Input.declaresLocals_convert _ _ _ passing hpassing
  have hreal := Input.declaresLocals_convert _ _ _ direct hdirect
  have howes := (Input.settles_convert _ _ _ passing hpassing).empty_iff
  refine ⟨?_, fun hknows => ?_⟩
  · dsimp only at howes ⊢
    rw [passLocals, if_pos hlocal]
    by_cases hfree : p.transfer = .full ∨ ¬a.type.Allocates
    · have hpass : a.passSuffixes = a.type.viewSuffixes := by
        simp only [passSuffixes, hrole, hshown, hdirection, if_pos hfree, Option.isSome_none,
          Bool.false_eq_true, if_false]
      rw [howes.mpr hfree, hpass, List.isEmpty_nil, if_pos rfl]
      exact .of_eq hreal
    · have hpass : a.passSuffixes = "_in" :: a.type.viewSuffixes.map ("_in" ++ ·) := by
        simp only [passSuffixes, hrole, hshown, hdirection, if_neg hfree, Option.isSome_none,
          Bool.false_eq_true, if_false]
      have howed : passing.release.isEmpty = false :=
        List.isEmpty_eq_false_iff.mpr fun hempty => hfree (howes.mp hempty)
      have hmoved : a.passSuffixes.map (a.nativeLocal ++ ·) = declaredBy passing.code := by
        rw [hpassed, hpass]
        simp [String.append_assoc]
      rw [howed, if_neg Bool.false_ne_true, declaredBy_append, hmoved]
      exact List.perm_append_singleton _ _
  · refine declaredBy_after ?_ ?_ hafter hknows
    · rw [knowsLength, hrole]
    · simp [countSuffixes, hrole, hshown, hdirection]

theorem declares_convertBuffer (hrole : a.role = .param p) (hfills : a.fillsBuffer = true) :
    Yields a.Declares (a.convertBuffer scope p) := by
  have hlocal : a.hasLocal = true := by rw [hasLocal, hrole]
  have hdirection := direction_of_fillsBuffer hrole hfills
  have hpass : a.passSuffixes = [] := by simp [passSuffixes, hrole, hdirection]
  have hcount : a.countSuffixes = [] := by simp [countSuffixes, hrole, hdirection, hfills]
  unfold convertBuffer
  refine yields_bind fun info _ => yields_bind fun e _ => yields_bind fun native _ => ?_
  refine yields_bind fun after hafter => yields_pure_iff.mpr ?_
  refine declares_single hlocal hpass hcount rfl ?_
  -- The wrapper knows how many elements it allocated.
  have hdeclared := Output.declaresLocals_convert scope _ a.type after hafter
  unfold Output.DeclaresLocals TypeDesc.countSuffixes at hdeclared
  simpa [output] using hdeclared

theorem declares_convertStructure (hrole : a.role = .param p) (hdirection : p.direction = .output)
    (hfills : a.fillsStructure p = true) : Yields a.Declares (a.convertStructure scope) := by
  have hlocal : a.hasLocal = true := by rw [hasLocal, hrole]
  have hpass : a.passSuffixes = [] := by simp [passSuffixes, hrole, hdirection]
  have hcount : a.countSuffixes = [] := by simp [countSuffixes, hrole, hdirection, hfills]
  unfold convertStructure
  refine yields_bind fun native _ => yields_bind fun copy _ => ?_
  exact yields_pure_iff.mpr (declares_single hlocal hpass hcount rfl rfl)

theorem declares_convertOutput {transfer : Transfer} {length : Option String}
    (hlocal : a.hasLocal = true) (hpass : a.passSuffixes = [])
    (hlength : a.knowsLength = length.isSome)
    (hcount : a.countSuffixes = a.type.countSuffixes a.type.namesLength) :
    Yields a.Declares (a.convertOutput scope transfer length) := by
  unfold convertOutput
  refine yields_bind fun native _ => yields_bind fun after hafter => yields_pure_iff.mpr ⟨?_, ?_⟩
  · rw [passLocals, if_pos hlocal, hpass]
    exact .refl _
  · exact declaredBy_after hlength hcount hafter

/-- The conversion of an argument declares the locals of the argument. -/
theorem declares_convert (scope : Scope) (a : Argument) :
    Yields a.Declares (a.convert scope) := by
  refine yields_convert scope a ?receiver ?hidden ?input ?inout ?buffer ?struct ?output ?result
    ?dropped
  case receiver => exact fun via hrole => declares_convertReceiver hrole
  case hidden => exact fun p why hrole hwhy => declares_convertHidden hrole hwhy
  case input =>
    intro p hrole hshown hdirection passing hpassing
    exact declares_input hrole hshown hdirection (Input.declaresLocals_convert _ _ _ _ hpassing)
  case inout => exact fun p hrole hshown hdirection => declares_convertInout hrole hshown hdirection
  case buffer => exact fun p hrole _ hfills => declares_convertBuffer hrole hfills
  case struct =>
    exact fun p hrole _ hdirection _ hfills => declares_convertStructure hrole hdirection hfills
  case output =>
    intro p hrole hshown hdirection hbuffer hstructure
    refine declares_convertOutput ?_ ?_ ?_ ?_
    · rw [hasLocal, hrole]
    · simp [passSuffixes, hrole, hdirection]
    · rw [knowsLength, hrole]
    · simp [countSuffixes, hrole, hshown, hdirection, hbuffer, hstructure]
  case result =>
    intro r hrole hcaptures
    refine declares_convertOutput ?_ ?_ ?_ ?_
    · rw [hasLocal, hrole]
      exact hcaptures
    · rw [passSuffixes, hrole]
    · rw [knowsLength, hrole]
    · simp [countSuffixes, hrole, hcaptures]
  case dropped =>
    intro r hrole hdropped
    have hlocal : a.hasLocal = false := by
      rw [hasLocal, hrole]
      exact hdropped
    have hcount : a.countSuffixes = [] := by simp [countSuffixes, hrole, hdropped]
    refine ⟨?_, fun _ => ?_⟩
    · rw [passLocals, hlocal]
      exact .refl _
    · rw [hcount]
      rfl

/-! ### The local that the call reads -/

/-- The suffixes that there are before a call: for the elements of a C array, and for a value that
is passed both ways. -/
theorem passSuffixes_cases (a : Argument) : a.passSuffixes ∈
    [[], ["_view"], ["_in"], ["_in", "_in_view"]] := by
  have hview : a.type.viewSuffixes = [] ∨ a.type.viewSuffixes = ["_view"] := by
    unfold TypeDesc.viewSuffixes
    split <;> simp
  unfold passSuffixes
  cases a.role with
  | receiver | result => simp
  | param p =>
    dsimp only
    split
    · simp
    · cases p.direction with
      | input => rcases hview with h | h <;> simp [h]
      | output => simp
      | inout =>
        dsimp only
        split <;> rcases hview with h | h <;> simp [h]

/-- At most the count has a local behind a call. -/
theorem countSuffixes_cases (a : Argument) : a.countSuffixes ∈ [[], ["_n"]] := by
  have hcount : a.type.countSuffixes a.type.namesLength ∈ [[], ["_n"]] := by
    unfold TypeDesc.countSuffixes
    split <;> simp
  unfold countSuffixes
  cases a.role with
  | receiver => simp
  | result r =>
    dsimp only
    split
    · exact hcount
    · simp
  | param p =>
    dsimp only
    split
    · simp
    · cases p.direction with
      | input => simp
      | inout => exact hcount
      | output =>
        dsimp only
        split
        · simp
        · exact hcount

/-- The code before the call declares the local of the argument once. -/
def DeclaresLocal (c : Conversion) : Prop := (declaredBy c.before).count a.nativeLocal = 1

/-- Before the call, the local of every argument but a dropped result is declared once. -/
theorem declaresLocal_convert (scope : Scope) (a : Argument) {c : Conversion}
    (hc : a.convert scope = .ok c) (hresult : ∀ r, a.role ≠ .result r) : a.DeclaresLocal c := by
  have hlocal : a.hasLocal = true := by
    unfold hasLocal
    cases hrole : a.role with
    | receiver | param => rfl
    | result r => exact absurd hrole (hresult r)
  have hother : a.nativeLocal ∉ a.passSuffixes.map (a.nativeLocal ++ ·) := by
    intro hmem
    obtain ⟨s, hs, hsame⟩ := List.mem_map.mp hmem
    have hlonger : ∀ suffixes ∈ [[], ["_view"], ["_in"], ["_in", "_in_view"]],
        ∀ s ∈ suffixes, 0 < s.length := by
      decide
    exact append_ne_of_length_le (hlonger _ a.passSuffixes_cases s hs) (Nat.le_refl _) hsame
  rw [DeclaresLocal, (a.declares_convert scope c hc).before.count_eq, passLocals, if_pos hlocal,
    List.count_cons_self, List.count_eq_zero_of_not_mem hother]

end Argument

end Introspection
