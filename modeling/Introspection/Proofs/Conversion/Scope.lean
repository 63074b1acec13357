import Introspection.Proofs.Code.Scope
import Introspection.Proofs.Conversion.Role

/-!
# `Introspection.Proofs.Conversion.Scope`: what the conversion of an argument mentions

The code around a call mentions names of the signature only to read a value that goes in and to
write one that comes out. `hosts_convert` says which: a conversion mentions the name of its own
argument, and the conversion of a length that goes in mentions the array that it counts instead. The
conversion of any other parameter that is not in the signature mentions nothing.
-/

set_option autoImplicit false

namespace Introspection

open Introspection.Code
open Introspection.Code.Stmt

variable (scope : Scope) {t : TypeDesc} {v : Expr}

/-! ### Elements -/

namespace TypeDesc

@[simp] theorem hosts_wrap (r : EntityRef) (handle : Expr) :
    (scope.wrap r handle).hosts = handle.hosts := by
  have hfunction : (scope.wrapFunction r).hosts = [] := by
    unfold Scope.wrapFunction
    split <;> rfl
  simp [Scope.wrap, hfunction]

theorem hosts_heapCopy (hv : v.hosts = []) :
    Yields (fun e => e.hosts = []) (t.heapCopy scope v) := by
  unfold heapCopy
  exact yields_bind fun r _ => yields_pure_iff.mpr (by simp [hv])

theorem hosts_wordIn (hv : v.hosts = []) : Yields (fun e => e.hosts = []) (t.wordIn v) := by
  unfold wordIn unsupported
  cases t.view with
  | void => cases t.pointer <;> simp [hv]
  | basic n => cases n <;> simp [hv]
  | typeHandle | boolean | string => simp [hv]
  | named =>
    refine yields_bind fun r _ => ?_
    cases r.kind <;> simp [hv]
  | array | list | hash | error => exact yields_error _ _

theorem hosts_wordOut (hv : v.hosts = []) :
    Yields (fun e => e.hosts = []) (t.wordOut scope v) := by
  -- What is no pointer is unpacked from the word by its host type.
  have hhost : Yields (fun e => e.hosts = []) (do
      return Expr.convert (← resolveHost scope t.byValue false) (.toWord v)) :=
    yields_bind fun host _ => yields_pure_iff.mpr (by simp [hv])
  unfold wordOut unsupported
  cases t.view with
  | void => cases t.pointer <;> simp [hv]
  | basic n =>
    cases n with
    | float | double => simp [hv]
    | _ => exact hhost
  | typeHandle => exact hhost
  | boolean | string => simp [hv]
  | named =>
    refine yields_bind fun r _ => ?_
    cases r.kind with
    | enum => exact yields_bind fun host _ => yields_pure_iff.mpr (by simp [hv])
    | _ => simp [hv]
  | array | list | hash | error => exact yields_error _ _

theorem hosts_valueIn (hv : v.hosts = []) : Yields (fun e => e.hosts = []) (t.valueIn v) := by
  unfold valueIn unsupported
  refine yields_bind fun native _ => ?_
  cases t.view with
  | void | basic | typeHandle | boolean => cases t.pointer <;> simp [hv]
  | string => simp [hv]
  | named =>
    refine yields_bind fun r _ => ?_
    cases r.kind <;> cases t.pointer <;> simp [hv]
  | array | list | hash | error => exact yields_error _ _

theorem hosts_valueOut (hv : v.hosts = []) :
    Yields (fun e => e.hosts = []) (t.valueOut scope v) := by
  have hhost : Yields (fun e => e.hosts = []) (do
      return Expr.convert (← resolveHost scope t false) v) :=
    yields_bind fun host _ => yields_pure_iff.mpr (by simp [hv])
  have hcopy : Yields (fun e => e.hosts = []) (do
      return Expr.deref (← t.heapCopy scope v)) :=
    yields_bind fun e he => yields_pure_iff.mpr (hosts_heapCopy scope hv e he)
  unfold valueOut unsupported
  cases t.view with
  | void | boolean => cases t.pointer <;> simp [hv]
  | basic | typeHandle =>
    cases t.pointer with
    | true => exact yields_error _ _
    | false => exact hhost
  | string => simp [hv]
  | named =>
    refine yields_bind fun r _ => ?_
    cases hkind : r.kind <;> cases hpointer : t.pointer
    case enum.false => exact hhost
    case struct.false | union.false => exact hcopy
    all_goals simp [hv]
  | array | list | hash | error => exact yields_error _ _

theorem hosts_terminator (native : GoType) :
    Yields (fun e => e.hosts = []) (t.terminator native) := by
  unfold terminator unsupported
  split
  · simp
  · cases t.view with
    | basic | boolean | typeHandle => simp
    | named =>
      refine yields_bind fun r _ => ?_
      split <;> simp
    | void | string | array | list | hash | error => exact yields_error _ _

end TypeDesc

open TypeDesc

/-! ### Values that go in -/

@[simp] theorem hosts_allocate (native : GoType) (count : Expr) :
    (allocate native count).hosts = count.hosts := by
  simp [allocate]

@[simp] theorem hosts_arrayView (native : GoType) (real : Expr) :
    (arrayView native real).hosts = real.hosts ++ real.hosts := by
  simp [arrayView]

@[simp] theorem hosts_ptrArrayView (real : Expr) :
    (ptrArrayView real).hosts = real.hosts ++ real.hosts := by
  simp [ptrArrayView]

@[simp] theorem hosts_listWalk (node : String) (start : Expr) (body : List Stmt) :
    (listWalk node start body).hosts = start.hosts ++ hostsOf body := by
  simp [listWalk, Step.hosts]

@[simp] theorem hostsOf_hashWalk (stem : String) (real : Expr) (body : List Stmt) :
    hostsOf (hashWalk stem real body) = real.hosts ++ hostsOf body := by
  simp [hashWalk]

namespace Input

variable (i : Input)

/-- The code reads the host value, and what gives back the copies reads nothing of the signature. -/
def Scoped (p : Passing) : Prop := hostsOf p.code ⊆ i.host.hosts ∧ hostsOf p.release = []

@[simp] theorem hosts_realExpr : i.realExpr.hosts = [] := rfl

theorem hostsOf_whenKept {release : List Stmt} (h : hostsOf release = []) :
    hostsOf (i.whenKept release) = [] := by
  unfold whenKept
  split
  · exact h
  · rfl

theorem hostsOf_freeCopies (element : TypeDesc) (view : Expr) (h : view.hosts = []) :
    hostsOf (i.freeCopies element view) = [] := by
  unfold freeCopies
  split <;> simp [h]

theorem hostsOf_named (nullable : Bool) :
    Yields (fun code => hostsOf code ⊆ i.host.hosts) (i.named nullable t) := by
  unfold named
  refine yields_bind fun native _ => yields_bind fun r _ => ?_
  split
  · split <;> simp
  · split
    · simp
    · split <;> simp

theorem scoped_scalar : Yields i.Scoped (i.scalar t) := by
  unfold scalar Scoped
  refine yields_bind fun native _ => ?_
  split <;> simp

theorem scoped_list (k : ListKind) : Yields i.Scoped (i.list k t) := by
  unfold list
  refine yields_bind fun e _ => yields_bind fun native _ => yields_bind fun word hword => ?_
  have hword := hosts_wordIn rfl word hword
  refine yields_pure_iff.mpr ⟨by simp [hword], i.hostsOf_whenKept ?_⟩
  -- Copies of elements are reached through the native list, so their release reads locals only.
  split <;> simp

theorem scoped_hash : Yields i.Scoped (i.hash t) := by
  unfold hash
  refine yields_bind fun k _ => yields_bind fun v _ => ?_
  refine yields_bind fun keyWord hkey => yields_bind fun valueWord hvalue => ?_
  have hkey := hosts_wordIn rfl keyWord hkey
  have hvalue := hosts_wordIn rfl valueWord hvalue
  refine yields_pure_iff.mpr ⟨?_, i.hostsOf_whenKept ?_⟩
  · split <;> simp [hkey, hvalue]
  · split
    · split <;> split <;> simp
    · simp

theorem scoped_array : Yields i.Scoped (i.array t) := by
  unfold array
  refine yields_bind fun info _ => yields_bind fun e _ => ?_
  cases info.storage with
  | c =>
    refine yields_bind fun native _ => yields_bind fun value hvalue => ?_
    have hvalue := hosts_valueIn rfl value hvalue
    refine yields_pure_iff.mpr ⟨?_, i.hostsOf_whenKept ?_⟩
    · split <;> simp [hvalue]
    · simp [i.hostsOf_freeCopies e (.inner _) rfl]
  | array =>
    refine yields_bind fun native _ => yields_bind fun value hvalue => ?_
    have hvalue := hosts_valueIn rfl value hvalue
    refine yields_pure_iff.mpr ⟨by simp [hvalue], i.hostsOf_whenKept ?_⟩
    simp [i.hostsOf_freeCopies]
  | ptrArray =>
    refine yields_bind fun word hword => ?_
    have hword := hosts_wordIn rfl word hword
    refine yields_pure_iff.mpr ⟨by simp [hword], i.hostsOf_whenKept ?_⟩
    simp [i.hostsOf_freeCopies]
  | byteArray => exact yields_pure_iff.mpr ⟨by simp, i.hostsOf_whenKept (by simp)⟩

/-- A value of any type that goes in is read, and nothing else is. -/
theorem scoped_convert (nullable : Bool) : Yields i.Scoped (i.convert nullable t) := by
  unfold convert unsupported
  cases t.view with
  | void => cases t.pointer <;> simp [Scoped]
  | boolean => cases t.pointer <;> simp [Scoped]
  | basic | typeHandle => exact i.scoped_scalar
  | string => exact yields_ok_iff.mpr ⟨by simp, i.hostsOf_whenKept (by simp)⟩
  | named =>
    refine yields_bind fun code hcode => yields_pure_iff.mpr ⟨?_, rfl⟩
    exact i.hostsOf_named nullable code hcode
  | array => exact i.scoped_array
  | list k => exact i.scoped_list k
  | hash => exact i.scoped_hash
  | error => exact yields_error _ _

end Input

/-! ### Values that come out -/

namespace Output

/-- The value is a local, and its target and length mention none but these names. -/
structure Within (o : Output) (names : List String) : Prop where
  real : o.real.hosts = []
  target : o.target.hosts ⊆ names
  length : ∀ e, o.length = some e → e.hosts ⊆ names

variable {o : Output} {names : List String}

theorem hostsOf_whenTaken {release : List Stmt} (h : hostsOf release = []) :
    hostsOf (o.whenTaken release) = [] := by
  unfold whenTaken
  split
  · exact h
  · rfl

theorem hostsOf_whenElementsTaken (element : TypeDesc) {release : List Stmt}
    (h : hostsOf release = []) : hostsOf (o.whenElementsTaken element release) = [] := by
  unfold whenElementsTaken
  split
  · exact h
  · rfl

@[simp] theorem hosts_append (e : Expr) :
    (o.append e).hosts = o.target.hosts ++ (o.target.hosts ++ e.hosts) := by
  simp [append]

variable (h : o.Within names)

include h

theorem hostsOf_list (k : ListKind) :
    Yields (hostsOf · ⊆ names) (o.list scope k t) := by
  unfold list
  refine yields_bind fun e _ => yields_bind fun value hvalue => yields_pure_iff.mpr ?_
  have hvalue := hosts_wordOut scope rfl value hvalue
  simp [hvalue, h.real, h.target, hostsOf_whenTaken, hostsOf_whenElementsTaken]

theorem hostsOf_hash : Yields (hostsOf · ⊆ names) (o.hash scope t) := by
  unfold hash
  refine yields_bind fun key _ => yields_bind fun value _ => yields_bind fun host _ => ?_
  refine yields_bind fun k hk => yields_bind fun v hv => yields_pure_iff.mpr ?_
  have hk := hosts_wordOut scope rfl k hk
  have hv := hosts_wordOut scope rfl v hv
  simp [hk, hv, h.real, h.target, hostsOf_whenTaken]

/-- Counting reads the array, or the length that is known. -/
theorem hostsOf_count (element : TypeDesc) (native : GoType) (info : ArrayInfo) :
    Yields (fun counted => hostsOf counted.1 = [] ∧ counted.2.hosts ⊆ names)
      (o.count element native info) := by
  unfold count
  cases info.fixedSize with
  | some size => simp
  | none =>
    cases hlength : o.length with
    | some length => exact yields_ok_iff.mpr ⟨rfl, h.length length hlength⟩
    | none =>
      dsimp only
      split
      · refine yields_bind fun zero hzero => yields_pure_iff.mpr ?_
        have hzero := hosts_terminator native zero hzero
        simp [hzero, h.real, Step.hosts]
      · exact yields_error _ _

theorem hostsOf_array : Yields (hostsOf · ⊆ names) (o.array scope t) := by
  unfold array
  refine yields_bind fun info _ => yields_bind fun e _ => ?_
  cases info.storage with
  | c =>
    refine yields_bind fun native _ => yields_bind fun counted hcounted => ?_
    refine yields_bind fun host _ => yields_bind fun value hvalue => yields_pure_iff.mpr ?_
    -- The array is made and walked by one count, so what the count mentions stands in both places.
    obtain ⟨hcounting, hcount⟩ := hostsOf_count h e native info counted hcounted
    have hvalue := hosts_valueOut scope rfl value hvalue
    simp [hvalue, hcounting, hcount, h.real, h.target, hostsOf_whenTaken,
      hostsOf_whenElementsTaken]
  | array =>
    refine yields_bind fun native _ => yields_bind fun value hvalue => yields_pure_iff.mpr ?_
    have hvalue := hosts_valueOut scope rfl value hvalue
    simp [hvalue, h.real, h.target, hostsOf_whenTaken, hostsOf_whenElementsTaken]
  | ptrArray =>
    refine yields_bind fun value hvalue => yields_pure_iff.mpr ?_
    have hvalue := hosts_wordOut scope rfl value hvalue
    split <;> simp [hvalue, h.real, h.target, hostsOf_whenTaken]
  | byteArray =>
    refine yields_pure_iff.mpr ?_
    simp [h.real, h.target, hostsOf_whenTaken]

theorem hostsOf_named : Yields (hostsOf · ⊆ names) (o.named scope t) := by
  have hhost : ∀ cast : GoType → Expr, (∀ host, (cast host).hosts = []) →
      Yields (hostsOf · ⊆ names) (do
        return [.assign o.target (cast (← resolveHost scope t false))]) :=
    fun cast hcast => yields_bind fun host _ => yields_pure_iff.mpr (by simp [hcast, h.target])
  have hcopy : Yields (hostsOf · ⊆ names) (do
      return [.assign o.target (.deref (← t.heapCopy scope o.real))]) := by
    refine yields_bind fun e he => yields_pure_iff.mpr ?_
    simp [hosts_heapCopy scope h.real e he, h.target]
  unfold named unsupported
  refine yields_bind fun r _ => ?_
  cases hkind : r.kind <;> cases hpointer : t.pointer
  case enum.false | enum.true => exact hhost _ fun host => by simp [h.real]
  case struct.false | union.false => exact hcopy
  all_goals simp [h.real, h.target]

theorem hostsOf_scalar : Yields (hostsOf · ⊆ names) (o.scalar scope t) := by
  unfold scalar
  refine yields_bind fun host _ => ?_
  split <;> simp [h.real, h.target]

/-- A value of any type that comes out is written to its target, and nothing else is mentioned but
a length that is known. -/
theorem hostsOf_convert : Yields (hostsOf · ⊆ names) (o.convert scope t) := by
  unfold convert unsupported
  cases t.view with
  | void => exact yields_ok_iff.mpr (by split <;> simp [h.real, h.target])
  | basic | typeHandle => exact hostsOf_scalar scope h
  | boolean => cases t.pointer <;> simp [h.real, h.target]
  | string =>
    refine yields_ok_iff.mpr ?_
    split <;> simp [copied, h.real, h.target]
  | named => exact hostsOf_named scope h
  | array => exact hostsOf_array scope h
  | list k => exact hostsOf_list scope h k
  | hash => exact hostsOf_hash scope h
  | error =>
    refine yields_ok_iff.mpr ?_
    split <;> simp [copied, h.real, h.target]

end Output

/-! ### Arguments -/

/-- The names of the signature in the code around a call. -/
def Conversion.hosts (c : Conversion) : List String :=
  hostsOf c.before ++ hostsOf c.release ++ hostsOf c.after

/-- What the conversion of a hidden parameter mentions: only a length that goes in is computed. -/
def Hidden.hosts (direction : Direction) : Hidden → List String
  | .skipped => []
  | .lengthOf array => if direction = .output then [] else array.hosts

namespace Argument

variable (a : Argument)

@[simp] theorem hosts_realExpr : a.realExpr.hosts = [] := rfl

@[simp] theorem hosts_hostValue : a.hostValue.hosts = [a.name] := by
  unfold hostValue
  split
  · split <;> rfl
  · rfl

@[simp] theorem hosts_hostTarget : a.hostTarget.hosts = [a.name] := by
  unfold hostTarget
  split
  · split <;> rfl
  · rfl

theorem within_output (transfer : Transfer) {length : Option Expr}
    (hlength : ∀ e, length = some e → e.hosts ⊆ [a.name]) :
    (a.output transfer length).Within [a.name] where
  real := rfl
  target := by simp [output]
  length := hlength

/-- The local of a length mentions nothing. -/
theorem within_output_inner (transfer : Transfer) (length : Option String) :
    (a.output transfer (length.map Expr.inner)).Within [a.name] := by
  refine a.within_output transfer fun e he => ?_
  obtain ⟨name, _, rfl⟩ := Option.map_eq_some_iff.mp he
  simp

theorem hosts_convertReceiver (via : Option EntityRef) :
    Yields (·.hosts ⊆ [a.name]) (a.convertReceiver via) := by
  unfold convertReceiver
  refine yields_bind fun owner _ => ?_
  split
  · simp [Conversion.hosts, Conversion.ofBefore]
  · exact yields_bind fun native _ => by simp [Conversion.hosts, Conversion.ofBefore]

theorem hosts_convertHidden (direction : Direction) (why : Hidden) :
    Yields (·.hosts = why.hosts direction) (a.convertHidden direction why) := by
  unfold convertHidden
  refine yields_bind fun native _ => ?_
  cases why with
  | skipped => simp [Conversion.hosts, Conversion.ofBefore, Hidden.hosts]
  | lengthOf array =>
    cases direction <;> simp [Conversion.hosts, Conversion.ofBefore, Hidden.hosts]

theorem hosts_convertBuffer (p : ParamRole) :
    Yields (·.hosts ⊆ [a.name]) (a.convertBuffer scope p) := by
  -- The elements are counted by the local of the length, or as they were when the array was made.
  have hafter : ∀ count : Expr, count.hosts ⊆ [a.name] → Yields (hostsOf · ⊆ [a.name])
      ((a.output .none (some ((p.length.map Expr.inner).getD count))).convert scope a.type) := by
    intro count hcount
    refine Output.hostsOf_convert scope (a.within_output .none fun e he => ?_)
    obtain rfl := Option.some.inj he
    cases p.length with
    | some length => simp
    | none => exact hcount
  unfold convertBuffer
  refine yields_bind fun info _ => yields_bind fun e _ => yields_bind fun native _ => ?_
  cases info.fixedSize with
  | some size =>
    refine yields_bind fun after h => yields_pure_iff.mpr ?_
    have hafter := hafter (.plain _) (by simp) after h
    simp [Conversion.hosts, hafter]
  | none =>
    refine yields_bind fun after h => yields_pure_iff.mpr ?_
    have hafter := hafter (.len a.hostValue) (by simp) after h
    simp [Conversion.hosts, hafter]

theorem hosts_convertStructure : Yields (·.hosts ⊆ [a.name]) (a.convertStructure scope) := by
  unfold convertStructure
  refine yields_bind fun native _ => yields_bind fun copy hcopy => yields_pure_iff.mpr ?_
  have hcopy := TypeDesc.hosts_heapCopy scope a.hosts_realExpr copy hcopy
  simp [Conversion.hosts, hcopy]

theorem hosts_convertInout (p : ParamRole) :
    Yields (·.hosts ⊆ [a.name]) (a.convertInout scope p) := by
  unfold convertInout
  refine yields_bind fun passing hpassing => yields_bind fun direct hdirect => ?_
  refine yields_bind fun after hafter => yields_pure_iff.mpr ?_
  obtain ⟨hcode, hrelease⟩ := Input.scoped_convert _ p.nullable passing hpassing
  have hdirect := (Input.scoped_convert _ p.nullable direct hdirect).1
  have hafter := Output.hostsOf_convert scope (a.within_output_inner _ _) after hafter
  -- Whether or not the value is kept in a second local, the code reads the same host value.
  rw [hosts_hostValue] at hcode hdirect
  unfold Conversion.hosts
  split <;> simp [hcode, hrelease, hdirect, hafter]

theorem hosts_convertOutput (transfer : Transfer) (length : Option String) :
    Yields (·.hosts ⊆ [a.name]) (a.convertOutput scope transfer length) := by
  unfold convertOutput
  refine yields_bind fun native _ => yields_bind fun after hafter => yields_pure_iff.mpr ?_
  have hafter := Output.hostsOf_convert scope (a.within_output_inner _ _) after hafter
  simp [Conversion.hosts, hafter]

/-- The conversion of an argument that is not hidden mentions this argument only. -/
theorem hosts_convert (hshown : ∀ p, a.role = .param p → p.hidden = none) :
    Yields (·.hosts ⊆ [a.name]) (a.convert scope) := by
  refine yields_convert scope a ?receiver ?hidden ?input ?inout ?buffer ?struct ?output ?result
    ?dropped
  case receiver => exact fun via _ => a.hosts_convertReceiver via
  case hidden =>
    intro p why hrole hhidden
    rw [hshown p hrole] at hhidden
    cases hhidden
  case input =>
    intro p _ _ _ passing hpassing
    obtain ⟨hcode, hrelease⟩ := Input.scoped_convert _ p.nullable passing hpassing
    rw [hosts_hostValue] at hcode
    simp [Conversion.hosts, hcode, hrelease]
  case inout => exact fun p _ _ _ => a.hosts_convertInout scope p
  case buffer => exact fun p _ _ _ => a.hosts_convertBuffer scope p
  case struct => exact fun _ _ _ _ _ _ => a.hosts_convertStructure scope
  case output => exact fun p _ _ _ _ _ => a.hosts_convertOutput scope _ _
  case result => exact fun r _ _ => a.hosts_convertOutput scope _ _
  case dropped => exact fun r _ _ => List.nil_subset _

end Argument

end Introspection
