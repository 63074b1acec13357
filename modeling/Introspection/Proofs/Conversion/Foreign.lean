import Introspection.Proofs.Code.Foreign
import Introspection.Proofs.Conversion.Role
import Introspection.Proofs.Resolution.Closed

/-!
# `Introspection.Proofs.Conversion.Foreign`: names of other packages in conversions

The code around a call for one argument takes names from other packages for three reasons: it calls
the C library, it uses a handful of functions of the standard library, or it names the registered
types that the argument's descriptor refers to. `accounted_convert` says that there is no fourth.
-/

set_option autoImplicit false

namespace Introspection

open Introspection.Code
open Introspection.Code.Stmt

variable {scope : Scope} {R : EntityRef → Prop} {t : TypeDesc} {v : Expr}

/-! ### Types -/

namespace TypeDesc

theorem RefersWithin.of_mem_params (h : t.RefersWithin scope R) {e : TypeDesc} (he : e ∈ t.params) :
    e.RefersWithin scope R :=
  fun s hs => h s (.element he hs)

/-- The names that go with the registered type of a descriptor are foreign names, if any. -/
theorem RefersWithin.foreign (h : t.RefersWithin scope R) {r : EntityRef}
    (hr : t.entity = some r) {name : String}
    (hname : name = r.name ∨ name = "I" ++ r.name ∨ name = "Wrap" ++ r.name)
    (hforeign : r.home ≠ scope.home) : scope.Foreign R r.home name :=
  ⟨hforeign, Or.inr ⟨r, h t (.self t) r hr hforeign, rfl, hname⟩⟩

theorem RefersWithin.byValue (h : t.RefersWithin scope R) : t.byValue.RefersWithin scope R := by
  obtain ⟨tag, pointer, params, entity, array⟩ := t
  intro s hs
  cases hs with
  | self => exact h (mk tag pointer params entity array) (.self _)
  | element he hs => exact h s (.element he hs)

/-- Native types are those of the C library. -/
theorem nativeClosed_accounted : NativeClosed (·.Accounted scope R) where
  void := by simp
  word := by simp
  number n := by simp
  list k := by simp
  pointer g hg := hg

theorem accounted_resolveNative : Yields (·.Accounted scope R) (resolveNative t) := by
  refine yields_resolveNative (yields_nativeType (q := fun _ => True) (fun _ _ _ => trivial)
    nativeClosed_accounted ?_ trivial)
  intro u _ r _
  simp

theorem hostClosed_accounted : HostClosed scope (·.Accounted scope R) where
  void := by simp
  unsafePointer := by simp
  word := by simp
  number n := by simp
  typeHandle := GoType.accounted_typeName fun hforeign => ⟨hforeign, Or.inl ⟨rfl, rfl⟩⟩
  pointer g hg := hg
  slice g hg := hg
  map k v hk hv := (GoType.accounted_map k v).mpr ⟨hk, hv⟩

/-- Go types of registered types have the name of the type, or that of its method set. -/
theorem RefersWithin.names (h : t.RefersWithin scope R) (r : EntityRef) (hr : t.entity = some r) :
    scope.Names (·.Accounted scope R) r :=
  ⟨GoType.accounted_typeName (h.foreign hr (Or.inl rfl)),
    GoType.accounted_typeName (h.foreign hr (Or.inr (Or.inl rfl)))⟩

/-- Host types name registered types that the descriptor refers to, and the type handle. -/
theorem accounted_resolveHost (h : t.RefersWithin scope R) (isArg : Bool) :
    Yields (·.Accounted scope R) (resolveHost scope t isArg) :=
  yields_resolveHost_of_closed RefersWithin.of_mem_params hostClosed_accounted RefersWithin.names h
    isArg

theorem accounted_elementHost (h : t.RefersWithin scope R) :
    Yields (·.Accounted scope R) (elementHost scope t) :=
  yields_elementHost_of_closed RefersWithin.of_mem_params hostClosed_accounted RefersWithin.names h

/-! ### Elements -/

/-- A registered type is wrapped by the function that goes with it. -/
theorem accounted_wrap (h : t.RefersWithin scope R) {r : EntityRef} (hr : t.entity = some r)
    (handle : Expr) : (scope.wrap r handle).Accounted scope R ↔ handle.Accounted scope R :=
  Expr.accounted_wrap handle (h.foreign hr (Or.inr (Or.inr rfl)))

theorem accounted_heapCopy (h : t.RefersWithin scope R) (hv : v.Accounted scope R) :
    Yields (·.Accounted scope R) (t.heapCopy scope v) := by
  unfold heapCopy
  refine yields_bind fun r hr => yields_pure_iff.mpr ?_
  simp [accounted_wrap h (entity_of_entityOf hr), hv]

theorem accounted_wordIn (hv : v.Accounted scope R) :
    Yields (·.Accounted scope R) (t.wordIn v) := by
  have hfloat : (Expr.qualified "math" "Float32bits").Accounted scope R :=
    Expr.accounted_of_standard (by decide)
  have hdouble : (Expr.qualified "math" "Float64bits").Accounted scope R :=
    Expr.accounted_of_standard (by decide)
  unfold wordIn unsupported
  cases t.view with
  | void => cases t.pointer <;> simp [hv]
  | basic n => cases n <;> simp [hv, hfloat, hdouble]
  | typeHandle | boolean | string => simp [hv]
  | named =>
    refine yields_bind fun r _ => ?_
    cases r.kind <;> simp [hv]
  | array | list | hash | error => exact yields_error _ _

theorem accounted_wordOut (h : t.RefersWithin scope R) (hv : v.Accounted scope R) :
    Yields (·.Accounted scope R) (t.wordOut scope v) := by
  have hfloat : (Expr.qualified "math" "Float32frombits").Accounted scope R :=
    Expr.accounted_of_standard (by decide)
  have hdouble : (Expr.qualified "math" "Float64frombits").Accounted scope R :=
    Expr.accounted_of_standard (by decide)
  -- What is no pointer is unpacked from the word by its host type.
  have hhost : Yields (·.Accounted scope R) (do
      return Expr.convert (← resolveHost scope t.byValue false) (.toWord v)) :=
    yields_bind fun host hhost => yields_pure_iff.mpr
      (by simp [accounted_resolveHost h.byValue false host hhost, hv])
  unfold wordOut unsupported
  cases t.view with
  | void => cases t.pointer <;> simp [hv]
  | basic n =>
    cases n with
    | float | double => simp [hv, hfloat, hdouble]
    | _ => exact hhost
  | typeHandle => exact hhost
  | boolean | string => simp [hv]
  | named =>
    refine yields_bind fun r hr => ?_
    cases r.kind with
    | enum =>
      refine yields_bind fun host hhost => yields_pure_iff.mpr ?_
      simp [accounted_elementHost h host hhost, hv]
    | _ => simp [accounted_wrap h (entity_of_entityOf hr), hv]
  | array | list | hash | error => exact yields_error _ _

theorem accounted_valueIn (hv : v.Accounted scope R) :
    Yields (·.Accounted scope R) (t.valueIn v) := by
  unfold valueIn unsupported
  refine yields_bind fun native hnative => ?_
  have hnative : native.Accounted scope R := accounted_resolveNative native hnative
  cases t.view with
  | void | basic | typeHandle | boolean => cases t.pointer <;> simp [hv, hnative]
  | string => simp [hv]
  | named =>
    refine yields_bind fun r _ => ?_
    cases r.kind <;> cases t.pointer <;> simp [hv, hnative]
  | array | list | hash | error => exact yields_error _ _

theorem accounted_valueOut (h : t.RefersWithin scope R) (hv : v.Accounted scope R) :
    Yields (·.Accounted scope R) (t.valueOut scope v) := by
  have hhost : Yields (·.Accounted scope R) (do
      return Expr.convert (← resolveHost scope t false) v) :=
    yields_bind fun host hhost => yields_pure_iff.mpr
      (by simp [accounted_resolveHost h false host hhost, hv])
  have hcopy : Yields (·.Accounted scope R) (do
      return Expr.deref (← t.heapCopy scope v)) :=
    yields_bind fun e he => yields_pure_iff.mpr
      ((Expr.accounted_deref e).mpr (accounted_heapCopy h hv e he))
  unfold valueOut unsupported
  cases t.view with
  | void | boolean => cases t.pointer <;> simp [hv]
  | basic | typeHandle =>
    cases t.pointer with
    | true => exact yields_error _ _
    | false => exact hhost
  | string => simp [hv]
  | named =>
    refine yields_bind fun r hr => ?_
    have hwrap := accounted_wrap h (entity_of_entityOf hr) (.toUnsafe v)
    cases hkind : r.kind <;> cases hpointer : t.pointer
    case enum.false => exact hhost
    case struct.false | union.false => exact hcopy
    all_goals simp [hwrap, hv]
  | array | list | hash | error => exact yields_error _ _

theorem accounted_terminator (native : GoType) :
    Yields (·.Accounted scope R) (t.terminator native) := by
  unfold terminator unsupported
  split
  · simp
  · cases t.view with
    | basic | boolean | typeHandle => simp
    | named =>
      refine yields_bind fun r _ => ?_
      split <;> simp
    | void | string | array | list | hash | error => exact yields_error _ _

end TypeDesc

open TypeDesc

/-! ### Values that go in -/

@[simp] theorem accounted_allocate (native : GoType) (count : Expr) :
    (allocate native count).Accounted scope R
      ↔ native.Accounted scope R ∧ count.Accounted scope R := by
  simp only [allocate, Expr.accounted_cast, Expr.accounted_native, Expr.accounted_toNative,
    Expr.accounted_sizeOfType, GoType.accounted_pointer, List.forall_mem_cons]
  grind

@[simp] theorem accounted_arrayView (native : GoType) (real : Expr) :
    (arrayView native real).Accounted scope R
      ↔ native.Accounted scope R ∧ real.Accounted scope R := by
  simp [arrayView]

@[simp] theorem accounted_ptrArrayView (real : Expr) :
    (ptrArrayView real).Accounted scope R ↔ real.Accounted scope R := by
  simp [ptrArrayView]

@[simp] theorem accounted_listWalk (node : String) (start : Expr) (body : List Stmt) :
    (listWalk node start body).Accounted scope R
      ↔ start.Accounted scope R ∧ AllAccounted scope R body := by
  simp [listWalk]

@[simp] theorem allAccounted_hashWalk (stem : String) (real : Expr) (body : List Stmt) :
    AllAccounted scope R (hashWalk stem real body)
      ↔ real.Accounted scope R ∧ AllAccounted scope R body := by
  simp [hashWalk]

namespace Input

variable (i : Input)

/-- Every name of another package in the code, and in what gives back the copies, is accounted
for. -/
def Accounted (scope : Scope) (R : EntityRef → Prop) (p : Passing) : Prop :=
  AllAccounted scope R p.code ∧ AllAccounted scope R p.release

@[simp] theorem accounted_realExpr : i.realExpr.Accounted scope R := Expr.accounted_inner _

theorem allAccounted_whenKept {release : List Stmt} (h : AllAccounted scope R release) :
    AllAccounted scope R (i.whenKept release) := by
  unfold whenKept
  split
  · exact h
  · exact allAccounted_nil

theorem allAccounted_freeCopies (element : TypeDesc) {view : Expr}
    (h : view.Accounted scope R) : AllAccounted scope R (i.freeCopies element view) := by
  unfold freeCopies
  split <;> simp [h]

variable (h : i.host.Accounted scope R)

include h

theorem allAccounted_named (nullable : Bool) :
    Yields (AllAccounted scope R) (i.named nullable t) := by
  unfold named
  refine yields_bind fun native hnative => yields_bind fun r _ => ?_
  have hnative : native.Accounted scope R := accounted_resolveNative native hnative
  split
  · split <;> simp [h, hnative]
  · split
    · simp [h, hnative]
    · split <;> simp [h, hnative]

theorem accounted_scalar : Yields (Accounted scope R) (i.scalar t) := by
  unfold scalar Accounted
  refine yields_bind fun native hnative => ?_
  have hnative : native.Accounted scope R := accounted_resolveNative native hnative
  split <;> simp [h, hnative]

theorem accounted_list (k : ListKind) : Yields (Accounted scope R) (i.list k t) := by
  unfold list
  refine yields_bind fun e _ => yields_bind fun native hnative => ?_
  refine yields_bind fun word hword => ?_
  have hnative : native.Accounted scope R := accounted_resolveNative native hnative
  have hword : word.Accounted scope R := accounted_wordIn (by simp) word hword
  refine yields_pure_iff.mpr ⟨by simp [h, hword, hnative], i.allAccounted_whenKept ?_⟩
  split <;> simp

theorem accounted_hash : Yields (Accounted scope R) (i.hash t) := by
  unfold hash
  refine yields_bind fun k _ => yields_bind fun v _ => ?_
  refine yields_bind fun keyWord hkey => yields_bind fun valueWord hvalue => ?_
  have hkey : keyWord.Accounted scope R := accounted_wordIn (by simp) keyWord hkey
  have hvalue : valueWord.Accounted scope R := accounted_wordIn (by simp) valueWord hvalue
  refine yields_pure_iff.mpr ⟨?_, i.allAccounted_whenKept ?_⟩
  · split <;> simp [h, hkey, hvalue]
  · split
    · split <;> split <;> simp
    · simp

theorem accounted_array : Yields (Accounted scope R) (i.array t) := by
  unfold array
  refine yields_bind fun info _ => yields_bind fun e _ => ?_
  cases info.storage with
  | c =>
    refine yields_bind fun native hnative => yields_bind fun value hvalue => ?_
    have hnative : native.Accounted scope R := accounted_resolveNative native hnative
    have hvalue : value.Accounted scope R := accounted_valueIn (by simp) value hvalue
    refine yields_pure_iff.mpr ⟨?_, i.allAccounted_whenKept ?_⟩
    · split <;> simp [h, hvalue, hnative]
    · simp [i.allAccounted_freeCopies e]
  | array =>
    refine yields_bind fun native hnative => yields_bind fun value hvalue => ?_
    have hnative : native.Accounted scope R := accounted_resolveNative native hnative
    have hvalue : value.Accounted scope R := accounted_valueIn (by simp) value hvalue
    refine yields_pure_iff.mpr ⟨by simp [h, hvalue, hnative], i.allAccounted_whenKept ?_⟩
    simp [i.allAccounted_freeCopies e, hnative]
  | ptrArray =>
    refine yields_bind fun word hword => ?_
    have hword : word.Accounted scope R := accounted_wordIn (by simp) word hword
    refine yields_pure_iff.mpr ⟨by simp [h, hword], i.allAccounted_whenKept ?_⟩
    simp [i.allAccounted_freeCopies e]
  | byteArray => exact yields_pure_iff.mpr ⟨by simp [h], i.allAccounted_whenKept (by simp)⟩

/-- A value of any type that goes in. -/
theorem accounted_convert (nullable : Bool) :
    Yields (Accounted scope R) (i.convert nullable t) := by
  unfold convert unsupported
  cases t.view with
  | void => cases t.pointer <;> simp [Accounted, h]
  | boolean => cases t.pointer <;> simp [Accounted, h]
  | basic | typeHandle => exact i.accounted_scalar h
  | string => exact yields_ok_iff.mpr ⟨by simp [h], i.allAccounted_whenKept (by simp)⟩
  | named =>
    refine yields_bind fun code hcode => yields_pure_iff.mpr ⟨?_, allAccounted_nil⟩
    exact i.allAccounted_named h nullable code hcode
  | array => exact i.accounted_array h
  | list k => exact i.accounted_list h k
  | hash => exact i.accounted_hash h
  | error => exact yields_error _ _

end Input

/-! ### Values that come out -/

namespace Output

/-- The value, its target and its length take no name from another package that is not accounted
for. -/
structure Accounted (scope : Scope) (R : EntityRef → Prop) (o : Output) : Prop where
  real : o.real.Accounted scope R
  target : o.target.Accounted scope R
  length : ∀ e, o.length = some e → e.Accounted scope R

variable {o : Output}

theorem allAccounted_whenTaken {release : List Stmt} (h : AllAccounted scope R release) :
    AllAccounted scope R (o.whenTaken release) := by
  unfold whenTaken
  split
  · exact h
  · exact allAccounted_nil

theorem allAccounted_whenElementsTaken (element : TypeDesc) {release : List Stmt}
    (h : AllAccounted scope R release) :
    AllAccounted scope R (o.whenElementsTaken element release) := by
  unfold whenElementsTaken
  split
  · exact h
  · exact allAccounted_nil

@[simp] theorem accounted_append (e : Expr) : (o.append e).Accounted scope R
    ↔ o.target.Accounted scope R ∧ e.Accounted scope R := by
  simp [append]

variable (h : o.Accounted scope R) (ht : t.RefersWithin scope R)

include h

/-- Counting takes the array, or the length that is known. -/
theorem accounted_count (element : TypeDesc) {native : GoType}
    (hnative : native.Accounted scope R) (info : ArrayInfo) :
    Yields (fun counted => AllAccounted scope R counted.1 ∧ counted.2.Accounted scope R)
      (o.count element native info) := by
  have hadd : (Expr.qualified "unsafe" "Add").Accounted scope R :=
    Expr.accounted_of_standard (by decide)
  unfold count
  cases info.fixedSize with
  | some size => simp
  | none =>
    cases hlength : o.length with
    | some length => simp [h.length length hlength]
    | none =>
      dsimp only
      split
      · refine yields_bind fun zero hzero => yields_pure_iff.mpr ?_
        have hzero : zero.Accounted scope R := accounted_terminator native zero hzero
        simp [hzero, h.real, hnative, hadd]
      · exact yields_error _ _

include ht

theorem allAccounted_list (k : ListKind) : Yields (AllAccounted scope R) (o.list scope k t) := by
  unfold list
  refine yields_bind fun e he => yields_bind fun value hvalue => yields_pure_iff.mpr ?_
  have he := ht.of_mem_params (mem_params_of_elementOf he)
  have hvalue := accounted_wordOut he (by simp) value hvalue
  simp [hvalue, h.real, h.target, allAccounted_whenTaken, allAccounted_whenElementsTaken]

theorem allAccounted_hash : Yields (AllAccounted scope R) (o.hash scope t) := by
  unfold hash
  refine yields_bind fun key hkey => yields_bind fun value hvalue => ?_
  refine yields_bind fun host hhost => yields_bind fun k hk => yields_bind fun v hv => ?_
  have hkey := ht.of_mem_params (mem_params_of_elementOf hkey)
  have hvalue := ht.of_mem_params (mem_params_of_valueOf hvalue)
  have hhost := accounted_resolveHost ht false host hhost
  have hk := accounted_wordOut hkey (by simp) k hk
  have hv := accounted_wordOut hvalue (by simp) v hv
  refine yields_pure_iff.mpr ?_
  simp [hhost, hk, hv, h.real, h.target, allAccounted_whenTaken]

theorem allAccounted_array : Yields (AllAccounted scope R) (o.array scope t) := by
  unfold array
  refine yields_bind fun info _ => yields_bind fun e he => ?_
  have he := ht.of_mem_params (mem_params_of_elementOf he)
  cases info.storage with
  | c =>
    refine yields_bind fun native hnative => yields_bind fun counted hcounted => ?_
    refine yields_bind fun host hhost => yields_bind fun value hvalue => yields_pure_iff.mpr ?_
    have hnative : native.Accounted scope R := accounted_resolveNative native hnative
    obtain ⟨hcounting, hcount⟩ := accounted_count h e hnative info counted hcounted
    have hhost := accounted_resolveHost ht false host hhost
    have hvalue := accounted_valueOut he (by simp) value hvalue
    simp [hvalue, hcounting, hcount, hhost, h.real, h.target, allAccounted_whenTaken,
      allAccounted_whenElementsTaken]
  | array =>
    refine yields_bind fun native hnative => yields_bind fun value hvalue => yields_pure_iff.mpr ?_
    have hnative : native.Accounted scope R := accounted_resolveNative native hnative
    have hvalue := accounted_valueOut he (by simp) value hvalue
    simp [hvalue, hnative, h.real, h.target, allAccounted_whenTaken,
      allAccounted_whenElementsTaken]
  | ptrArray =>
    refine yields_bind fun value hvalue => yields_pure_iff.mpr ?_
    have hvalue := accounted_wordOut he (by simp) value hvalue
    split <;> simp [hvalue, h.real, h.target, allAccounted_whenTaken]
  | byteArray =>
    refine yields_pure_iff.mpr ?_
    simp [h.real, h.target, allAccounted_whenTaken]

theorem allAccounted_named : Yields (AllAccounted scope R) (o.named scope t) := by
  have hhost : ∀ cast : GoType → Expr,
      (∀ host, host.Accounted scope R → (cast host).Accounted scope R) →
      Yields (AllAccounted scope R) (do
        return [.assign o.target (cast (← resolveHost scope t false))]) :=
    fun cast hcast => yields_bind fun host hhost => yields_pure_iff.mpr
      (by simp [hcast host (accounted_resolveHost ht false host hhost), h.target])
  have hcopy : Yields (AllAccounted scope R) (do
      return [.assign o.target (.deref (← t.heapCopy scope o.real))]) := by
    refine yields_bind fun e he => yields_pure_iff.mpr ?_
    have he := accounted_heapCopy ht h.real e he
    simp [he, h.target]
  unfold named unsupported
  refine yields_bind fun r hr => ?_
  have hwrap := accounted_wrap ht (entity_of_entityOf hr) (.toUnsafe o.real)
  cases hkind : r.kind <;> cases hpointer : t.pointer
  case enum.false | enum.true => exact hhost _ fun host hhost => by simp [hhost, h.real]
  case struct.false | union.false => exact hcopy
  all_goals simp [hwrap, h.real, h.target]

theorem allAccounted_scalar : Yields (AllAccounted scope R) (o.scalar scope t) := by
  unfold scalar
  refine yields_bind fun host hhost => ?_
  have hhost := accounted_resolveHost ht false host hhost
  split <;> simp [hhost, h.real, h.target]

/-- A value of any type that comes out. -/
theorem allAccounted_convert : Yields (AllAccounted scope R) (o.convert scope t) := by
  have hnew : (Expr.qualified "errors" "New").Accounted scope R :=
    Expr.accounted_of_standard (by decide)
  unfold convert unsupported
  cases t.view with
  | void => exact yields_ok_iff.mpr (by split <;> simp [h.real, h.target])
  | basic | typeHandle => exact allAccounted_scalar h ht
  | boolean => cases t.pointer <;> simp [h.real, h.target]
  | string =>
    refine yields_ok_iff.mpr ?_
    split <;> simp [copied, h.real, h.target]
  | named => exact allAccounted_named h ht
  | array => exact allAccounted_array h ht
  | list k => exact allAccounted_list h ht k
  | hash => exact allAccounted_hash h ht
  | error =>
    refine yields_ok_iff.mpr ?_
    split <;> simp [copied, hnew, h.real, h.target]

end Output

/-! ### Arguments -/

/-- Every name of another package in the code around a call is accounted for. -/
structure Conversion.Accounted (scope : Scope) (R : EntityRef → Prop) (c : Conversion) : Prop where
  before : AllAccounted scope R c.before
  release : AllAccounted scope R c.release
  after : AllAccounted scope R c.after

theorem Conversion.accounted_ofBefore {s : Stmt} (h : s.Accounted scope R) :
    (ofBefore s).Accounted scope R :=
  ⟨by simp [ofBefore, h], allAccounted_nil, allAccounted_nil⟩

namespace Argument

variable (a : Argument)

@[simp] theorem accounted_realExpr : a.realExpr.Accounted scope R := Expr.accounted_inner _

@[simp] theorem accounted_hostValue : a.hostValue.Accounted scope R := by
  unfold hostValue
  split
  · split <;> simp
  · simp

@[simp] theorem accounted_hostTarget : a.hostTarget.Accounted scope R := by
  unfold hostTarget
  split
  · split <;> simp
  · simp

theorem accounted_output (transfer : Transfer) {length : Option Expr}
    (hlength : ∀ e, length = some e → e.Accounted scope R) :
    (a.output transfer length).Accounted scope R where
  real := a.accounted_realExpr
  target := by simp [output]
  length := hlength

theorem accounted_output_inner (transfer : Transfer) (length : Option String) :
    (a.output transfer (length.map Expr.inner)).Accounted scope R := by
  refine a.accounted_output transfer fun e he => ?_
  obtain ⟨name, _, rfl⟩ := Option.map_eq_some_iff.mp he
  simp

/-- The length that a hidden parameter carries is that of an accounted array. -/
def HiddenAccounted (scope : Scope) (R : EntityRef → Prop) : Prop :=
  ∀ p array, a.role = .param p → p.hidden = some (.lengthOf array) → array.Accounted scope R

theorem accounted_convertReceiver (via : Option EntityRef) :
    Yields (·.Accounted scope R) (a.convertReceiver via) := by
  unfold convertReceiver
  refine yields_bind fun owner _ => ?_
  split
  · exact yields_pure_iff.mpr (Conversion.accounted_ofBefore (by simp))
  · refine yields_bind fun native hnative => yields_pure_iff.mpr ?_
    have hnative : native.Accounted scope R := accounted_resolveNative native hnative
    exact Conversion.accounted_ofBefore (by simp [hnative])

theorem accounted_convertHidden (direction : Direction) {why : Hidden}
    (hwhy : ∀ array, why = .lengthOf array → array.Accounted scope R) :
    Yields (·.Accounted scope R) (a.convertHidden direction why) := by
  unfold convertHidden
  refine yields_bind fun native hnative => ?_
  have hnative : native.Accounted scope R := accounted_resolveNative native hnative
  cases why with
  | skipped => exact yields_pure_iff.mpr (Conversion.accounted_ofBefore (by simp [hnative]))
  | lengthOf array =>
    have harray := hwhy array rfl
    dsimp only
    split
    · exact yields_pure_iff.mpr (Conversion.accounted_ofBefore (by simp [hnative, harray]))
    · exact yields_pure_iff.mpr (Conversion.accounted_ofBefore (by simp [hnative]))

variable (h : a.type.RefersWithin scope R)

include h

theorem accounted_convertBuffer (p : ParamRole) :
    Yields (·.Accounted scope R) (a.convertBuffer scope p) := by
  have hafter : ∀ count : Expr, count.Accounted scope R → Yields (AllAccounted scope R)
      ((a.output .none (some ((p.length.map Expr.inner).getD count))).convert scope a.type) := by
    intro count hcount
    refine Output.allAccounted_convert (a.accounted_output .none fun e he => ?_) h
    obtain rfl := Option.some.inj he
    cases p.length with
    | some length => simp
    | none => exact hcount
  unfold convertBuffer
  refine yields_bind fun info _ => yields_bind fun e _ => yields_bind fun native hnative => ?_
  have hnative : native.Accounted scope R := accounted_resolveNative native hnative
  cases info.fixedSize with
  | some size =>
    refine yields_bind fun after hconvert => yields_pure_iff.mpr ?_
    exact ⟨by simp [hnative], by simp, hafter _ (by simp) after hconvert⟩
  | none =>
    refine yields_bind fun after hconvert => yields_pure_iff.mpr ?_
    exact ⟨by simp [hnative], by simp, hafter _ (by simp) after hconvert⟩

theorem accounted_convertStructure : Yields (·.Accounted scope R) (a.convertStructure scope) := by
  unfold convertStructure
  refine yields_bind fun native hnative => yields_bind fun copy hcopy => yields_pure_iff.mpr ?_
  have hnative : native.Accounted scope R := accounted_resolveNative native hnative
  have hcopy := accounted_heapCopy h.byValue a.accounted_realExpr copy hcopy
  exact ⟨by simp [hnative], allAccounted_nil, by simp [hcopy]⟩

theorem accounted_convertInout (p : ParamRole) :
    Yields (·.Accounted scope R) (a.convertInout scope p) := by
  unfold convertInout
  refine yields_bind fun passing hpassing => yields_bind fun direct hdirect => ?_
  refine yields_bind fun after hafter => yields_pure_iff.mpr ?_
  have hpassing : Input.Accounted scope R passing :=
    Input.accounted_convert _ a.accounted_hostValue p.nullable passing hpassing
  have hdirect : Input.Accounted scope R direct :=
    Input.accounted_convert _ a.accounted_hostValue p.nullable direct hdirect
  have hafter := Output.allAccounted_convert (a.accounted_output_inner _ _) h after hafter
  refine ⟨?_, hpassing.2, hafter⟩
  dsimp only
  split <;> simp [hpassing.1, hdirect.1]

theorem accounted_convertOutput (transfer : Transfer) (length : Option String) :
    Yields (·.Accounted scope R) (a.convertOutput scope transfer length) := by
  unfold convertOutput
  refine yields_bind fun native hnative => yields_bind fun after hafter => yields_pure_iff.mpr ?_
  have hnative : native.Accounted scope R := accounted_resolveNative native hnative
  have hafter := Output.allAccounted_convert (a.accounted_output_inner _ _) h after hafter
  exact ⟨by simp [hnative], allAccounted_nil, hafter⟩

/-- The code around a call takes no name from another package that is not accounted for. -/
theorem accounted_convert (hhidden : a.HiddenAccounted scope R) :
    Yields (·.Accounted scope R) (a.convert scope) := by
  refine yields_convert scope a ?receiver ?hidden ?input ?inout ?buffer ?struct ?output ?result
    ?dropped
  case receiver => exact fun via _ => a.accounted_convertReceiver via
  case hidden =>
    intro p why hrole hwhy
    refine a.accounted_convertHidden p.direction fun array harray => ?_
    exact hhidden p array hrole (harray ▸ hwhy)
  case input =>
    intro p _ _ _ passing hpassing
    have hpassing : Input.Accounted scope R passing :=
      Input.accounted_convert _ a.accounted_hostValue p.nullable passing hpassing
    exact ⟨hpassing.1, hpassing.2, allAccounted_nil⟩
  case inout => exact fun p _ _ _ => a.accounted_convertInout h p
  case buffer => exact fun p _ _ _ => a.accounted_convertBuffer h p
  case struct => exact fun _ _ _ _ _ _ => a.accounted_convertStructure h
  case output => exact fun p _ _ _ _ _ => a.accounted_convertOutput h _ _
  case result => exact fun r _ _ => a.accounted_convertOutput h _ _
  case dropped => exact fun r _ _ => ⟨allAccounted_nil, allAccounted_nil, allAccounted_nil⟩

end Argument

end Introspection
