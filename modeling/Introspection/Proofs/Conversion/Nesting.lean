import Introspection.Proofs.Code.Nesting
import Introspection.Proofs.Conversion.Role
import Introspection.Proofs.Resolution.Closed

/-!
# `Introspection.Proofs.Conversion.Nesting`: conversions leave no block open

The code around a call for one argument is built from literal spellings and from names that the data
gives: the name of the argument and those of the registered types in its descriptor. When these are
flat, so is all that the code spells, whatever the type, the transfer and the role of the argument
(`flat_convert`). Then the blocks of the code nest, see `Stmt.nested_listText`.
-/

set_option autoImplicit false

namespace Introspection

open Introspection.Code
open Introspection.Code.Stmt

variable {scope : Scope} {t : TypeDesc} {v : Expr}

/-! ### Names in types -/

theorem Numeric.flat_nativeName (n : Numeric) : Text.Flat n.nativeName := by
  cases n <;> decide

theorem Numeric.flat_hostName (n : Numeric) : Text.Flat n.hostName := by
  cases n <;> decide

theorem ListKind.flat_nativeName (k : ListKind) : Text.Flat k.nativeName := by
  cases k <;> decide

theorem ListKind.flat_symbol (k : ListKind) : Text.Flat k.symbol := by
  cases k <;> decide

theorem Scope.flat_typeName {home name : String} (hhome : Text.Flat home) (hname : Text.Flat name) :
    (scope.typeName home name).Flat := by
  unfold typeName
  split
  · exact (GoType.flat_plain _).mpr hname
  · exact (GoType.flat_qualified _ _).mpr ⟨Naming.flat_packageName hhome, hname⟩

theorem Scope.flat_wrap {r : EntityRef} (hr : r.Flat) (hv : v.Flat) : (scope.wrap r v).Flat := by
  unfold wrap wrapFunction
  split <;> simp +decide [hr.name, Naming.flat_packageName hr.home, hv]

namespace TypeDesc

/-- The names of registered types in the descriptor are flat, at any depth. -/
def NamesFlat (t : TypeDesc) : Prop :=
  ∀ s : TypeDesc, s.Inside t → ∀ r, s.entity = some r → r.Flat

theorem namesFlat_iff : t.NamesFlat ↔ ∀ s ∈ t.nodes, ∀ r ∈ s.entity, r.Flat :=
  forall_congr' fun _ => imp_congr mem_nodes_iff.symm Iff.rfl

instance : Decidable t.NamesFlat := decidable_of_iff _ namesFlat_iff.symm

theorem NamesFlat.of_mem_params (h : t.NamesFlat) {e : TypeDesc} (he : e ∈ t.params) :
    e.NamesFlat :=
  fun s hs => h s (.element he hs)

theorem NamesFlat.entityOf (h : t.NamesFlat) {r : EntityRef} (hr : t.entityOf = .ok r) : r.Flat :=
  h t (.self t) r (entity_of_entityOf hr)

theorem NamesFlat.byValue (h : t.NamesFlat) : t.byValue.NamesFlat := by
  obtain ⟨tag, pointer, params, entity, array⟩ := t
  intro s hs
  cases hs with
  | self => exact h (mk tag pointer params entity array) (.self _)
  | element he hs => exact h s (.element he hs)

theorem namesFlat_named {r : EntityRef} (hr : r.Flat) : (named r).NamesFlat := by
  intro s hs r' hr'
  cases hs with
  | self =>
    cases hr'
    exact hr
  | element he _ => cases he

theorem nativeClosed_flat : NativeClosed (·.Flat) where
  void := GoType.flat_void
  word := by simp +decide
  number n := by simp [n.flat_nativeName]
  list k := by simp [k.flat_nativeName]
  pointer g := (GoType.flat_pointer g).mpr

theorem hostClosed_flat : HostClosed scope (·.Flat) where
  void := GoType.flat_void
  unsafePointer := GoType.flat_unsafePointer
  word := by simp +decide
  number n := by simp [n.flat_hostName]
  typeHandle := Scope.flat_typeName (by decide) (by decide)
  pointer g := (GoType.flat_pointer g).mpr
  slice g := (GoType.flat_slice g).mpr
  map k v hk hv := (GoType.flat_map k v).mpr ⟨hk, hv⟩

theorem NamesFlat.names (h : t.NamesFlat) (r : EntityRef) (hr : t.entity = some r) :
    scope.Names (·.Flat) r := by
  have hflat := h t (.self t) r hr
  exact ⟨Scope.flat_typeName hflat.home hflat.name,
    Scope.flat_typeName hflat.home (by simp +decide [hflat.name])⟩

theorem flat_resolveNative (h : t.NamesFlat) : Yields (·.Flat) (resolveNative t) := by
  refine yields_resolveNative (yields_nativeType NamesFlat.of_mem_params nativeClosed_flat ?_ h)
  intro u hu r hr
  simp [(hu u (.self u) r hr).nativeName]

theorem flat_resolveHost (h : t.NamesFlat) (isArg : Bool) :
    Yields (·.Flat) (resolveHost scope t isArg) :=
  yields_resolveHost_of_closed NamesFlat.of_mem_params hostClosed_flat NamesFlat.names h isArg

theorem flat_elementHost (h : t.NamesFlat) : Yields (·.Flat) (elementHost scope t) :=
  yields_elementHost_of_closed NamesFlat.of_mem_params hostClosed_flat NamesFlat.names h

/-! ### Elements -/

variable (hv : v.Flat)

include hv

theorem flat_wordIn : Yields (·.Flat) (t.wordIn v) := by
  unfold wordIn unsupported
  cases t.view with
  | void => cases t.pointer <;> simp [hv]
  | basic n => cases n <;> simp +decide [hv]
  | typeHandle | boolean | string => simp +decide [hv]
  | named =>
    refine yields_bind fun r _ => ?_
    cases r.kind <;> simp +decide [hv]
  | array | list | hash | error => exact yields_error _ _

variable (h : t.NamesFlat)

include h

theorem flat_heapCopy : Yields (·.Flat) (t.heapCopy scope v) := by
  unfold heapCopy
  refine yields_bind fun r hr => yields_pure_iff.mpr (Scope.flat_wrap (h.entityOf hr) ?_)
  simp +decide [hv]

theorem flat_wordOut : Yields (·.Flat) (t.wordOut scope v) := by
  -- What is no pointer is unpacked from the word by its host type.
  have hhost : Yields (·.Flat) (do
      return Expr.convert (← resolveHost scope t.byValue false) (.toWord v)) :=
    yields_bind fun host hhost => yields_pure_iff.mpr
      (by simp [flat_resolveHost h.byValue false host hhost, hv])
  unfold wordOut unsupported
  cases t.view with
  | void => cases t.pointer <;> simp [hv]
  | basic n =>
    cases n with
    | float | double => simp +decide [hv]
    | _ => exact hhost
  | typeHandle => exact hhost
  | boolean | string => simp +decide [hv]
  | named =>
    refine yields_bind fun r hr => ?_
    cases r.kind with
    | enum =>
      refine yields_bind fun host hhost => yields_pure_iff.mpr ?_
      simp [flat_elementHost h host hhost, hv]
    | _ => exact yields_pure_iff.mpr (Scope.flat_wrap (h.entityOf hr) (by simp [hv]))
  | array | list | hash | error => exact yields_error _ _

theorem flat_valueIn : Yields (·.Flat) (t.valueIn v) := by
  unfold valueIn unsupported
  refine yields_bind fun native hnative => ?_
  have hnative : native.Flat := flat_resolveNative h native hnative
  cases t.view with
  | void | basic | typeHandle | boolean => cases t.pointer <;> simp +decide [hv, hnative]
  | string => simp +decide [hv]
  | named =>
    refine yields_bind fun r _ => ?_
    cases r.kind <;> cases t.pointer <;> simp +decide [hv, hnative]
  | array | list | hash | error => exact yields_error _ _

theorem flat_valueOut : Yields (·.Flat) (t.valueOut scope v) := by
  have hhost : Yields (·.Flat) (do return Expr.convert (← resolveHost scope t false) v) :=
    yields_bind fun host hhost => yields_pure_iff.mpr
      (by simp [flat_resolveHost h false host hhost, hv])
  have hcopy : Yields (·.Flat) (do return Expr.deref (← t.heapCopy scope v)) :=
    yields_bind fun e he => yields_pure_iff.mpr
      ((Expr.flat_deref e).mpr (flat_heapCopy hv h e he))
  unfold valueOut unsupported
  cases t.view with
  | void | boolean => cases t.pointer <;> simp +decide [hv]
  | basic | typeHandle =>
    cases t.pointer with
    | true => exact yields_error _ _
    | false => exact hhost
  | string => simp +decide [hv]
  | named =>
    refine yields_bind fun r hr => ?_
    have hwrap : (scope.wrap r (.toUnsafe v)).Flat :=
      Scope.flat_wrap (h.entityOf hr) (by simp [hv])
    cases hkind : r.kind <;> cases hpointer : t.pointer
    case enum.false => exact hhost
    case struct.false | union.false => exact hcopy
    all_goals simp [hwrap]
  | array | list | hash | error => exact yields_error _ _

omit hv h

theorem flat_terminator (native : GoType) : Yields (·.Flat) (t.terminator native) := by
  unfold terminator unsupported
  split
  · simp
  · cases t.view with
    | basic | boolean | typeHandle => simp +decide
    | named =>
      refine yields_bind fun r _ => ?_
      split <;> simp +decide
    | void | string | array | list | hash | error => exact yields_error _ _

end TypeDesc

open TypeDesc

/-! ### Values that go in -/

@[simp] theorem flat_allocate (native : GoType) (count : Expr) :
    (allocate native count).Flat ↔ native.Flat ∧ count.Flat := by
  simp +decide [allocate, and_comm]

@[simp] theorem flat_arrayView (native : GoType) (real : Expr) :
    (arrayView native real).Flat ↔ native.Flat ∧ real.Flat := by
  simp +decide [arrayView]

@[simp] theorem flat_ptrArrayView (real : Expr) : (ptrArrayView real).Flat ↔ real.Flat := by
  simp +decide [ptrArrayView]

@[simp] theorem flat_listWalk (node : String) (start : Expr) (body : List Stmt) :
    (listWalk node start body).Flat ↔ Text.Flat node ∧ start.Flat ∧ AllFlat body := by
  simp +decide [listWalk]
  tauto

@[simp] theorem allFlat_hashWalk (stem : String) (real : Expr) (body : List Stmt) :
    AllFlat (hashWalk stem real body) ↔ Text.Flat stem ∧ real.Flat ∧ AllFlat body := by
  simp +decide [hashWalk]
  tauto

namespace Input

variable (i : Input)

/-- All spellings in the code and in what gives back the copies are flat. -/
def Flat (p : Passing) : Prop := AllFlat p.code ∧ AllFlat p.release

theorem flat_realExpr (hreal : Text.Flat i.real) : i.realExpr.Flat := hreal

theorem allFlat_whenKept {release : List Stmt} (h : AllFlat release) :
    AllFlat (i.whenKept release) := by
  unfold whenKept
  split
  · exact h
  · exact allFlat_nil

variable (hreal : Text.Flat i.real)

include hreal

theorem allFlat_freeCopies (element : TypeDesc) {view : Expr} (h : view.Flat) :
    AllFlat (i.freeCopies element view) := by
  unfold freeCopies
  split <;> simp +decide [h, hreal]

variable (h : i.host.Flat) (ht : t.NamesFlat)

include h ht

theorem allFlat_named (nullable : Bool) : Yields AllFlat (i.named nullable t) := by
  unfold named
  refine yields_bind fun native hnative => yields_bind fun r _ => ?_
  have hnative : native.Flat := flat_resolveNative ht native hnative
  split
  · split <;> simp [h, hreal, hnative]
  · split
    · simp +decide [h, hreal, hnative]
    · split <;> simp +decide [h, hreal, hnative, i.flat_realExpr hreal]

theorem flat_scalar : Yields Flat (i.scalar t) := by
  unfold scalar Flat
  refine yields_bind fun native hnative => ?_
  have hnative : native.Flat := flat_resolveNative ht native hnative
  split <;> simp [h, hreal, hnative]

theorem flat_list (k : ListKind) : Yields Flat (i.list k t) := by
  unfold list
  refine yields_bind fun e _ => yields_bind fun native hnative => ?_
  refine yields_bind fun word hword => ?_
  have hnative : native.Flat := flat_resolveNative ht native hnative
  have hword : word.Flat := flat_wordIn (by simp +decide [hreal]) word hword
  have hlocal := i.flat_realExpr hreal
  refine yields_pure_iff.mpr ⟨?_, i.allFlat_whenKept ?_⟩
  · simp +decide [h, hreal, hlocal, hword, hnative, k.flat_symbol]
  · split <;> simp +decide [hreal, hlocal, k.flat_symbol]

omit ht in
theorem flat_hash : Yields Flat (i.hash t) := by
  unfold hash
  refine yields_bind fun k _ => yields_bind fun v _ => ?_
  refine yields_bind fun keyWord hkey => yields_bind fun valueWord hvalue => ?_
  have hkey : keyWord.Flat := flat_wordIn (by simp +decide [hreal]) keyWord hkey
  have hvalue : valueWord.Flat := flat_wordIn (by simp +decide [hreal]) valueWord hvalue
  have hlocal := i.flat_realExpr hreal
  refine yields_pure_iff.mpr ⟨?_, i.allFlat_whenKept ?_⟩
  · split <;> simp +decide [h, hreal, hlocal, hkey, hvalue]
  · split
    · split <;> split <;> simp +decide [hreal, hlocal]
    · simp +decide [hlocal]

theorem flat_array : Yields Flat (i.array t) := by
  have hlocal := i.flat_realExpr hreal
  unfold array
  refine yields_bind fun info _ => yields_bind fun e he => ?_
  have he := ht.of_mem_params (mem_params_of_elementOf he)
  cases info.storage with
  | c =>
    refine yields_bind fun native hnative => yields_bind fun value hvalue => ?_
    have hnative : native.Flat := flat_resolveNative he native hnative
    have hvalue : value.Flat := flat_valueIn (by simp +decide [hreal]) he value hvalue
    refine yields_pure_iff.mpr ⟨?_, i.allFlat_whenKept ?_⟩
    · split <;> simp +decide [h, hreal, hlocal, hvalue, hnative]
    · have hview : (Expr.inner (i.real ++ "_view")).Flat := by simp +decide [hreal]
      simp [i.allFlat_freeCopies hreal e hview, hlocal]
  | array =>
    refine yields_bind fun native hnative => yields_bind fun value hvalue => ?_
    have hnative : native.Flat := flat_resolveNative he native hnative
    have hvalue : value.Flat := flat_valueIn (by simp +decide [hreal]) he value hvalue
    have hview : (arrayView native i.realExpr).Flat := by simp [hnative, hlocal]
    refine yields_pure_iff.mpr ⟨?_, i.allFlat_whenKept ?_⟩
    · simp +decide [h, hreal, hlocal, hvalue, hnative]
    · simp +decide [i.allFlat_freeCopies hreal e hview, hlocal]
  | ptrArray =>
    refine yields_bind fun word hword => ?_
    have hword : word.Flat := flat_wordIn (by simp +decide [hreal]) word hword
    have hview : (ptrArrayView i.realExpr).Flat := by simp [hlocal]
    refine yields_pure_iff.mpr ⟨?_, i.allFlat_whenKept ?_⟩
    · simp +decide [h, hreal, hlocal, hword]
    · simp +decide [i.allFlat_freeCopies hreal e hview, hlocal]
  | byteArray =>
    refine yields_pure_iff.mpr ⟨?_, i.allFlat_whenKept ?_⟩
    · simp +decide [h, hreal, hlocal]
    · simp +decide [hlocal]

/-- A value of any type that goes in. -/
theorem flat_convert (nullable : Bool) : Yields Flat (i.convert nullable t) := by
  have hlocal := i.flat_realExpr hreal
  unfold convert unsupported
  cases t.view with
  | void => cases t.pointer <;> simp [Flat, h, hreal]
  | boolean => cases t.pointer <;> simp [Flat, h, hreal, hlocal]
  | basic | typeHandle => exact i.flat_scalar hreal h ht
  | string =>
    exact yields_ok_iff.mpr ⟨by simp +decide [h, hreal], i.allFlat_whenKept (by simp [hlocal])⟩
  | named =>
    refine yields_bind fun code hcode => yields_pure_iff.mpr ⟨?_, allFlat_nil⟩
    exact i.allFlat_named hreal h ht nullable code hcode
  | array => exact i.flat_array hreal h ht
  | list k => exact i.flat_list hreal h ht k
  | hash => exact i.flat_hash hreal h
  | error => exact yields_error _ _

end Input

/-! ### Values that come out -/

namespace Output

/-- The spellings of the value, of what the locals are named after, of the target and of the length
are flat. -/
structure Flat (o : Output) : Prop where
  real : o.real.Flat
  stem : Text.Flat o.stem
  target : o.target.Flat
  length : ∀ e, o.length = some e → e.Flat

variable {o : Output}

theorem allFlat_whenTaken {release : List Stmt} (h : AllFlat release) :
    AllFlat (o.whenTaken release) := by
  unfold whenTaken
  split
  · exact h
  · exact allFlat_nil

theorem allFlat_whenElementsTaken (element : TypeDesc) {release : List Stmt}
    (h : AllFlat release) : AllFlat (o.whenElementsTaken element release) := by
  unfold whenElementsTaken
  split
  · exact h
  · exact allFlat_nil

@[simp] theorem flat_append (e : Expr) : (o.append e).Flat ↔ o.target.Flat ∧ e.Flat := by
  simp +decide [append]

variable (h : o.Flat) (ht : t.NamesFlat)

include h

theorem flat_count (element : TypeDesc) {native : GoType} (hnative : native.Flat)
    (info : ArrayInfo) : Yields (fun counted => AllFlat counted.1 ∧ counted.2.Flat)
      (o.count element native info) := by
  unfold count
  cases info.fixedSize with
  | some size => simp [Text.flat_natText]
  | none =>
    cases hlength : o.length with
    | some length => simp +decide [h.length length hlength]
    | none =>
      -- With no length at all the elements are counted up to the terminator, if there is one.
      dsimp only
      split
      · refine yields_bind fun zero hzero => yields_pure_iff.mpr ?_
        have hzero : zero.Flat := flat_terminator native zero hzero
        simp +decide [hzero, h.real, h.stem, hnative]
      · exact yields_error _ _

include ht

theorem allFlat_list (k : ListKind) : Yields AllFlat (o.list scope k t) := by
  unfold list
  refine yields_bind fun e he => yields_bind fun value hvalue => yields_pure_iff.mpr ?_
  have he := ht.of_mem_params (mem_params_of_elementOf he)
  have hvalue := flat_wordOut (by simp +decide [h.stem]) he value hvalue
  have hfree : AllFlat (o.whenElementsTaken e
      [.run (.native "g_free" [.member (.inner (o.stem ++ "_l")) "data"])]) :=
    allFlat_whenElementsTaken e (by simp +decide [h.stem])
  have hrelease : AllFlat (o.whenTaken [.run (.native (k.symbol ++ "_free") [o.real])]) :=
    allFlat_whenTaken (by simp +decide [h.real, k.flat_symbol])
  simp +decide [hvalue, hfree, hrelease, h.real, h.stem, h.target]

theorem allFlat_hash : Yields AllFlat (o.hash scope t) := by
  unfold hash
  refine yields_bind fun key hkey => yields_bind fun value hvalue => ?_
  refine yields_bind fun host hhost => yields_bind fun k hk => yields_bind fun v hv => ?_
  have hkey := ht.of_mem_params (mem_params_of_elementOf hkey)
  have hvalue := ht.of_mem_params (mem_params_of_valueOf hvalue)
  have hhost := flat_resolveHost ht false host hhost
  have hk := flat_wordOut (by simp +decide [h.stem]) hkey k hk
  have hv := flat_wordOut (by simp +decide [h.stem]) hvalue v hv
  have hrelease : AllFlat (o.whenTaken [.run (.native "g_hash_table_unref" [o.real])]) :=
    allFlat_whenTaken (by simp +decide [h.real])
  refine yields_pure_iff.mpr ?_
  simp +decide [hhost, hk, hv, hrelease, h.real, h.stem, h.target]

theorem allFlat_array : Yields AllFlat (o.array scope t) := by
  unfold array
  refine yields_bind fun info _ => yields_bind fun e he => ?_
  have he := ht.of_mem_params (mem_params_of_elementOf he)
  have hitem : (Expr.inner (o.stem ++ "_e")).Flat := by simp +decide [h.stem]
  have hfree : AllFlat (o.whenElementsTaken e [.run (.gFree (.inner (o.stem ++ "_e")))]) :=
    allFlat_whenElementsTaken e (by simp [hitem])
  cases info.storage with
  | c =>
    refine yields_bind fun native hnative => yields_bind fun counted hcounted => ?_
    refine yields_bind fun host hhost => yields_bind fun value hvalue => yields_pure_iff.mpr ?_
    have hnative : native.Flat := flat_resolveNative he native hnative
    obtain ⟨hcounting, hcount⟩ := flat_count h e hnative info counted hcounted
    have hhost := flat_resolveHost ht false host hhost
    have hvalue := flat_valueOut hitem he value hvalue
    have hrelease : AllFlat (o.whenTaken [.run (.gFree o.real)]) :=
      allFlat_whenTaken (by simp [h.real])
    simp +decide [hvalue, hcounting, hcount, hhost, hfree, hrelease, h.real, h.stem, h.target]
  | array =>
    refine yields_bind fun native hnative => yields_bind fun value hvalue => yields_pure_iff.mpr ?_
    have hnative : native.Flat := flat_resolveNative he native hnative
    have hvalue := flat_valueOut hitem he value hvalue
    have hrelease : AllFlat
        (o.whenTaken [.run (.native "g_array_free" [o.real, .gboolean true])]) :=
      allFlat_whenTaken (by simp +decide [h.real])
    simp +decide [hvalue, hnative, hfree, hrelease, h.real, h.stem, h.target]
  | ptrArray =>
    refine yields_bind fun value hvalue => yields_pure_iff.mpr ?_
    have hvalue := flat_wordOut hitem he value hvalue
    have hrelease : AllFlat (o.whenTaken [.run (.native "g_ptr_array_unref" [o.real])]) :=
      allFlat_whenTaken (by simp +decide [h.real])
    split <;> simp +decide [hvalue, hrelease, h.real, h.stem, h.target]
  | byteArray =>
    have hrelease : AllFlat (o.whenTaken [.run (.native "g_byte_array_unref" [o.real])]) :=
      allFlat_whenTaken (by simp +decide [h.real])
    exact yields_pure_iff.mpr (by simp +decide [hrelease, h.real, h.target])

theorem allFlat_named : Yields AllFlat (o.named scope t) := by
  -- Enumerations are converted as numbers, structures by value are copied, the rest is wrapped.
  have hhost : ∀ cast : GoType → Expr, (∀ host : GoType, host.Flat → (cast host).Flat) →
      Yields AllFlat (do return [.assign o.target (cast (← resolveHost scope t false))]) :=
    fun cast hcast => yields_bind fun host hhost => yields_pure_iff.mpr
      (by simp [hcast host (flat_resolveHost ht false host hhost), h.target])
  have hcopy : Yields AllFlat (do
      return [.assign o.target (.deref (← t.heapCopy scope o.real))]) := by
    refine yields_bind fun e he => yields_pure_iff.mpr ?_
    have he := flat_heapCopy h.real ht e he
    simp [he, h.target]
  unfold named unsupported
  refine yields_bind fun r hr => ?_
  have hwrap : (scope.wrap r (.toUnsafe o.real)).Flat :=
    Scope.flat_wrap (ht.entityOf hr) (by simp [h.real])
  cases hkind : r.kind <;> cases hpointer : t.pointer
  case enum.false | enum.true => exact hhost _ fun host hhost => by simp [hhost, h.real]
  case struct.false | union.false => exact hcopy
  all_goals simp [hwrap, h.real, h.target]

theorem allFlat_scalar : Yields AllFlat (o.scalar scope t) := by
  unfold scalar
  refine yields_bind fun host hhost => ?_
  have hhost := flat_resolveHost ht false host hhost
  split <;> simp [hhost, h.real, h.target]

/-- A value of any type that comes out. -/
theorem allFlat_convert : Yields AllFlat (o.convert scope t) := by
  unfold convert unsupported
  cases t.view with
  | void => exact yields_ok_iff.mpr (by split <;> simp [h.real, h.target])
  | basic | typeHandle => exact allFlat_scalar h ht
  | boolean => cases t.pointer <;> simp +decide [h.real, h.target]
  | string =>
    refine yields_ok_iff.mpr ?_
    split <;> simp +decide [copied, h.real, h.target]
  | named => exact allFlat_named h ht
  | array => exact allFlat_array h ht
  | list k => exact allFlat_list h ht k
  | hash => exact allFlat_hash h ht
  | error =>
    refine yields_ok_iff.mpr ?_
    split <;> simp +decide [copied, h.real, h.target]

end Output

/-! ### Arguments -/

/-- All spellings in the code around a call are flat. -/
structure Conversion.Flat (c : Conversion) : Prop where
  before : AllFlat c.before
  release : AllFlat c.release
  after : AllFlat c.after

theorem Conversion.flat_ofBefore {s : Stmt} (h : s.Flat) : (ofBefore s).Flat :=
  ⟨by simp [ofBefore, h], allFlat_nil, allFlat_nil⟩

namespace Argument

/-- The names that the role of an argument brings with it are flat: those of an interface that
declares a method, of the local that holds a length, and of the array that a length is taken of. -/
def RoleFlat : Role → Prop
  | .receiver via => ∀ r ∈ via, r.Flat
  | .param p => (∀ length ∈ p.length, Text.Flat length)
    ∧ ∀ array : Expr, p.hidden = some (.lengthOf array) → array.Flat
  | .result r => ∀ length ∈ r.length, Text.Flat length

/-- All names that an argument brings with it are flat. -/
structure NamesFlat (a : Argument) : Prop where
  name : Text.Flat a.name
  type : a.type.NamesFlat
  role : RoleFlat a.role

variable {a : Argument}

theorem flat_hostValue (h : Text.Flat a.name) : a.hostValue.Flat := by
  unfold hostValue
  split
  · split <;> simp [h]
  · simp [h]

theorem flat_hostTarget (h : Text.Flat a.name) : a.hostTarget.Flat := by
  unfold hostTarget
  split
  · split <;> simp [h]
  · simp [h]

variable (h : a.NamesFlat)

include h

theorem NamesFlat.nativeLocal : Text.Flat a.nativeLocal :=
  Text.flat_append_iff.mpr ⟨by decide, h.name⟩

theorem NamesFlat.realExpr : a.realExpr.Flat := h.nativeLocal

theorem NamesFlat.output (transfer : Transfer) {length : Option Expr}
    (hlength : ∀ e, length = some e → e.Flat) : (a.output transfer length).Flat where
  real := h.realExpr
  stem := h.nativeLocal
  target := flat_hostTarget h.name
  length := hlength

theorem NamesFlat.output_inner (transfer : Transfer) {length : Option String}
    (hlength : ∀ name ∈ length, Text.Flat name) :
    (a.output transfer (length.map Expr.inner)).Flat := by
  refine h.output transfer fun e he => ?_
  obtain ⟨name, hname, rfl⟩ := Option.map_eq_some_iff.mp he
  exact hlength name hname

theorem flat_convertReceiver {via : Option EntityRef} (hvia : ∀ r ∈ via, r.Flat) :
    Yields (·.Flat) (a.convertReceiver via) := by
  unfold convertReceiver
  refine yields_bind fun owner howner => ?_
  have howner := h.type.entityOf howner
  split
  · exact yields_pure_iff.mpr
      (Conversion.flat_ofBefore (by simp [h.name, h.nativeLocal, howner.nativeName]))
  · refine yields_bind fun native hnative => yields_pure_iff.mpr ?_
    have hdeclared : (TypeDesc.named (via.getD owner)).NamesFlat := by
      cases via with
      | none => exact namesFlat_named howner
      | some r => exact namesFlat_named (hvia r rfl)
    have hnative : native.Flat := flat_resolveNative hdeclared native hnative
    exact Conversion.flat_ofBefore (by simp +decide [h.name, h.nativeLocal, hnative])

theorem flat_convertHidden (direction : Direction) {why : Hidden}
    (hwhy : ∀ array, why = .lengthOf array → array.Flat) :
    Yields (·.Flat) (a.convertHidden direction why) := by
  unfold convertHidden
  refine yields_bind fun native hnative => ?_
  have hnative : native.Flat := flat_resolveNative h.type native hnative
  have hdeclared : (declareOne a.nativeLocal native).Flat := by simp [h.nativeLocal, hnative]
  cases why with
  | skipped => exact yields_pure_iff.mpr (Conversion.flat_ofBefore hdeclared)
  | lengthOf array =>
    have harray := hwhy array rfl
    dsimp only
    split
    · exact yields_pure_iff.mpr
        (Conversion.flat_ofBefore (by simp [h.nativeLocal, hnative, harray]))
    · exact yields_pure_iff.mpr (Conversion.flat_ofBefore hdeclared)

theorem flat_convertBuffer {p : ParamRole} (hlength : ∀ length ∈ p.length, Text.Flat length) :
    Yields (·.Flat) (a.convertBuffer scope p) := by
  have hafter : ∀ count : Expr, count.Flat → Yields AllFlat
      ((a.output .none (some ((p.length.map Expr.inner).getD count))).convert scope a.type) := by
    intro count hcount
    refine Output.allFlat_convert (h.output .none fun e he => ?_) h.type
    obtain rfl := Option.some.inj he
    -- The length is that of a coupled parameter, or else the count that memory was taken for.
    cases hp : p.length with
    | some length => exact hlength length hp
    | none => exact hcount
  have hlocal := h.nativeLocal
  have hreal := h.realExpr
  unfold convertBuffer
  refine yields_bind fun info _ => yields_bind fun e he => yields_bind fun native hnative => ?_
  have he := h.type.of_mem_params (mem_params_of_elementOf he)
  have hnative : native.Flat := flat_resolveNative he native hnative
  cases info.fixedSize with
  | some size =>
    have hcount : (Expr.plain (Text.natText size.toNat)).Flat := Text.flat_natText _
    refine yields_bind fun after hconvert => yields_pure_iff.mpr ?_
    exact ⟨by simp [hlocal, hnative, Text.flat_natText], by simp [hreal],
      hafter _ hcount after hconvert⟩
  | none =>
    have hcount : a.hostValue.len.Flat := by simp [flat_hostValue h.name]
    refine yields_bind fun after hconvert => yields_pure_iff.mpr ?_
    exact ⟨by simp [hlocal, hnative, flat_hostValue h.name], by simp [hreal],
      hafter _ hcount after hconvert⟩

theorem flat_convertStructure : Yields (·.Flat) (a.convertStructure scope) := by
  unfold convertStructure
  refine yields_bind fun native hnative => yields_bind fun copy hcopy => yields_pure_iff.mpr ?_
  have hnative : native.Flat := flat_resolveNative h.type.byValue native hnative
  have hcopy := flat_heapCopy h.realExpr h.type.byValue copy hcopy
  exact ⟨by simp [h.nativeLocal, hnative], allFlat_nil, by simp [flat_hostTarget h.name, hcopy]⟩

theorem flat_convertInput (p : ParamRole) {real : String} (hreal : Text.Flat real) :
    Yields Input.Flat (Input.convert ⟨real, a.hostValue, p.transfer⟩ p.nullable a.type) :=
  Input.flat_convert _ hreal (flat_hostValue h.name) h.type p.nullable

theorem flat_convertInout {p : ParamRole} (hlength : ∀ length ∈ p.length, Text.Flat length) :
    Yields (·.Flat) (a.convertInout scope p) := by
  have hpassed : Text.Flat (a.nativeLocal ++ "_in") :=
    Text.flat_append_iff.mpr ⟨h.nativeLocal, by decide⟩
  unfold convertInout
  refine yields_bind fun passing hpassing => yields_bind fun direct hdirect => ?_
  refine yields_bind fun after hafter => yields_pure_iff.mpr ?_
  have hpassing := flat_convertInput h p hpassed passing hpassing
  have hdirect := flat_convertInput h p h.nativeLocal direct hdirect
  have hafter := Output.allFlat_convert (h.output_inner _ hlength) h.type after hafter
  refine ⟨?_, hpassing.2, hafter⟩
  dsimp only
  split
  · exact hdirect.1
  · simp [hpassing.1, h.nativeLocal, hpassed]

theorem flat_convertOutput (transfer : Transfer) {length : Option String}
    (hlength : ∀ name ∈ length, Text.Flat name) :
    Yields (·.Flat) (a.convertOutput scope transfer length) := by
  unfold convertOutput
  refine yields_bind fun native hnative => yields_bind fun after hafter => yields_pure_iff.mpr ?_
  have hnative : native.Flat := flat_resolveNative h.type native hnative
  have hafter := Output.allFlat_convert (h.output_inner _ hlength) h.type after hafter
  exact ⟨by simp [h.nativeLocal, hnative], allFlat_nil, hafter⟩

/-- The code around a call is flat when the names are that the argument brings with it. -/
theorem flat_convert : Yields (·.Flat) (a.convert scope) := by
  -- Each role says in its own case which further names it brings with it.
  have hrole := h.role
  refine yields_convert scope a ?receiver ?hidden ?input ?inout ?buffer ?struct ?output ?result
    ?dropped
  case receiver =>
    intro via hvia
    rw [hvia] at hrole
    exact flat_convertReceiver h hrole
  case hidden =>
    intro p why hp hwhy
    rw [hp] at hrole
    exact flat_convertHidden h p.direction fun array harray => hrole.2 array (harray ▸ hwhy)
  case input =>
    intro p _ _ _ passing hpassing
    have hpassing := flat_convertInput h p h.nativeLocal passing hpassing
    exact ⟨hpassing.1, hpassing.2, allFlat_nil⟩
  case inout =>
    intro p hp _ _
    rw [hp] at hrole
    exact flat_convertInout h hrole.1
  case buffer =>
    intro p hp _ _
    rw [hp] at hrole
    exact flat_convertBuffer h hrole.1
  case struct => exact fun _ _ _ _ _ _ => flat_convertStructure h
  case output =>
    intro p hp _ _ _ _
    rw [hp] at hrole
    exact flat_convertOutput h _ hrole.1
  case result =>
    intro r hr _
    rw [hr] at hrole
    exact flat_convertOutput h _ hrole
  case dropped => exact fun r _ _ => ⟨allFlat_nil, allFlat_nil, allFlat_nil⟩

end Argument

end Introspection
