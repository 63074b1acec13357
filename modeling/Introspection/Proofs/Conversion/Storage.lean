import Introspection.Conversion.Basic
import Introspection.Proofs.Conversion.ElementType

/-!
# `Introspection.Proofs.Conversion.Storage`: what containers hold on the host side

The host type of a container and the code that fills it are computed apart from each other.
`storage_agrees_iff` says when they agree: for every container that can be converted, unless an
element of a list or a hash table is a pointer to a number, truth value or type handle, or a
pointer array has untyped pointers (`TypeDesc.Misstored`).

`GoType.elements` are the types of elements that a host type spells, `TypeDesc.elementHosts` the
host types of the elements, and `TypeDesc.storedTypes` the types of the values that the code
stores.
-/

set_option autoImplicit false

namespace Introspection

open Introspection.Code
open Introspection.Code.Stmt

/-! ### Types of elements -/

/-- The types of the elements of a Go container, keys before values. -/
def Code.GoType.elements : GoType → List GoType
  | .slice e => [e]
  | .map k v => [k, v]
  | _ => []

namespace TypeDesc

variable {scope : Scope} {t : TypeDesc}

/-- The type has elements. -/
def IsContainer (t : TypeDesc) : Prop :=
  (∃ k, t.view = .list k) ∨ t.view = .hash ∨ t.view = .array

/-- The host types of the elements of a container, keys before values. -/
def elementHosts (scope : Scope) (t : TypeDesc) : Generated (List GoType) := do
  match t.view with
  | .list _ => return [← elementHost scope (← t.elementOf)]
  | .hash => return [← elementHost scope (← t.elementOf), ← elementHost scope (← t.valueOf)]
  | .array =>
    match (← t.arrayInfoOf).storage with
    | .c => return [← resolveHost scope (← t.elementOf) false]
    | .array => return [← resolveHost scope (← t.elementOf) false]
    | .ptrArray => return [← pointerSlotHost scope (← t.elementOf)]
    | .byteArray => return [.plain "byte"]
  | _ => return []

/-- The types of the values that code stores in a container, keys before values: for each of its
elements the type of all that is stored. -/
def storedTypes (scope : Scope) (t : TypeDesc) (code : List Stmt) : List (List (Option GoType)) :=
  match t.params with
  | [e] => [(storesOf (scope.typing e) code).map (·.value)]
  | [k, v] =>
    [(storesOf (scope.typing k) code).map (·.index),
      (storesOf (scope.typing v) code).map (·.value)]
  | _ => []

/-- An element of the container is stored under another type than the host type tells: a pointer
to a scalar in a list or a hash table, or an untyped pointer in a pointer array. -/
def Misstored (t : TypeDesc) : Prop :=
  ∃ e ∈ t.params,
    (((∃ k, t.view = .list k) ∨ t.view = .hash) ∧ e.isScalarPointer = true)
      ∨ (∃ info, t.view = .array ∧ t.array = some info ∧ info.storage = .ptrArray)
        ∧ e.view = .void

theorem resolveHost_list (ht : t.WellShaped) {k : ListKind} (hview : t.view = .list k)
    {e : TypeDesc} (he : t.params = [e]) {g : GoType} (hg : elementHost scope e = .ok g)
    (isArg : Bool) : resolveHost scope t isArg = .ok (.slice g) := by
  have hes : e.WellShaped := ht.of_mem_params (by rw [he]; exact List.mem_cons_self)
  rw [elementHost, resolveHost_eq hes] at hg
  rw [resolveHost_eq ht]
  obtain ⟨tag, own, params, entity, array⟩ := t
  change tag.view = .list k at hview
  cases he
  unfold hostType
  rw [hview]
  dsimp only
  rw [hg]
  rfl

theorem resolveHost_hash (ht : t.WellShaped) (hview : t.view = .hash) {k v : TypeDesc}
    (hkv : t.params = [k, v]) {gk gv : GoType} (hk : elementHost scope k = .ok gk)
    (hv : elementHost scope v = .ok gv) (isArg : Bool) :
    resolveHost scope t isArg = .ok (.map gk gv) := by
  have hks : k.WellShaped := ht.of_mem_params (by rw [hkv]; exact List.mem_cons_self)
  have hvs : v.WellShaped :=
    ht.of_mem_params (by rw [hkv]; exact List.mem_cons_of_mem _ List.mem_cons_self)
  rw [elementHost, resolveHost_eq hks] at hk
  rw [elementHost, resolveHost_eq hvs] at hv
  rw [resolveHost_eq ht]
  obtain ⟨tag, own, params, entity, array⟩ := t
  change tag.view = .hash at hview
  cases hkv
  unfold hostType
  rw [hview]
  dsimp only
  rw [hk, hv]
  rfl

theorem resolveHost_array (ht : t.WellShaped) (hview : t.view = .array) {info : ArrayInfo}
    (hinfo : t.array = some info) (hstorage : info.storage = .c ∨ info.storage = .array)
    {e : TypeDesc} (he : t.params = [e]) {g : GoType} (hg : resolveHost scope e false = .ok g)
    (isArg : Bool) : resolveHost scope t isArg = .ok (.slice g) := by
  have hes : e.WellShaped := ht.of_mem_params (by rw [he]; exact List.mem_cons_self)
  rw [resolveHost_eq hes] at hg
  rw [resolveHost_eq ht]
  obtain ⟨tag, own, params, entity, array⟩ := t
  change tag.view = .array at hview
  cases he
  unfold hostType
  rw [hview]
  dsimp only
  rw [arrayInfoOf_eq_ok hinfo, ok_bind]
  rcases hstorage with hstorage | hstorage
  · rw [hstorage, hg]
    rfl
  · rw [hstorage, hg]
    rfl

/-- The indirection that a host type is to have is no matter of the descriptor's own one. -/
theorem hostType_byValue (ht : t.WellShaped) (isArg pointer : Bool) :
    t.byValue.hostType scope isArg pointer = t.hostType scope isArg pointer := by
  obtain ⟨tag, own, params, entity, array⟩ := t
  rw [byValue, hostType.eq_def, hostType.eq_def]
  dsimp only
  cases hview : tag.view with
  | void | basic | boolean | typeHandle | string | error => rfl
  | array =>
    obtain ⟨info, e, hinfo, he, _⟩ := ht.exists_array hview
    cases he
    cases hinfo
    rfl
  | named =>
    obtain ⟨r, hr⟩ := ht.agrees.exists_entity hview
    cases hr
    rfl
  | list k =>
    obtain ⟨e, he, _⟩ := ht.exists_list hview
    cases he
    rfl
  | hash =>
    obtain ⟨k, v, hkv, _, _⟩ := ht.exists_hash hview
    cases hkv
    rfl

theorem resolveHost_ptrArray (ht : t.WellShaped) (hview : t.view = .array) {info : ArrayInfo}
    (hinfo : t.array = some info) (hstorage : info.storage = .ptrArray)
    {e : TypeDesc} (he : t.params = [e]) {g : GoType} (hg : pointerSlotHost scope e = .ok g)
    (isArg : Bool) : resolveHost scope t isArg = .ok (.slice g) := by
  have hes : e.WellShaped := ht.of_mem_params (by rw [he]; exact List.mem_cons_self)
  have hslot : pointerSlotHost scope e = (e.hostType scope false false).map .pointer := by
    rw [pointerSlotHost, resolveHost_eq hes.byValue, pointer_byValue, hostType_byValue hes]
    cases e.hostType scope false false <;> rfl
  rw [hslot] at hg
  obtain ⟨h, hh, rfl⟩ := map_eq_ok_iff.mp hg
  rw [resolveHost_eq ht]
  obtain ⟨tag, own, params, entity, array⟩ := t
  change tag.view = .array at hview
  cases he
  unfold hostType
  rw [hview]
  dsimp only
  rw [arrayInfoOf_eq_ok hinfo, ok_bind, hstorage, hh]
  rfl

theorem resolveHost_byteArray (ht : t.WellShaped) (hview : t.view = .array) {info : ArrayInfo}
    (hinfo : t.array = some info) (hstorage : info.storage = .byteArray)
    {e : TypeDesc} (he : t.params = [e]) (isArg : Bool) :
    resolveHost scope t isArg = .ok (.slice (.plain "byte")) := by
  rw [resolveHost_eq ht]
  obtain ⟨tag, own, params, entity, array⟩ := t
  change tag.view = .array at hview
  cases he
  unfold hostType
  rw [hview]
  dsimp only
  rw [arrayInfoOf_eq_ok hinfo, ok_bind, hstorage]
  rfl

end TypeDesc

/-! ### What code stores -/

/-- Where elements of a type are converted, code stores one value, of the Go type. -/
def FillsWith (scope : Scope) (e : TypeDesc) (code : List Stmt) (g : GoType) : Prop :=
  ∀ env : TypeEnv, env.result = (scope.typing e).result →
    (storesOf env code).map (·.value) = [some g]

namespace Output

variable {scope : Scope} {o : Output} {t e : TypeDesc}

theorem storesNothing_whenTaken (o : Output) (x : Expr) : StoresNothing (o.whenTaken [.run x]) := by
  unfold whenTaken
  split
  · exact storesNothing_run x
  · exact storesNothing_nil

theorem storesNothing_whenElementsTaken (o : Output) (e : TypeDesc) (x : Expr) :
    StoresNothing (o.whenElementsTaken e [.run x]) := by
  unfold whenElementsTaken
  split
  · exact storesNothing_run x
  · exact storesNothing_nil

/-- A value is appended, and nothing behind it stores anything. -/
theorem storesOf_append_cons (ho : o.target.index? = none) (env : TypeEnv) (x : Expr)
    {rest : List Stmt} (hrest : StoresNothing rest) :
    storesOf env (o.append x :: rest) = [⟨none, x.type? env⟩] := by
  show storesOfAssign env o.target (.builtin "append" [o.target, x]) ++ storesOf env rest = _
  rw [hrest env, List.append_nil, storesOfAssign, ho]
  rfl

/-- A new container is empty. -/
theorem storesOf_make_cons (ho : o.target.index? = none) {env : TypeEnv}
    (hmake : env.result "make" = none) {args : List Expr}
    (hargs : (Expr.builtin "make" args).appended? = none) (rest : List Stmt) :
    storesOf env (.assign o.target (.builtin "make" args) :: rest) = storesOf env rest := by
  have htype : (Expr.builtin "make" args).type? env = none := hmake
  show storesOfAssign env o.target (.builtin "make" args) ++ storesOf env rest = _
  rw [storesOfAssign, ho, hargs, htype]
  rfl

/-- A value is stored at an index, and nothing behind it stores anything. -/
theorem storesOf_index_cons (env : TypeEnv) (a i x : Expr) {rest : List Stmt}
    (hrest : StoresNothing rest) :
    storesOf env (.assign (.index a i) x :: rest) = [⟨i.type? env, x.type? env⟩] := by
  show storesOfAssign env (.index a i) x ++ storesOf env rest = _
  rw [hrest env, List.append_nil]
  rfl

/-- All elements of another slice are stored, and nothing behind them. -/
theorem storesOf_slice_cons (ho : o.target.index? = none) {env : TypeEnv} {x : Expr} {g : GoType}
    (hx : x.appended? = none) (htype : x.type? env = some (.slice g)) {rest : List Stmt}
    (hrest : StoresNothing rest) :
    storesOf env (.assign o.target x :: rest) = [⟨none, some g⟩] := by
  show storesOfAssign env o.target x ++ storesOf env rest = _
  rw [hrest env, List.append_nil, storesOfAssign, ho, hx, htype]

/-- A container that is not null is filled by a loop, and stores what the loop does. -/
theorem storesOf_guarded (env : TypeEnv) (guard loop : Head) (body : List Stmt)
    {taken : List Stmt} (htaken : StoresNothing taken) :
    storesOf env [.block guard (.block loop body :: taken)] = storesOf env body := by
  show storesOf env body ++ storesOf env taken ++ [] = _
  rw [htaken env, List.append_nil, List.append_nil]

theorem fillsWith_list (ho : o.target.index? = none) (hes : e.WellShaped)
    (he : t.elementOf = .ok e) (k : ListKind) :
    Yields (fun code => ∃ w x g, e.wordOut scope w = .ok x ∧ e.wordHost scope = .ok g
      ∧ FillsWith scope e code g) (o.list scope k t) := by
  unfold list
  rw [he, ok_bind]
  refine yields_bind fun x hx => yields_pure_iff.mpr ?_
  obtain ⟨g, hg, htype⟩ := TypeDesc.hasType_wordOut hes _ x hx
  refine ⟨_, x, g, hx, hg, fun env henv => ?_⟩
  rw [storesOf_append_of_storesNothing (o.storesNothing_whenTaken _), storesOf_nil_cons ho]
  show (storesOf env (o.append x :: _) ++ []).map Store.value = _
  rw [List.append_nil, storesOf_append_cons ho env x (o.storesNothing_whenElementsTaken e _)]
  exact congrArg (fun t => [t]) (htype env henv)

/-- What counts the elements of an array stores nothing. -/
theorem storesNothing_count (o : Output) (e : TypeDesc) (native : GoType) (info : ArrayInfo) :
    Yields (fun r => StoresNothing r.1) (o.count e native info) := by
  unfold count
  cases info.fixedSize with
  | some size => exact yields_ok_iff.mpr storesNothing_nil
  | none =>
    cases o.length with
    | some length => exact yields_ok_iff.mpr storesNothing_nil
    | none =>
      dsimp only
      split
      · exact yields_bind fun zero _ => yields_pure_iff.mpr fun env => rfl
      · exact yields_error _ _

/-- What the code for an array of elements `e` stores, by the storage of the array. -/
def FillsArray (scope : Scope) (e : TypeDesc) (code : List Stmt) : ArrayStorage → Prop
  | .c => ∃ g, resolveHost scope e false = .ok g ∧ FillsWith scope e code g
  | .array => ∃ g, resolveHost scope e false = .ok g ∧ FillsWith scope e code g
  | .ptrArray => ∃ w x g, e.wordOut scope w = .ok x ∧ e.wordHost scope = .ok g
    ∧ FillsWith scope e code (e.slotType g)
  | .byteArray => FillsWith scope e code (.plain "byte")

theorem fillsArray_array (ho : o.target.index? = none) (hes : e.WellShaped)
    (he : t.elementOf = .ok e) {info : ArrayInfo} (hinfo : t.arrayInfoOf = .ok info) :
    Yields (fun code => FillsArray scope e code info.storage) (o.array scope t) := by
  unfold array
  rw [he, hinfo, ok_bind, ok_bind]
  cases info.storage with
  | c =>
    refine yields_bind fun native _ => yields_bind fun counted hcounted => ?_
    refine yields_bind fun host _ => yields_bind fun x hx => yields_pure_iff.mpr ?_
    obtain ⟨g, hg, htype⟩ := TypeDesc.hasType_valueOut hes _ x hx
    refine ⟨g, hg, fun env henv => ?_⟩
    have hresult : (counted.1.foldl TypeEnv.behind env).result = (scope.typing e).result := by
      rw [result_foldl_behind, henv]
    have hmake : (counted.1.foldl TypeEnv.behind env).result "make" = none := by
      rw [hresult, scope.result_typing e (by decide)]
      rfl
    -- The variables of the count stand in front of the loop and change no type.
    rw [storesOf_append, o.storesNothing_count e native info counted hcounted env, List.nil_append,
      storesOf_make_cons ho hmake rfl, storesOf_guarded _ _ _ _ (o.storesNothing_whenTaken _),
      storesOf_index_cons _ _ _ _ (o.storesNothing_whenElementsTaken e _)]
    exact congrArg (fun t => [t]) (htype _ hresult)
  | array =>
    refine yields_bind fun native _ => yields_bind fun x hx => yields_pure_iff.mpr ?_
    obtain ⟨g, hg, htype⟩ := TypeDesc.hasType_valueOut hes _ x hx
    refine ⟨g, hg, fun env henv => ?_⟩
    rw [storesOf_nil_cons ho, storesOf_guarded _ _ _ _ (o.storesNothing_whenTaken _),
      storesOf_append_cons ho env x (o.storesNothing_whenElementsTaken e _)]
    exact congrArg (fun t => [t]) (htype env henv)
  | ptrArray =>
    refine yields_bind fun x hx => yields_pure_iff.mpr ?_
    obtain ⟨g, hg, htype⟩ := TypeDesc.hasType_wordOut hes _ x hx
    refine ⟨_, x, g, hx, hg, fun env henv => ?_⟩
    rw [storesOf_nil_cons ho, storesOf_guarded _ _ _ _ (o.storesNothing_whenTaken _),
      TypeDesc.slotType]
    cases e.storesPointer with
    | true =>
      rw [if_pos rfl, if_pos rfl, storesOf_append_cons ho env x storesNothing_nil]
      exact congrArg (fun t => [t]) (htype env henv)
    | false =>
      rw [if_neg Bool.false_ne_true, if_neg Bool.false_ne_true]
      show (storesOf _ [o.append _]).map Store.value = _
      rw [storesOf_append_cons ho _ _ storesNothing_nil]
      -- The variable that was declared before has the type of the value.
      have hslot := htype env henv
      simp [Expr.type?, TypeEnv.behind, hslot]
  | byteArray =>
    refine yields_pure_iff.mpr fun env henv => ?_
    have hbytes : env.result "C.GoBytes" = some (.slice (.plain "byte")) := by
      rw [henv, scope.result_typing e (by decide)]
      rfl
    rw [storesOf_nil_cons ho]
    show (storesOf env (.assign o.target (.native "GoBytes" _) :: o.whenTaken _)
      ++ []).map Store.value = _
    have hcopy : ∀ args, (Expr.native "GoBytes" args).type? env
        = some (.slice (.plain "byte")) := fun _ => hbytes
    rw [List.append_nil, storesOf_slice_cons ho rfl (hcopy _) (o.storesNothing_whenTaken _)]
    rfl

/-- A visit to the entries of a hash table stores what the body does, with the variables of the
visit declared. -/
theorem exists_storesOf_hashWalk (env : TypeEnv) (stem : String) (real : Expr) :
    ∃ env' : TypeEnv, env'.result = env.result
      ∧ ∀ body, storesOf env (hashWalk stem real body) = storesOf env' body :=
  ⟨(env.behind (.declareOne (stem ++ "_iter") (.native "GHashTableIter"))).behind
      (.declare [stem ++ "_k", stem ++ "_v"] GoType.gpointer),
    rfl, fun _ => List.append_nil _⟩

/-- The code for a hash table stores each value at its key. -/
theorem storesOf_hash (ho : o.target.index? = none) {k v : TypeDesc} (hk : t.elementOf = .ok k)
    (hv : t.valueOf = .ok v) :
    Yields (fun code => ∃ w x w' y, k.wordOut scope w = .ok x ∧ v.wordOut scope w' = .ok y
      ∧ ∀ env : TypeEnv, env.result "make" = none →
        ∃ env' : TypeEnv, env'.result = env.result
          ∧ storesOf env code = [⟨x.type? env', y.type? env'⟩])
      (o.hash scope t) := by
  unfold hash
  rw [hk, hv, ok_bind, ok_bind]
  refine yields_bind fun host _ => yields_bind fun x hx => yields_bind fun y hy => ?_
  refine yields_pure_iff.mpr ⟨_, x, _, y, hx, hy, fun env hmake => ?_⟩
  rw [storesOf_make_cons ho hmake rfl]
  obtain ⟨env', hresult, hwalk⟩ := exists_storesOf_hashWalk env o.stem o.real
  refine ⟨env', hresult, ?_⟩
  show storesOf env (hashWalk o.stem o.real _ ++ o.whenTaken _) ++ [] = _
  rw [List.append_nil, storesOf_append_of_storesNothing (o.storesNothing_whenTaken _), hwalk,
    storesOf_index_cons _ _ _ _ storesNothing_nil]

end Output

/-! ### Agreement -/

namespace TypeDesc

variable {scope : Scope} {t : TypeDesc}

/-- The container has a host type that spells the host types of its elements, and the code stores
values of these types just when `agree` holds. -/
def StoredIff (scope : Scope) (t : TypeDesc) (isArg : Bool) (code : List Stmt) (agree : Prop) :
    Prop :=
  ∃ host, resolveHost scope t isArg = .ok host ∧ t.elementHosts scope = .ok host.elements
    ∧ (t.storedTypes scope code = host.elements.map (fun g => [some g]) ↔ agree)

/-- A container of elements of one type stores what fills it. -/
theorem storedTypes_of_fillsWith {e : TypeDesc} (he : t.params = [e]) {code : List Stmt}
    {g : GoType} (hfills : FillsWith scope e code g) :
    t.storedTypes scope code = [[some g]] := by
  rw [storedTypes, he]
  exact congrArg (fun ts => [ts]) (hfills (scope.typing e) rfl)

theorem storedIff_list {o : Output} (ho : o.target.index? = none) (ht : t.WellShaped)
    {k : ListKind} (hview : t.view = .list k) (isArg : Bool) :
    Yields (fun code => t.StoredIff scope isArg code (¬t.Misstored)) (o.list scope k t) := by
  obtain ⟨e, he, hes⟩ := ht.exists_list hview
  have helement := elementOf_eq_ok he
  intro code hcode
  obtain ⟨w, x, g, hx, hg, hfills⟩ := Output.fillsWith_list ho hes helement k code hcode
  obtain ⟨h, hh⟩ := exists_elementHost scope hes
  refine ⟨.slice h, resolveHost_list ht hview he hh isArg, ?_, ?_⟩
  · rw [elementHosts, hview, helement]
    dsimp only
    rw [ok_bind, hh]
    rfl
  · have hsame := wordHost_eq_elementHost_iff hes hx
    rw [hg, hh, Except.ok.injEq] at hsame
    rw [storedTypes_of_fillsWith he hfills]
    simp [Misstored, GoType.elements, hview, he, hsame]

theorem storedIff_hash {o : Output} (ho : o.target.index? = none) (ht : t.WellShaped)
    (hview : t.view = .hash) (isArg : Bool) :
    Yields (fun code => t.StoredIff scope isArg code (¬t.Misstored)) (o.hash scope t) := by
  obtain ⟨k, v, hkv, hks, hvs⟩ := ht.exists_hash hview
  have hkey := elementOf_eq_ok hkv
  have hvalue := valueOf_eq_ok hkv
  intro code hcode
  obtain ⟨w, x, w', y, hx, hy, hstores⟩ := Output.storesOf_hash ho hkey hvalue code hcode
  obtain ⟨g, hg, hxtype⟩ := hasType_wordOut hks w x hx
  obtain ⟨g', hg', hytype⟩ := hasType_wordOut hvs w' y hy
  obtain ⟨h, hh⟩ := exists_elementHost scope hks
  obtain ⟨h', hh'⟩ := exists_elementHost scope hvs
  refine ⟨.map h h', resolveHost_hash ht hview hkv hh hh' isArg, ?_, ?_⟩
  · rw [elementHosts, hview, hkey, hvalue]
    dsimp only
    rw [ok_bind, hh, ok_bind, ok_bind, hh']
    rfl
  · have hsame := wordHost_eq_elementHost_iff hks hx
    have hsame' := wordHost_eq_elementHost_iff hvs hy
    rw [hg, hh, Except.ok.injEq] at hsame
    rw [hg', hh', Except.ok.injEq] at hsame'
    -- Keys and values may wrap types of one name, so each is typed on its own.
    have hmake : ∀ e, (scope.typing e).result "make" = none := fun e => by
      rw [scope.result_typing e (by decide)]
      rfl
    obtain ⟨env, henv, hkeys⟩ := hstores (scope.typing k) (hmake k)
    obtain ⟨env', henv', hvalues⟩ := hstores (scope.typing v) (hmake v)
    have hstored : t.storedTypes scope code = [[some g], [some g']] := by
      rw [storedTypes, hkv]
      dsimp only
      rw [hkeys, hvalues, List.map_singleton, List.map_singleton, hxtype env henv,
        hytype env' henv']
    rw [hstored]
    simp [Misstored, GoType.elements, hview, hkv, hsame, hsame']

theorem storedIff_array {o : Output} (ho : o.target.index? = none) (ht : t.WellShaped)
    (hview : t.view = .array) (isArg : Bool) :
    Yields (fun code => t.StoredIff scope isArg code (¬t.Misstored)) (o.array scope t) := by
  obtain ⟨info, e, hinfo, he, hes⟩ := ht.exists_array hview
  have helement := elementOf_eq_ok he
  have hinfo' := arrayInfoOf_eq_ok hinfo
  intro code hcode
  have hfills := Output.fillsArray_array ho hes helement hinfo' code hcode
  -- Arrays of other storage than words keep the host type of the element.
  have hplain : ∀ {g : GoType}, (info.storage = .c ∨ info.storage = .array) →
      resolveHost scope e false = .ok g → FillsWith scope e code g →
      t.StoredIff scope isArg code (¬t.Misstored) := by
    intro g hstorage hg hfills
    refine ⟨.slice g, resolveHost_array ht hview hinfo hstorage he hg isArg, ?_, ?_⟩
    · rw [elementHosts, hview, hinfo', helement]
      rcases hstorage with hstorage | hstorage <;> simp only [ok_bind, hstorage, hg] <;> rfl
    · rw [storedTypes_of_fillsWith he hfills]
      rcases hstorage with hstorage | hstorage <;>
        simp [Misstored, GoType.elements, hview, hinfo, hstorage]
  cases hstorage : info.storage with
  | c =>
    rw [hstorage] at hfills
    obtain ⟨g, hg, hfills⟩ := hfills
    exact hplain (Or.inl hstorage) hg hfills
  | array =>
    rw [hstorage] at hfills
    obtain ⟨g, hg, hfills⟩ := hfills
    exact hplain (Or.inr hstorage) hg hfills
  | ptrArray =>
    rw [hstorage] at hfills
    obtain ⟨w, x, g, hx, hg, hfills⟩ := hfills
    obtain ⟨h, hh⟩ := exists_resolveHost scope hes.byValue false
    have hslot : pointerSlotHost scope e = .ok (.pointer h) := by
      rw [pointerSlotHost, hh]
      rfl
    refine ⟨_, resolveHost_ptrArray ht hview hinfo hstorage he hslot isArg, ?_, ?_⟩
    · rw [elementHosts, hview, hinfo', helement]
      simp only [ok_bind, hstorage, hslot]
      rfl
    · have hsame := slotType_eq_iff hes hx hg
      rw [hslot, Except.ok.injEq, eq_comm] at hsame
      rw [storedTypes_of_fillsWith he hfills]
      simp [Misstored, GoType.elements, hview, hinfo, hstorage, he, hsame]
  | byteArray =>
    rw [hstorage] at hfills
    refine ⟨_, resolveHost_byteArray ht hview hinfo hstorage he isArg, ?_, ?_⟩
    · rw [elementHosts, hview, hinfo']
      simp only [ok_bind, hstorage]
      rfl
    · rw [storedTypes_of_fillsWith he hfills]
      simp [Misstored, GoType.elements, hview, hinfo, hstorage]

end TypeDesc

/-- The values that are stored in a container have the types that its host type spells, unless the
container is misstored. -/
theorem storage_agrees_iff {scope : Scope} {t : TypeDesc} (ht : t.WellShaped)
    (hcontainer : t.IsContainer) (isArg : Bool) {a : Argument} {transfer : Transfer}
    {length : Option Expr} {code : List Stmt}
    (hcode : (a.output transfer length).convert scope t = .ok code) :
    ∃ host, resolveHost scope t isArg = .ok host ∧ t.elementHosts scope = .ok host.elements
      ∧ (t.storedTypes scope code = host.elements.map (fun g => [some g]) ↔ ¬t.Misstored) := by
  have htarget : (a.output transfer length).target.index? = none := by
    show a.hostTarget.index? = none
    unfold Argument.hostTarget
    cases a.role with
    | receiver | result => rfl
    | param p =>
      dsimp only
      split <;> rfl
  unfold Output.convert at hcode
  rcases hcontainer with ⟨k, hview⟩ | hview | hview
  · rw [hview] at hcode
    exact TypeDesc.storedIff_list htarget ht hview isArg code hcode
  · rw [hview] at hcode
    exact TypeDesc.storedIff_hash htarget ht hview isArg code hcode
  · rw [hview] at hcode
    exact TypeDesc.storedIff_array htarget ht hview isArg code hcode

/-- A list of pointers to numbers. -/
def TypeDesc.intPointers : TypeDesc := .list (TypeDesc.ofTag .int32).toPointer

/-- A parameter that such a list comes back through. -/
def Argument.ofIntPointers : Argument :=
  .ofParameter { Parameter.ofType "values" .intPointers with direction := .output }

/-- A list of pointers to numbers is a slice of pointers, and numbers are stored in it. -/
theorem storage_agrees_iff_intPointers :
    ∃ code host, (Argument.ofIntPointers.output .none none).convert (.ofHome "Gtk")
        .intPointers = .ok code
      ∧ resolveHost (.ofHome "Gtk") .intPointers false = .ok host
      ∧ TypeDesc.intPointers.storedTypes (.ofHome "Gtk") code ≠
        host.elements.map (fun g => [some g]) := by
  have hnumber : (TypeDesc.ofTag .int32).toPointer.WellShaped :=
    TypeDesc.wellShaped_iff.mpr ⟨⟨rfl, by decide, by decide⟩, nofun⟩
  have hlist : TypeDesc.intPointers.WellShaped := by
    refine TypeDesc.wellShaped_iff.mpr ⟨⟨rfl, by decide, by decide⟩, fun u hu => ?_⟩
    rw [List.mem_singleton.mp hu]
    exact hnumber
  have hmisstored : TypeDesc.intPointers.Misstored :=
    ⟨_, List.mem_singleton.mpr rfl, Or.inl ⟨Or.inl ⟨.double, rfl⟩, rfl⟩⟩
  have hok : ∃ code, (Argument.ofIntPointers.output .none none).convert (.ofHome "Gtk") .intPointers
      = .ok code := ⟨_, rfl⟩
  obtain ⟨code, hcode⟩ := hok
  obtain ⟨host, hhost, _, hagree⟩ :=
    storage_agrees_iff hlist (Or.inl ⟨.double, rfl⟩) false hcode
  exact ⟨code, host, hcode, hhost, fun h => hagree.mp h hmisstored⟩

end Introspection
