import Introspection.Conversion.Basic
import Introspection.Proofs.Code.Effect
import Introspection.Proofs.Conversion.Role

/-!
# `Introspection.Proofs.Conversion.Release`: who gives native memory back

Passing a string or a container allocates native memory. `clean_of_convert` says for every
argument what its conversion gives back when the call is over: nothing when the callee takes full
ownership or nothing was allocated, else the native value itself, once, behind one loop for each
type of elements that are copied strings.

`Holds` says how a native value in a local is given back: the loops that visit its elements
(`Visit`), and the function that takes the value itself. A value that is passed both ways is given
back from a second local that the callee never sees (`passedLocal`).
-/

set_option autoImplicit false

namespace Introspection

open Introspection.Code

/-! ### What is owed for a native value -/

/-- Passing a value of the type allocates native memory. -/
def TypeDesc.Allocates (t : TypeDesc) : Prop :=
  t.view = .string ∨ t.view = .array ∨ (∃ k, t.view = .list k) ∨ t.view = .hash

/-- A loop over elements of a native container. -/
structure Visit where
  /-- Type of the elements. -/
  element : TypeDesc
  head : Head
  /-- The element that is visited. -/
  item : Expr

/-- The release of the element that a loop visits. -/
def Visit.release (v : Visit) : Release := ⟨[v.head], "free", v.item⟩

/-- The releases of the elements that are copies. -/
def copyReleases (visits : List Visit) : List Release :=
  (visits.filter (·.element.isCopied)).map Visit.release

/-- The loop over the nodes of the list in `real`. -/
def nodeHead (real : String) : Head :=
  .walk (real ++ "_l") (.inner real) (.notNil (.inner (real ++ "_l")))
    (.assign (real ++ "_l") (.member (.inner (real ++ "_l")) "next"))

/-- The start of an iteration over the hash table in `real`. -/
def iterationStart (real : String) : Stmt :=
  .run (.native "g_hash_table_iter_init" [.address (.inner (real ++ "_iter")), .inner real])

/-- The loop over the entries of an iteration. -/
def entryHead (real : String) : Head :=
  .loop
    (.differs
      (.native "g_hash_table_iter_next"
        [.address (.inner (real ++ "_iter")), .address (.inner (real ++ "_k")),
          .address (.inner (real ++ "_v"))])
      (.nativeConst "FALSE"))

/-- The loop over the elements of a slice. -/
def itemHead (real : String) (slice : Expr) : Head := .range "_" (real ++ "_e") slice

/-- How the native value of a type in the local `real` is given back: the loops over the elements
that it holds, and the function that takes the value itself. `before` is the code that made the
value, `release` the code that gives it back. -/
inductive Holds (before release : List Stmt) (real : String) (t : TypeDesc) :
    List Visit → String → Prop
  | string : t.view = .string → Holds before release real t [] "free"
  | list {k : ListKind} {e : TypeDesc} : t.view = .list k → t.elementOf = .ok e →
    Holds before release real t
      [⟨e, nodeHead real, .member (.inner (real ++ "_l")) "data"⟩] (k.symbol ++ "_free")
  | hash {k v : TypeDesc} : t.view = .hash → t.elementOf = .ok k → t.valueOf = .ok v →
    (k.isCopied = true ∨ v.isCopied = true → iterationStart real ∈ release) →
    Holds before release real t
      [⟨k, entryHead real, .inner (real ++ "_k")⟩, ⟨v, entryHead real, .inner (real ++ "_v")⟩]
      "g_hash_table_unref"
  /-- The slice of a C array has as many elements as were allocated. -/
  | cArray {info : ArrayInfo} {e : TypeDesc} {native : GoType} {count : Expr} :
    t.view = .array → t.arrayInfoOf = .ok info → info.storage = .c → t.elementOf = .ok e →
    .define real (allocate native count) ∈ before →
    .define (real ++ "_view") (.slice (.inner real) count) ∈ before →
    Holds before release real t
      [⟨e, itemHead real (.inner (real ++ "_view")), .inner (real ++ "_e")⟩] "g_free"
  | array {info : ArrayInfo} {e : TypeDesc} {native : GoType} :
    t.view = .array → t.arrayInfoOf = .ok info → info.storage = .array → t.elementOf = .ok e →
    resolveNative e = .ok native →
    Holds before release real t
      [⟨e, itemHead real (arrayView native (.inner real)), .inner (real ++ "_e")⟩] "g_array_free"
  | ptrArray {info : ArrayInfo} {e : TypeDesc} :
    t.view = .array → t.arrayInfoOf = .ok info → info.storage = .ptrArray →
    t.elementOf = .ok e →
    Holds before release real t
      [⟨e, itemHead real (ptrArrayView (.inner real)), .inner (real ++ "_e")⟩] "g_ptr_array_free"
  /-- Bytes are no copies that a container points to. -/
  | byteArray {info : ArrayInfo} :
    t.view = .array → t.arrayInfoOf = .ok info → info.storage = .byteArray →
    Holds before release real t [] "g_byte_array_unref"

/-- The loops stay the same when more code stands around the code that made the value. -/
theorem Holds.mono {before before' release : List Stmt} {real giver : String} {t : TypeDesc}
    {visits : List Visit} (h : Holds before release real t visits giver)
    (hsub : ∀ s ∈ before, s ∈ before') : Holds before' release real t visits giver := by
  cases h with
  | string ht => exact .string ht
  | list ht he => exact .list ht he
  | hash ht hk hv hstart => exact .hash ht hk hv hstart
  | cArray ht hinfo hstorage he hreal hview =>
    exact .cArray ht hinfo hstorage he (hsub _ hreal) (hsub _ hview)
  | array ht hinfo hstorage he hnative => exact .array ht hinfo hstorage he hnative
  | ptrArray ht hinfo hstorage he => exact .ptrArray ht hinfo hstorage he
  | byteArray ht hinfo hstorage => exact .byteArray ht hinfo hstorage

/-- What a loop visits is no local whose name is as short as that of the container. -/
theorem Holds.item_ne {before release : List Stmt} {real giver : String} {t : TypeDesc}
    {visits : List Visit} (h : Holds before release real t visits giver) {name : String}
    (hname : name.length ≤ real.length) : ∀ v ∈ visits, v.item ≠ .inner name := by
  -- The locals of the loops have the name of the container in front, and something behind it.
  have hlonger : ∀ s : String, 0 < s.length → real ++ s ≠ name :=
    fun s hs => Stmt.append_ne_of_length_le hs hname
  cases h with
  | string | byteArray => nofun
  | list => simp
  | hash => simp [hlonger "_k" (by decide), hlonger "_v" (by decide)]
  | cArray | array | ptrArray => simp [hlonger "_e" (by decide)]

/-- The native value in the local `real` is given back once, by the last statement, and before
it those of its elements that are copies. -/
def GivesBack (before release : List Stmt) (real : String) (t : TypeDesc) : Prop :=
  ∃ visits giver, Holds before release real t visits giver
    ∧ (∀ v ∈ visits, v.item ≠ .inner real)
    ∧ Stmt.releasesOf release = copyReleases visits ++ [⟨[], giver, .inner real⟩]

/-- What is given back when a value of the type was passed in the local `real`. -/
structure Settles (real : String) (t : TypeDesc) (transfer : Transfer) (p : Passing) : Prop where
  empty_iff : p.release = [] ↔ transfer = .full ∨ ¬t.Allocates
  givesBack : p.release ≠ [] → GivesBack p.code p.release real t

/-- A loop over elements frees those that are copies. -/
theorem releasesOf_visit (e : TypeDesc) (head : Head) {item : Expr}
    (hitem : item.underlying = item) :
    Stmt.releasesOf (if e.isCopied then [.block head [.run (.free item)]] else [])
      = copyReleases [⟨e, head, item⟩] := by
  cases hcopied : e.isCopied with
  | false => simp [copyReleases, hcopied]
  | true =>
    have hfree : Stmt.releasesOf [.run (.free item)] = [⟨[], "free", item⟩] := by
      rw [Stmt.releasesOf_singleton, Expr.free, Stmt.releases_run_native (by decide)]
      show [Release.mk [] "free" item.underlying] = _
      rw [hitem]
    rw [if_pos rfl, Stmt.releasesOf_singleton, Stmt.releases, hfree]
    simp [copyReleases, hcopied, Visit.release]

/-- An iteration over the entries of a hash table frees the keys and the values that are copies. -/
theorem releasesOf_entries (k v : TypeDesc) (real : String) :
    Stmt.releasesOf
        (if k.isCopied || v.isCopied then
          hashWalk real (.inner real)
            ((if k.isCopied then [Stmt.run (.free (.inner (real ++ "_k")))] else [])
              ++ if v.isCopied then [Stmt.run (.free (.inner (real ++ "_v")))] else [])
        else [])
      = copyReleases
          [⟨k, entryHead real, .inner (real ++ "_k")⟩,
            ⟨v, entryHead real, .inner (real ++ "_v")⟩] := by
  have hfree : ∀ name, (Stmt.run (.free (.inner name))).releases = [⟨[], "free", .inner name⟩] :=
    fun name => Stmt.releases_run_native (by decide) _ _
  have hstart : (iterationStart real).releases = [] :=
    Stmt.releases_run_native_of_not_mem (by decide) _
  have hwalk : ∀ body, Stmt.releasesOf (hashWalk real (.inner real) body)
      = (Stmt.releasesOf body).map fun r => { r with inside := entryHead real :: r.inside } := by
    intro body
    show [] ++ ([] ++ ((iterationStart real).releases ++ (_ ++ []))) = _
    rw [hstart]
    simp
    rfl
  cases hk : k.isCopied <;> cases hv : v.isCopied <;>
    simp [copyReleases, Visit.release, hk, hv, hwalk, Stmt.releasesOf, hfree]

/-- Behind the loops over its elements a native value is given back by the last statement. -/
theorem givesBack_of_holds (copies : List Stmt) {before : List Stmt} {real giver : String}
    {t : TypeDesc} {visits : List Visit} {e : Expr} {es : List Expr}
    (hholds : Holds before (copies ++ [.run (.native giver (e :: es))]) real t visits giver)
    (hgiver : giver ∈ givers) (he : e.underlying = .inner real)
    (hcopies : Stmt.releasesOf copies = copyReleases visits) :
    GivesBack before (copies ++ [.run (.native giver (e :: es))]) real t := by
  refine ⟨visits, giver, hholds, hholds.item_ne (Nat.le_refl _), ?_⟩
  rw [Stmt.releasesOf_append, hcopies, Stmt.releasesOf_singleton,
    Stmt.releases_run_native hgiver, he]

namespace Input

variable (i : Input)

/-- Code that gives back a value, unless the callee takes it, settles what passing it owes. -/
theorem settles_whenKept {t : TypeDesc} {code release : List Stmt} (ht : t.Allocates)
    (hback : GivesBack code release i.real t) :
    Settles i.real t i.transfer ⟨code, i.whenKept release⟩ := by
  -- The value itself is given back, so there is code for it.
  have hne : release ≠ [] := by
    rintro rfl
    obtain ⟨visits, giver, _, _, hreleases⟩ := hback
    exact List.append_ne_nil_of_right_ne_nil _ (List.cons_ne_nil _ _) hreleases.symm
  unfold whenKept keeps
  cases htransfer : i.transfer with
  | full => exact ⟨⟨fun _ => Or.inl rfl, fun _ => rfl⟩, fun h => absurd rfl h⟩
  | none | container =>
    refine ⟨⟨fun h => absurd h hne, ?_⟩, fun _ => hback⟩
    rintro (h | h)
    · cases h
    · exact absurd ht h

/-- A value without memory of its own owes nothing. -/
theorem settles_of_not_allocates {t : TypeDesc} {code : List Stmt} (ht : ¬t.Allocates) :
    Settles i.real t i.transfer ⟨code, []⟩ :=
  ⟨⟨fun _ => Or.inr ht, fun _ => rfl⟩, fun h => absurd rfl h⟩

theorem settles_list {t : TypeDesc} {k : ListKind} (ht : t.view = .list k) :
    Yields (Settles i.real t i.transfer) (i.list k t) := by
  have ht' : t.Allocates := Or.inr (Or.inr (Or.inl ⟨k, ht⟩))
  have hgiver : k.symbol ++ "_free" ∈ givers := by cases k <;> decide
  unfold list
  refine yields_bind fun e he => yields_bind fun native _ => yields_bind fun word _ => ?_
  rw [yields_pure_iff]
  refine i.settles_whenKept ht' (givesBack_of_holds _ (.list ht he) hgiver rfl ?_)
  exact releasesOf_visit e (nodeHead i.real) rfl

theorem settles_hash {t : TypeDesc} (ht : t.view = .hash) :
    Yields (Settles i.real t i.transfer) (i.hash t) := by
  have ht' : t.Allocates := Or.inr (Or.inr (Or.inr ht))
  unfold hash
  refine yields_bind fun k hk => yields_bind fun v hv => ?_
  refine yields_bind fun keyWord _ => yields_bind fun valueWord _ => ?_
  rw [yields_pure_iff]
  refine i.settles_whenKept ht' (givesBack_of_holds _ (.hash ht hk hv ?_) (by decide) rfl ?_)
  · intro hcopied
    have hany : (k.isCopied || v.isCopied) = true := Bool.or_eq_true_iff.mpr hcopied
    rw [if_pos hany]
    simp [hashWalk, iterationStart, realExpr]
  · exact releasesOf_entries k v i.real

theorem settles_array {t : TypeDesc} (ht : t.view = .array) :
    Yields (Settles i.real t i.transfer) (i.array t) := by
  have ht' : t.Allocates := Or.inr (Or.inl ht)
  unfold array
  refine yields_bind fun info hinfo => yields_bind fun e he => ?_
  cases hstorage : info.storage with
  | c =>
    refine yields_bind fun native _ => yields_bind fun value _ => ?_
    rw [yields_pure_iff]
    refine i.settles_whenKept ht' (givesBack_of_holds _
      (.cArray ht hinfo hstorage he List.mem_cons_self
        (List.mem_cons_of_mem _ List.mem_cons_self)) (by decide) rfl ?_)
    exact releasesOf_visit e (itemHead i.real _) rfl
  | array =>
    refine yields_bind fun native hnative => yields_bind fun value _ => ?_
    rw [yields_pure_iff]
    refine i.settles_whenKept ht' (givesBack_of_holds _
      (.array ht hinfo hstorage he hnative) (by decide) rfl ?_)
    exact releasesOf_visit e (itemHead i.real _) rfl
  | ptrArray =>
    refine yields_bind fun word _ => ?_
    rw [yields_pure_iff]
    refine i.settles_whenKept ht' (givesBack_of_holds _
      (.ptrArray ht hinfo hstorage he) (by decide) rfl ?_)
    exact releasesOf_visit e (itemHead i.real _) rfl
  | byteArray =>
    rw [yields_pure_iff]
    -- There is nothing in front of the last statement.
    refine i.settles_whenKept ht' (givesBack_of_holds []
      (.byteArray ht hinfo hstorage) (by decide) rfl rfl)

/-- What passing a value of any type owes is settled. -/
theorem settles_convert (nullable : Bool) (t : TypeDesc) :
    Yields (Settles i.real t i.transfer) (i.convert nullable t) := by
  have hscalar : ¬t.Allocates → Yields (Settles i.real t i.transfer) (i.scalar t) := by
    intro ht
    unfold scalar
    refine yields_bind fun native _ => ?_
    split <;> exact yields_pure_iff.mpr (i.settles_of_not_allocates ht)
  unfold convert
  cases hview : t.view with
  | void =>
    have ht : ¬t.Allocates := by simp [TypeDesc.Allocates, hview]
    cases t.pointer with
    | true => exact yields_ok_iff.mpr (i.settles_of_not_allocates ht)
    | false => exact yields_error _ _
  | boolean =>
    have ht : ¬t.Allocates := by simp [TypeDesc.Allocates, hview]
    cases t.pointer with
    | true => exact yields_error _ _
    | false => exact yields_ok_iff.mpr (i.settles_of_not_allocates ht)
  | basic | typeHandle => exact hscalar (by simp [TypeDesc.Allocates, hview])
  | string =>
    refine yields_ok_iff.mpr (i.settles_whenKept (Or.inl hview) ?_)
    exact givesBack_of_holds [] (.string hview) (by decide) rfl rfl
  | named =>
    refine yields_bind fun code _ => yields_pure_iff.mpr (i.settles_of_not_allocates ?_)
    simp [TypeDesc.Allocates, hview]
  | array => exact i.settles_array hview
  | list k => exact i.settles_list hview
  | hash => exact i.settles_hash hview
  | error => exact yields_error _ _

end Input

/-! ### Arguments -/

namespace Argument

variable (scope : Scope) (a : Argument)

/-- The local that holds the value that was passed in. -/
def passedLocal (p : ParamRole) : String :=
  if p.direction = .inout then a.nativeLocal ++ "_in" else a.nativeLocal

theorem release_convertReceiver (via : Option EntityRef) :
    Yields (fun c => c.release = []) (a.convertReceiver via) := by
  unfold convertReceiver
  refine yields_bind fun owner _ => ?_
  split
  · exact yields_pure_iff.mpr rfl
  · exact yields_bind fun native _ => yields_pure_iff.mpr rfl

theorem release_convertHidden (direction : Direction) (hidden : Hidden) :
    Yields (fun c => c.release = []) (a.convertHidden direction hidden) := by
  unfold convertHidden
  refine yields_bind fun native _ => ?_
  cases hidden with
  | lengthOf array =>
    dsimp only
    split <;> exact yields_pure_iff.mpr rfl
  | skipped => exact yields_pure_iff.mpr rfl

theorem release_convertOutput (transfer : Transfer) (length : Option String) :
    Yields (fun c => c.release = []) (a.convertOutput scope transfer length) := by
  unfold convertOutput
  exact yields_bind fun native _ => yields_bind fun after _ => yields_pure_iff.mpr rfl

theorem release_convertStructure :
    Yields (fun c => c.release = []) (a.convertStructure scope) := by
  unfold convertStructure
  exact yields_bind fun native _ => yields_bind fun copy _ => yields_pure_iff.mpr rfl

/-- A buffer for the callee is given back whatever becomes of its elements. -/
theorem releases_convertBuffer (p : ParamRole) :
    Yields (fun c => Stmt.releasesOf c.release = [⟨[], "g_free", a.realExpr⟩])
      (a.convertBuffer scope p) := by
  unfold convertBuffer
  refine yields_bind fun info _ => yields_bind fun e _ => yields_bind fun native _ => ?_
  refine yields_bind fun after _ => yields_pure_iff.mpr ?_
  rw [Stmt.releasesOf_singleton]
  exact Stmt.releases_run_native (by decide) _ _

/-- A value that is passed both ways is given back from the local that the callee never sees. -/
theorem settles_convertInout (p : ParamRole) :
    Yields (fun c => Settles (a.nativeLocal ++ "_in") a.type p.transfer ⟨c.before, c.release⟩
      ∧ (c.release ≠ [] → .define a.nativeLocal (.inner (a.nativeLocal ++ "_in")) ∈ c.before))
      (a.convertInout scope p) := by
  unfold convertInout
  refine yields_bind fun passing hpassing => yields_bind fun direct _ => ?_
  refine yields_bind fun after _ => yields_pure_iff.mpr ?_
  have hsettles := Input.settles_convert _ p.nullable a.type passing hpassing
  -- The second local is there only for something to give back.
  cases hrelease : passing.release.isEmpty with
  | true =>
    have hempty : passing.release = [] := List.isEmpty_iff.mp hrelease
    refine ⟨⟨hsettles.empty_iff, fun h => absurd hempty h⟩, fun h => absurd hempty h⟩
  | false =>
    refine ⟨⟨hsettles.empty_iff, fun h => ?_⟩, fun _ => ?_⟩
    · obtain ⟨visits, giver, hholds, hitems, hreleases⟩ := hsettles.givesBack h
      refine ⟨visits, giver, hholds.mono fun s hs => ?_, hitems, hreleases⟩
      exact List.mem_append_left _ hs
    · exact List.mem_append_right _ List.mem_cons_self

/-- Nothing but a local of the body that holds the value passed in, or an element of it, is given
back. -/
theorem value_ne_of_givesBack {before release : List Stmt} {t : TypeDesc}
    (h : GivesBack before release (a.nativeLocal ++ "_in") t) :
    ∀ r ∈ Stmt.releasesOf release, r.value ≠ a.realExpr := by
  obtain ⟨visits, giver, hholds, _, hreleases⟩ := h
  have hlength : a.nativeLocal.length ≤ (a.nativeLocal ++ "_in").length := by
    rw [String.length_append]
    omega
  rw [hreleases]
  intro r hr
  rcases List.mem_append.mp hr with hcopy | hlast
  · obtain ⟨v, hv, rfl⟩ := List.mem_map.mp hcopy
    exact hholds.item_ne hlength v (List.mem_filter.mp hv).1
  · rw [List.mem_singleton.mp hlast]
    intro heq
    exact absurd (Expr.inner.inj heq) (by simp)

end Argument

namespace Argument

/-- What the conversion of an argument gives back when the call is over. -/
structure Clean (a : Argument) (c : Conversion) : Prop where
  /-- A value that goes in, and is not hidden, owes what its type and transfer say. -/
  settles : ∀ p, a.role = .param p → p.hidden = none → p.direction ≠ .output →
    Settles (a.passedLocal p) a.type p.transfer ⟨c.before, c.release⟩
  /-- A value that comes back as well does not give back the local whose address is passed. -/
  apart : ∀ p, a.role = .param p → p.hidden = none → p.direction = .inout → c.release ≠ [] →
    a.callArg = some (.address a.realExpr)
      ∧ .define a.nativeLocal (.inner (a.passedLocal p)) ∈ c.before
      ∧ ∀ r ∈ Stmt.releasesOf c.release, r.value ≠ a.realExpr
  /-- A buffer for the callee gives back itself. -/
  buffer : ∀ p, a.role = .param p → p.hidden = none → a.fillsBuffer = true →
    Stmt.releasesOf c.release = [⟨[], "g_free", a.realExpr⟩]
  /-- Nothing else gives anything back. -/
  nothing : (∀ p, a.role = .param p →
    p.hidden ≠ none ∨ p.direction = .output ∧ a.fillsBuffer = false) → c.release = []

variable {scope : Scope} {a : Argument} {p : ParamRole} {c : Conversion}

theorem param_inj {q : ParamRole} (hp : a.role = .param p) (hq : a.role = .param q) : p = q :=
  Role.param.inj (hp.symm.trans hq)

/-- The conversion of what is no parameter, is hidden or only comes back gives nothing back. -/
theorem clean_of_release_eq_nil (hc : c.release = [])
    (h : ∀ p, a.role = .param p → p.hidden ≠ none ∨ p.direction = .output ∧ a.fillsBuffer = false) :
    a.Clean c := by
  refine ⟨?_, ?_, ?_, fun _ => hc⟩
  · intro p hrole hhidden hdirection
    rcases h p hrole with hp | hp
    · exact absurd hhidden hp
    · exact absurd hp.1 hdirection
  · intro p _ _ _ hne
    exact absurd hc hne
  · intro p hrole hhidden hfills
    rcases h p hrole with hp | hp
    · exact absurd hhidden hp
    · rw [hp.2] at hfills
      cases hfills

/-- What is no parameter gives nothing back. -/
theorem clean_of_role_ne (hrole : ∀ p, a.role ≠ .param p) (hc : c.release = []) : a.Clean c :=
  clean_of_release_eq_nil hc fun p hp => absurd hp (hrole p)

/-- A parameter that is hidden or only comes back gives nothing back. -/
theorem clean_of_param (hrole : a.role = .param p)
    (hp : p.hidden ≠ none ∨ p.direction = .output ∧ a.fillsBuffer = false)
    (hc : c.release = []) : a.Clean c := by
  refine clean_of_release_eq_nil hc fun q hq => ?_
  cases param_inj hrole hq
  exact hp

/-- The conversion of a value that goes in settles what passing it owes. -/
theorem clean_of_settles (hrole : a.role = .param p) (hhidden : p.hidden = none)
    (hdirection : p.direction ≠ .output)
    (hsettles : Settles (a.passedLocal p) a.type p.transfer ⟨c.before, c.release⟩)
    (hbefore : p.direction = .inout → c.release ≠ [] →
      .define a.nativeLocal (.inner (a.passedLocal p)) ∈ c.before) : a.Clean c := by
  have hfills : ¬a.fillsBuffer = true := fun h => hdirection (direction_of_fillsBuffer hrole h)
  refine ⟨?_, ?_, fun _ _ _ h => absurd h hfills, ?_⟩
  · intro q hq _ _
    cases param_inj hrole hq
    exact hsettles
  · intro q hq _ hinout hne
    cases param_inj hrole hq
    have hback := hsettles.givesBack hne
    rw [passedLocal, if_pos hinout] at hback
    refine ⟨?_, hbefore hinout hne, a.value_ne_of_givesBack hback⟩
    -- Only what goes in, or a buffer, is passed without its address.
    simp [callArg, hrole, hinout, hfills, realExpr]
  · intro h
    rcases h p hrole with hp | hp
    · exact absurd hhidden hp
    · exact absurd hp.1 hdirection

/-- The conversion of a buffer for the callee gives back the buffer. -/
theorem clean_of_buffer (hrole : a.role = .param p) (hhidden : p.hidden = none)
    (hfills : a.fillsBuffer = true)
    (hc : Stmt.releasesOf c.release = [⟨[], "g_free", a.realExpr⟩]) : a.Clean c := by
  have hdirection := direction_of_fillsBuffer hrole hfills
  refine ⟨?_, ?_, fun _ _ _ _ => hc, ?_⟩
  · intro q hq _ hne
    cases param_inj hrole hq
    exact absurd hdirection hne
  · intro q hq _ hinout
    cases param_inj hrole hq
    cases hdirection.symm.trans hinout
  · intro h
    rcases h p hrole with hp | hp
    · exact absurd hhidden hp
    · cases hfills.symm.trans hp.2

end Argument

open Argument in
/-- The conversion of an argument gives back what it has to, and nothing else. -/
theorem clean_of_convert {scope : Scope} {a : Argument} {c : Conversion}
    (hc : a.convert scope = .ok c) : a.Clean c := by
  refine yields_convert (motive := a.Clean) scope a ?receiver ?hidden ?input ?inout ?buffer
    ?struct ?output ?result ?dropped c hc
  case receiver =>
    intro via hrole c hc
    refine clean_of_role_ne (fun p hp => ?_) (a.release_convertReceiver via c hc)
    cases hrole.symm.trans hp
  case hidden =>
    intro p why hrole hhidden c hc
    refine clean_of_param hrole (Or.inl ?_) (a.release_convertHidden p.direction why c hc)
    rw [hhidden]
    exact nofun
  case input =>
    intro p hrole hhidden hdirection passing hpassing
    have hne : p.direction ≠ .inout := by
      rw [hdirection]
      exact nofun
    have hsettles := Input.settles_convert _ p.nullable a.type passing hpassing
    refine clean_of_settles hrole hhidden (by rw [hdirection]; exact nofun) ?_ fun h => absurd h hne
    -- A value that only goes in has no second local.
    rw [passedLocal, if_neg hne]
    exact hsettles
  case inout =>
    intro p hrole hhidden hdirection c hc
    obtain ⟨hsettles, hbefore⟩ := a.settles_convertInout scope p c hc
    have hlocal : a.passedLocal p = a.nativeLocal ++ "_in" := if_pos hdirection
    refine clean_of_settles hrole hhidden (by rw [hdirection]; exact nofun) ?_ fun _ hne => ?_
    · rw [hlocal]
      exact hsettles
    · rw [hlocal]
      exact hbefore hne
  case buffer =>
    intro p hrole hhidden hfills c hc
    exact clean_of_buffer hrole hhidden hfills (a.releases_convertBuffer scope p c hc)
  case struct =>
    intro p hrole _ hdirection hfills _ c hc
    have hempty := a.release_convertStructure scope c hc
    exact clean_of_param hrole (Or.inr ⟨hdirection, hfills⟩) hempty
  case output =>
    intro p hrole _ hdirection hfills _ c hc
    have hempty := a.release_convertOutput scope _ _ c hc
    exact clean_of_param hrole (Or.inr ⟨hdirection, hfills⟩) hempty
  case result =>
    intro r hrole _ c hc
    refine clean_of_role_ne (fun p hp => ?_) (a.release_convertOutput scope _ _ c hc)
    cases hrole.symm.trans hp
  case dropped =>
    intro r hrole _
    refine clean_of_role_ne (fun p hp => ?_) rfl
    cases hrole.symm.trans hp

/-- A list of strings that is passed both ways. -/
def Argument.ofNames : Argument :=
  .ofParameter { Parameter.ofType "names" (.list .utf8) with direction := .inout }

/-- The strings and the list that were passed in are given back, not what the callee leaves. -/
theorem clean_of_convert_ofNames :
    ∃ c, Argument.ofNames.convert (.ofHome "Gtk") = .ok c
      ∧ GivesBack c.before c.release "real_names_in" (.list .utf8)
      ∧ ∀ r ∈ Stmt.releasesOf c.release, r.value ≠ .inner "real_names" := by
  have hok : ∃ c, Argument.ofNames.convert (.ofHome "Gtk") = .ok c := ⟨_, rfl⟩
  obtain ⟨c, hc⟩ := hok
  have hclean := clean_of_convert hc
  have hne : c.release ≠ [] := by
    intro hempty
    have h := (hclean.settles _ rfl rfl nofun).empty_iff.mp hempty
    rcases h with h | h
    · cases h
    · exact h (Or.inr (Or.inr (Or.inl ⟨.double, rfl⟩)))
  exact ⟨c, hc, (hclean.settles _ rfl rfl nofun).givesBack hne,
    (hclean.apart _ rfl rfl rfl hne).2.2⟩

end Introspection
