import Introspection.Declaration.Getter
import Introspection.Proofs.Code.Access
import Introspection.Proofs.Conversion.Release
import Introspection.Proofs.Conversion.Storage
import Mathlib.Data.List.Flatten

/-!
# `Introspection.Proofs.Conversion.Ownership`: who gives native memory back after the call

A value that comes out of a call is converted, and given back as far as it changed hands. `Reads`
says how the code for a native container goes through its elements and how the container itself is
given back, and `accesses_container` lists what the code copies and gives back, in order.

`disciplined_iff` compares this with the transfer. What is kept is not given back, a container that
changed hands is given back once, and with its strings when these changed hands too; but the
strings in hash tables and pointer arrays are copied and never given back.
-/

set_option autoImplicit false

namespace Introspection

open Introspection.Code

/-! ### Elements of containers -/

/-- An element of a native container that code converts. -/
structure Reading where
  /-- Type of the element. -/
  element : TypeDesc
  /-- What opens the blocks around the conversion, outermost first. -/
  inside : List Head
  /-- The native element. -/
  item : Expr

/-- The characters of the element are copied into a Go string. -/
def Reading.copy (r : Reading) : Access := ⟨r.inside, "GoString", r.item⟩

/-- The element is given back. -/
def Reading.free (r : Reading) : Access := ⟨r.inside, "g_free", r.item⟩

/-- What is accessed for an element that is handed on or not: a string is copied, and given back
if `freed` says so. -/
def Reading.accesses (freed : Bool) (r : Reading) : List Access :=
  if r.element.isCopied then r.copy :: (if freed then [r.free] else []) else []

/-- The condition that there is a native value. -/
def unlessNil (real : Expr) : Head := .ifTrue (.notNil real)

namespace Output

/-- The native value and the place for the converted one are variables or parts of them, and the
number of elements is read without copying anything. -/
structure Plain (o : Output) : Prop where
  real : o.real.isPlace = true
  target : o.target.isPlace = true
  length : ∀ n, o.length = some n → n.accesses = []

/-- How code goes through the native container of a type: the elements that it converts, how the
container is given back, and whether elements are given back that are copied and changed hands. -/
inductive Reads (o : Output) (t : TypeDesc) : List Reading → Access → Bool → Prop
  | list {k : ListKind} {e : TypeDesc} : t.view = .list k → t.elementOf = .ok e →
    Reads o t
      [⟨e, [.walk (o.stem ++ "_l") o.real (.notNil (.inner (o.stem ++ "_l")))
          (.assign (o.stem ++ "_l") (.member (.inner (o.stem ++ "_l")) "next"))],
        .member (.inner (o.stem ++ "_l")) "data"⟩]
      ⟨[], k.symbol ++ "_free", o.real⟩ true
  | hash {k v : TypeDesc} : t.view = .hash → t.elementOf = .ok k → t.valueOf = .ok v →
    Reads o t
      [⟨k, [unlessNil o.real, entryHead o.stem], .inner (o.stem ++ "_k")⟩,
        ⟨v, [unlessNil o.real, entryHead o.stem], .inner (o.stem ++ "_v")⟩]
      ⟨[unlessNil o.real], "g_hash_table_unref", o.real⟩ false
  | cArray {info : ArrayInfo} {e : TypeDesc} {native : GoType} {counted : List Stmt × Expr} :
    t.view = .array → t.arrayInfoOf = .ok info → info.storage = .c → t.elementOf = .ok e →
    o.count e native info = .ok counted →
    Reads o t
      [⟨e, [unlessNil o.real, .range (o.stem ++ "_i") (o.stem ++ "_e") (.slice o.real counted.2)],
        .inner (o.stem ++ "_e")⟩]
      ⟨[unlessNil o.real], "g_free", o.real⟩ true
  | array {info : ArrayInfo} {e : TypeDesc} {native : GoType} :
    t.view = .array → t.arrayInfoOf = .ok info → info.storage = .array → t.elementOf = .ok e →
    resolveNative e = .ok native →
    Reads o t
      [⟨e, [unlessNil o.real, .range "_" (o.stem ++ "_e") (arrayView native o.real)],
        .inner (o.stem ++ "_e")⟩]
      ⟨[unlessNil o.real], "g_array_free", o.real⟩ true
  | ptrArray {info : ArrayInfo} {e : TypeDesc} :
    t.view = .array → t.arrayInfoOf = .ok info → info.storage = .ptrArray → t.elementOf = .ok e →
    Reads o t
      [⟨e, [unlessNil o.real, .range "_" (o.stem ++ "_e") (ptrArrayView o.real)],
        .inner (o.stem ++ "_e")⟩]
      ⟨[unlessNil o.real], "g_ptr_array_unref", o.real⟩ false
  /-- Bytes are copied as a whole. -/
  | byteArray {info : ArrayInfo} :
    t.view = .array → t.arrayInfoOf = .ok info → info.storage = .byteArray →
    Reads o t [] ⟨[unlessNil o.real], "g_byte_array_unref", o.real⟩ true

end Output

/-! ### Converted elements -/

namespace TypeDesc

variable (scope : Scope) {t : TypeDesc} {v : Expr}

theorem wrap_not_mem_accessors (name : String) : "Wrap" ++ name ∉ accessors := by
  intro h
  have hstart : ∀ s ∈ accessors, s.toList.take 4 ≠ "Wrap".toList := by decide
  exact hstart _ h (by simp)

/-- A wrapped handle is read for nothing else. -/
theorem accesses_wrap (r : EntityRef) (handle : Expr) :
    (scope.wrap r handle).accesses = handle.accesses := by
  unfold Scope.wrap Scope.wrapFunction
  split
  · simp
  · rw [Expr.accesses_call_qualified _ _ fun _ => wrap_not_mem_accessors r.name]
    simp

theorem accesses_heapCopy (hv : v.isPlace = true) :
    Yields (fun e => e.accesses = []) (t.heapCopy scope v) := by
  unfold heapCopy
  refine yields_bind fun r _ => yields_pure_iff.mpr ?_
  rw [accesses_wrap]
  simp [Expr.accesses_of_isPlace hv, accessors, givers]

/-- The host value of a string is a copy of its characters. -/
theorem accesses_copied {e : Expr} (horigin : e.origin = v) (haccesses : e.accesses = []) :
    (Expr.goString (.cast (.pointer (.native "char")) e)).accesses = [⟨[], "GoString", v⟩] := by
  rw [Expr.accesses_goString, Expr.accesses_cast, haccesses, Expr.origin, horigin]
  rfl

/-- Of the words of a container the strings are copied, and nothing else is. -/
theorem accesses_wordOut (hv : v.isPlace = true) :
    Yields (fun e => e.accesses = if t.isCopied then [⟨[], "GoString", v⟩] else [])
      (t.wordOut scope v) := by
  have hread : v.accesses = [] := Expr.accesses_of_isPlace hv
  have hhost : t.isCopied = false → Yields
      (fun e => e.accesses = if t.isCopied then [⟨[], "GoString", v⟩] else []) (do
        return Expr.convert (← resolveHost scope t.byValue false) (.toWord v)) := by
    intro ht
    exact yields_bind fun host _ => yields_pure_iff.mpr (by simp [ht, hread])
  have hmath : ∀ f e, (Expr.call (.qualified "math" f) [e]).accesses = e.accesses := by
    intro f e
    rw [Expr.accesses_call_qualified _ _ (by simp)]
    simp
  unfold wordOut unsupported
  cases hview : t.view with
  | string =>
    have ht : t.isCopied = true := by simp [isCopied, hview]
    refine yields_ok_iff.mpr ?_
    rw [if_pos ht]
    exact accesses_copied (Expr.origin_of_isPlace hv) hread
  | array | list | hash | error => exact yields_error _ _
  | void =>
    have ht : t.isCopied = false := by simp [isCopied, hview]
    cases t.pointer <;> simp [ht, hread]
  | basic n =>
    have ht : t.isCopied = false := by simp [isCopied, hview]
    cases n with
    | float | double => simp [ht, hmath, hread]
    | _ => exact hhost ht
  | typeHandle => exact hhost (by simp [isCopied, hview])
  | boolean => simp [isCopied, hview, hread]
  | named =>
    have ht : t.isCopied = false := by simp [isCopied, hview]
    refine yields_bind fun r _ => ?_
    cases r.kind with
    | enum => exact yields_bind fun host _ => yields_pure_iff.mpr (by simp [ht, hread])
    | _ => simp [ht, accesses_wrap, hread]

/-- The same holds of elements of their native type. -/
theorem accesses_valueOut (hv : v.isPlace = true) :
    Yields (fun e => e.accesses = if t.isCopied then [⟨[], "GoString", v⟩] else [])
      (t.valueOut scope v) := by
  have hread : v.accesses = [] := Expr.accesses_of_isPlace hv
  have hhost : t.isCopied = false → Yields
      (fun e => e.accesses = if t.isCopied then [⟨[], "GoString", v⟩] else []) (do
        return Expr.convert (← resolveHost scope t false) v) := by
    intro ht
    exact yields_bind fun host _ => yields_pure_iff.mpr (by simp [ht, hread])
  have hcopy : t.isCopied = false → Yields
      (fun e => e.accesses = if t.isCopied then [⟨[], "GoString", v⟩] else []) (do
        return Expr.deref (← t.heapCopy scope v)) := by
    intro ht
    refine yields_bind fun e he => yields_pure_iff.mpr ?_
    rw [Expr.accesses_deref, accesses_heapCopy scope hv e he, ht]
    rfl
  unfold valueOut unsupported
  cases hview : t.view with
  | string =>
    have ht : t.isCopied = true := by simp [isCopied, hview]
    refine yields_ok_iff.mpr ?_
    rw [if_pos ht]
    exact accesses_copied (e := .toUnsafe v) (Expr.origin_of_isPlace hv) hread
  | array | list | hash | error => exact yields_error _ _
  | void | boolean =>
    have ht : t.isCopied = false := by simp [isCopied, hview]
    cases t.pointer <;> simp [ht, hread]
  | basic | typeHandle =>
    have ht : t.isCopied = false := by simp [isCopied, hview]
    cases t.pointer with
    | true => exact yields_error _ _
    | false => exact hhost ht
  | named =>
    have ht : t.isCopied = false := by simp [isCopied, hview]
    refine yields_bind fun r _ => ?_
    cases hkind : r.kind <;> cases hpointer : t.pointer
    case enum.false => exact hhost ht
    case struct.false | union.false => exact hcopy ht
    all_goals simp [ht, accesses_wrap, hread]

theorem accesses_terminator (native : GoType) :
    Yields (fun e => e.accesses = []) (t.terminator native) := by
  unfold terminator unsupported
  split
  · simp
  · cases t.view with
    | basic | boolean | typeHandle => simp
    | named =>
      refine yields_bind fun r _ => ?_
      split <;> simp
    | void | string | array | list | hash | error => exact yields_error _ _

end TypeDesc

/-! ### Code for containers -/

namespace Output

variable (scope : Scope) {o : Output} {t : TypeDesc}

/-- What the code for a native container accesses: its elements, and then itself when it changed
hands. -/
def Accesses (o : Output) (t : TypeDesc) (code : List Stmt) : Prop :=
  ∃ readings release freed, o.Reads t readings release freed
    ∧ Stmt.accessesOf code
      = readings.flatMap (Reading.accesses (o.transfer == .full && freed))
        ++ if o.transfer != .none then [release] else []

theorem accessesOf_whenTaken (o : Output) (release : List Stmt) :
    Stmt.accessesOf (o.whenTaken release)
      = if o.transfer != .none then Stmt.accessesOf release else [] := by
  unfold whenTaken
  split <;> rfl

theorem accessesOf_whenElementsTaken (o : Output) (e : TypeDesc) (release : List Stmt) :
    Stmt.accessesOf (o.whenElementsTaken e release)
      = if o.transfer == .full && e.isCopied then Stmt.accessesOf release else [] := by
  unfold whenElementsTaken
  split <;> rfl

/-- Appending a value to the host slice accesses what the value does. -/
theorem accesses_append (ho : o.Plain) (value : Expr) :
    (o.append value).accesses = value.accesses := by
  simp [append, Expr.accesses_of_isPlace ho.target]

/-- The entries of a hash table are gone through without copying anything. -/
theorem accessesOf_hashWalk (stem : String) {real : Expr} (hreal : real.accesses = [])
    (body : List Stmt) : Stmt.accessesOf (hashWalk stem real body)
      = (Stmt.accessesOf body).map (Access.within (entryHead stem)) := by
  have hinit : "g_hash_table_iter_init" ∉ accessors := by decide
  have hnext : "g_hash_table_iter_next" ∉ accessors := by decide
  simp [hashWalk, entryHead, hreal, hinit, hnext, Head.accesses]

theorem accesses_list (ho : o.Plain) {k : ListKind} (ht : t.view = .list k) :
    Yields (o.Accesses t) (o.list scope k t) := by
  have hreal := Expr.accesses_of_isPlace ho.real
  have htarget := Expr.accesses_of_isPlace ho.target
  have horigin := Expr.origin_of_isPlace ho.real
  have hgiver : k.symbol ++ "_free" ∈ accessors := by cases k <;> decide
  have hfree : "g_free" ∈ accessors := by decide
  unfold list
  refine yields_bind fun e he => yields_bind fun value hvalue => yields_pure_iff.mpr ?_
  have hvalue := TypeDesc.accesses_wordOut scope rfl value hvalue
  refine ⟨_, _, _, .list ht he, ?_⟩
  cases hcopied : e.isCopied <;> cases htransfer : o.transfer <;>
    simp [hcopied, htransfer, hreal, htarget, horigin, hgiver, hvalue, hfree, listWalk,
      accesses_append ho, accessesOf_whenTaken, accessesOf_whenElementsTaken, Head.accesses,
      Step.accesses, Access.within, Reading.accesses, Reading.copy, Reading.free, Expr.origin]

theorem accesses_hash (ho : o.Plain) (ht : t.view = .hash) :
    Yields (o.Accesses t) (o.hash scope t) := by
  have hreal := Expr.accesses_of_isPlace ho.real
  have htarget := Expr.accesses_of_isPlace ho.target
  have horigin := Expr.origin_of_isPlace ho.real
  have hgiver : "g_hash_table_unref" ∈ accessors := by decide
  unfold hash
  refine yields_bind fun k hk => yields_bind fun v hv => yields_bind fun host _ => ?_
  refine yields_bind fun key hkey => yields_bind fun value hvalue => yields_pure_iff.mpr ?_
  have hkey := TypeDesc.accesses_wordOut scope rfl key hkey
  have hvalue := TypeDesc.accesses_wordOut scope rfl value hvalue
  refine ⟨_, _, _, .hash ht hk hv, ?_⟩
  cases hcopiedKey : k.isCopied <;> cases hcopiedValue : v.isCopied <;>
    cases htransfer : o.transfer <;>
    simp [hcopiedKey, hcopiedValue, htransfer, hreal, htarget, horigin, hgiver, hkey, hvalue,
      accessesOf_hashWalk, accessesOf_whenTaken, Head.accesses, Access.within, Reading.accesses,
      Reading.copy, unlessNil]

/-- The elements of a C array are counted without copying anything. -/
theorem accesses_count (ho : o.Plain) (element : TypeDesc) (native : GoType) (info : ArrayInfo) :
    Yields (fun c => Stmt.accessesOf c.1 = [] ∧ c.2.accesses = [])
      (o.count element native info) := by
  have hreal := Expr.accesses_of_isPlace ho.real
  unfold count
  cases info.fixedSize with
  | some size => simp
  | none =>
    cases hlength : o.length with
    | some n => simp [ho.length n hlength]
    | none =>
      dsimp only
      split
      · refine yields_bind fun zero hzero => yields_pure_iff.mpr ⟨?_, rfl⟩
        have hadd : ∀ es, (Expr.call (.qualified "unsafe" "Add") es).accesses
            = Expr.argsAccesses es := fun es => Expr.accesses_call_qualified _ _ (by simp)
        simp [hreal, hadd, TypeDesc.accesses_terminator native zero hzero, Head.accesses,
          Step.accesses]
      · exact yields_error _ _

theorem accesses_array (ho : o.Plain) (ht : t.view = .array) :
    Yields (o.Accesses t) (o.array scope t) := by
  have hreal := Expr.accesses_of_isPlace ho.real
  have htarget := Expr.accesses_of_isPlace ho.target
  have horigin := Expr.origin_of_isPlace ho.real
  unfold array
  refine yields_bind fun info hinfo => yields_bind fun e he => ?_
  cases hstorage : info.storage with
  | c =>
    refine yields_bind fun native _ => yields_bind fun counted hcount => ?_
    refine yields_bind fun host _ => yields_bind fun value hvalue => yields_pure_iff.mpr ?_
    have hvalue := TypeDesc.accesses_valueOut scope rfl value hvalue
    refine ⟨_, _, _, .cArray ht hinfo hstorage he hcount, ?_⟩
    obtain ⟨hcounting, hcount⟩ := accesses_count ho e native info counted hcount
    cases hcopied : e.isCopied <;> cases htransfer : o.transfer <;>
      simp [hcopied, htransfer, hreal, htarget, horigin, hcounting, hcount, hvalue,
        accessesOf_whenTaken, accessesOf_whenElementsTaken, Head.accesses, Access.within,
        Reading.accesses, Reading.copy, Reading.free, Expr.origin, unlessNil]
  | array =>
    have hgiver : "g_array_free" ∈ accessors := by decide
    refine yields_bind fun native hnative => yields_bind fun value hvalue => yields_pure_iff.mpr ?_
    have hvalue := TypeDesc.accesses_valueOut scope rfl value hvalue
    refine ⟨_, _, _, .array ht hinfo hstorage he hnative, ?_⟩
    cases hcopied : e.isCopied <;> cases htransfer : o.transfer <;>
      simp [hcopied, htransfer, hreal, htarget, horigin, hgiver, hvalue, accesses_append ho,
        arrayView, accessesOf_whenTaken, accessesOf_whenElementsTaken, Head.accesses,
        Access.within, Reading.accesses, Reading.copy, Reading.free, Expr.origin, unlessNil]
  | ptrArray =>
    have hgiver : "g_ptr_array_unref" ∈ accessors := by decide
    refine yields_bind fun value hvalue => yields_pure_iff.mpr ?_
    have hvalue := TypeDesc.accesses_wordOut scope rfl value hvalue
    refine ⟨_, _, _, .ptrArray ht hinfo hstorage he, ?_⟩
    cases hcopied : e.isCopied <;> cases htransfer : o.transfer <;> cases e.storesPointer <;>
      simp [hcopied, htransfer, hreal, htarget, horigin, hgiver, hvalue, accesses_append ho,
        ptrArrayView, accessesOf_whenTaken, Head.accesses, Access.within, Reading.accesses,
        Reading.copy, unlessNil]
  | byteArray =>
    have hgiver : "g_byte_array_unref" ∈ accessors := by decide
    have hbytes : "GoBytes" ∉ accessors := by decide
    refine yields_pure_iff.mpr ⟨_, _, _, .byteArray ht hinfo hstorage, ?_⟩
    cases htransfer : o.transfer <;>
      simp [htransfer, hreal, horigin, hgiver, hbytes, htarget, accessesOf_whenTaken, Head.accesses,
        Access.within, unlessNil]

/-! ### The discipline -/

/-- What the conversion of a value gives back, as its transfer asks. -/
structure Disciplined (o : Output) (t : TypeDesc) (code : List Stmt) : Prop where
  /-- What did not change hands is not given back. -/
  kept : o.transfer = .none → returned (Stmt.accessesOf code) = []
  /-- A container that changed hands without its elements is given back once, and none of them. -/
  container : t.IsContainer → o.transfer = .container → ∃ readings release freed,
    o.Reads t readings release freed ∧ returned (Stmt.accessesOf code) = [release]
  /-- A container that changed hands with its elements is given back once, and so is each of them
  that is a string, behind its copy. -/
  full : t.IsContainer → o.transfer = .full → ∃ readings release freed,
    o.Reads t readings release freed
      ∧ returned (Stmt.accessesOf code)
        = (readings.filter (·.element.isCopied)).map Reading.free ++ [release]
      ∧ ∀ r ∈ readings, r.element.isCopied = true →
        [r.copy, r.free].Sublist (Stmt.accessesOf code)
  /-- A string is given back when it changed hands. -/
  string : t.view = .string → returned (Stmt.accessesOf code)
    = if o.transfer = .full then [⟨[], "g_free", o.real⟩] else []
  /-- So is an error. -/
  error : t.view = .error → returned (Stmt.accessesOf code)
    = if o.transfer = .full then [⟨[unlessNil o.real], "g_error_free", o.real⟩] else []

/-- A container is given back by a function that does so. -/
theorem Reads.giver_mem {readings : List Reading} {release : Access} {freed : Bool}
    (h : o.Reads t readings release freed) : release.function ∈ givers := by
  cases h with
  | @list k => cases k <;> simp [givers, ListKind.symbol]
  | _ => simp [givers]

theorem returned_append (xs ys : List Access) :
    returned (xs ++ ys) = returned xs ++ returned ys := List.filter_append ..

theorem returned_singleton {a : Access} (h : a.function ∈ givers) : returned [a] = [a] := by
  simp [returned, h]

/-- Of the elements that are gone through the copied ones are given back, or none. -/
theorem returned_readings (freed : Bool) (readings : List Reading) :
    returned (readings.flatMap (Reading.accesses freed))
      = if freed then (readings.filter (·.element.isCopied)).map Reading.free else [] := by
  have hcopy : "GoString" ∉ givers := by decide
  have hfree : "g_free" ∈ givers := by decide
  induction readings with
  | nil => cases freed <;> rfl
  | cons r readings ih =>
    rw [List.flatMap_cons, returned_append, ih]
    cases hcopied : r.element.isCopied <;> cases freed <;>
      simp [Reading.accesses, returned, Reading.copy, Reading.free, hcopied, hcopy, hfree]

/-- A copied element that is given back is so behind its copy. -/
theorem sublist_readings {readings : List Reading} {r : Reading} (hr : r ∈ readings)
    (hcopied : r.element.isCopied = true) :
    [r.copy, r.free].Sublist (readings.flatMap (Reading.accesses true)) := by
  have hone : [r].flatMap (Reading.accesses true) = [r.copy, r.free] := by
    simp [Reading.accesses, hcopied]
  rw [← hone]
  exact (List.singleton_sublist.mpr hr).flatMap _

/-- What the code for any native container accesses. -/
theorem accesses_container (ho : o.Plain) (ht : t.IsContainer) {code : List Stmt}
    (hcode : o.convert scope t = .ok code) : o.Accesses t code := by
  unfold convert at hcode
  rcases ht with ⟨k, ht⟩ | ht | ht
  · rw [ht] at hcode
    exact accesses_list scope ho ht code hcode
  · rw [ht] at hcode
    exact accesses_hash scope ho ht code hcode
  · rw [ht] at hcode
    exact accesses_array scope ho ht code hcode

end Output

namespace TypeDesc

/-- Strings in a native container of the type are never given back: keys and values of hash tables
and elements of pointer arrays. -/
def KeepsCopies (t : TypeDesc) : Prop :=
  ∃ e ∈ t.params, e.isCopied = true
    ∧ (t.view = .hash
      ∨ ∃ info, t.view = .array ∧ t.array = some info ∧ info.storage = .ptrArray)

end TypeDesc

namespace Output

variable {scope : Scope} {o : Output} {t : TypeDesc} {code : List Stmt}

/-- In these containers strings are gone through, and no access gives them back. -/
theorem Reads.of_keepsCopies {readings : List Reading} {release : Access} {freed : Bool}
    (h : o.Reads t readings release freed) (ht : t.WellShaped) (hkeeps : t.KeepsCopies) :
    freed = false ∧ release.function ≠ "g_free" ∧ ∃ r ∈ readings, r.element.isCopied = true := by
  obtain ⟨element, hmem, hcopied, hcase⟩ := hkeeps
  -- An array is one of pointers, whatever the code finds.
  have hptr : ∀ {info}, t.view = .array → t.arrayInfoOf = .ok info → info.storage = .ptrArray := by
    intro info hview hinfo
    rcases hcase with hhash | ⟨info', _, hinfo', hstorage⟩
    · cases hview.symm.trans hhash
    · cases (TypeDesc.arrayInfoOf_eq_ok hinfo').symm.trans hinfo
      exact hstorage
  cases h with
  | list hview =>
    rcases hcase with hhash | ⟨_, harray, _⟩
    · cases hview.symm.trans hhash
    · cases hview.symm.trans harray
  | hash hview hk hv =>
    obtain ⟨key, value, hparams, _⟩ := ht.exists_hash hview
    cases (TypeDesc.elementOf_eq_ok hparams).symm.trans hk
    cases (TypeDesc.valueOf_eq_ok hparams).symm.trans hv
    refine ⟨rfl, by simp, ?_⟩
    rw [hparams] at hmem
    rcases List.mem_cons.mp hmem with rfl | hmem
    · exact ⟨_, List.mem_cons_self, hcopied⟩
    · cases List.mem_singleton.mp hmem
      exact ⟨_, List.mem_cons_of_mem _ List.mem_cons_self, hcopied⟩
  | ptrArray hview _ _ he =>
    obtain ⟨info, e, _, hparams, _⟩ := ht.exists_array hview
    cases (TypeDesc.elementOf_eq_ok hparams).symm.trans he
    refine ⟨rfl, by simp, _, List.mem_cons_self, ?_⟩
    rw [hparams] at hmem
    cases List.mem_singleton.mp hmem
    exact hcopied
  | cArray hview hinfo hstorage => cases hstorage.symm.trans (hptr hview hinfo)
  | array hview hinfo hstorage => cases hstorage.symm.trans (hptr hview hinfo)
  | byteArray hview hinfo hstorage => cases hstorage.symm.trans (hptr hview hinfo)

/-- In all other containers copied elements are given back, or there are none. -/
theorem Reads.of_not_keepsCopies {readings : List Reading} {release : Access} {freed : Bool}
    (h : o.Reads t readings release freed) (ht : t.WellShaped) (hkeeps : ¬t.KeepsCopies) :
    freed = true ∨ ∀ r ∈ readings, r.element.isCopied = false := by
  have hnone : t.view = .hash ∨ (∃ info, t.view = .array ∧ t.array = some info
      ∧ info.storage = .ptrArray) → ∀ e ∈ t.params, e.isCopied = false := by
    intro hcase e he
    exact Bool.eq_false_iff.mpr fun hcopied => hkeeps ⟨e, he, hcopied, hcase⟩
  cases h with
  | list | cArray | array | byteArray => exact Or.inl rfl
  | hash hview hk hv =>
    obtain ⟨key, value, hparams, _⟩ := ht.exists_hash hview
    cases (TypeDesc.elementOf_eq_ok hparams).symm.trans hk
    cases (TypeDesc.valueOf_eq_ok hparams).symm.trans hv
    have hall := hnone (Or.inl hview)
    rw [hparams] at hall
    right
    simpa using hall
  | ptrArray hview hinfo hstorage he =>
    obtain ⟨info, e, hinfo', hparams, _⟩ := ht.exists_array hview
    cases (TypeDesc.arrayInfoOf_eq_ok hinfo').symm.trans hinfo
    cases (TypeDesc.elementOf_eq_ok hparams).symm.trans he
    have hall := hnone (Or.inr ⟨_, hview, hinfo', hstorage⟩)
    rw [hparams] at hall
    right
    simpa using hall

/-! ### Code for other values -/

theorem accesses_named (ho : o.Plain) : Yields (Stmt.accessesOf · = []) (o.named scope t) := by
  have hreal := Expr.accesses_of_isPlace ho.real
  have htarget := Expr.accesses_of_isPlace ho.target
  have hhost : ∀ convert : GoType → Expr, (∀ g, (convert g).accesses = []) →
      Yields (Stmt.accessesOf · = [])
        (do return [.assign o.target (convert (← resolveHost scope t false))]) := by
    intro convert hconvert
    exact yields_bind fun g _ => yields_pure_iff.mpr (by simp [htarget, hconvert g])
  have hcopy : Yields (Stmt.accessesOf · = [])
      (do return [.assign o.target (.deref (← t.heapCopy scope o.real))]) := by
    refine yields_bind fun e he => yields_pure_iff.mpr ?_
    simp [htarget, TypeDesc.accesses_heapCopy scope ho.real e he]
  unfold named unsupported
  refine yields_bind fun r _ => ?_
  cases hkind : r.kind <;> cases hpointer : t.pointer
  case enum.true => exact hhost (.cast · (.toUnsafe o.real)) fun g => by simp [hreal]
  case enum.false => exact hhost (.convert · o.real) fun g => by simp [hreal]
  case struct.false | union.false => exact hcopy
  case object.false | interface.false => exact yields_error _ _
  all_goals simp [hreal, htarget, TypeDesc.accesses_wrap, Head.accesses]

/-- Values of other types are neither copied as strings nor given back. -/
theorem accesses_other (ho : o.Plain) (hcontainer : ¬t.IsContainer) (hstring : t.view ≠ .string)
    (herror : t.view ≠ .error) (hcode : o.convert scope t = .ok code) :
    Stmt.accessesOf code = [] := by
  have hreal := Expr.accesses_of_isPlace ho.real
  have htarget := Expr.accesses_of_isPlace ho.target
  have hscalar : Yields (Stmt.accessesOf · = []) (o.scalar scope t) := by
    unfold scalar
    refine yields_bind fun host _ => ?_
    split <;> simp [hreal, htarget]
  have hyields : Yields (Stmt.accessesOf · = []) (o.convert scope t) := by
    unfold convert unsupported
    cases hview : t.view with
    | void | boolean => cases t.pointer <;> simp [hreal, htarget]
    | basic | typeHandle => exact hscalar
    | named => exact accesses_named ho
    | string => exact absurd hview hstring
    | error => exact absurd hview herror
    | array => exact absurd (Or.inr (Or.inr hview)) hcontainer
    | list k => exact absurd (Or.inl ⟨k, hview⟩) hcontainer
    | hash => exact absurd (Or.inr (Or.inl hview)) hcontainer
  exact hyields code hcode

theorem accesses_string (ho : o.Plain) (ht : t.view = .string)
    (hcode : o.convert scope t = .ok code) : Stmt.accessesOf code
      = ⟨[], "GoString", o.real⟩
        :: if o.transfer = .full then [⟨[], "g_free", o.real⟩] else [] := by
  have hreal := Expr.accesses_of_isPlace ho.real
  have htarget := Expr.accesses_of_isPlace ho.target
  have horigin := Expr.origin_of_isPlace ho.real
  unfold convert at hcode
  rw [ht] at hcode
  cases hcode
  cases htransfer : o.transfer <;>
    simp [copied, hreal, htarget, horigin, Expr.origin, Expr.toUnsafe]

theorem accesses_error (ho : o.Plain) (ht : t.view = .error)
    (hcode : o.convert scope t = .ok code) : Stmt.accessesOf code
      = ⟨[unlessNil o.real], "GoString", .member o.real "message"⟩
        :: if o.transfer = .full then [⟨[unlessNil o.real], "g_error_free", o.real⟩] else [] := by
  have hreal := Expr.accesses_of_isPlace ho.real
  have htarget := Expr.accesses_of_isPlace ho.target
  have horigin := Expr.origin_of_isPlace ho.real
  have hgiver : "g_error_free" ∈ accessors := by decide
  have hnew : ∀ es, (Expr.call (.qualified "errors" "New") es).accesses = Expr.argsAccesses es :=
    fun es => Expr.accesses_call_qualified _ _ (by simp)
  unfold convert at hcode
  rw [ht] at hcode
  cases hcode
  cases htransfer : o.transfer <;>
    simp [copied, hreal, htarget, horigin, hgiver, hnew, Expr.origin, Expr.toUnsafe,
      Head.accesses, Access.within, unlessNil]

/-! ### What is given back -/

theorem returned_string (ho : o.Plain) (ht : t.view = .string)
    (hcode : o.convert scope t = .ok code) : returned (Stmt.accessesOf code)
      = if o.transfer = .full then [⟨[], "g_free", o.real⟩] else [] := by
  rw [accesses_string ho ht hcode]
  split <;> simp [returned, givers]

theorem returned_error (ho : o.Plain) (ht : t.view = .error)
    (hcode : o.convert scope t = .ok code) : returned (Stmt.accessesOf code)
      = if o.transfer = .full then [⟨[unlessNil o.real], "g_error_free", o.real⟩] else [] := by
  rw [accesses_error ho ht hcode]
  split <;> simp [returned, givers]

theorem returned_of_kept (ho : o.Plain) (hcode : o.convert scope t = .ok code)
    (hnone : o.transfer = .none) : returned (Stmt.accessesOf code) = [] := by
  by_cases hcontainer : t.IsContainer
  · obtain ⟨readings, release, freed, _, haccesses⟩ := accesses_container scope ho hcontainer hcode
    rw [haccesses, hnone, returned_append, returned_readings]
    rfl
  by_cases hstring : t.view = .string
  · rw [returned_string ho hstring hcode, hnone]
    rfl
  by_cases herror : t.view = .error
  · rw [returned_error ho herror hcode, hnone]
    rfl
  · rw [accesses_other ho hcontainer hstring herror hcode]
    rfl

theorem returned_of_container (ho : o.Plain) (hcode : o.convert scope t = .ok code)
    (ht : t.IsContainer) (htransfer : o.transfer = .container) : ∃ readings release freed,
      o.Reads t readings release freed ∧ returned (Stmt.accessesOf code) = [release] := by
  obtain ⟨readings, release, freed, hreads, haccesses⟩ := accesses_container scope ho ht hcode
  refine ⟨readings, release, freed, hreads, ?_⟩
  rw [haccesses, htransfer, returned_append, returned_readings]
  exact returned_singleton hreads.giver_mem

/-- Outside of hash tables and pointer arrays the strings that changed hands are given back. -/
theorem returned_of_full (ho : o.Plain) (ht : t.WellShaped) (hcode : o.convert scope t = .ok code)
    (hcontainer : t.IsContainer) (hfull : o.transfer = .full) (hkeeps : ¬t.KeepsCopies) :
    ∃ readings release freed, o.Reads t readings release freed
      ∧ returned (Stmt.accessesOf code)
        = (readings.filter (·.element.isCopied)).map Reading.free ++ [release]
      ∧ ∀ r ∈ readings, r.element.isCopied = true →
        [r.copy, r.free].Sublist (Stmt.accessesOf code) := by
  obtain ⟨readings, release, freed, hreads, haccesses⟩ :=
    accesses_container scope ho hcontainer hcode
  refine ⟨readings, release, freed, hreads, ?_⟩
  rw [haccesses, hfull, returned_append, returned_readings]
  rcases hreads.of_not_keepsCopies ht hkeeps with rfl | hnone
  · constructor
    · exact congrArg _ (returned_singleton hreads.giver_mem)
    · intro r hr hcopied
      exact (sublist_readings hr hcopied).trans (List.sublist_append_left _ _)
  · have hfilter : readings.filter (·.element.isCopied) = [] :=
      List.filter_eq_nil_iff.mpr fun r hr => by simp [hnone r hr]
    constructor
    · rw [hfilter]
      cases freed <;> exact returned_singleton hreads.giver_mem
    · intro r hr hcopied
      rw [hnone r hr] at hcopied
      cases hcopied

/-- In a hash table or a pointer array no string is given back. -/
theorem free_not_mem_accesses (ho : o.Plain) (ht : t.WellShaped)
    (hcode : o.convert scope t = .ok code) (hcontainer : t.IsContainer) (hkeeps : t.KeepsCopies)
    (r : Reading) : r.free ∉ Stmt.accessesOf code := by
  intro hfree
  obtain ⟨readings, release, freed, hreads, haccesses⟩ :=
    accesses_container scope ho hcontainer hcode
  obtain ⟨rfl, hgiver, _⟩ := hreads.of_keepsCopies ht hkeeps
  rw [haccesses, List.mem_append] at hfree
  rcases hfree with hreading | hrelease
  · obtain ⟨r', _, hr'⟩ := List.mem_flatMap.mp hreading
    have hcopies : Reading.accesses false r' ⊆ [r'.copy] := by
      unfold Reading.accesses
      split <;> simp
    rw [Bool.and_false] at hr'
    exact absurd (congrArg Access.function (List.mem_singleton.mp (hcopies hr')))
      (by simp [Reading.copy, Reading.free])
  · split at hrelease
    · exact hgiver (List.mem_singleton.mp hrelease ▸ rfl)
    · cases hrelease

/-- Where strings of such a container changed hands, the discipline is not kept. -/
theorem not_disciplined_of_keepsCopies (ho : o.Plain) (ht : t.WellShaped)
    (hcode : o.convert scope t = .ok code) (hfull : o.transfer = .full) (hkeeps : t.KeepsCopies) :
    ¬o.Disciplined t code := by
  intro h
  have hcontainer : t.IsContainer := by
    obtain ⟨_, _, _, hhash | ⟨_, harray, _⟩⟩ := hkeeps
    · exact Or.inr (Or.inl hhash)
    · exact Or.inr (Or.inr harray)
  obtain ⟨readings, release, freed, hreads, _, hbehind⟩ := h.full hcontainer hfull
  obtain ⟨_, _, r, hr, hcopied⟩ := hreads.of_keepsCopies ht hkeeps
  have hfree : r.free ∈ Stmt.accessesOf code := (hbehind r hr hcopied).subset (by simp)
  exact free_not_mem_accesses ho ht hcode hcontainer hkeeps r hfree

end Output

open Output in
/-- The conversion of a value that comes out of a call gives back what its transfer asks for, unless
strings changed hands inside a hash table or a pointer array. -/
theorem disciplined_iff {scope : Scope} {o : Output} (ho : o.Plain) {t : TypeDesc}
    (ht : t.WellShaped) {code : List Stmt} (hcode : o.convert scope t = .ok code) :
    o.Disciplined t code ↔ ¬(o.transfer = .full ∧ t.KeepsCopies) := by
  constructor
  · rintro h ⟨hfull, hkeeps⟩
    exact not_disciplined_of_keepsCopies ho ht hcode hfull hkeeps h
  · intro hnot
    exact {
      kept := returned_of_kept ho hcode
      container := returned_of_container ho hcode
      full := fun hcontainer hfull =>
        returned_of_full ho ht hcode hcontainer hfull fun hkeeps => hnot ⟨hfull, hkeeps⟩
      string := fun hstring => returned_string ho hstring hcode
      error := fun herror => returned_error ho herror hcode }

/-- What is converted for an argument is a local of the wrapper, and goes to what the signature
declares. -/
theorem Argument.plain_output (a : Argument) (transfer : Transfer) {length : Option Expr}
    (hlength : ∀ n, length = some n → n.accesses = []) : (a.output transfer length).Plain := by
  refine ⟨rfl, ?_, hlength⟩
  show a.hostTarget.isPlace = true
  unfold hostTarget
  cases a.role with
  | receiver | result => rfl
  | param p =>
    dsimp only
    split <;> rfl

/-- A function that hands over a table of numbers by name. -/
def Function.ofSizes : Function :=
  { ofSymbol "sizes" "gtk_sizes" with
    returnType := .hash .utf8 (.ofTag .int32)
    returnTransfer := .full }

/-- Its result. -/
def Argument.ofSizes : Argument := .ofResult .ofSizes

/-- The names that were handed over are copied and not given back. -/
theorem disciplined_iff_ofSizes :
    ∃ code, (Argument.ofSizes.output .full none).convert (.ofHome "Gtk")
        Argument.ofSizes.type = .ok code
      ∧ ¬(Argument.ofSizes.output .full none).Disciplined Argument.ofSizes.type code := by
  have hkey : TypeDesc.utf8.WellShaped :=
    TypeDesc.wellShaped_iff.mpr ⟨⟨rfl, by decide, by decide⟩, nofun⟩
  have hvalue : (TypeDesc.ofTag .int32).WellShaped :=
    TypeDesc.wellShaped_iff.mpr ⟨⟨rfl, by decide, by decide⟩, nofun⟩
  have htable : Argument.ofSizes.type.WellShaped := by
    refine TypeDesc.wellShaped_iff.mpr ⟨⟨rfl, by decide, by decide⟩, ?_⟩
    exact List.forall_mem_cons.mpr ⟨hkey, List.forall_mem_singleton.mpr hvalue⟩
  have hkeeps : Argument.ofSizes.type.KeepsCopies :=
    ⟨.utf8, List.mem_cons_self, rfl, Or.inl rfl⟩
  have hok : ∃ code, (Argument.ofSizes.output .full none).convert (.ofHome "Gtk")
      Argument.ofSizes.type = .ok code := ⟨_, rfl⟩
  obtain ⟨code, hcode⟩ := hok
  have hplain : (Argument.ofSizes.output .full none).Plain :=
    Argument.ofSizes.plain_output .full nofun
  exact ⟨code, hcode, fun h => (disciplined_iff hplain htable hcode).mp h ⟨rfl, hkeeps⟩⟩

/-- The getter of a field reads the value and leaves it where it is. -/
theorem FieldDecl.returned_reading {scope : Scope} {owner : EntityRef} {f : FieldDecl}
    {code : List Stmt} (hcode : f.reading scope owner = .ok code) :
    returned (Stmt.accessesOf code) = [] := by
  obtain ⟨rest, hrest, hcode⟩ := bind_eq_ok_iff.mp hcode
  cases hcode
  have hplain : f.output.Plain := ⟨rfl, rfl, nofun⟩
  -- The field stays with the struct.
  have hkept : returned (Stmt.accessesOf rest) = [] := Output.returned_of_kept hplain hrest rfl
  exact hkept

end Introspection
