import Introspection.Proofs.Resolution.Shape
import Introspection.Resolution.Host
import Introspection.Resolution.Native

/-!
# `Introspection.Proofs.Resolution.Unchecked`: one check is enough

The resolvers check each descriptor on their way and look names up in tables with gaps. Below a
descriptor that has passed its check neither fails: its elements are well-shaped, with or without
their indirections, and the tables have an entry wherever a class sends a tag to them
(`Tag.nativeName?_of_basic` and its like). So each resolver is one check and then a function that
neither checks nor misses a name: `resolveHost_eq_check` and `resolveNative_eq_check`.

A well-shaped descriptor therefore always has a host type. Native types have a gap of their own, C
arrays of nothing.
-/

set_option autoImplicit false

namespace Introspection

open Introspection.Code

/-! ### The tables without gaps -/

namespace Numeric

/-- Name of the C type. -/
def nativeName : Numeric → String
  | int8 => "gint8"
  | uint8 => "guint8"
  | int16 => "gint16"
  | uint16 => "guint16"
  | int32 => "gint32"
  | uint32 => "guint32"
  | int64 => "gint64"
  | uint64 => "guint64"
  | float => "gfloat"
  | double => "gdouble"
  | unichar => "gunichar"

/-- Name of the Go type. -/
def hostName : Numeric → String
  | int8 => "int8"
  | uint8 => "uint8"
  | int16 => "int16"
  | uint16 => "uint16"
  | int32 => "int32"
  | uint32 => "uint32"
  | int64 => "int64"
  | uint64 => "uint64"
  | float => "float32"
  | double => "float64"
  | unichar => "rune"

end Numeric

namespace Tag

variable {tag : Tag}

theorem nativeName?_of_basic {n : Numeric} (h : tag.view = .basic n) :
    tag.nativeName? = some n.nativeName := by
  cases tag <;> cases h <;> rfl

theorem nativeName?_of_boolean (h : tag.view = .boolean) : tag.nativeName? = some "gboolean" := by
  cases tag <;> cases h
  rfl

theorem nativeName?_of_typeHandle (h : tag.view = .typeHandle) :
    tag.nativeName? = some "GType" := by
  cases tag <;> cases h
  rfl

theorem hostName?_of_basic {n : Numeric} (h : tag.view = .basic n) :
    tag.hostName? = some n.hostName := by
  cases tag <;> cases h <;> rfl

end Tag

/-! ### The resolvers without checks -/

namespace TypeDesc

/-- Go type of a descriptor that is taken to hold together, with `pointer` in the place of its
own indirection. -/
def hostType (scope : Scope) (isArg pointer : Bool) : TypeDesc → Generated GoType
  | mk tag own params entity array =>
    let t := mk tag own params entity array
    match tag.view with
    | .void => .ok (if pointer then GoType.unsafePointer else .void)
    | .basic n => .ok (.pointerIf pointer (.plain n.hostName))
    | .boolean => .ok (.pointerIf pointer (.plain "bool"))
    | .typeHandle => .ok (.pointerIf pointer (scope.typeName "GObject" "GType"))
    | .string => .ok (.plain "string")
    | .array =>
      match params with
      | [] => t.elementMissing
      | e :: _ => do
        match (← t.arrayInfoOf).storage with
        | .c => return .slice (← e.hostType scope false e.pointer)
        | .array => return .slice (← e.hostType scope false e.pointer)
        | .ptrArray => return .slice (.pointer (← e.hostType scope false false))
        | .byteArray => return .slice (.plain "byte")
    | .named => do return namedHost scope (← t.entityOf) pointer isArg
    | .list _ =>
      match params with
      | [] => t.elementMissing
      | e :: _ => do
        return .slice (← e.elementHostOr scope (e.hostType scope false e.pointer))
    | .hash =>
      match params with
      | k :: v :: _ => do
        let key ← k.elementHostOr scope (k.hostType scope false k.pointer)
        let value ← v.elementHostOr scope (v.hostType scope false v.pointer)
        return .map key value
      | _ => t.elementMissing
    | .error => .ok (.plain "error")

/-- C type of a descriptor that is taken to hold together. -/
def nativeType : TypeDesc → Generated GoType
  | mk tag pointer params entity array =>
    let t := mk tag pointer params entity array
    match tag.view with
    | .void => .ok (if pointer then GoType.gpointer else .void)
    | .basic n => .ok (.pointerIf pointer (.native n.nativeName))
    | .boolean => .ok (.pointerIf pointer (.native "gboolean"))
    | .typeHandle => .ok (.pointerIf pointer (.native "GType"))
    | .string => .ok (.pointer (.native "gchar"))
    | .array => do
      match (← t.arrayInfoOf).storage with
      | .c =>
        match params with
        | [] => t.elementMissing
        | e :: _ =>
          match ← e.nativeType with
          | .void => unsupported .arrayElement t
          | element => return .pointer element
      | .array => return .pointer (.native "GArray")
      | .ptrArray => return .pointer (.native "GPtrArray")
      | .byteArray => return .pointer (.native "GByteArray")
    | .named => do return .pointerIf pointer (.native (← t.entityOf).nativeName)
    | .list k => .ok (.pointer (.native k.nativeName))
    | .hash => .ok (.pointer (.native "GHashTable"))
    | .error => .ok (.pointer (.native "GError"))

variable {t : TypeDesc}

theorem tableNative_eq_ok {name : String} (h : t.tag.nativeName? = some name) :
    t.tableNative = .ok (.pointerIf t.pointer (.native name)) := by
  rw [tableNative, h]

theorem tableHost_eq_ok {name : String} (h : t.tag.hostName? = some name) :
    t.tableHost = .ok (.pointerIf t.pointer (.plain name)) := by
  rw [tableHost, h]

/-- No check fails and no name is missing on the way to the host type of a well-shaped
descriptor. -/
theorem resolveHostAs_eq (scope : Scope) : ∀ {t : TypeDesc}, t.WellShaped →
    ∀ isArg pointer : Bool, t.resolveHostAs scope isArg pointer = t.hostType scope isArg pointer
  | mk tag own params entity array, h, isArg, pointer => by
    have ih : ∀ u ∈ params, ∀ isArg pointer : Bool,
        u.resolveHostAs scope isArg pointer = u.hostType scope isArg pointer :=
      fun u hu => resolveHostAs_eq scope (h.of_mem_params hu)
    -- What is checked is the descriptor with the indirection that is asked for.
    have hshape : (mk tag pointer params entity array).WellShaped := h.of_pointer
    unfold resolveHostAs hostType
    simp only [check_eq_ok hshape, ok_bind]
    cases hview : tag.view with
    | basic n => exact tableHost_eq_ok (Tag.hostName?_of_basic hview)
    | named =>
      obtain ⟨r, hr⟩ := h.agrees.exists_entity hview
      obtain ⟨_, hr'⟩ := hshape.agrees.exists_entity hview
      -- With either indirection it names the same type.
      cases hr.symm.trans hr'
      simp only [entityOf_eq_ok hr, entityOf_eq_ok hr']
    | array =>
      obtain ⟨info, e, hinfo, hparams, _⟩ := hshape.exists_array hview
      cases hparams
      have hinfo' : (mk tag own [e] entity array).arrayInfoOf = .ok info := arrayInfoOf_eq_ok hinfo
      cases hstorage : info.storage <;>
        simp only [arrayInfoOf_eq_ok hinfo, hinfo', hstorage, ok_bind, ih e List.mem_cons_self]
    | list k =>
      obtain ⟨e, hparams, _⟩ := h.exists_list hview
      cases hparams
      simp only [ih e List.mem_cons_self]
    | hash =>
      obtain ⟨k, v, hparams, _⟩ := h.exists_hash hview
      cases hparams
      have hvalue : v ∈ [k, v] := List.mem_cons_of_mem _ List.mem_cons_self
      simp only [ih k List.mem_cons_self, ih v hvalue]
    | void | boolean | typeHandle | string | error => rfl
termination_by t => sizeOf t

/-- No check fails and no name is missing on the way to the native type of a well-shaped
descriptor. -/
theorem resolveNative_eq : ∀ {t : TypeDesc}, t.WellShaped → resolveNative t = t.nativeType
  | mk tag pointer params entity array, h => by
    have ih : ∀ u ∈ params, resolveNative u = u.nativeType :=
      fun u hu => resolveNative_eq (h.of_mem_params hu)
    unfold resolveNative nativeType
    simp only [check_eq_ok h, ok_bind]
    cases hview : tag.view with
    | basic n => exact tableNative_eq_ok (Tag.nativeName?_of_basic hview)
    | boolean => exact tableNative_eq_ok (Tag.nativeName?_of_boolean hview)
    | typeHandle => exact tableNative_eq_ok (Tag.nativeName?_of_typeHandle hview)
    | array =>
      obtain ⟨info, e, hinfo, hparams, _⟩ := h.exists_array hview
      cases hparams
      have hinner : resolveNative e = e.nativeType := ih e List.mem_cons_self
      simp only [arrayInfoOf_eq_ok hinfo, ok_bind]
      cases info.storage <;> exact hinner ▸ rfl
    | void | string | named | list | hash | error => rfl
termination_by t => sizeOf t

theorem resolveHost_eq {scope : Scope} (ht : t.WellShaped) (isArg : Bool) :
    resolveHost scope t isArg = t.hostType scope isArg t.pointer :=
  resolveHostAs_eq scope ht isArg t.pointer

variable (scope : Scope)

theorem exists_namedElementHost (h : t.Agrees) (hview : t.view = .named) :
    ∃ g, t.namedElementHost scope = .ok g := by
  obtain ⟨r, hr⟩ := h.exists_entity hview
  rw [namedElementHost, entityOf_eq_ok hr]
  exact ⟨_, rfl⟩

/-- An element of a container has a host type when it has one elsewhere. -/
theorem exists_elementHostOr (h : t.Agrees) {elsewhere : Generated GoType}
    (helsewhere : ∃ g, elsewhere = .ok g) : ∃ g, t.elementHostOr scope elsewhere = .ok g := by
  unfold elementHostOr
  split
  · exact exists_namedElementHost scope h ‹_›
  · exact helsewhere

/-- A well-shaped descriptor has a host type. -/
theorem exists_hostType : ∀ {t : TypeDesc}, t.WellShaped → ∀ isArg pointer : Bool,
    ∃ g, t.hostType scope isArg pointer = .ok g
  | mk tag own params entity array, h, isArg, pointer => by
    have ih : ∀ u ∈ params, ∀ isArg pointer, ∃ g, u.hostType scope isArg pointer = .ok g :=
      fun u hu => exists_hostType (h.of_mem_params hu)
    unfold hostType
    cases hview : tag.view with
    | void | basic | boolean | typeHandle | string | error => exact ⟨_, rfl⟩
    | named =>
      obtain ⟨r, hr⟩ := h.agrees.exists_entity hview
      simp only [entityOf_eq_ok hr, ok_bind]
      exact ⟨_, rfl⟩
    | array =>
      obtain ⟨info, element, hinfo, hparams, -⟩ := h.exists_array hview
      cases hparams
      obtain ⟨g, hg⟩ := ih element List.mem_cons_self false element.pointer
      obtain ⟨g', hg'⟩ := ih element List.mem_cons_self false false
      simp only [arrayInfoOf_eq_ok hinfo, ok_bind]
      cases info.storage with
      | c => exact ⟨.slice g, by simp only [hg, ok_bind]; rfl⟩
      | array => exact ⟨.slice g, by simp only [hg, ok_bind]; rfl⟩
      | ptrArray => exact ⟨.slice (.pointer g'), by simp only [hg', ok_bind]; rfl⟩
      | byteArray => exact ⟨_, rfl⟩
    | list k =>
      obtain ⟨element, hparams, helement⟩ := h.exists_list hview
      cases hparams
      have hhost := ih element List.mem_cons_self false element.pointer
      obtain ⟨g, hg⟩ := exists_elementHostOr scope helement.agrees hhost
      exact ⟨.slice g, by simp only [hg, ok_bind]; rfl⟩
    | hash =>
      obtain ⟨key, value, hparams, hkey, hvalue⟩ := h.exists_hash hview
      cases hparams
      have hk := ih key List.mem_cons_self false key.pointer
      have hv := ih value (List.mem_cons_of_mem _ List.mem_cons_self) false value.pointer
      obtain ⟨k, hk⟩ := exists_elementHostOr scope hkey.agrees hk
      obtain ⟨v, hv⟩ := exists_elementHostOr scope hvalue.agrees hv
      exact ⟨.map k v, by simp only [hk, hv, ok_bind]; rfl⟩
termination_by t => sizeOf t

end TypeDesc

/-! ### One check and then no failure but for C arrays of nothing -/

/-- The host type is that of one check and of a function that neither checks nor misses a name. -/
theorem resolveHost_eq_check (scope : Scope) (t : TypeDesc) (isArg : Bool) :
    resolveHost scope t isArg = t.check >>= fun _ => t.hostType scope isArg t.pointer := by
  cases hcheck : t.check with
  | ok =>
    rw [ok_bind]
    exact TypeDesc.resolveHost_eq (TypeDesc.check_eq_ok_iff.mp hcheck) isArg
  | error err =>
    cases t with
    | mk tag pointer params entity array =>
      unfold resolveHost TypeDesc.resolveHostAs
      simp only [TypeDesc.pointer, hcheck, error_bind]

/-- The native type is that of one check and of a function that neither checks nor misses a
name. -/
theorem resolveNative_eq_check (t : TypeDesc) :
    resolveNative t = t.check >>= fun _ => t.nativeType := by
  cases hcheck : t.check with
  | ok =>
    rw [ok_bind]
    exact TypeDesc.resolveNative_eq (TypeDesc.check_eq_ok_iff.mp hcheck)
  | error err =>
    cases t with
    | mk tag pointer params entity array =>
      unfold resolveNative
      simp only [hcheck, error_bind]

/-- Only well-shaped descriptors have a host type. -/
theorem TypeDesc.wellShaped_of_resolveHost {scope : Scope} {t : TypeDesc} {isArg : Bool}
    {g : GoType} (h : resolveHost scope t isArg = .ok g) : t.WellShaped := by
  rw [resolveHost_eq_check] at h
  obtain ⟨_, hcheck, -⟩ := bind_eq_ok_iff.mp h
  exact check_eq_ok_iff.mp hcheck

/-- What every unchecked host type has, a host type that is found has. -/
theorem yields_resolveHost {p : GoType → Prop} {scope : Scope} {t : TypeDesc} {isArg : Bool}
    (h : Yields p (t.hostType scope isArg t.pointer)) : Yields p (resolveHost scope t isArg) := by
  rw [resolveHost_eq_check]
  exact yields_bind fun _ _ => h

/-- What every unchecked native type has, a native type that is found has. -/
theorem yields_resolveNative {p : GoType → Prop} {t : TypeDesc} (h : Yields p t.nativeType) :
    Yields p (resolveNative t) := by
  rw [resolveNative_eq_check]
  exact yields_bind fun _ _ => h

/-- The host type of a well-shaped descriptor is found. -/
theorem exists_resolveHost (scope : Scope) {t : TypeDesc} (h : t.WellShaped) (isArg : Bool) :
    ∃ g, resolveHost scope t isArg = .ok g := by
  obtain ⟨g, hg⟩ := TypeDesc.exists_hostType scope h isArg t.pointer
  exact ⟨g, by rw [TypeDesc.resolveHost_eq h, hg]⟩

/-- The host type of a well-shaped element is found. -/
theorem exists_elementHost (scope : Scope) {t : TypeDesc} (h : t.WellShaped) :
    ∃ g, elementHost scope t = .ok g :=
  TypeDesc.exists_elementHostOr scope h.agrees (exists_resolveHost scope h false)

/-- The native type of a well-shaped descriptor is missing only for C arrays of nothing. -/
theorem TypeDesc.gapsOnly_nativeType : ∀ {t : TypeDesc}, t.WellShaped → GapsOnly t.nativeType
  | mk tag pointer params entity array, h => by
    have ih : ∀ u ∈ params, GapsOnly u.nativeType :=
      fun u hu => gapsOnly_nativeType (h.of_mem_params hu)
    unfold nativeType
    cases hview : tag.view with
    | void => exact gapsOnly_ok _
    | basic n => exact gapsOnly_ok _
    | boolean => exact gapsOnly_ok _
    | typeHandle => exact gapsOnly_ok _
    | string => exact gapsOnly_ok _
    | list k => exact gapsOnly_ok _
    | hash => exact gapsOnly_ok _
    | error => exact gapsOnly_ok _
    | named =>
      obtain ⟨r, hr⟩ := h.agrees.exists_entity hview
      simp only [entityOf_eq_ok hr, ok_bind]
      exact gapsOnly_pure _
    | array =>
      obtain ⟨info, element, hinfo, hparams, _⟩ := h.exists_array hview
      cases hparams
      simp only [arrayInfoOf_eq_ok hinfo, ok_bind]
      cases info.storage with
      | c =>
        refine (ih element List.mem_cons_self).bind fun g => ?_
        cases g with
        | void => exact gapsOnly_unsupported _ _
        | _ => exact gapsOnly_pure _
      | array => exact gapsOnly_pure _
      | ptrArray => exact gapsOnly_pure _
      | byteArray => exact gapsOnly_pure _
termination_by t => sizeOf t

theorem gapsOnly_resolveNative {t : TypeDesc} (h : t.WellShaped) : GapsOnly (resolveNative t) := by
  rw [TypeDesc.resolveNative_eq h]
  exact TypeDesc.gapsOnly_nativeType h

theorem gapsOnly_resolveHost (scope : Scope) {t : TypeDesc} (h : t.WellShaped) (isArg : Bool) :
    GapsOnly (resolveHost scope t isArg) :=
  gapsOnly_of_exists_ok (exists_resolveHost scope h isArg)

end Introspection
