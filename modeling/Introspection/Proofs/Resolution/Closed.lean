import Introspection.Proofs.Resolution.Unchecked

/-!
# `Introspection.Proofs.Resolution.Closed`: what holds of every type that is resolved

A resolved type is put together from fixed names and from the names of registered types. A property
that all of these have, and that is kept when a type is put together (`HostClosed`, `NativeClosed`),
is one of every type that is resolved: `yields_hostType` and `yields_nativeType` say so of all
descriptors of a class, when the parts of a descriptor of the class belong to it too.
-/

set_option autoImplicit false

namespace Introspection

open Introspection.Code

variable {scope : Scope} {p : GoType → Prop}

/-- The property is one of all Go types that do not depend on a descriptor, and of what is put
together from Go types that have it. -/
structure HostClosed (scope : Scope) (p : GoType → Prop) : Prop where
  void : p .void
  unsafePointer : p .unsafePointer
  word : ∀ name ∈ ["bool", "string", "byte", "error"], p (.plain name)
  number : ∀ n : Numeric, p (.plain n.hostName)
  typeHandle : p (scope.typeName "GObject" "GType")
  pointer : ∀ g, p g → p (.pointer g)
  slice : ∀ g, p g → p (.slice g)
  map : ∀ k v, p k → p v → p (.map k v)

/-- The property is one of all C types that do not depend on a descriptor, and of pointers to C
types that have it. -/
structure NativeClosed (p : GoType → Prop) : Prop where
  void : p .void
  word : ∀ name ∈ ["gpointer", "gboolean", "GType", "gchar", "GArray", "GPtrArray", "GByteArray",
    "GHashTable", "GError"], p (.native name)
  number : ∀ n : Numeric, p (.native n.nativeName)
  list : ∀ k : ListKind, p (.native k.nativeName)
  pointer : ∀ g, p g → p (.pointer g)

/-- The property is one of the types that a package declares for a registered type. -/
structure Scope.Names (scope : Scope) (p : GoType → Prop) (r : EntityRef) : Prop where
  type : p (scope.typeName r.home r.name)
  /-- The interface of the methods of an object. -/
  methods : p (scope.typeName r.home ("I" ++ r.name))

namespace HostClosed

variable (hp : HostClosed scope p)

include hp

theorem pointerIf {g : GoType} (hg : p g) (pointer : Bool) : p (.pointerIf pointer g) := by
  cases pointer with
  | false => exact hg
  | true => exact hp.pointer g hg

theorem namedHost {r : EntityRef} (hr : scope.Names p r) (pointer isArg : Bool) :
    p (Introspection.namedHost scope r pointer isArg) := by
  unfold Introspection.namedHost
  cases r.kind with
  | object =>
    cases isArg with
    | true => exact hr.methods
    | false => exact hp.pointerIf hr.type pointer
  | interface => exact hr.type
  | enum | struct | union => exact hp.pointerIf hr.type pointer

theorem elementHostOr {t : TypeDesc} (hnamed : ∀ r, t.entity = some r → scope.Names p r)
    {elsewhere : Generated GoType} (helsewhere : Yields p elsewhere) :
    Yields p (t.elementHostOr scope elsewhere) := by
  unfold TypeDesc.elementHostOr TypeDesc.namedElementHost
  split
  · refine yields_bind fun r hr => yields_pure_iff.mpr ?_
    exact hp.pointerIf (hp.namedHost (hnamed r (TypeDesc.entity_of_entityOf hr)) false false) _
  · exact helsewhere

end HostClosed

namespace TypeDesc

-- Descriptors of a class, whose elements belong to it too.
variable {q : TypeDesc → Prop}
  (hparams : ∀ {t : TypeDesc}, q t → ∀ {e : TypeDesc}, e ∈ t.params → q e)

include hparams

theorem yields_hostType (hp : HostClosed scope p)
    (hnamed : ∀ {t : TypeDesc}, q t → ∀ r, t.entity = some r → scope.Names p r) :
    ∀ {t : TypeDesc}, q t → ∀ isArg pointer : Bool, Yields p (t.hostType scope isArg pointer)
  | mk tag own params entity array, h, isArg, pointer => by
    -- Elements are smaller descriptors.
    have ih : ∀ e ∈ params, ∀ isArg pointer : Bool, Yields p (e.hostType scope isArg pointer) :=
      fun e he => yields_hostType hp hnamed (hparams h he)
    have helement : ∀ e ∈ params,
        Yields p (e.elementHostOr scope (e.hostType scope false e.pointer)) :=
      fun e he => hp.elementHostOr (hnamed (hparams h he)) (ih e he false e.pointer)
    unfold hostType elementMissing
    cases tag.view with
    | void =>
      cases pointer with
      | false => exact yields_ok_iff.mpr hp.void
      | true => exact yields_ok_iff.mpr hp.unsafePointer
    | basic n => exact yields_ok_iff.mpr (hp.pointerIf (hp.number n) pointer)
    | boolean => exact yields_ok_iff.mpr (hp.pointerIf (hp.word _ (by decide)) pointer)
    | typeHandle => exact yields_ok_iff.mpr (hp.pointerIf hp.typeHandle pointer)
    | string | error => exact yields_ok_iff.mpr (hp.word _ (by decide))
    | named =>
      refine yields_bind fun r hr => yields_pure_iff.mpr ?_
      exact hp.namedHost (hnamed h r (entity_of_entityOf hr)) pointer isArg
    | array =>
      cases params with
      | nil => exact yields_error _ _
      | cons e rest =>
        have he := ih e List.mem_cons_self false
        refine yields_bind fun info _ => ?_
        cases info.storage with
        | c | array => exact yields_bind fun g hg => yields_pure_iff.mpr (hp.slice g (he _ g hg))
        | ptrArray =>
          refine yields_bind fun g hg => yields_pure_iff.mpr ?_
          exact hp.slice _ (hp.pointer g (he _ g hg))
        | byteArray => exact yields_pure_iff.mpr (hp.slice _ (hp.word _ (by decide)))
    | list k =>
      cases params with
      | nil => exact yields_error _ _
      | cons e rest =>
        refine yields_bind fun g hg => yields_pure_iff.mpr ?_
        exact hp.slice g (helement e List.mem_cons_self g hg)
    | hash =>
      rcases params with _ | ⟨key, _ | ⟨value, rest⟩⟩
      · exact yields_error _ _
      · exact yields_error _ _
      · have hvalue : value ∈ key :: value :: rest := List.mem_cons_of_mem _ List.mem_cons_self
        refine yields_bind fun k hk => yields_bind fun v hv => yields_pure_iff.mpr ?_
        exact hp.map k v (helement key List.mem_cons_self k hk) (helement value hvalue v hv)
termination_by t => sizeOf t

theorem yields_resolveHost_of_closed (hp : HostClosed scope p)
    (hnamed : ∀ {t : TypeDesc}, q t → ∀ r, t.entity = some r → scope.Names p r) {t : TypeDesc}
    (h : q t) (isArg : Bool) : Yields p (resolveHost scope t isArg) :=
  yields_resolveHost (yields_hostType hparams hp hnamed h isArg t.pointer)

theorem yields_elementHost_of_closed (hp : HostClosed scope p)
    (hnamed : ∀ {t : TypeDesc}, q t → ∀ r, t.entity = some r → scope.Names p r) {t : TypeDesc}
    (h : q t) : Yields p (elementHost scope t) :=
  hp.elementHostOr (hnamed h) (yields_resolveHost_of_closed hparams hp hnamed h false)

theorem yields_nativeType (hp : NativeClosed p)
    (hnamed : ∀ {t : TypeDesc}, q t → ∀ r, t.entity = some r → p (.native r.nativeName)) :
    ∀ {t : TypeDesc}, q t → Yields p t.nativeType
  | mk tag pointer params entity array, h => by
    have hpointerIf : ∀ name, p (.native name) → p (.pointerIf pointer (.native name)) := by
      intro name hname
      cases pointer with
      | false => exact hname
      | true => exact hp.pointer _ hname
    unfold nativeType unsupported elementMissing
    cases tag.view with
    | void =>
      cases pointer with
      | false => exact yields_ok_iff.mpr hp.void
      | true => exact yields_ok_iff.mpr (hp.word "gpointer" (by decide))
    | basic n => exact yields_ok_iff.mpr (hpointerIf _ (hp.number n))
    | boolean | typeHandle => exact yields_ok_iff.mpr (hpointerIf _ (hp.word _ (by decide)))
    | string | hash | error => exact yields_ok_iff.mpr (hp.pointer _ (hp.word _ (by decide)))
    | list k => exact yields_ok_iff.mpr (hp.pointer _ (hp.list k))
    | named =>
      refine yields_bind fun r hr => yields_pure_iff.mpr ?_
      exact hpointerIf _ (hnamed h r (entity_of_entityOf hr))
    | array =>
      refine yields_bind fun info _ => ?_
      cases info.storage with
      | array | ptrArray | byteArray =>
        exact yields_pure_iff.mpr (hp.pointer _ (hp.word _ (by decide)))
      | c =>
        -- Only a C array names the type of its elements, which has to exist.
        cases params with
        | nil => exact yields_error _ _
        | cons e rest =>
          refine yields_bind fun native hnative => ?_
          have he : p native :=
            yields_nativeType hp hnamed (hparams h List.mem_cons_self) native hnative
          cases native with
          | void => exact yields_error _ _
          | _ => exact yields_pure_iff.mpr (hp.pointer _ he)
termination_by t => sizeOf t

end TypeDesc

end Introspection
