import Introspection.Proofs.Conversion.Foreign
import Introspection.Proofs.Entity.Texts
import Introspection.Proofs.Resolution.Outcome

/-!
# `Introspection.Proofs.Resolution.Escape`: resolved types without an escape character

The spelling of a type, and the message that says why there is none, are put together from fixed
words and from the texts of the descriptor. Where these hold no escape character, neither do the
types of `resolveNative` and `resolveHost` and the messages of their errors.
-/

set_option autoImplicit false

namespace Introspection

open Introspection.Code
open Introspection.Text (EscapeFree escapeFree_append)

/-! ### Go types -/

namespace Code.GoType

variable {g h : GoType} {name : String}

@[simp] theorem escapeFree_text_void : EscapeFree void.text := by decide

@[simp] theorem escapeFree_text_plain : EscapeFree (plain name).text ↔ EscapeFree name := Iff.rfl

@[simp] theorem escapeFree_text_qualified {package : String} :
    EscapeFree (qualified package name).text ↔ EscapeFree package ∧ EscapeFree name := by
  have hpoint : EscapeFree "." := by decide
  simp [text, hpoint]

@[simp] theorem escapeFree_text_pointer : EscapeFree (pointer g).text ↔ EscapeFree g.text := by
  have hstar : EscapeFree "*" := by decide
  simp [text, hstar]

@[simp] theorem escapeFree_text_slice : EscapeFree (slice g).text ↔ EscapeFree g.text := by
  have hbrackets : EscapeFree "[]" := by decide
  simp [text, hbrackets]

@[simp] theorem escapeFree_text_map :
    EscapeFree (map g h).text ↔ EscapeFree g.text ∧ EscapeFree h.text := by
  have hopen : EscapeFree "map[" := by decide
  have hclose : EscapeFree "]" := by decide
  simp [text, hopen, hclose]

@[simp] theorem escapeFree_text_pointerIf {indirect : Bool} :
    EscapeFree (pointerIf indirect g).text ↔ EscapeFree g.text := by
  cases indirect <;> simp [pointerIf]

@[simp] theorem escapeFree_text_native : EscapeFree (native name).text ↔ EscapeFree name := by
  have hpackage : EscapeFree "C" := by decide
  simp [native, hpackage]

end Code.GoType

@[simp] theorem Numeric.escapeFree_nativeName (n : Numeric) : EscapeFree n.nativeName := by
  cases n <;> decide

@[simp] theorem Numeric.escapeFree_hostName (n : Numeric) : EscapeFree n.hostName := by
  cases n <;> decide

@[simp] theorem ArrayStorage.escapeFree_label (s : ArrayStorage) : EscapeFree s.label := by
  cases s <;> decide

@[simp] theorem ListKind.escapeFree_nativeName (k : ListKind) : EscapeFree k.nativeName := by
  cases k <;> decide

theorem EntityRef.escapeFree_text {r : EntityRef} (h : EntityRef.codec.EscapeFree r) :
    EscapeFree r.text := by
  have hpoint : EscapeFree "." := by decide
  simp [EntityRef.text, hpoint, EntityRef.escapeFree_iff.mp h]

theorem EntityRef.escapeFree_nativeName {r : EntityRef} (h : EntityRef.codec.EscapeFree r) :
    EscapeFree r.nativeName := by
  obtain ⟨hhome, hname⟩ := EntityRef.escapeFree_iff.mp h
  rw [EntityRef.nativeName, escapeFree_append, Naming.typePrefix]
  split
  · exact ⟨by decide, hname⟩
  · exact ⟨hhome, hname⟩

theorem Scope.escapeFree_typeName {scope : Scope} {home name : String} (hhome : EscapeFree home)
    (hname : EscapeFree name) : EscapeFree (scope.typeName home name).text := by
  unfold Scope.typeName
  split
  · exact GoType.escapeFree_text_plain.mpr hname
  · exact GoType.escapeFree_text_qualified.mpr ⟨Text.escapeFree_packageName hhome, hname⟩

namespace TypeDesc

variable {scope : Scope} {t : TypeDesc}

/-! ### Descriptors -/

theorem escapeFree_of_mem_params (h : codec.EscapeFree t) {e : TypeDesc} (he : e ∈ t.params) :
    codec.EscapeFree e :=
  (escapeFree_iff.mp h).2 e he

/-- What is inside a descriptor has no other texts. -/
theorem escapeFree_of_inside {s : TypeDesc} (h : s.Inside t) (ht : codec.EscapeFree t) :
    codec.EscapeFree s := by
  induction h with
  | self => exact ht
  | element hu _ ih => exact ih (escapeFree_of_mem_params ht hu)

theorem escapeFree_furtherTexts {ts : List TypeDesc} (h : ∀ u ∈ ts, EscapeFree u.text) :
    EscapeFree (furtherTexts ts) := by
  have hcomma : EscapeFree ", " := by decide
  induction ts with
  | nil => decide
  | cons u us ih =>
    obtain ⟨hu, hus⟩ := List.forall_mem_cons.mp h
    simp [furtherTexts, hcomma, hu, ih hus]

/-- The short form shows the names of registered types and fixed words. -/
theorem escapeFree_text : ∀ {t : TypeDesc}, codec.EscapeFree t → EscapeFree t.text
  | mk tag pointer params entity array, h => by
    obtain ⟨hentity, hparams⟩ := escapeFree_iff.mp h
    have ih : ∀ u ∈ params, EscapeFree u.text := fun u hu => escapeFree_text (hparams u hu)
    rw [text.eq_def]
    dsimp only
    rw [escapeFree_append, escapeFree_append]
    refine ⟨⟨?_, ?_⟩, ?_⟩
    · cases pointer <;> decide
    · cases entity with
      | some r => exact EntityRef.escapeFree_text (hentity r rfl)
      | none =>
        cases array with
        | some info => exact ArrayStorage.escapeFree_label info.storage
        | none => exact tag.escapeFree_name
    · cases params with
      | nil => decide
      | cons u us =>
        obtain ⟨hu, hus⟩ := List.forall_mem_cons.mp ih
        have hopen : EscapeFree "<" := by decide
        have hclose : EscapeFree ">" := by decide
        simp [hopen, hclose, hu, escapeFree_furtherTexts hus]
termination_by t => sizeOf t

/-! ### Resolved types -/

/-- Native types have fixed names and those of registered types. -/
theorem nativeClosed_escapeFree : NativeClosed fun g => EscapeFree g.text where
  void := by decide
  word := by decide
  number n := by simp
  list k := by simp
  pointer g := GoType.escapeFree_text_pointer.mpr

/-- Host types have fixed names and those of registered types and their packages. -/
theorem hostClosed_escapeFree : HostClosed scope fun g => EscapeFree g.text where
  void := by decide
  unsafePointer := by decide
  word := by decide
  number n := by simp
  typeHandle := Scope.escapeFree_typeName (by decide) (by decide)
  pointer g := GoType.escapeFree_text_pointer.mpr
  slice g := GoType.escapeFree_text_slice.mpr
  map k v hk hv := GoType.escapeFree_text_map.mpr ⟨hk, hv⟩

theorem names_of_escapeFree (h : codec.EscapeFree t) (r : EntityRef) (hr : t.entity = some r) :
    scope.Names (fun g => EscapeFree g.text) r := by
  obtain ⟨hhome, hname⟩ := EntityRef.escapeFree_iff.mp ((escapeFree_iff.mp h).1 r hr)
  exact ⟨Scope.escapeFree_typeName hhome hname,
    Scope.escapeFree_typeName hhome (escapeFree_append.mpr ⟨by decide, hname⟩)⟩

end TypeDesc

/-! ### Errors -/

@[simp] theorem ShapeDefect.escapeFree_text (d : ShapeDefect) : EscapeFree d.text := by
  cases d <;> decide

theorem GenerationError.message_malformedType (type : String) (defect : ShapeDefect) :
    (malformedType type defect).message
      = "malformed type \x60" ++ type ++ "\x60: " ++ defect.text :=
  rfl

theorem GenerationError.message_missingArrayInfo (type : String) :
    (missingArrayInfo type).message = "array type \x60" ++ type ++ "\x60 carries no array info" :=
  rfl

theorem GenerationError.message_unsupported (use : Use) (type : String) :
    (unsupported use type).message
      = "no conversion for " ++ use.text ++ " of type \x60" ++ type ++ "\x60" :=
  rfl

/-- The message about a contradiction shows the type that has it. -/
theorem TypeDesc.escapeFree_defectError {t : TypeDesc} (h : codec.EscapeFree t)
    (defect : ShapeDefect) : EscapeFree (t.defectError defect).message := by
  have htext := escapeFree_text h
  have hwords : ∀ word ∈ ["malformed type \x60", "\x60: ", "array type \x60",
      "\x60 carries no array info"], EscapeFree word := by decide
  simp only [List.forall_mem_cons] at hwords
  cases defect with
  | arrayInfoMissing =>
    simp [defectError, GenerationError.message_missingArrayInfo, htext, hwords]
  | elementCount | entityMissing | arrayInfoMisplaced =>
    simp [defectError, GenerationError.message_malformedType, htext, hwords]

/-- The message about a missing rule shows the type that has none. -/
theorem TypeDesc.escapeFree_unsupported {t : TypeDesc} (h : codec.EscapeFree t) (use : Use) :
    EscapeFree (GenerationError.unsupported use t.text).message := by
  have huse : EscapeFree use.text := by cases use <;> decide
  have hwords : ∀ word ∈ ["no conversion for ", " of type \x60", "\x60"], EscapeFree word := by
    decide
  simp only [List.forall_mem_cons] at hwords
  simp [GenerationError.message_unsupported, huse, escapeFree_text h, hwords]

/-- The check blames a type inside the descriptor. -/
theorem TypeDesc.escapeFree_of_check_eq_error {t : TypeDesc} (h : codec.EscapeFree t)
    {err : GenerationError} (herr : t.check = .error err) : EscapeFree err.message := by
  obtain ⟨s, defect, hs, rfl⟩ := exists_innermost_of_check_eq_error herr
  exact escapeFree_defectError (escapeFree_of_inside hs.inside h) defect

/-- A way from C arrays to their elements leads to what is inside. -/
theorem TypeDesc.inside_of_reaches {t a : TypeDesc} (h : Relation.ReflTransGen CElement t a) :
    a.Inside t := by
  induction h using Relation.ReflTransGen.head_induction_on with
  | refl => exact .self a
  | head hstep _ ih =>
    refine .element ?_ ih
    rw [hstep.params]
    exact List.mem_cons_self

/-! ### Both resolvers -/

section Resolvers

variable {t : TypeDesc} (h : TypeDesc.codec.EscapeFree t)

include h

theorem escapeFree_text_of_resolveNative :
    Yields (fun g => EscapeFree g.text) (resolveNative t) := by
  refine yields_resolveNative
    (TypeDesc.yields_nativeType TypeDesc.escapeFree_of_mem_params
      TypeDesc.nativeClosed_escapeFree ?_ h)
  intro u hu r hr
  have hentity := (TypeDesc.escapeFree_iff.mp hu).1 r hr
  exact GoType.escapeFree_text_native.mpr (EntityRef.escapeFree_nativeName hentity)

theorem escapeFree_text_of_resolveHost (scope : Scope) (isArg : Bool) :
    Yields (fun g => EscapeFree g.text) (resolveHost scope t isArg) :=
  TypeDesc.yields_resolveHost_of_closed TypeDesc.escapeFree_of_mem_params
    TypeDesc.hostClosed_escapeFree TypeDesc.names_of_escapeFree h isArg

/-- Why there is no native type is said without an escape character. -/
theorem escapeFree_message_of_resolveNative {err : GenerationError}
    (herr : resolveNative t = .error err) : EscapeFree err.message := by
  rw [resolveNative_eq_check] at herr
  rcases bind_eq_error_iff.mp herr with hcheck | ⟨_, hcheck, hnative⟩
  · exact TypeDesc.escapeFree_of_check_eq_error h hcheck
  · have hshape := TypeDesc.check_eq_ok_iff.mp hcheck
    obtain ⟨a, e, hway, _, _, rfl⟩ := (TypeDesc.nativeType_eq_error_iff hshape).mp hnative
    have ha := TypeDesc.escapeFree_of_inside (TypeDesc.inside_of_reaches hway) h
    exact TypeDesc.escapeFree_unsupported ha .arrayElement

/-- Why there is no host type is said without an escape character. -/
theorem escapeFree_message_of_resolveHost {scope : Scope} {isArg : Bool} {err : GenerationError}
    (herr : resolveHost scope t isArg = .error err) : EscapeFree err.message := by
  rw [resolveHost_eq_check] at herr
  rcases bind_eq_error_iff.mp herr with hcheck | ⟨_, hcheck, hhost⟩
  · exact TypeDesc.escapeFree_of_check_eq_error h hcheck
  · have hshape := TypeDesc.check_eq_ok_iff.mp hcheck
    obtain ⟨g, hg⟩ := TypeDesc.exists_hostType scope hshape isArg t.pointer
    rw [hg] at hhost
    cases hhost

end Resolvers

end Introspection
