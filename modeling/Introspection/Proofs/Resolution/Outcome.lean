import Introspection.Proofs.Code.Spelling
import Introspection.Proofs.Resolution.Unchecked
import Mathlib.Logic.Relation

/-!
# `Introspection.Proofs.Resolution.Outcome`: which types are found

Both resolvers start with `check`, which accepts just the well-shaped descriptors
(`check_eq_ok_iff`) and blames an innermost contradiction (`exists_innermost_of_check_eq_error`).
After that no further check fails and no table misses a name, so a host type is always found. A
native type is found unless the way from C arrays to their elements ends at nothing: what does not
exist has the empty type, and there is no pointer to it. `resolve_outcome` puts these together.

The way follows C arrays only (`CElement`), since every other container has one native type whatever
it holds.
-/

set_option autoImplicit false

namespace Introspection

open Introspection.Code
open Relation

namespace TypeDesc

variable {t e : TypeDesc} {err : GenerationError}

/-! ### What the check accepts and what it blames -/

/-- A descriptor inside another that contradicts itself, while its elements do not. -/
structure Innermost (t s : TypeDesc) (defect : ShapeDefect) : Prop where
  inside : s.Inside t
  own : s.ownDefect = some defect
  elements : ∀ u ∈ s.params, u.WellShaped

/-- What is innermost in an element is innermost in the whole. -/
theorem Innermost.of_element {u s : TypeDesc} {defect : ShapeDefect} (h : u.Innermost s defect)
    (hu : u ∈ t.params) : t.Innermost s defect :=
  ⟨.element hu h.inside, h.own, h.elements⟩

/-- The error of a row of descriptors is that of one of them. -/
theorem exists_of_checkAll_eq_error {ts : List TypeDesc} (h : checkAll ts = .error err) :
    ∃ t ∈ ts, t.check = .error err := by
  induction ts with
  | nil => cases h
  | cons t ts ih =>
    rcases bind_eq_error_iff.mp h with hfirst | ⟨_, _, hrest⟩
    · exact ⟨t, List.mem_cons_self, hfirst⟩
    · obtain ⟨u, hu, hcheck⟩ := ih hrest
      exact ⟨u, List.mem_cons_of_mem _ hu, hcheck⟩

/-- The check blames an innermost contradiction. -/
theorem exists_innermost_of_check_eq_error : ∀ {t : TypeDesc} {err : GenerationError},
    t.check = .error err → ∃ s defect, t.Innermost s defect ∧ err = s.defectError defect
  | mk tag pointer params entity array, err, h => by
    have ih : ∀ u ∈ params, u.check = .error err →
        ∃ s defect, u.Innermost s defect ∧ err = s.defectError defect :=
      fun u _ => exists_innermost_of_check_eq_error
    rw [check] at h
    rcases bind_eq_error_iff.mp h with hparams | ⟨_, hparams, hown⟩
    · obtain ⟨u, hu, hcheck⟩ := exists_of_checkAll_eq_error hparams
      obtain ⟨s, defect, hs, herr⟩ := ih u hu hcheck
      exact ⟨s, defect, hs.of_element hu, herr⟩
    · have helements : ∀ u ∈ params, u.WellShaped := fun u hu =>
        check_eq_ok_iff.mp (checkAll_eq_ok_iff.mp hparams u hu)
      -- with nothing found in the elements, what was found is the descriptor's own
      have hnone : shapeDefects params = none :=
        shapeDefects_eq_none_iff.mpr fun u hu => shapeDefect_eq_none_iff.mpr (helements u hu)
      simp only [shapeDefect, hnone, Option.or_none] at hown
      split at hown
      · cases hown
      · cases hown
        exact ⟨_, _, ⟨.self _, ‹_›, helements⟩, rfl⟩
termination_by t => sizeOf t

/-- A contradiction between the parts of a descriptor is no lack of a rule. -/
theorem ne_unsupported_of_check_eq_error (h : t.check = .error err) (use : Use) (text : String) :
    err ≠ .unsupported use text := by
  obtain ⟨s, defect, -, rfl⟩ := exists_innermost_of_check_eq_error h
  cases defect <;> nofun

/-! ### What does not exist -/

theorem isVoid_eq_true_iff : t.isVoid = true ↔ t.view = .void ∧ t.pointer = false := by
  obtain ⟨tag, own, params, entity, array⟩ := t
  unfold isVoid view
  cases tag <;> cases own <;> simp [tag, pointer, Tag.view]

theorem isVoid_eq_false_of_view {c : TagClass} (hview : t.view = c) (hc : c ≠ .void) :
    t.isVoid = false := by
  rw [← Bool.not_eq_true, isVoid_eq_true_iff, hview]
  exact fun h => hc h.1

/-- A native type prints nothing just when there is no value. -/
theorem text_nativeType_ne_iff (t : TypeDesc) :
    Yields (fun g => g.text ≠ "" ↔ t.isVoid = false) t.nativeType := by
  have hprinted : ∀ {c : TagClass} {g : GoType}, t.view = c → c ≠ .void → g.text ≠ "" →
      (g.text ≠ "" ↔ t.isVoid = false) := fun hview hc hg =>
    iff_of_true hg (isVoid_eq_false_of_view hview hc)
  have hindirect : ∀ (indirect : Bool) (name : String),
      (GoType.pointerIf indirect (.native name)).text ≠ "" := fun indirect name => by
    cases indirect <;> simp [GoType.pointerIf]
  have hvoid := t.isVoid_eq_true_iff
  obtain ⟨tag, own, params, entity, array⟩ := t
  unfold nativeType
  change ∀ {c : TagClass} {g : GoType}, tag.view = c → _ at hprinted
  change _ ↔ tag.view = .void ∧ own = false at hvoid
  dsimp only
  cases hview : tag.view with
  | void =>
    refine yields_ok_iff.mpr ?_
    cases own <;> simp_all [GoType.text]
  | basic | boolean | typeHandle =>
    exact yields_ok_iff.mpr (hprinted hview (by simp) (hindirect _ _))
  | string | list | hash | error =>
    exact yields_ok_iff.mpr (hprinted hview (by simp) (GoType.text_pointer_ne _))
  | named =>
    exact yields_bind fun r _ => yields_pure_iff.mpr (hprinted hview (by simp) (hindirect _ _))
  | array =>
    refine yields_bind fun info _ => ?_
    cases info.storage with
    | c =>
      cases params with
      | nil => exact yields_error _ _
      | cons e rest =>
        refine yields_bind fun g _ => ?_
        cases g with
        | void => exact yields_error _ _
        | _ => exact yields_pure_iff.mpr (hprinted hview (by simp) (GoType.text_pointer_ne _))
    | array | ptrArray | byteArray =>
      exact yields_pure_iff.mpr (hprinted hview (by simp) (GoType.text_pointer_ne _))

/-- A type that is found prints nothing just when there is no value. -/
theorem text_ne_iff_of_resolveNative {g : GoType} (hg : resolveNative t = .ok g) :
    g.text ≠ "" ↔ t.isVoid = false := by
  exact yields_resolveNative t.text_nativeType_ne_iff g hg

/-- What does not exist has the empty type. -/
theorem nativeType_eq_void_iff : t.nativeType = .ok .void ↔ t.isVoid = true := by
  constructor
  · intro h
    have hprinted := t.text_nativeType_ne_iff .void h
    simpa [GoType.text] using hprinted
  · intro h
    obtain ⟨hview, hpointer⟩ := isVoid_eq_true_iff.mp h
    obtain ⟨tag, pointer, params, entity, array⟩ := t
    change tag.view = .void at hview
    cases hpointer
    unfold nativeType
    simp [hview]

/-! ### From C arrays to their elements -/

/-- The type of the elements of a plain C array. -/
structure CElement (t e : TypeDesc) : Prop where
  tag : t.tag = .array
  storage : ∃ info, t.array = some info ∧ info.storage = .c
  params : t.params = [e]

/-- A C array has one type of elements. -/
theorem CElement.unique {u : TypeDesc} (h : t.CElement e) (h' : t.CElement u) : u = e :=
  List.cons.inj (h'.params.symm.trans h.params) |>.1

/-- A C array is a pointer to its first element, if there is anything to point to. -/
theorem CElement.nativeType_eq (h : t.CElement e) :
    t.nativeType = e.nativeType >>= fun g =>
      match g with
      | .void => unsupported .arrayElement t
      | element => .ok (.pointer element) := by
  obtain ⟨info, hinfo, hstorage⟩ := h.storage
  have htag := h.tag
  have hparams := h.params
  obtain ⟨tag, pointer, params, entity, array⟩ := t
  cases htag
  cases hparams
  conv_lhs => unfold nativeType
  simp only [Tag.view, arrayInfoOf_eq_ok hinfo, ok_bind, hstorage]
  rfl

/-- Whatever is no C array has a native type. -/
theorem exists_nativeType (h : t.WellShaped) (hlast : ∀ e, ¬t.CElement e) :
    ∃ g, t.nativeType = .ok g := by
  have harray := fun hview => h.exists_array hview
  have hnamed := h.agrees.exists_entity
  have htag := t.tag_of_view.2.1
  obtain ⟨tag, pointer, params, entity, array⟩ := t
  unfold nativeType
  change tag.view = .array → _ at harray
  change tag.view = .named → _ at hnamed
  cases hview : tag.view with
  | array =>
    obtain ⟨info, e, hinfo, hparams, _⟩ := harray hview
    simp only [arrayInfoOf_eq_ok hinfo, ok_bind]
    cases hstorage : info.storage with
    | c => exact absurd ⟨htag hview, ⟨info, hinfo, hstorage⟩, hparams⟩ (hlast e)
    | array | ptrArray | byteArray => exact ⟨_, rfl⟩
  | named =>
    obtain ⟨r, hr⟩ := hnamed hview
    simp only [entityOf_eq_ok hr, ok_bind]
    exact ⟨_, rfl⟩
  | void | basic | boolean | typeHandle | string | list | hash | error => exact ⟨_, rfl⟩

/-- The native type of a well-shaped descriptor is missing just when there is a C array of nothing
on the way from C arrays to their elements; the error names that array. -/
theorem nativeType_eq_error_iff : ∀ {t : TypeDesc} {err : GenerationError}, t.WellShaped →
    (t.nativeType = .error err ↔ ∃ a e, ReflTransGen CElement t a ∧ a.CElement e
      ∧ e.isVoid = true ∧ err = .unsupported .arrayElement a.text)
  | mk tag pointer params entity array, err, h => by
    have ih : ∀ u ∈ params, (u.nativeType = .error err ↔ ∃ a e, ReflTransGen CElement u a
        ∧ a.CElement e ∧ e.isVoid = true ∧ err = .unsupported .arrayElement a.text) :=
      fun u hu => nativeType_eq_error_iff (h.of_mem_params hu)
    generalize ht : mk tag pointer params entity array = t at *
    by_cases hc : ∃ e, t.CElement e
    · obtain ⟨e, he⟩ := hc
      have hmem : e ∈ params := by
        have hparams : params = [e] := by rw [← he.params, ← ht, TypeDesc.params]
        rw [hparams]
        exact List.mem_cons_self
      rw [he.nativeType_eq, bind_eq_error_iff, ih e hmem]
      constructor
      · rintro (⟨a, u, hway, hrest⟩ | ⟨g, hg, herr⟩)
        · exact ⟨a, u, .head he hway, hrest⟩
        · cases g with
          | void =>
            cases herr
            exact ⟨t, e, .refl, he, nativeType_eq_void_iff.mp hg, rfl⟩
          | _ => cases herr
      · rintro ⟨a, u, hway, hau, hvoid, rfl⟩
        rcases hway.cases_head with rfl | ⟨e', he', hway⟩
        · cases he.unique hau
          exact Or.inr ⟨.void, nativeType_eq_void_iff.mpr hvoid, rfl⟩
        · cases he.unique he'
          exact Or.inl ⟨a, u, hway, hau, hvoid, rfl⟩
    · have hlast := not_exists.mp hc
      obtain ⟨g, hg⟩ := exists_nativeType h hlast
      refine iff_of_false (by simp [hg]) ?_
      rintro ⟨a, e, hway, hae, _⟩
      rcases hway.cases_head with rfl | ⟨e', he', _⟩
      · exact hlast e hae
      · exact hlast e' he'
termination_by t => sizeOf t

end TypeDesc

/-! ### The outcome of resolution -/

/-- No host type is missing because its table has no name for it. -/
theorem resolveHost_ne_missing (scope : Scope) (t : TypeDesc) (isArg : Bool) (text : String) :
    resolveHost scope t isArg ≠ .error (.unsupported .hostType text) := by
  intro h
  rw [resolveHost_eq_check] at h
  rcases bind_eq_error_iff.mp h with hcheck | ⟨_, hcheck, hhost⟩
  · exact TypeDesc.ne_unsupported_of_check_eq_error hcheck _ _ rfl
  · have hshape := TypeDesc.check_eq_ok_iff.mp hcheck
    obtain ⟨g, hg⟩ := TypeDesc.exists_hostType scope hshape isArg t.pointer
    cases hg.symm.trans hhost

/-- No native type is missing because its table has no name for it. -/
theorem resolveNative_ne_missing (t : TypeDesc) (text : String) :
    resolveNative t ≠ .error (.unsupported .nativeType text) := by
  intro h
  rw [resolveNative_eq_check] at h
  rcases bind_eq_error_iff.mp h with hcheck | ⟨_, hcheck, hnative⟩
  · exact TypeDesc.ne_unsupported_of_check_eq_error hcheck _ _ rfl
  · have hshape := TypeDesc.check_eq_ok_iff.mp hcheck
    obtain ⟨_, _, _, _, _, herr⟩ := (TypeDesc.nativeType_eq_error_iff hshape).mp hnative
    cases herr

/-- A host type is found just when the descriptor passes its check, whose own error is otherwise
that of both resolvers. A descriptor that passes lacks a native type just when the way from C arrays
to their elements leads to nothing, which the error says of the last array; the type found is empty
just when there is no value. The errors for names that a table lacks never come up. -/
theorem resolve_outcome (scope : Scope) (t : TypeDesc) (isArg : Bool) :
    ((∃ g, resolveHost scope t isArg = .ok g) ↔ t.check = .ok ())
    ∧ (∀ err, t.check = .error err →
        resolveHost scope t isArg = .error err ∧ resolveNative t = .error err)
    ∧ (t.check = .ok () →
        (∀ err, resolveNative t = .error err ↔
          ∃ a e, ReflTransGen TypeDesc.CElement t a ∧ a.CElement e ∧ e.isVoid = true
            ∧ err = .unsupported .arrayElement a.text)
        ∧ ∀ g, resolveNative t = .ok g → (g.text = "" ↔ t.isVoid = true))
    ∧ ∀ text, resolveHost scope t isArg ≠ .error (.unsupported .hostType text)
      ∧ resolveNative t ≠ .error (.unsupported .nativeType text) := by
  refine ⟨⟨?_, ?_⟩, ?_, ?_, fun text =>
    ⟨resolveHost_ne_missing scope t isArg text, resolveNative_ne_missing t text⟩⟩
  · rintro ⟨g, hg⟩
    exact TypeDesc.check_eq_ok (TypeDesc.wellShaped_of_resolveHost hg)
  · intro hcheck
    exact exists_resolveHost scope (TypeDesc.check_eq_ok_iff.mp hcheck) isArg
  · intro err hcheck
    rw [resolveHost_eq_check, resolveNative_eq_check, hcheck]
    exact ⟨rfl, rfl⟩
  · intro hcheck
    have hshape := TypeDesc.check_eq_ok_iff.mp hcheck
    refine ⟨fun err => ?_, fun g hg => ?_⟩
    · rw [TypeDesc.resolveNative_eq hshape, TypeDesc.nativeType_eq_error_iff hshape]
    · have hprinted := TypeDesc.text_ne_iff_of_resolveNative hg
      rw [← Bool.not_eq_false, ← hprinted, not_not]

/-- A C array of C arrays of nothing. -/
def emptyRows : TypeDesc :=
  .ofArray (.ofStorage .c) (.ofArray (.ofStorage .c) .void)

/-- The error for `emptyRows` names the rows, though they pass the check. -/
theorem resolve_outcome_emptyRows :
    emptyRows.check = .ok ()
      ∧ resolveNative emptyRows = .error (.unsupported .arrayElement "*C<void>") := by
  have hcheck : emptyRows.check = .ok () := by rfl
  have houtcome := (resolve_outcome (.ofHome "Gtk") emptyRows true).2.2.1 hcheck
  have hrow : emptyRows.CElement (.ofArray (.ofStorage .c) .void) :=
    ⟨rfl, ⟨.ofStorage .c, rfl, rfl⟩, rfl⟩
  have hcell : (TypeDesc.ofArray (.ofStorage .c) .void).CElement .void :=
    ⟨rfl, ⟨.ofStorage .c, rfl, rfl⟩, rfl⟩
  refine ⟨hcheck, (houtcome.1 _).mpr ⟨_, .void, .single hrow, hcell, by decide, ?_⟩⟩
  simp [TypeDesc.ofArray, TypeDesc.void, TypeDesc.ofTag, TypeDesc.text, TypeDesc.furtherTexts,
    ArrayInfo.ofStorage, ArrayStorage.label, Tag.name]

end Introspection
