import Introspection.Proofs.Resolution.Outcome
import Mathlib.Data.List.Perm.Basic

/-!
# `Introspection.Proofs.Resolution.Blame`: which descriptor is blamed

A descriptor is searched for contradictions in two orders. `TypeDesc.shapeDefect` visits each
descriptor in front of its elements (`nodes`), and reports what it finds first. `TypeDesc.check`
visits it behind them (`nodesUp`): it goes through the descriptors as if each was checked by itself
(`check_eq_forM`), though it runs the whole search again at each of them.

Both orders visit the same descriptors, so either both searches find something or none does. What
the check blames has nothing but well-shaped descriptors inside, since these were all visited in
front of it (`check_outcome`).
-/

set_option autoImplicit false

namespace Introspection.TypeDesc

variable {t s u : TypeDesc} {defect : ShapeDefect} {err : GenerationError}

/-! ### The first contradiction of one descriptor -/

/-- What is wrong first with one descriptor, those of its elements left aside: the number of
elements comes first, then the reference to a registered type, then the facts about an array. -/
inductive FirstDefect (t : TypeDesc) : ShapeDefect → Prop
  | elementCount : t.params.length ≠ t.tag.arity → FirstDefect t .elementCount
  | entityMissing : t.params.length = t.tag.arity →
    ¬ (t.tag = .interface ↔ t.entity.isSome = true) → FirstDefect t .entityMissing
  | arrayInfoMissing : t.params.length = t.tag.arity →
    (t.tag = .interface ↔ t.entity.isSome = true) →
    t.tag = .array → t.array = none → FirstDefect t .arrayInfoMissing
  | arrayInfoMisplaced : t.params.length = t.tag.arity →
    (t.tag = .interface ↔ t.entity.isSome = true) →
    t.tag ≠ .array → t.array ≠ none → FirstDefect t .arrayInfoMisplaced

theorem ownDefect_of_firstDefect (h : t.FirstDefect defect) : t.ownDefect = some defect := by
  unfold ownDefect
  cases h with
  | elementCount hparams => rw [if_pos hparams]
  | entityMissing hparams hentity =>
    have hbool : (t.tag == .interface) ≠ t.entity.isSome := fun h =>
      hentity (by rw [← h, beq_iff_eq])
    rw [if_neg (not_not.mpr hparams), if_pos (by simpa using hbool)]
  | arrayInfoMissing hparams hentity htag harray =>
    have hbool : (t.tag == .interface) = t.entity.isSome :=
      Bool.eq_iff_iff.mpr (by rw [beq_iff_eq, hentity])
    rw [if_neg (not_not.mpr hparams), if_neg (by simp [hbool]), htag, harray]
    rfl
  | arrayInfoMisplaced hparams hentity htag harray =>
    have hbool : (t.tag == .interface) = t.entity.isSome :=
      Bool.eq_iff_iff.mpr (by rw [beq_iff_eq, hentity])
    have harray : t.array.isSome = true := Option.isSome_iff_ne_none.mpr harray
    rw [if_neg (not_not.mpr hparams), if_neg (by simp [hbool]), if_neg (by simp [htag]),
      if_pos (by simp [htag, harray])]

/-- Where the parts do not agree, something is wrong first. -/
theorem exists_firstDefect (h : ¬ t.Agrees) : ∃ defect, t.FirstDefect defect := by
  by_cases hparams : t.params.length = t.tag.arity
  · by_cases hentity : t.tag = .interface ↔ t.entity.isSome = true
    · by_cases htag : t.tag = .array
      · have harray : t.array = none := by
          by_contra harray
          exact h ⟨hparams, hentity, iff_of_true htag (Option.isSome_iff_ne_none.mpr harray)⟩
        exact ⟨_, .arrayInfoMissing hparams hentity htag harray⟩
      · have harray : t.array ≠ none := fun harray =>
          h ⟨hparams, hentity, iff_of_false htag (by rw [harray]; nofun)⟩
        exact ⟨_, .arrayInfoMisplaced hparams hentity htag harray⟩
    · exact ⟨_, .entityMissing hparams hentity⟩
  · exact ⟨_, .elementCount hparams⟩

/-- The four checks of one descriptor together find what is wrong first. -/
theorem ownDefect_eq_some_iff : t.ownDefect = some defect ↔ t.FirstDefect defect := by
  refine ⟨fun h => ?_, ownDefect_of_firstDefect⟩
  have hdisagrees : ¬ t.Agrees := fun hagrees => by
    rw [ownDefect_eq_none_iff.mpr hagrees] at h
    cases h
  obtain ⟨other, hother⟩ := exists_firstDefect hdisagrees
  rw [ownDefect_of_firstDefect hother] at h
  cases h
  exact hother

/-! ### Elements first -/

mutual

/-- A descriptor and those of its elements, elements first. -/
def nodesUp : TypeDesc → List TypeDesc
  | mk tag pointer params entity array =>
    nodesUpOf params ++ [mk tag pointer params entity array]

/-- All descriptors inside a list of descriptors, elements first. -/
def nodesUpOf : List TypeDesc → List TypeDesc
  | [] => []
  | t :: ts => t.nodesUp ++ nodesUpOf ts

end

theorem nodesUpOf_eq_flatMap (ts : List TypeDesc) : nodesUpOf ts = ts.flatMap nodesUp := by
  induction ts with
  | nil => rfl
  | cons t ts ih => rw [nodesUpOf, List.flatMap_cons, ih]

/-- Elements first or last, the descriptors are those inside. -/
theorem mem_nodesUp_iff : ∀ {t : TypeDesc}, s ∈ t.nodesUp ↔ s.Inside t
  | mk tag pointer params entity array => by
    have ih : ∀ u ∈ params, (s ∈ u.nodesUp ↔ s.Inside u) := fun u _ => mem_nodesUp_iff
    rw [nodesUp, nodesUpOf_eq_flatMap, List.mem_append, List.mem_flatMap, List.mem_singleton,
      inside_iff, or_comm]
    exact or_congr_right (exists_congr fun u => and_congr_right fun hu => ih u hu)
termination_by t => sizeOf t

/-- An item of two lists in a row is one of the first list, or one of the second. -/
theorem split_of_append_eq {α : Type} {xs ys before after : List α} {a : α}
    (h : xs ++ ys = before ++ a :: after) :
    (∃ rest, xs = before ++ a :: rest)
      ∨ ∃ first, before = xs ++ first ∧ ys = first ++ a :: after := by
  rcases List.append_eq_append_iff.mp h with ⟨first, hbefore, hys⟩ | ⟨rest, hxs, hrest⟩
  · exact Or.inr ⟨first, hbefore, hys⟩
  · cases rest with
    | nil => exact Or.inr ⟨[], by rw [hxs, List.append_nil, List.append_nil], hrest.symm⟩
    | cons b rest =>
      obtain ⟨rfl, _⟩ := List.cons_eq_cons.mp hrest
      exact Or.inl ⟨rest, hxs⟩

/-- What stands in front of a descriptor of a row stands there in the part of the row's item. -/
theorem exists_nodesUp_of_nodesUpOf {ts before after : List TypeDesc}
    (h : nodesUpOf ts = before ++ s :: after) :
    ∃ t ∈ ts, ∃ front rest, t.nodesUp = front ++ s :: rest ∧ front ⊆ before := by
  induction ts generalizing before after with
  | nil => simp [nodesUpOf] at h
  | cons t ts ih =>
    rw [nodesUpOf] at h
    rcases split_of_append_eq h with ⟨rest, ht⟩ | ⟨first, rfl, hts⟩
    · exact ⟨t, List.mem_cons_self, before, rest, ht, List.Subset.refl before⟩
    · obtain ⟨u, hu, front, rest, hnodes, hfront⟩ := ih hts
      exact ⟨u, List.mem_cons_of_mem t hu, front, rest, hnodes,
        List.Subset.trans hfront (List.subset_append_right t.nodesUp first)⟩

/-- In front of a descriptor stand all descriptors inside its elements. -/
theorem mem_of_nodesUp_eq : ∀ {t : TypeDesc} {before after : List TypeDesc},
    t.nodesUp = before ++ s :: after → ∀ u ∈ s.params, ∀ v, v.Inside u → v ∈ before
  | mk tag pointer params entity array, before, after, h, u, hu, v, hv => by
    rw [nodesUp] at h
    rcases split_of_append_eq h with ⟨rest, hrest⟩ | ⟨first, rfl, hself⟩
    · obtain ⟨e, he, front, rest, hnodes, hfront⟩ := exists_nodesUp_of_nodesUpOf hrest
      exact hfront (mem_of_nodesUp_eq hnodes u hu v hv)
    · -- The descriptor itself comes last, behind everything inside its elements.
      obtain ⟨rfl, hs⟩ := List.append_eq_singleton_iff.mp hself.symm |>.resolve_right (by simp)
      obtain ⟨rfl, _⟩ := List.cons_eq_cons.mp hs
      rw [List.append_nil, nodesUpOf_eq_flatMap, List.mem_flatMap]
      exact ⟨u, hu, mem_nodesUp_iff.mpr hv⟩
termination_by t => sizeOf t

/-! ### The check, descriptor by descriptor -/

/-- The check of one descriptor, those of its elements left aside. -/
def checkOwn (t : TypeDesc) : Generated Unit :=
  match t.ownDefect with
  | none => .ok ()
  | some defect => .error (t.defectError defect)

theorem checkOwn_eq_ok_iff : t.checkOwn = .ok () ↔ t.Agrees := by
  rw [← ownDefect_eq_none_iff, checkOwn]
  cases t.ownDefect <;> simp

theorem checkOwn_eq_error_iff :
    t.checkOwn = .error err ↔ ∃ defect, t.ownDefect = some defect ∧ err = t.defectError defect := by
  rw [checkOwn]
  cases t.ownDefect <;> simp [eq_comm]

/-- A row of descriptors is checked descriptor by descriptor when each of them is. -/
theorem checkAll_eq_forM {ts : List TypeDesc} (h : ∀ t ∈ ts, t.check = t.nodesUp.forM checkOwn) :
    checkAll ts = (nodesUpOf ts).forM checkOwn := by
  induction ts with
  | nil => rfl
  | cons t ts ih =>
    obtain ⟨ht, hts⟩ := List.forall_mem_cons.mp h
    rw [checkAll, nodesUpOf, List.forM_eq_forM, List.forM_append, ← List.forM_eq_forM, ht, ih hts]

/-- The check goes through the descriptors, elements first, and looks at each by itself. -/
theorem check_eq_forM : ∀ t : TypeDesc, t.check = t.nodesUp.forM checkOwn
  | mk tag pointer params entity array => by
    have ih : ∀ u ∈ params, u.check = u.nodesUp.forM checkOwn := fun u _ => check_eq_forM u
    rw [check, nodesUp, List.forM_eq_forM, List.forM_append, ← List.forM_eq_forM,
      ← checkAll_eq_forM ih]
    cases hparams : checkAll params with
    | error e => rfl
    | ok _ =>
      -- Nothing is found in the elements, so the whole search finds the descriptor's own defect.
      have hnone : shapeDefects params = none := shapeDefects_eq_none_iff.mpr fun u hu =>
        shapeDefect_eq_none_iff.mpr (check_eq_ok_iff.mp (checkAll_eq_ok_iff.mp hparams u hu))
      have hone : [mk tag pointer params entity array].forM checkOwn
          = (mk tag pointer params entity array).checkOwn := by
        rw [List.forM_eq_forM, List.forM_cons, List.forM_nil, bind_pure]
      rw [ok_bind, ok_bind, hone, checkOwn]
      dsimp only
      rw [shapeDefect, hnone, Option.or_none]
      rfl
termination_by t => sizeOf t

/-! ### What the check blames -/

/-- The check of the whole blames a descriptor for a contradiction. -/
structure Blames (t s : TypeDesc) (defect : ShapeDefect) : Prop where
  /-- Elements first, it is the first descriptor that contradicts itself. -/
  first : ∃ before after, t.nodesUp = before ++ s :: after ∧ ∀ u ∈ before, u.Agrees
  inside : s.Inside t
  own : s.FirstDefect defect
  /-- There is no contradiction inside its elements. -/
  elements : ∀ u ∈ s.params, u.WellShaped

/-- The error for a contradiction shows the descriptor; missing facts about an array have an error
of their own. -/
theorem defectError_eq_iff :
    err = s.defectError defect
      ↔ err = .missingArrayInfo s.text ∧ defect = .arrayInfoMissing
        ∨ err = .malformedType s.text defect ∧ defect ≠ .arrayInfoMissing := by
  cases defect <;> simp [defectError]

theorem check_eq_error_iff :
    t.check = .error err ↔ ∃ s defect, t.Blames s defect ∧ err = s.defectError defect := by
  rw [check_eq_forM, forM_eq_error_iff]
  constructor
  · rintro ⟨before, s, after, hnodes, hbefore, hs⟩
    have hagrees : ∀ u ∈ before, u.Agrees := fun u hu => checkOwn_eq_ok_iff.mp (hbefore u hu)
    obtain ⟨defect, hown, herr⟩ := checkOwn_eq_error_iff.mp hs
    refine ⟨s, defect, ⟨⟨before, after, hnodes, hagrees⟩, ?_, ?_, ?_⟩, herr⟩
    · exact mem_nodesUp_iff.mp (hnodes ▸ List.mem_append_right before List.mem_cons_self)
    · exact ownDefect_eq_some_iff.mp hown
    · exact fun u hu v hv => hagrees v (mem_of_nodesUp_eq hnodes u hu v hv)
  · rintro ⟨s, defect, ⟨⟨before, after, hnodes, hbefore⟩, _, hown, _⟩, herr⟩
    refine ⟨before, s, after, hnodes, fun u hu => checkOwn_eq_ok_iff.mpr (hbefore u hu), ?_⟩
    exact checkOwn_eq_error_iff.mpr ⟨defect, ownDefect_eq_some_iff.mpr hown, herr⟩

/-- The check accepts a descriptor just when the search for a contradiction finds none. Otherwise
the error shows a descriptor inside that contradicts itself while nothing inside its elements does,
and it is that for missing facts about an array just when these are what is wrong with it first. -/
theorem check_outcome (t : TypeDesc) :
    (t.check = .ok () ↔ t.shapeDefect = none)
    ∧ ∀ err, t.check = .error err ↔ ∃ s defect, t.Blames s defect
        ∧ (err = .missingArrayInfo s.text ∧ defect = .arrayInfoMissing
          ∨ err = .malformedType s.text defect ∧ defect ≠ .arrayInfoMissing) := by
  refine ⟨check_eq_ok_iff.trans shapeDefect_eq_none_iff.symm, fun err => ?_⟩
  simp only [check_eq_error_iff, defectError_eq_iff]

/-- A hash table whose keys are arrays of which nothing is known, of numbers that have facts about
arrays. Its values name no type. -/
def tangled : TypeDesc :=
  mk .ghash true
    [ mk .array true [mk .int32 false [] none (some (.ofStorage .c))] none none,
      mk .interface true [] none none ]
    none none

/-- Of three contradictions, the check blames the innermost one in front, where the search from
outside finds the arrays. -/
theorem check_outcome_tangled :
    tangled.check = .error (.malformedType "C" .arrayInfoMisplaced)
      ∧ tangled.shapeDefect = some .arrayInfoMissing := by
  have hblames : tangled.Blames (mk .int32 false [] none (some (.ofStorage .c)))
      .arrayInfoMisplaced :=
    { first := ⟨[], _, rfl, nofun⟩
      inside := .element List.mem_cons_self (.element List.mem_cons_self (.self _))
      own := .arrayInfoMisplaced rfl (by decide) nofun nofun
      elements := nofun }
  exact ⟨((check_outcome tangled).2 _).mpr ⟨_, _, hblames, Or.inr ⟨rfl, nofun⟩⟩, rfl⟩

end Introspection.TypeDesc
