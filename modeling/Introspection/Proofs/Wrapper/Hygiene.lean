import Introspection.Proofs.Wrapper.Identifier
import Introspection.Proofs.Wrapper.Locals
import Mathlib.Data.List.Pairwise

/-!
# `Introspection.Proofs.Wrapper.Hygiene`: names that a host function declares twice

A host function is `HostFunction.Hygienic` when the names that it declares in the block of the
native call are distinct and none of them is a reserved word, and when no parameter hides a name
that its body uses. `hygienic_iff_of_synthesize` says which functions are wrapped so
(`Function.NamesApart`): reserved words are never declared, but names of parameters can clash with
each other, with locals and with what the body uses.

All locals start with `real_`, so two of them are the same when their stems are. The stems of two
parameters are apart when neither identifier is a stem of the other parameter
(`disjoint_stems_iff`).
-/

set_option autoImplicit false

namespace Introspection

open Introspection.Code
open Introspection.Naming

/-- The names that bodies of host functions use without declaring them. -/
def usedNames : List String :=
  ["C", "unsafe", "math", "errors", "len", "make", "append", "nil", "toGboolean"]

/-- The names that a host function declares in the block of the native call are distinct and none is
reserved, and no parameter has a name that bodies use. -/
structure HostFunction.Hygienic (h : HostFunction) : Prop where
  distinct : h.declared.Nodup
  keywords : ∀ name ∈ h.declared, isKeyword name = false
  params : ∀ v ∈ h.signature.params, v.name ∉ usedNames

/-- The names of the parameters of a function. -/
def Function.paramNames (f : Function) : List String := f.params.map (·.name)

/-- The names of the parameters of a function stay apart where they are written as identifiers and
where locals are named after them. -/
structure Function.NamesApart (f : Function) (owner : Option EntityRef) : Prop where
  /-- No name is escaped to that of another parameter. -/
  escapes : ∀ name ∈ f.paramNames, name ∈ escapedNames → name ++ "_" ∉ f.paramNames
  /-- No parameter is called like the local of another parameter, but for the prefix of locals. -/
  suffixes : ∀ p ∈ f.withLengthsSkipped.params, ∀ s ∈ p.suffixes, ∀ name ∈ f.paramNames,
    hostIdent name ≠ p.ident ++ s
  /-- No parameter is called like the local that counts the elements of the result. -/
  result : "ret_n" ∈ f.resultStems → "ret_n" ∉ f.paramNames
  /-- No parameter of the host function is called like a local. -/
  locals : ∀ p ∈ f.visibleParams, ∀ stem ∈ f.stems owner, p.ident ≠ "real_" ++ stem
  /-- No parameter of the host function is called like what bodies use. -/
  used : ∀ p ∈ f.visibleParams, p.name ∉ usedNames

namespace Parameter

variable {p q : Parameter}

/-! ### Stems of one parameter -/

/-- The suffixes of a parameter are distinct and known, and where the elements of what is passed in
have a local, what is passed in has one. -/
theorem suffixes_spec (p : Parameter) : p.suffixes.Nodup ∧ (∀ s ∈ p.suffixes, s ∈ localSuffixes)
    ∧ ("_in_view" ∈ p.suffixes → "_in" ∈ p.suffixes) := by
  have hall : ∀ before ∈ [[], ["_view"], ["_in"], ["_in", "_in_view"]], ∀ behind ∈ [[], ["_n"]],
      (before ++ behind).Nodup ∧ (∀ s ∈ before ++ behind, s ∈ localSuffixes)
        ∧ ("_in_view" ∈ before ++ behind → "_in" ∈ before ++ behind) := by
    decide
  exact hall _ (Argument.passSuffixes_cases _) _ (Argument.countSuffixes_cases _)

theorem append_suffix_ne {s : String} (hs : s ∈ localSuffixes) (name : String) :
    name ++ s ≠ name := by
  have hlength : ∀ s ∈ localSuffixes, 0 < s.length := by decide
  exact Stmt.append_ne_of_length_le (hlength s hs) (Nat.le_refl _)

theorem nodup_stems (p : Parameter) : p.stems.Nodup := by
  obtain ⟨hnodup, hknown, _⟩ := p.suffixes_spec
  refine List.nodup_cons.mpr ⟨fun hmem => ?_, hnodup.map fun s t h => ?_⟩
  · obtain ⟨s, hs, hsame⟩ := List.mem_map.mp hmem
    exact append_suffix_ne (hknown s hs) _ hsame
  · exact (String.append_right_inj _).mp h

/-- The stems of two parameters are apart when neither identifier is a stem of the other one. -/
theorem disjoint_stems_iff :
    p.stems.Disjoint q.stems ↔ q.ident ∉ p.stems ∧ p.ident ∉ q.stems := by
  constructor
  · intro h
    exact ⟨fun hq => h hq List.mem_cons_self, fun hp => h List.mem_cons_self hp⟩
  · rintro ⟨hq, hp⟩ stem hstem hstem'
    rcases List.mem_cons.mp hstem with rfl | hsuffixed
    · exact hp hstem'
    rcases List.mem_cons.mp hstem' with rfl | hsuffixed'
    · exact hq hstem
    obtain ⟨s, hs, rfl⟩ := List.mem_map.mp hsuffixed
    obtain ⟨t, ht, hsame⟩ := List.mem_map.mp hsuffixed'
    obtain ⟨_, hknown, hin⟩ := p.suffixes_spec
    obtain ⟨_, hknown', hin'⟩ := q.suffixes_spec
    -- Where suffixes differ, the longer one goes back to what is passed in.
    rcases eq_or_in_of_append_eq (hknown s hs) (hknown' t ht) hsame.symm with
      hident | ⟨rfl, hident⟩ | ⟨rfl, hident⟩
    · exact hq (List.mem_cons.mpr (Or.inl hident.symm))
    · exact hq (List.mem_cons_of_mem _ (List.mem_map.mpr ⟨"_in", hin hs, hident.symm⟩))
    · exact hp (List.mem_cons_of_mem _ (List.mem_map.mpr ⟨"_in", hin' ht, hident.symm⟩))

/-- No stem of a parameter is a name that the wrapper declares for itself. -/
theorem not_mem_wrapperNames_of_mem_stems {stem : String} (h : stem ∈ p.stems) :
    stem ∉ wrapperNames := by
  rcases List.mem_cons.mp h with rfl | hsuffixed
  · exact hostIdent_not_mem_wrapperNames _
  · obtain ⟨s, hs, rfl⟩ := List.mem_map.mp hsuffixed
    have hplain : ∀ name ∈ wrapperNames, '_' ∉ name.toList := by decide
    have hsuffix : ∀ s ∈ localSuffixes, '_' ∈ s.toList := by decide
    refine fun hmem => hplain _ hmem ?_
    rw [String.toList_append]
    exact List.mem_append_right _ (hsuffix s (p.suffixes_spec.2.1 s hs))

/-- A parameter has the stem of the local that counts the result only under its own name. -/
theorem ret_n_mem_stems_iff (hident : '-' ∉ p.name.toList) :
    "ret_n" ∈ p.stems ↔ p.name = "ret_n" := by
  have hkept : hostIdent "ret_n" = "ret_n" := by decide
  constructor
  · intro hmem
    rcases List.mem_cons.mp hmem with hsame | hsuffixed
    · rw [← hkept] at hsame
      rcases eq_or_escaped_of_hostIdent_eq (by decide) hident hsame with h | ⟨hescaped, _⟩ | ⟨_, h⟩
      · exact h.symm
      · exact absurd hescaped (by decide)
      · have hlast := congrArg (·.toList.getLast?) h
        simp [String.toList_append] at hlast
    · obtain ⟨s, hs, hsame⟩ := List.mem_map.mp hsuffixed
      have hret : p.ident ++ s = "ret" ++ "_n" := hsame
      rcases eq_or_in_of_append_eq (p.suffixes_spec.2.1 s hs) (by decide) hret with
        h | ⟨_, h⟩ | ⟨h, _⟩
      · have hwrapper : p.ident ∈ wrapperNames := by
          rw [h]
          decide
        exact absurd hwrapper (hostIdent_not_mem_wrapperNames _)
      · have hlast := congrArg (·.toList.getLast?) h
        simp [String.toList_append] at hlast
      · exact absurd h (by decide)
  · intro hname
    rw [stems, ident, hname, hkept]
    exact List.mem_cons_self

end Parameter

namespace Function

variable {f : Function} {owner : Option EntityRef}

/-! ### Stems of all parameters -/

theorem map_name_withLengthsSkipped (f : Function) :
    f.withLengthsSkipped.params.map (·.name) = f.paramNames := by
  refine List.ext_getElem? fun i => ?_
  rw [List.getElem?_map, withLengthsSkipped, List.getElem?_mapIdx, paramNames, List.getElem?_map,
    Option.map_map]
  rfl

theorem exists_param_of_mem_paramNames {name : String} (h : name ∈ f.paramNames) :
    ∃ p ∈ f.withLengthsSkipped.params, p.name = name := by
  rw [← map_name_withLengthsSkipped] at h
  exact List.mem_map.mp h

theorem name_mem_paramNames {p : Parameter} (h : p ∈ f.withLengthsSkipped.params) :
    p.name ∈ f.paramNames := by
  rw [← map_name_withLengthsSkipped]
  exact List.mem_map_of_mem h

/-- The stems of the parameters are distinct just when no identifier is a stem of another one. -/
theorem nodup_flatMap_stems_iff_apart (hnames : f.paramNames.Nodup) :
    (f.withLengthsSkipped.params.flatMap Parameter.stems).Nodup ↔
      ∀ p ∈ f.withLengthsSkipped.params, ∀ q ∈ f.withLengthsSkipped.params, p.name ≠ q.name →
        q.ident ∉ p.stems := by
  have hsymm : Std.Symm (Function.onFun List.Disjoint Parameter.stems) :=
    ⟨fun _ _ h _ hleft hright => h hright hleft⟩
  rw [List.nodup_flatMap, and_iff_right fun p _ => p.nodup_stems]
  constructor
  · intro hpairwise p hp q hq hne
    have hne : p ≠ q := fun h => hne (congrArg Parameter.name h)
    exact (Parameter.disjoint_stems_iff.mp (hpairwise.forall hp hq hne)).1
  · intro hapart
    rw [← map_name_withLengthsSkipped, List.Nodup, List.pairwise_map] at hnames
    refine hnames.imp_of_mem fun {p q} hp hq hne => ?_
    exact Parameter.disjoint_stems_iff.mpr ⟨hapart p hp q hq hne, hapart q hq p hp hne.symm⟩

/-- Identifiers are no stems of each other just when no name is escaped to another one and none is
another one with a suffix. -/
theorem nodup_flatMap_stems_iff (hnames : f.paramNames.Nodup)
    (hident : ∀ name ∈ f.paramNames, '-' ∉ name.toList) :
    (f.withLengthsSkipped.params.flatMap Parameter.stems).Nodup ↔
      (∀ name ∈ f.paramNames, name ∈ escapedNames → name ++ "_" ∉ f.paramNames)
        ∧ ∀ p ∈ f.withLengthsSkipped.params, ∀ s ∈ p.suffixes, ∀ name ∈ f.paramNames,
          hostIdent name ≠ p.ident ++ s := by
  rw [nodup_flatMap_stems_iff_apart hnames]
  constructor
  · intro hapart
    constructor
    · intro name hname hescaped hother
      obtain ⟨p, hp, rfl⟩ := exists_param_of_mem_paramNames hname
      obtain ⟨q, hq, hlonger⟩ := exists_param_of_mem_paramNames hother
      have hne : p.name ≠ q.name := fun h =>
        Stmt.append_ne_of_length_le (by decide) (Nat.le_refl _) (h.trans hlonger).symm
      have hsame : q.ident = p.ident := by
        rw [Parameter.ident, hlonger]
        exact hostIdent_append_underscore hescaped (hident _ hother)
      exact hapart p hp q hq hne (List.mem_cons.mpr (Or.inl hsame))
    · intro p hp s hs name hname hsame
      obtain ⟨q, hq, rfl⟩ := exists_param_of_mem_paramNames hname
      have hne : p.name ≠ q.name := fun h =>
        Parameter.append_suffix_ne (p.suffixes_spec.2.1 s hs) _ (by rw [← hsame, ← h]; rfl)
      exact hapart p hp q hq hne (List.mem_cons_of_mem _ (List.mem_map.mpr ⟨s, hs, hsame.symm⟩))
  · rintro ⟨hescapes, hsuffixes⟩ p hp q hq hne hmem
    have hpname := name_mem_paramNames hp
    have hqname := name_mem_paramNames hq
    rcases List.mem_cons.mp hmem with hsame | hsuffixed
    · -- Both are written the same, so one of them is escaped to the other.
      rcases eq_or_escaped_of_hostIdent_eq (hident _ hqname) (hident _ hpname) hsame with
        h | ⟨hescaped, h⟩ | ⟨hescaped, h⟩
      · exact hne h.symm
      · exact hescapes _ hqname hescaped (h ▸ hpname)
      · exact hescapes _ hpname hescaped (h ▸ hqname)
    · obtain ⟨s, hs, hsame⟩ := List.mem_map.mp hsuffixed
      exact hsuffixes p hp s hs _ hqname hsame.symm

/-! ### Stems that are named by the wrapper -/

/-- The stems of the instance, of the report of an error and of the result. -/
def ownStems (f : Function) (owner : Option EntityRef) : List String :=
  (if f.isMethod && owner.isSome then ["this"] else [])
    ++ (if f.flags.throws then ["err"] else []) ++ f.resultStems

theorem perm_stems (f : Function) (owner : Option EntityRef) : (f.stems owner).Perm
    (f.withLengthsSkipped.params.flatMap Parameter.stems ++ f.ownStems owner) := by
  unfold stems ownStems
  simp only [List.append_assoc]
  exact List.perm_append_comm_assoc _ _ _

/-- The stems that the wrapper names are distinct, and all but one are names of its own. -/
theorem ownStems_spec (f : Function) (owner : Option EntityRef) : (f.ownStems owner).Nodup
    ∧ ∀ stem ∈ f.ownStems owner, stem ∈ wrapperNames
      ∨ stem = "ret_n" ∧ "ret_n" ∈ f.resultStems := by
  have hresult : f.resultStems ∈ [[], ["ret"], ["ret", "ret_n"]] := by
    unfold resultStems TypeDesc.countSuffixes
    split
    · split <;> simp
    · simp
  have hall : ∀ this ∈ [[], ["this"]], ∀ err ∈ [[], ["err"]],
      ∀ result ∈ [[], ["ret"], ["ret", "ret_n"]], (this ++ err ++ result).Nodup
        ∧ ∀ stem ∈ this ++ err ++ result, stem ∈ wrapperNames
          ∨ stem = "ret_n" ∧ "ret_n" ∈ result := by
    decide
  refine hall _ ?_ _ ?_ _ hresult
  · split <;> simp
  · split <;> simp

/-- The stems of a function are distinct when those of its parameters are and none of these is the
local that counts the result. -/
theorem nodup_stems_iff (hident : ∀ name ∈ f.paramNames, '-' ∉ name.toList) :
    (f.stems owner).Nodup ↔ (f.withLengthsSkipped.params.flatMap Parameter.stems).Nodup
      ∧ ("ret_n" ∈ f.resultStems → "ret_n" ∉ f.paramNames) := by
  obtain ⟨hnodup, hown⟩ := f.ownStems_spec owner
  rw [(f.perm_stems owner).nodup_iff, List.nodup_append', and_iff_right hnodup]
  refine and_congr_right fun _ => ⟨fun hdisjoint hresult hname => ?_, fun hapart => ?_⟩
  · obtain ⟨p, hp, hsame⟩ := exists_param_of_mem_paramNames hname
    have hstem := (Parameter.ret_n_mem_stems_iff (hident _ (name_mem_paramNames hp))).mpr hsame
    exact hdisjoint (List.mem_flatMap.mpr ⟨p, hp, hstem⟩) (List.mem_append_right _ hresult)
  · -- Parameters are escaped from the names of the wrapper, so `ret_n` alone can be met.
    intro stem hstem hmem
    obtain ⟨p, hp, hof⟩ := List.mem_flatMap.mp hstem
    rcases hown stem hmem with hwrapper | ⟨rfl, hresult⟩
    · exact Parameter.not_mem_wrapperNames_of_mem_stems hof hwrapper
    · have hname := name_mem_paramNames hp
      rw [(Parameter.ret_n_mem_stems_iff (hident _ hname)).mp hof] at hname
      exact hapart hresult hname

/-! ### Names of the signature -/

theorem mem_boundNames {name : String} (h : name ∈ f.boundNames owner) :
    name ∈ wrapperNames ∨ ∃ p ∈ f.visibleParams, name = p.ident := by
  unfold boundNames at h
  simp only [List.mem_append, List.mem_map, List.mem_ite_nil_right, List.mem_singleton] at h
  rcases h with ((⟨_, rfl⟩ | ⟨p, hp, rfl⟩) | ⟨_, rfl⟩) | ⟨_, rfl⟩
  · exact Or.inl (by decide)
  · exact Or.inr ⟨p, hp, rfl⟩
  · exact Or.inl (by decide)
  · exact Or.inl (by decide)

theorem ident_mem_boundNames {p : Parameter} (hp : p ∈ f.visibleParams) :
    p.ident ∈ f.boundNames owner := by
  unfold boundNames
  simp only [List.mem_append]
  exact Or.inl (Or.inl (Or.inr (List.mem_map.mpr ⟨p, hp, rfl⟩)))

theorem map_ident_sublist (ps : List Parameter) :
    List.Sublist (ps.map Parameter.ident) (ps.flatMap Parameter.stems) := by
  induction ps with
  | nil => exact .slnil
  | cons p ps ih =>
    rw [List.map_cons, List.flatMap_cons]
    exact (ih.trans (List.sublist_append_right _ _)).cons_cons p.ident

/-- Every name of the signature has a local of its own. -/
theorem nodup_boundNames (h : (f.stems owner).Nodup) : (f.boundNames owner).Nodup := by
  have hparams : List.Sublist (f.visibleParams.map Parameter.ident)
      (f.withLengthsSkipped.params.flatMap Parameter.stems) :=
    (List.filter_sublist.map _).trans (map_ident_sublist _)
  have hresult : List.Sublist (if f.keepsResult then ["ret"] else []) f.resultStems := by
    unfold resultStems
    split <;> simp
  -- In the signature the result stands before the report of an error.
  have hperm : (f.boundNames owner).Perm
      ((if f.isMethod && owner.isSome then ["this"] else [])
        ++ f.visibleParams.map Parameter.ident ++ (if f.flags.throws then ["err"] else [])
        ++ if f.keepsResult then ["ret"] else []) := by
    unfold boundNames
    rw [List.append_assoc, List.append_assoc _ (if f.flags.throws then _ else _)]
    exact List.perm_append_comm.append_left _
  exact hperm.nodup_iff.mpr
    (h.sublist ((((List.Sublist.refl _).append hparams).append (.refl _)).append hresult))

end Function

/-! ### Hygiene -/

/-- Bodies use no name that is escaped, nor the escape of one. -/
theorem hostIdent_mem_usedNames_iff {name : String} (hident : '-' ∉ name.toList) :
    hostIdent name ∈ usedNames ↔ name ∈ usedNames := by
  have hescaped : ∀ used ∈ usedNames, used ∉ escapedNames ∧ used.toList.getLast? ≠ some '_' := by
    decide
  rw [hostIdent_eq hident]
  split
  next hmem =>
    refine iff_of_false (fun h => (hescaped _ h).2 ?_) fun h => (hescaped _ h).1 hmem
    simp [String.toList_append]
  · exact Iff.rfl

section Hygiene

variable {scope : Scope} {f : Function} {owner via : Option EntityRef} {host : HostFunction}

/-- No name that a host function declares is reserved. -/
theorem isKeyword_declared (h : synthesize scope f owner via = .ok host) :
    ∀ name ∈ host.declared, isKeyword name = false := by
  have hwrapper : ∀ name ∈ wrapperNames, isKeyword name = false := by decide
  intro name hname
  rcases List.mem_append.mp ((perm_declared h).mem_iff.mp hname) with hbound | hlocal
  · rcases Function.mem_boundNames hbound with hown | ⟨p, _, rfl⟩
    · exact hwrapper name hown
    · exact isKeyword_hostIdent p.name
  · obtain ⟨stem, _, rfl⟩ := List.mem_map.mp hlocal
    exact isKeyword_real stem

/-- The names that a host function declares are distinct when the stems of its locals are and no
parameter is called like a local. -/
theorem nodup_declared_iff (h : synthesize scope f owner via = .ok host) :
    host.declared.Nodup ↔ (f.stems owner).Nodup
      ∧ ∀ p ∈ f.visibleParams, ∀ stem ∈ f.stems owner, p.ident ≠ "real_" ++ stem := by
  have hinjective : (fun stem => "real_" ++ stem : String → String).Injective :=
    fun _ _ => (String.append_right_inj _).mp
  rw [(perm_declared h).nodup_iff, List.nodup_append', List.nodup_map_iff hinjective]
  constructor
  · rintro ⟨_, hstems, hdisjoint⟩
    exact ⟨hstems, fun p hp stem hstem hsame => hdisjoint (Function.ident_mem_boundNames hp)
      (List.mem_map.mpr ⟨stem, hstem, hsame.symm⟩)⟩
  · rintro ⟨hstems, hlocals⟩
    refine ⟨Function.nodup_boundNames hstems, hstems, fun name hbound hlocal => ?_⟩
    obtain ⟨stem, hstem, rfl⟩ := List.mem_map.mp hlocal
    rcases Function.mem_boundNames hbound with hown | ⟨p, hp, hsame⟩
    · -- The wrapper's own names have no `_`, and locals have that of `real_`.
      have hplain : ∀ name ∈ wrapperNames, '_' ∉ name.toList := by decide
      exact hplain _ hown (by simp [String.toList_append])
    · exact hlocals p hp stem hstem hsame.symm

/-- No parameter of a host function hides what bodies use when none is named like it. -/
theorem params_not_mem_usedNames_iff (hident : ∀ name ∈ f.paramNames, '-' ∉ name.toList)
    (h : synthesize scope f owner via = .ok host) :
    (∀ v ∈ host.signature.params, v.name ∉ usedNames)
      ↔ ∀ p ∈ f.visibleParams, p.name ∉ usedNames := by
  have hnames : (∀ v ∈ host.signature.params, v.name ∉ usedNames)
      ↔ ∀ name ∈ host.signature.params.map (·.name), name ∉ usedNames := by
    rw [List.forall_mem_map]
  rw [hnames, Wrapper.map_name_params h, List.forall_mem_map]
  refine forall₂_congr fun p hp => not_congr (hostIdent_mem_usedNames_iff (hident _ ?_))
  exact Function.name_mem_paramNames (List.mem_of_mem_filter hp)

/-- A function whose parameters have distinct names is wrapped hygienically just when these stay
apart from each other, from locals and from what bodies use. -/
theorem hygienic_iff_of_synthesize (hnames : f.paramNames.Nodup)
    (hident : ∀ name ∈ f.paramNames, '-' ∉ name.toList)
    (h : synthesize scope f owner via = .ok host) :
    host.Hygienic ↔ f.NamesApart owner := by
  have hdistinct := nodup_declared_iff h
  rw [Function.nodup_stems_iff hident, Function.nodup_flatMap_stems_iff hnames hident] at hdistinct
  constructor
  · rintro ⟨hdeclared, _, hused⟩
    obtain ⟨⟨⟨hescapes, hsuffixes⟩, hresult⟩, hlocals⟩ := hdistinct.mp hdeclared
    exact ⟨hescapes, hsuffixes, hresult, hlocals,
      (params_not_mem_usedNames_iff hident h).mp hused⟩
  · rintro ⟨hescapes, hsuffixes, hresult, hlocals, hused⟩
    exact ⟨hdistinct.mpr ⟨⟨⟨hescapes, hsuffixes⟩, hresult⟩, hlocals⟩, isKeyword_declared h,
      (params_not_mem_usedNames_iff hident h).mpr hused⟩

end Hygiene

/-- A function that takes names and a length that is not theirs. -/
def Function.ofListedNames : Function :=
  ((ofSymbol "pick" "gtk_pick").withParam
    (.ofType "names" (.ofArray ⟨.c, none, none, false⟩ .utf8))).withParam
      (.ofType "len" (.ofTag .int32))

/-- The parameter `len` hides the function that measures the names. -/
theorem hygienic_iff_of_synthesize_ofListedNames :
    ∃ host : HostFunction, synthesize (.ofHome "Gtk") Function.ofListedNames none none = .ok host
      ∧ ¬host.Hygienic := by
  have hok : ∃ host, synthesize (.ofHome "Gtk") Function.ofListedNames none none = .ok host :=
    ⟨_, rfl⟩
  obtain ⟨host, hhost⟩ := hok
  refine ⟨host, hhost, fun hhygienic => ?_⟩
  have hapart := (hygienic_iff_of_synthesize (by decide) (by decide) hhost).mp hhygienic
  exact absurd hapart.used (by decide)

end Introspection
