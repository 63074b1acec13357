import Introspection.Declaration.ValueName
import Mathlib.Data.List.Nodup
import Mathlib.Data.List.Pairwise

/-!
# `Introspection.Proofs.Declaration.ValueName`: values that get the same name

The values of all enumerations and the registered types share one scope of the generated package.
`Namespace.valueNamesApart_iff` says when no two of them get the same host name, for enumerations
that do not repeat a value themselves.

Bare names never clash with each other: a name that comes twice makes its enumeration ambiguous
(`count_le_one_of_not_prefixes`), which puts the first word of its type in front. What is left are
clashes that only that word brings about. Two enumerations may begin with the same word, or a word
and a bare name may together spell another bare name (`StemsApart`). Nor does anything keep a value
from being called like a type.
-/

set_option autoImplicit false

namespace Introspection

open Introspection.Text

namespace Namespace

variable {ns : Namespace} {e f : Enumeration}

/-- Host names of all values of the namespace, in order. -/
def hostValueNames (ns : Namespace) : List String :=
  ns.enums.entries.flatMap fun e => (ns.valueNames e e.values).map ValueName.host

/-- Names of the registered types of the namespace. -/
def typeNames (ns : Namespace) : List String := ns.entities.map Entity.name

/-- The host names of all values are distinct, and none of them is the name of a type. -/
structure NamesApart (ns : Namespace) : Prop where
  values : ns.hostValueNames.Nodup
  types : ∀ name ∈ ns.hostValueNames, name ∉ ns.typeNames

/-- No enumeration repeats a bare name. -/
def ValuesDistinct (ns : Namespace) : Prop :=
  ∀ e ∈ ns.enums.entries, (e.values.map EnumValue.bareName).Nodup

/-- The values of an enumeration get the first word of its name in front. -/
def Prefixes (ns : Namespace) (e : Enumeration) : Prop := ∃ v ∈ e.values, ns.isAmbiguous v = true

/-- A word in front of a bare name spells no other host name, and no value is called like a type. -/
structure StemsApart (ns : Namespace) : Prop where
  /-- With their first words in front, values of two enumerations stay apart. -/
  words : ∀ e ∈ ns.enums.entries, ∀ f ∈ ns.enums.entries, e.name ≠ f.name →
    ns.Prefixes e → ns.Prefixes f → ∀ v ∈ e.values, ∀ w ∈ f.values,
      firstWord e.name ++ v.bareName ≠ firstWord f.name ++ w.bareName
  /-- With a first word in front, no value gets the bare name of another. -/
  bare : ∀ e ∈ ns.enums.entries, ∀ f ∈ ns.enums.entries, ns.Prefixes e → ¬ns.Prefixes f →
    ∀ v ∈ e.values, ∀ w ∈ f.values, firstWord e.name ++ v.bareName ≠ w.bareName
  /-- No value is called like a type. -/
  types : ∀ e ∈ ns.enums.entries, ∀ v ∈ e.values, ns.valueStem e ++ v.bareName ∉ ns.typeNames

/-! ### Host names of one enumeration -/

theorem valueStem_of_prefixes (h : ns.Prefixes e) : ns.valueStem e = firstWord e.name :=
  if_pos (List.any_eq_true.mpr h)

theorem valueStem_of_not_prefixes (h : ¬ns.Prefixes e) : ns.valueStem e = "" :=
  if_neg fun hany => h (List.any_eq_true.mp hany)

/-- The host names of an enumeration are its bare names behind one stem. -/
theorem host_valueNames (e : Enumeration) :
    (ns.valueNames e e.values).map ValueName.host
      = (e.values.map EnumValue.bareName).map (ns.valueStem e ++ ·) := by
  simp [valueNames, valueName]

theorem mem_hostValueNames_iff {name : String} : name ∈ ns.hostValueNames ↔
    ∃ e ∈ ns.enums.entries, ∃ v ∈ e.values, ns.valueStem e ++ v.bareName = name := by
  simp only [hostValueNames, host_valueNames, List.mem_flatMap, List.mem_map,
    exists_exists_and_eq_and]

/-- One stem keeps the bare names of an enumeration apart. -/
theorem nodup_host_valueNames_iff : ((ns.valueNames e e.values).map ValueName.host).Nodup
    ↔ (e.values.map EnumValue.bareName).Nodup := by
  rw [host_valueNames]
  exact List.nodup_map_iff fun a b h => (String.append_right_inj _).mp h

/-! ### Bare names -/

/-- Without a first word in front, each bare name comes just once in the namespace. -/
theorem count_le_one_of_not_prefixes (h : ¬ns.Prefixes e) {v : EnumValue} (hv : v ∈ e.values) :
    ns.bareValueNames.count v.bareName ≤ 1 := by
  have hplain : ns.isAmbiguous v = false := by
    rw [← Bool.not_eq_true]
    exact fun hambiguous => h ⟨v, hv, hambiguous⟩
  simpa [isAmbiguous] using hplain

/-- A bare name of two enumerations comes at least twice. -/
theorem two_le_count_of_shared (he : e ∈ ns.enums.entries) (hf : f ∈ ns.enums.entries)
    (hne : e ≠ f) {name : String} (hname : name ∈ e.values.map EnumValue.bareName)
    (hname' : name ∈ f.values.map EnumValue.bareName) : 2 ≤ ns.bareValueNames.count name := by
  obtain ⟨before, after, hentries⟩ := List.append_of_mem he
  have hrest : f ∈ before ++ after := by
    rw [hentries] at hf
    rcases List.mem_append.mp hf with hbefore | hafter
    · exact List.mem_append_left _ hbefore
    · rcases List.mem_cons.mp hafter with rfl | hafter
      · exact absurd rfl hne
      · exact List.mem_append_right _ hafter
  -- It comes once in `e` itself and once among the enumerations around it.
  have hown : 0 < (e.values.map EnumValue.bareName).count name := List.count_pos_iff.mpr hname
  have hother :
      0 < ((before ++ after).flatMap fun e => e.values.map EnumValue.bareName).count name :=
    List.count_pos_iff.mpr (List.mem_flatMap.mpr ⟨f, hrest, hname'⟩)
  rw [bareValueNames, hentries]
  simp only [List.flatMap_append, List.flatMap_cons, List.count_append] at hother ⊢
  omega

/-! ### Two enumerations -/

/-- Enumerations of one namespace are told by their names. -/
theorem eq_of_name_eq (he : e ∈ ns.enums.entries) (hf : f ∈ ns.enums.entries)
    (hname : e.name = f.name) : e = f :=
  List.inj_on_of_nodup_map ns.enums.nodup he hf hname

/-- The host names of all values are distinct just when those of two enumerations always are. -/
theorem nodup_hostValueNames_iff (hdistinct : ns.ValuesDistinct) : ns.hostValueNames.Nodup ↔
    ∀ e ∈ ns.enums.entries, ∀ f ∈ ns.enums.entries, e.name ≠ f.name →
      ∀ v ∈ e.values, ∀ w ∈ f.values,
        ns.valueStem e ++ v.bareName ≠ ns.valueStem f ++ w.bareName := by
  have hsymm : Std.Symm (Function.onFun List.Disjoint fun e : Enumeration =>
      (ns.valueNames e e.values).map ValueName.host) :=
    ⟨fun _ _ h _ hleft hright => h hright hleft⟩
  have hown : ∀ e ∈ ns.enums.entries, ((ns.valueNames e e.values).map ValueName.host).Nodup :=
    fun e he => nodup_host_valueNames_iff.mpr (hdistinct e he)
  rw [hostValueNames, List.nodup_flatMap, and_iff_right hown]
  constructor
  · intro hpairwise e he f hf hne v hv w hw hsame
    have hdisjoint := hpairwise.forall he hf fun h => hne (congrArg Enumeration.name h)
    simp only [Function.onFun, host_valueNames] at hdisjoint
    refine hdisjoint (List.mem_map_of_mem (List.mem_map_of_mem hv)) ?_
    rw [hsame]
    exact List.mem_map_of_mem (List.mem_map_of_mem hw)
  · intro hapart
    refine ns.enums.nodup.of_map.pairwise_of_forall_ne fun e he f hf hne => ?_
    simp only [Function.onFun, host_valueNames, List.map_map]
    intro name hleft hright
    obtain ⟨v, hv, rfl⟩ := List.mem_map.mp hleft
    obtain ⟨w, hw, hsame⟩ := List.mem_map.mp hright
    exact hapart e he f hf (fun h => hne (eq_of_name_eq he hf h)) v hv w hw hsame.symm

/-- Where neither enumeration has a first word in front, their values never clash. -/
theorem bareName_ne_of_not_prefixes (he : e ∈ ns.enums.entries) (hf : f ∈ ns.enums.entries)
    (hne : e.name ≠ f.name) (hplain : ¬ns.Prefixes e) {v w : EnumValue} (hv : v ∈ e.values)
    (hw : w ∈ f.values) : v.bareName ≠ w.bareName := by
  intro hsame
  have htwice := two_le_count_of_shared he hf (fun h => hne (congrArg Enumeration.name h))
    (List.mem_map_of_mem hv) (hsame ▸ List.mem_map_of_mem hw)
  have honce := count_le_one_of_not_prefixes hplain hv
  omega

/-- Where no enumeration repeats a value, the host names of all values are distinct and no names of
types just when first words make no clash and no value is called like a type. -/
theorem valueNamesApart_iff (hdistinct : ns.ValuesDistinct) : ns.NamesApart ↔ ns.StemsApart := by
  have hvalues := nodup_hostValueNames_iff hdistinct
  constructor
  · intro h
    have hapart := hvalues.mp h.values
    refine ⟨?_, ?_, ?_⟩
    · intro e he f hf hne hpe hpf v hv w hw
      have hclash := hapart e he f hf hne v hv w hw
      rwa [valueStem_of_prefixes hpe, valueStem_of_prefixes hpf] at hclash
    · intro e he f hf hpe hpf v hv w hw
      have hne : e.name ≠ f.name := fun hname => hpf (eq_of_name_eq he hf hname ▸ hpe)
      have hclash := hapart e he f hf hne v hv w hw
      rwa [valueStem_of_prefixes hpe, valueStem_of_not_prefixes hpf, String.empty_append] at hclash
    · intro e he v hv
      exact h.types _ (mem_hostValueNames_iff.mpr ⟨e, he, v, hv, rfl⟩)
  · intro h
    refine ⟨hvalues.mpr ?_, ?_⟩
    · intro e he f hf hne v hv w hw
      -- Two first words, one of them, or none: only the last case needs no assumption.
      by_cases hpe : ns.Prefixes e
      · rw [valueStem_of_prefixes hpe]
        by_cases hpf : ns.Prefixes f
        · rw [valueStem_of_prefixes hpf]
          exact h.words e he f hf hne hpe hpf v hv w hw
        · rw [valueStem_of_not_prefixes hpf, String.empty_append]
          exact h.bare e he f hf hpe hpf v hv w hw
      · rw [valueStem_of_not_prefixes hpe, String.empty_append]
        by_cases hpf : ns.Prefixes f
        · rw [valueStem_of_prefixes hpf]
          exact (h.bare f hf e he hpf hpe w hw v hv).symm
        · rw [valueStem_of_not_prefixes hpf, String.empty_append]
          exact bareName_ne_of_not_prefixes he hf hne hpe hv hw
    · intro name hname
      obtain ⟨e, he, v, hv, rfl⟩ := mem_hostValueNames_iff.mp hname
      exact h.types e he v hv

/-- A state and the flags of a state, both of which may be normal. -/
def stateNamespace : Namespace :=
  ((ofName "Gtk").addEntity (.enum (.ofValues "StateType" [.ofInt "normal" 0]))).addEntity
    (.enum (.ofValues "StateFlags" [.ofInt "normal" 0]))

/-- Neither enumeration of `stateNamespace` repeats a value, but both get `State` in front of it. -/
theorem valueNamesApart_iff_ofStates :
    stateNamespace.ValuesDistinct ∧ ¬stateNamespace.NamesApart
      ∧ stateNamespace.hostValueNames = ["StateNormal", "StateNormal"] := by
  have hdistinct : stateNamespace.ValuesDistinct := by
    unfold ValuesDistinct
    decide
  refine ⟨hdistinct, fun h => ?_, by decide⟩
  have hprefixes : ∀ e ∈ stateNamespace.enums.entries, stateNamespace.Prefixes e := by
    unfold Prefixes
    decide
  have hwords := ((valueNamesApart_iff hdistinct).mp h).words
  refine hwords _ List.mem_cons_self _ (List.mem_cons_of_mem _ List.mem_cons_self) (by decide)
    (hprefixes _ List.mem_cons_self) (hprefixes _ (List.mem_cons_of_mem _ List.mem_cons_self))
    _ List.mem_cons_self _ List.mem_cons_self (by decide)

end Namespace

end Introspection
