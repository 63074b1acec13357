import Introspection.Proofs.Declaration.Foreign
import Mathlib.Data.String.Basic

/-!
# `Introspection.Proofs.Source.Import`: packages that a generated file imports

The imports of a file are read off its text: a package is imported when its name stands in front of
a point, be it as a qualifier or not (`mem_imports_iff`). When the names of all namespaces are
words, no qualifier is overlooked. So the package of every foreign name in a declaration is
imported, and it is imported once: `count_imports_of_qualified`.
-/

set_option autoImplicit false

namespace Introspection

open Introspection.Code
open Introspection.Naming
open Introspection.Text

/-! ### Texts in order -/

namespace Text

theorem mem_insertSorted_iff {s t : String} {texts : List String} :
    s ∈ insertSorted t texts ↔ s = t ∨ s ∈ texts := by
  induction texts with
  | nil => simp [insertSorted]
  | cons u texts ih =>
    unfold insertSorted
    split
    · exact List.mem_cons
    · split
      next h => simp [h]
      next => simp [ih, or_left_comm]

theorem mem_sortedDistinct_iff {s : String} {texts : List String} :
    s ∈ sortedDistinct texts ↔ s ∈ texts := by
  induction texts with
  | nil => rfl
  | cons t texts ih =>
    show s ∈ insertSorted t (sortedDistinct texts) ↔ s ∈ t :: texts
    rw [mem_insertSorted_iff, ih, List.mem_cons]

theorem pairwise_insertSorted (t : String) {texts : List String} (h : texts.Pairwise (· < ·)) :
    (insertSorted t texts).Pairwise (· < ·) := by
  induction texts with
  | nil => exact List.pairwise_singleton ..
  | cons u texts ih =>
    obtain ⟨hu, htexts⟩ := List.pairwise_cons.mp h
    unfold insertSorted
    split
    next hlt =>
      refine List.pairwise_cons.mpr ⟨List.forall_mem_cons.mpr ⟨hlt, fun v hv => ?_⟩, h⟩
      exact lt_trans hlt (hu v hv)
    next hlt =>
      -- The text is there, or it belongs behind the first one.
      split
      next => exact h
      next hne =>
        have hlt : u < t := lt_of_le_of_ne (not_lt.mp hlt) (Ne.symm hne)
        refine List.pairwise_cons.mpr ⟨fun v hv => ?_, ih htexts⟩
        rcases mem_insertSorted_iff.mp hv with rfl | hv
        · exact hlt
        · exact hu v hv

/-- Each text comes once. -/
theorem nodup_sortedDistinct (texts : List String) : (sortedDistinct texts).Nodup := by
  have hsorted : (sortedDistinct texts).Pairwise (· < ·) := by
    induction texts with
    | nil => exact List.Pairwise.nil
    | cons t texts ih => exact pairwise_insertSorted t ih
  exact hsorted.imp ne_of_lt

end Text

/-! ### Looking for packages -/

/-- A package whose name is a word is found where this word stands in front of a point. -/
theorem usesPackage_iff {text package : String} (h : IsWord package) :
    usesPackage text package = true ↔ package.toList ∈ qualifiersIn text := by
  unfold usesPackage qualifiersIn
  -- Both readings find the word at the start of the text and behind marks.
  rw [String.toList_append, mem_qualifiers_iff h, endsAt_some_nil_iff]
  show occursAfter (package.toList ++ ['.']) _ _ _ _ = true ↔ _
  rw [occursAfter_iff h fun _ => rfl]
  simp [mayPrecedeQualifier]

theorem isWord_packageName {home : String} (h : IsWord home) : IsWord (packageName home) := by
  unfold packageName
  split
  · intro c hc
    rw [lowerCase, String.toList_ofList] at hc
    obtain ⟨d, hd, rfl⟩ := List.mem_map.mp hc
    exact isWordChar_toLower (h d hd)
  · unfold lowerFirst
    split
    next =>
      intro c hc
      cases hc
    next c cs hcs =>
      have hchars : ∀ d ∈ c :: cs, isWordChar d = true := hcs ▸ h
      obtain ⟨hc, hcs⟩ := List.forall_mem_cons.mp hchars
      have hlowered : ∀ d ∈ c.toLower :: cs, isWordChar d = true :=
        List.forall_mem_cons.mpr ⟨isWordChar_toLower hc, hcs⟩
      rw [IsWord, String.toList_ofList]
      exact hlowered

theorem isWord_of_mem_standardPackages {package : String} (h : package ∈ standardPackages) :
    IsWord package := by
  have hall : ∀ package ∈ standardPackages, IsWord package := by decide
  exact hall package h

namespace Namespace

variable {ns : Namespace} {options : Options}

/-! ### Namespaces that are mentioned -/

/-- The names of all namespaces that the data mentions are words. -/
def MentionsWords (ns : Namespace) : Prop := ∀ home ∈ ns.mentioned, IsWord home

instance : Decidable ns.MentionsWords := List.decidableBAll _ _

theorem mem_mentioned_of_refers {r : EntityRef} (h : ns.Refers r) : r.home ∈ ns.mentioned := by
  unfold mentioned
  rcases h with ⟨t, ht, s, hs, hr⟩ | ⟨e, he, hr⟩
  · obtain ⟨o, ho, rfl⟩ := declares_iff_exists_occurrence.mp ht
    have htype : r ∈ ns.typeReferences := List.mem_flatMap.mpr
      ⟨o, ho, List.mem_filterMap.mpr ⟨s, TypeDesc.mem_nodes_iff.mpr hs, hr⟩⟩
    exact List.mem_append_left _ (List.mem_append_right _ (List.mem_map_of_mem htype))
  · exact List.mem_append_right _ (List.mem_flatMap.mpr ⟨e, he, List.mem_map_of_mem hr⟩)

theorem mem_mentioned_of_foreign {home name : String}
    (h : (ns.scope options).Foreign ns.Refers home name) : home ∈ ns.mentioned := by
  obtain ⟨_, ⟨rfl, _⟩ | ⟨r, hr, rfl, _⟩⟩ := h
  · exact List.mem_append_left _ (List.mem_append_left _ List.mem_cons_self)
  · exact mem_mentioned_of_refers hr

/-! ### Imports -/

/-- The package can be imported under that path: it is one of the standard library, or that of
another namespace that is mentioned. -/
def Importable (ns : Namespace) (options : Options) (package path : String) : Prop :=
  (package ∈ standardPackages ∧ path = package)
    ∨ ∃ home ∈ ns.mentioned, home ≠ ns.name ∧ package = packageName home
      ∧ path = (Package.ofNamespace ns options).importPath home

theorem Importable.isWord (hwords : ns.MentionsWords) {package path : String}
    (h : ns.Importable options package path) : IsWord package := by
  rcases h with ⟨hstandard, _⟩ | ⟨home, hhome, _, rfl, _⟩
  · exact isWord_of_mem_standardPackages hstandard
  · exact isWord_packageName (hwords home hhome)

/-- The path of a package is imported when the name of the package stands in front of a point. -/
theorem mem_imports_iff (hwords : ns.MentionsWords) {text path : String} :
    path ∈ ns.imports (Package.ofNamespace ns options) text
      ↔ ∃ package, ns.Importable options package path ∧ package.toList ∈ qualifiersIn text := by
  unfold imports
  rw [mem_sortedDistinct_iff, List.mem_append, List.mem_filter, List.mem_map]
  simp only [List.mem_filter, Bool.and_eq_true, bne_iff_ne]
  constructor
  · rintro (⟨hstandard, huses⟩ | ⟨home, ⟨hhome, hforeign, huses⟩, rfl⟩)
    · exact ⟨path, Or.inl ⟨hstandard, rfl⟩,
        (usesPackage_iff (isWord_of_mem_standardPackages hstandard)).mp huses⟩
    · exact ⟨packageName home, Or.inr ⟨home, hhome, hforeign, rfl, rfl⟩,
        (usesPackage_iff (isWord_packageName (hwords home hhome))).mp huses⟩
  · rintro ⟨package, himportable, hshown⟩
    have huses := (usesPackage_iff (himportable.isWord hwords)).mpr hshown
    rcases himportable with ⟨hstandard, rfl⟩ | ⟨home, hhome, hforeign, rfl, rfl⟩
    · exact Or.inl ⟨hstandard, huses⟩
    · exact Or.inr ⟨home, ⟨hhome, hforeign, huses⟩, rfl⟩

theorem source_eq_ok_iff {s : Source} : ns.source options = .ok s
    ↔ ∃ fs, ns.fragments options = .ok fs
      ∧ ⟨Header.ofBody ns options (Fragment.bodyText fs), fs⟩ = s := by
  unfold source
  simp only [bind_eq_ok_iff, pure_eq_ok, Except.ok.injEq]

/-- A file imports those packages whose names stand in front of points in pieces of its
declarations. -/
theorem mem_imports_source_iff {s : Source} (h : ns.source options = .ok s)
    (hwords : ns.MentionsWords) {path : String} : path ∈ s.header.imports
      ↔ ∃ package, ns.Importable options package path
        ∧ package.toList ∈ Token.allQualifiers (s.fragments.flatMap Fragment.tokens) := by
  obtain ⟨fs, _, rfl⟩ := source_eq_ok_iff.mp h
  rw [← Fragment.qualifiersIn_bodyText]
  exact mem_imports_iff hwords

/-- No path is imported twice. -/
theorem nodup_imports_source {s : Source} (h : ns.source options = .ok s) :
    s.header.imports.Nodup := by
  obtain ⟨fs, _, rfl⟩ := source_eq_ok_iff.mp h
  exact nodup_sortedDistinct _

/-- A package that a declaration names as a qualifier is imported once, if it can be imported. -/
theorem count_imports_of_importable {s : Source} (h : ns.source options = .ok s)
    (hwords : ns.MentionsWords) {package path : String} (hpath : ns.Importable options package path)
    {f : Fragment} (hf : f ∈ s.fragments) {name : String}
    (hname : Token.qualified package name ∈ f.tokens) : s.header.imports.count path = 1 := by
  refine List.count_eq_one_of_mem (nodup_imports_source h) ?_
  refine (mem_imports_source_iff h hwords).mpr ⟨package, hpath, ?_⟩
  refine List.mem_flatMap.mpr ⟨_, List.mem_flatMap.mpr ⟨f, hf, hname⟩, ?_⟩
  rw [Token.qualifiers_qualified (hpath.isWord hwords)]
  exact List.mem_cons_self

/-- No import is missing. What a declaration takes from another package is a name of the C library,
one of a few names of the standard library, or a name that stands for a registered type of another
namespace. The packages of the last two are imported, each once. -/
theorem count_imports_of_qualified {s : Source} (h : ns.source options = .ok s)
    (hwords : ns.MentionsWords) {f : Fragment} (hf : f ∈ s.fragments) {package name : String}
    (hname : Token.qualified package name ∈ f.tokens) :
    (package = "C" ∨ (package, name) ∈ standardNames
        ∨ ∃ home, (ns.scope options).Foreign ns.Refers home name ∧ package = packageName home)
      ∧ (∀ home, (ns.scope options).Foreign ns.Refers home name → package = packageName home →
        s.header.imports.count ((Package.ofNamespace ns options).importPath home) = 1)
      ∧ (package ∈ standardPackages → s.header.imports.count package = 1) := by
  refine ⟨?accounted, fun home hforeign hpackage => ?foreign, fun hstandard => ?standard⟩
  case accounted =>
    obtain ⟨fs, hfs, rfl⟩ := source_eq_ok_iff.mp h
    exact accounted_of_fragments fs hfs f hf _ hname
  case foreign =>
    have himportable : ns.Importable options package
        ((Package.ofNamespace ns options).importPath home) :=
      Or.inr ⟨home, mem_mentioned_of_foreign hforeign, hforeign.1, hpackage, rfl⟩
    exact count_imports_of_importable h hwords himportable hf hname
  case standard =>
    exact count_imports_of_importable h hwords (Or.inl ⟨hstandard, rfl⟩) hf hname

/-- A type with a parent in another namespace. -/
def ofWidget : Namespace :=
  (ofName "Gtk").addEntity (.object
    ⟨"Widget", some ⟨"GObject", "InitiallyUnowned", .object⟩, [], false, [], [], [], [], [], [],
      false⟩)

/-- The type embeds its parent, whose package is imported once. -/
theorem count_imports_ofWidget : ∃ s, ofWidget.source .default = .ok s
    ∧ (∃ f ∈ s.fragments, Token.qualified "gobject" "InitiallyUnowned" ∈ f.tokens)
    ∧ s.header.imports.count "gobject" = 1 := by
  have hwords : ofWidget.MentionsWords := by decide
  have hrefers : ofWidget.Refers ⟨"GObject", "InitiallyUnowned", .object⟩ :=
    Or.inr ⟨_, List.mem_singleton_self _, List.mem_singleton_self _⟩
  have hforeign :
      (ofWidget.scope .default).Foreign ofWidget.Refers "GObject" "InitiallyUnowned" :=
    hrefers.foreign (Or.inl rfl) (by decide)
  have hsource : ofWidget.source .default = .ok _ := rfl
  refine ⟨_, hsource, ⟨_, List.mem_cons_self, ?_⟩, ?_⟩
  · exact List.mem_cons_of_mem _ List.mem_cons_self
  · exact (count_imports_of_qualified hsource hwords List.mem_cons_self
      (List.mem_cons_of_mem _ List.mem_cons_self)).2.1 "GObject" hforeign rfl

end Namespace

end Introspection
