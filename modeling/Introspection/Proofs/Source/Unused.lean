import Introspection.Proofs.Source.Import

/-!
# `Introspection.Proofs.Source.Unused`: packages that are imported and not used

The search for packages reads text, so it cannot tell a qualifier from a word that only looks like
one: a word in the text of a constant, or a value that goes by the name of a package. A package that
is *mimicked* in this way is imported whether or not the declarations name it, and Go refuses a file
with an import that nothing names.

`named_of_imported_iff` is the exact condition under which every import is named: whatever can be
imported and is mimicked is named as well. The constant of `ofQuote` does not meet it.
-/

set_option autoImplicit false

namespace Introspection

open Introspection.Code
open Introspection.Naming
open Introspection.Text

/-- The piece has the word in front of a point, and the word is no qualifier there. It stands in a
name, in the text of a constant, or is what a value ends in whose field or method is selected. -/
def Code.Token.Mimics (package : String) : Token → Prop
  | plain s => package.toList ∈ qualifiersIn s
  | qualified _ name => package.toList ∈ Text.qualifiers none name.toList
  | selected value name => package.toList ∈ (selected value name).qualifiers
  | literal s => package.toList ∈ qualifiersIn s

namespace Source

/-- A declaration takes a name from the package. -/
def Names (s : Source) (package : String) : Prop :=
  ∃ f ∈ s.fragments, ∃ name, Token.qualified package name ∈ f.tokens

/-- In a declaration something other than the package stands in front of a point under its name. -/
def Mimics (s : Source) (package : String) : Prop :=
  ∃ f ∈ s.fragments, ∃ k ∈ f.tokens, k.Mimics package

end Source

/-- A name of another package shows this package, and whatever its own points show. -/
theorem Code.Token.mem_qualifiers_iff {k : Token}
    (hwords : ∀ package name, k = qualified package name → IsWord package) {package : String} :
    package.toList ∈ k.qualifiers ↔ (∃ name, k = qualified package name) ∨ k.Mimics package := by
  cases k with
  | qualified q name =>
    rw [qualifiers_qualified (hwords q name rfl), List.mem_cons, String.toList_inj]
    simp [Mimics, eq_comm]
  | plain s | literal s | selected value name => simp [Mimics]

namespace Namespace

variable {ns : Namespace} {options : Options} {s : Source}

/-- Every package that a declaration names is spelled as a word. -/
theorem isWord_of_qualified (h : ns.source options = .ok s) (hwords : ns.MentionsWords)
    {f : Fragment} (hf : f ∈ s.fragments) {package name : String}
    (hname : Token.qualified package name ∈ f.tokens) : IsWord package := by
  obtain ⟨fs, hfs, rfl⟩ := source_eq_ok_iff.mp h
  rcases accounted_of_fragments fs hfs f hf _ hname with rfl | hstandard | ⟨home, hhome, rfl⟩
  · decide
  · have hall : ∀ p ∈ standardNames, IsWord p.1 := by decide
    exact hall _ hstandard
  · exact isWord_packageName (hwords home (mem_mentioned_of_foreign hhome))

/-- A package is imported when the declarations name or mimic it. -/
theorem mem_imports_iff_names_or_mimics (h : ns.source options = .ok s) (hwords : ns.MentionsWords)
    {path : String} : path ∈ s.header.imports
      ↔ ∃ package, ns.Importable options package path ∧ (s.Names package ∨ s.Mimics package) := by
  have hshown : ∀ package : String,
      package.toList ∈ Token.allQualifiers (s.fragments.flatMap Fragment.tokens)
        ↔ s.Names package ∨ s.Mimics package := by
    intro package
    -- A qualifier shows no package but its own, because it is a word.
    have hpiece : ∀ f ∈ s.fragments, ∀ k ∈ f.tokens, (package.toList ∈ k.qualifiers
        ↔ (∃ name, k = .qualified package name) ∨ k.Mimics package) := fun f hf k hk =>
      Token.mem_qualifiers_iff fun q name hq => isWord_of_qualified h hwords hf (hq ▸ hk)
    simp only [Token.allQualifiers, List.mem_flatMap, Source.Names, Source.Mimics]
    constructor
    · rintro ⟨k, ⟨f, hf, hk⟩, hshown⟩
      rcases (hpiece f hf k hk).mp hshown with ⟨name, rfl⟩ | hmimics
      · exact Or.inl ⟨f, hf, name, hk⟩
      · exact Or.inr ⟨f, hf, k, hk, hmimics⟩
    · rintro (⟨f, hf, name, hk⟩ | ⟨f, hf, k, hk, hmimics⟩)
      · exact ⟨_, ⟨f, hf, hk⟩, (hpiece f hf _ hk).mpr (Or.inl ⟨name, rfl⟩)⟩
      · exact ⟨k, ⟨f, hf, hk⟩, (hpiece f hf k hk).mpr (Or.inr hmimics)⟩
  rw [mem_imports_source_iff h hwords]
  simp only [hshown]

/-! ### Paths and packages -/

theorem packageName_eq_of_importPath_eq {p : Package} {home home' : String}
    (h : p.importPath home = p.importPath home') : packageName home = packageName home' := by
  unfold Package.importPath at h
  split at h
  next => simpa using h
  next => exact h

/-- A path of the standard library has no slash, so it belongs to a namespace by its bare name. -/
theorem packageName_eq_of_importPath_mem {p : Package} {home : String}
    (h : p.importPath home ∈ standardPackages) : p.importPath home = packageName home := by
  have hslash : ∀ package ∈ standardPackages, '/' ∉ package.toList := by decide
  have hnone := hslash _ h
  unfold Package.importPath at hnone ⊢
  split
  next path hpath => simp [hpath] at hnone
  next => rfl

/-- One path does not stand for two packages. -/
theorem Importable.package_eq {package package' path : String}
    (h : ns.Importable options package path) (h' : ns.Importable options package' path) :
    package = package' := by
  rcases h with ⟨hstandard, rfl⟩ | ⟨home, _, _, rfl, rfl⟩ <;>
    rcases h' with ⟨hstandard', hpath⟩ | ⟨home', _, _, rfl, hpath⟩
  · exact hpath
  · rw [hpath] at hstandard ⊢
    exact packageName_eq_of_importPath_mem hstandard
  · rw [← hpath] at hstandard' ⊢
    exact (packageName_eq_of_importPath_mem hstandard').symm
  · exact packageName_eq_of_importPath_eq hpath

/-- Every import is named by a declaration exactly when no package that can be imported is mimicked
without being named. -/
theorem named_of_imported_iff (h : ns.source options = .ok s) (hwords : ns.MentionsWords) :
    (∀ path ∈ s.header.imports, ∃ package, ns.Importable options package path ∧ s.Names package)
      ↔ ∀ package path, ns.Importable options package path → s.Mimics package →
        s.Names package := by
  constructor
  · intro hnamed package path himportable hmimics
    have himported := (mem_imports_iff_names_or_mimics h hwords).mpr
      ⟨package, himportable, Or.inr hmimics⟩
    obtain ⟨package', himportable', hnames⟩ := hnamed path himported
    -- The path stands for one package, so the one that is named is the one that is mimicked.
    rw [himportable.package_eq himportable']
    exact hnames
  · intro hmimicked path himported
    obtain ⟨package, himportable, hshown⟩ :=
      (mem_imports_iff_names_or_mimics h hwords).mp himported
    rcases hshown with hnames | hmimics
    · exact ⟨package, himportable, hnames⟩
    · exact ⟨package, himportable, hmimicked package path himportable hmimics⟩

/-- A constant whose text has the name of a package in front of a point. -/
def ofQuote : Namespace :=
  (ofName "Gtk").addConstant ⟨"DOC", .mk .utf8 true [] none none, .string "see math.Pi", false⟩

/-- The quoted word is taken for a package, so one is imported that nothing names. -/
theorem exists_unnamed_import_ofQuote : ∃ s, ofQuote.source .default = .ok s
    ∧ ¬∀ path ∈ s.header.imports,
      ∃ package, ofQuote.Importable .default package path ∧ s.Names package := by
  have hwords : ofQuote.MentionsWords := by decide
  have hsource : ofQuote.source .default = .ok _ := rfl
  refine ⟨_, hsource, fun hnamed => ?_⟩
  have hmimics : (Token.literal "\"see math.Pi\"").Mimics "math" := by
    show "math".toList ∈ qualifiersIn "\"see math.Pi\""
    decide
  obtain ⟨f, hf, name, hk⟩ := (named_of_imported_iff hsource hwords).mp hnamed "math" "math"
    (Or.inl ⟨by decide, rfl⟩)
    ⟨_, List.mem_cons_self, _, List.mem_cons_of_mem _ (List.mem_cons_of_mem _ List.mem_cons_self),
      hmimics⟩
  -- The constant has a name, a type and a literal, none of which is a qualifier.
  rw [List.mem_singleton.mp hf] at hk
  rcases List.mem_cons.mp hk with hk | hk
  · cases hk
  · rcases List.mem_cons.mp hk with hk | hk
    · cases hk
    · cases List.mem_singleton.mp hk

end Namespace

end Introspection
