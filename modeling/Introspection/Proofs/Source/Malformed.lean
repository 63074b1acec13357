import Introspection.Proofs.Declaration.Method
import Introspection.Proofs.Generation.Malformed
import Introspection.Proofs.Namespace.Validation
import Introspection.Proofs.Namespace.Written
import Introspection.Proofs.Wrapper.Synthesis
import Introspection.Source.Basic

/-!
# `Introspection.Proofs.Source.Malformed`: accepted data that generation finds malformed

Accepted namespaces declare well-shaped types only, so nothing that is generated from a declared
type fails for a malformed one. The storage of an enumeration is a mere tag, which is not checked;
generation makes a type of it. That is the one way in which an accepted namespace is found
malformed: `generate_failsMalformed_iff`.
-/

set_option autoImplicit false

namespace Introspection

/-! ### Types of bare tags -/

/-- The tag alone makes no type: it asks for elements, or for a registered type. -/
def Tag.Incomplete (tag : Tag) : Prop := tag = .interface ∨ 0 < tag.arity

instance (tag : Tag) : Decidable tag.Incomplete := instDecidableOr

theorem TypeDesc.wellShaped_ofTag {tag : Tag} (h : ¬tag.Incomplete) :
    (ofTag tag).WellShaped := by
  refine wellShaped_iff.mpr ⟨⟨?_, ?_, ?_⟩, nofun⟩
  all_goals
    revert h
    cases tag <;> decide

/-- A type of an incomplete tag is refused when its host type is asked for. -/
theorem failsMalformed_resolveHost_ofTag (scope : Scope) {tag : Tag} (h : tag.Incomplete) :
    FailsMalformed (resolveHost scope (.ofTag tag) false) := by
  cases tag
  case array | interface | glist | gslist | ghash =>
    exact ⟨_, rfl, Or.inl ⟨_, _, rfl⟩⟩
  all_goals exact absurd h (by decide)

/-! ### Functions -/

/-- The types of a function hold together. -/
def Function.WellTyped (f : Function) : Prop := ∀ t, f.Uses t → t.WellShaped

theorem Function.WellTyped.args {scope : Scope} {f : Function} {owner via : Option EntityRef}
    {w : Wrapper} (hf : f.WellTyped) (h : Wrapper.ofFunction scope f owner via = .ok w) :
    ∀ a ∈ w.args, a.WellTyped :=
  Wrapper.wellTyped_args (fun p hp => hf p.type (Or.inl ⟨p, hp, rfl⟩))
    (hf f.returnType (Or.inr rfl)) h

namespace Wrapper

variable {scope : Scope} {f : Function} {owner via : Option EntityRef} {w : Wrapper}

/-- Preparing a function fails for a length only. -/
theorem not_failsMalformed_ofFunction : ¬FailsMalformed (ofFunction scope f owner via) := by
  unfold ofFunction
  rw [failsMalformed_within_iff]
  refine not_failsMalformed_bind ?_ fun cs _ => not_failsMalformed_pure _
  rcases failsWhen_couplings f (receivers f owner via).length
    ((rawArgs f owner via).length - 1) with ⟨⟨cs, hcs⟩, _⟩ | ⟨⟨index, count, herror⟩, _⟩
  · rw [hcs]
    exact not_failsMalformed_ok cs
  · rw [herror]
    rintro ⟨_, he, ⟨_, _, hroot⟩ | ⟨_, hroot⟩⟩ <;> cases he <;> cases hroot

end Wrapper

open Wrapper in
theorem not_failsMalformed_synthesize {scope : Scope} {f : Function} {owner via : Option EntityRef}
    (hf : f.WellTyped) : ¬FailsMalformed (synthesize scope f owner via) := by
  unfold synthesize
  refine not_failsMalformed_bind not_failsMalformed_ofFunction fun w hw => ?_
  rcases hostFunction_outcome (hf.args hw) with ⟨host, hhost⟩ | ⟨e, herror, hgap⟩
  · rw [hhost]
    exact not_failsMalformed_ok host
  · rw [herror]
    rintro ⟨_, he, hmalformed⟩
    cases he
    exact hgap.not_isMalformed (GenerationError.isMalformed_within_iff.mp hmalformed)

namespace Namespace

variable {ns : Namespace} {options : Options}

theorem not_failsMalformed_functionFragments {owner : Option EntityRef} {fs : List Function}
    (h : ∀ f ∈ fs, f.WellTyped) : ¬FailsMalformed (ns.functionFragments options owner fs) := by
  refine not_failsMalformed_mapM fun f hf => ?_
  exact not_failsMalformed_bind (not_failsMalformed_synthesize (h f (List.mem_filter.mp hf).1))
    fun host _ => not_failsMalformed_pure _

theorem not_failsMalformed_methodEntries {owner : EntityRef} {fs : List Function}
    (h : ∀ f ∈ fs, f.WellTyped) : ¬FailsMalformed (ns.methodEntries options owner fs) := by
  refine not_failsMalformed_mapM fun f hf => ?_
  have hf := h f (List.mem_filter.mp hf).1
  refine not_failsMalformed_bind Wrapper.not_failsMalformed_ofFunction fun w hw => ?_
  refine not_failsMalformed_bind ?_ fun s _ => not_failsMalformed_pure _
  unfold Wrapper.signature
  rw [failsMalformed_within_iff]
  exact (Wrapper.gapsOnly_bareSignature (hf.args hw)).not_failsMalformed

/-! ### Declarations of a namespace whose types hold together -/

/-- The methods of the registered types, and the functions, hold together. -/
theorem wellTyped_methods (h : ∀ t, ns.Declares t → t.WellShaped) {e : Entity}
    (he : e ∈ ns.entities) {f : Function} (hf : f ∈ e.methods) : f.WellTyped :=
  fun t ht => h t (.entity he (.method hf ht))

theorem not_failsMalformed_memberFragments (h : ∀ t, ns.Declares t → t.WellShaped)
    {owner : EntityRef} {own : List Function} (hown : ∀ f ∈ own, f.WellTyped)
    (interfaces : List EntityRef) :
    ¬FailsMalformed (ns.memberFragments options owner own interfaces) := by
  refine not_failsMalformed_bind (not_failsMalformed_functionFragments hown) fun ofOwn _ => ?_
  refine not_failsMalformed_bind (not_failsMalformed_mapM fun m hm => ?_)
    fun ofInterfaces _ => not_failsMalformed_pure _
  -- What a type gets from an interface is a method of that interface.
  obtain ⟨via, _, hm⟩ := List.mem_flatMap.mp (mem_of_mem_freshBy hm)
  have hmethod : m.method.WellTyped := by
    unfold interfaceMethods at hm
    cases hinterface : ns.interface? via with
    | none =>
      rw [hinterface] at hm
      cases hm
    | some i =>
      rw [hinterface] at hm
      obtain ⟨f, hf, rfl⟩ := List.mem_map.mp hm
      have hi : Entity.interface i ∈ ns.entities :=
        mem_entities_iff.mpr (interface?_eq_some_iff.mp hinterface).2.1
      exact wellTyped_methods h hi (List.mem_filter.mp hf).1
  exact not_failsMalformed_bind (not_failsMalformed_synthesize hmethod)
    fun host _ => not_failsMalformed_pure _

theorem not_failsMalformed_constantFragment {c : Constant} (hc : c.type.WellShaped) :
    ¬FailsMalformed (ns.constantFragment options c) := by
  unfold constantFragment
  rw [failsMalformed_within_iff]
  refine not_failsMalformed_bind
    (gapsOnly_resolveHost (ns.scope options) hc false).not_failsMalformed
    fun type _ => ?_
  refine not_failsMalformed_bind ?_ fun value _ => not_failsMalformed_pure _
  unfold Constant.typedValue
  split
  · exact not_failsMalformed_ok _
  · exact (gapsOnly_unsupported _ _).not_failsMalformed

/-- An enumeration fails for a malformed type just when its storage is one. -/
theorem failsMalformed_enumFragments_iff {e : Enumeration} (h : ∀ f ∈ e.methods, f.WellTyped) :
    FailsMalformed (ns.enumFragments options e) ↔ e.storage.Incomplete := by
  unfold enumFragments
  rw [failsMalformed_bind_of_not fun storage _ => not_failsMalformed_bind
    (not_failsMalformed_functionFragments h) fun _ _ => not_failsMalformed_pure _,
    failsMalformed_within_iff]
  constructor
  · intro hfails
    by_contra hcomplete
    have hstorage := TypeDesc.wellShaped_ofTag hcomplete
    exact (gapsOnly_resolveHost (ns.scope options) hstorage false).not_failsMalformed hfails
  · exact failsMalformed_resolveHost_ofTag (ns.scope options)

theorem not_failsMalformed_recordFragments {r : EntityRef} {deprecated : Bool}
    {fields : List FieldDecl} {methods : List Function} (h : ∀ f ∈ methods, f.WellTyped) :
    ¬FailsMalformed (ns.recordFragments options r deprecated fields methods) :=
  not_failsMalformed_bind (not_failsMalformed_functionFragments h)
    fun _ _ => not_failsMalformed_pure _

/-- A registered type that is no enumeration never fails for a malformed type. -/
theorem not_failsMalformed_entityFragments (h : ∀ t, ns.Declares t → t.WellShaped) {e : Entity}
    (he : e ∈ ns.entities) (hkind : e.kind ≠ .enum) :
    ¬FailsMalformed (ns.entityFragments options e) := by
  have hmethods : ∀ f ∈ e.methods, f.WellTyped := fun f hf => wellTyped_methods h he hf
  cases e with
  | enum e => exact absurd rfl hkind
  | interface i =>
    refine not_failsMalformed_bind (not_failsMalformed_methodEntries hmethods) fun entries _ => ?_
    exact not_failsMalformed_bind (not_failsMalformed_memberFragments h hmethods _)
      fun _ _ => not_failsMalformed_pure _
  | object o =>
    refine not_failsMalformed_bind (not_failsMalformed_methodEntries hmethods) fun entries _ => ?_
    exact not_failsMalformed_bind (not_failsMalformed_memberFragments h hmethods _)
      fun _ _ => not_failsMalformed_pure _
  | struct s =>
    show ¬FailsMalformed (ns.structFragments options s)
    unfold structFragments
    split
    · exact not_failsMalformed_ok _
    · exact not_failsMalformed_recordFragments hmethods
  | union u => exact not_failsMalformed_recordFragments hmethods

/-- Of the registered types that are generated, the enumerations come first. -/
theorem exists_filter_entities_eq (ns : Namespace) (options : Options) :
    ∃ others : List Entity, (∀ e ∈ others, e ∈ ns.entities ∧ e.kind ≠ .enum)
      ∧ ns.entities.filter (fun e => !options.skips e.deprecated)
        = (ns.enums.entries.filter fun e => !options.skips e.deprecated).map .enum ++ others := by
  have hsplit : ns.entities = ns.enums.entries.map .enum
      ++ (ns.interfaces.entries.map .interface ++ ns.objects.entries.map .object
        ++ ns.structs.entries.map .struct ++ ns.unions.entries.map .union) := by
    simp only [entities, List.append_assoc]
  rw [hsplit, List.filter_append, List.filter_map]
  refine ⟨_, fun e he => ?_, rfl⟩
  have hmem := (List.mem_filter.mp he).1
  refine ⟨List.mem_append_right _ hmem, ?_⟩
  simp only [List.mem_append, List.mem_map] at hmem
  rcases hmem with ((⟨i, _, rfl⟩ | ⟨o, _, rfl⟩) | ⟨s, _, rfl⟩) | ⟨u, _, rfl⟩ <;>
    simp [Entity.kind]

/-- The registered types fail for a malformed type just when the enumerations do. -/
theorem failsMalformed_entities_iff (h : ∀ t, ns.Declares t → t.WellShaped) :
    FailsMalformed ((ns.entities.filter fun e => !options.skips e.deprecated).mapM
        (ns.entityFragments options))
      ↔ FailsMalformed ((ns.enums.entries.filter fun e => !options.skips e.deprecated).mapM
        (ns.enumFragments options)) := by
  obtain ⟨others, hothers, hentities⟩ := ns.exists_filter_entities_eq options
  have hrest : ¬FailsMalformed (others.mapM (ns.entityFragments options)) :=
    not_failsMalformed_mapM fun e he =>
      not_failsMalformed_entityFragments h (hothers e he).1 (hothers e he).2
  -- What stands behind the enumerations does not matter.
  rw [hentities, List.mapM_append, failsMalformed_bind_of_not fun _ _ =>
    not_failsMalformed_bind hrest fun _ _ => not_failsMalformed_pure _, List.mapM_map]
  rfl

/-- An enumeration that is generated has a storage that is no type, and nothing that is generated
before it fails. -/
def ReachesIncompleteStorage (ns : Namespace) (options : Options) : Prop :=
  (∀ c ∈ ns.constants.entries, options.skips c.deprecated = false →
    ∃ f, ns.constantFragment options c = .ok f)
  ∧ ∃ before e after,
    ns.enums.entries.filter (fun e => !options.skips e.deprecated) = before ++ e :: after
    ∧ (∀ e' ∈ before, ∃ fs, ns.enumFragments options e' = .ok fs) ∧ e.storage.Incomplete

/-- Of a namespace whose types hold together, the enumerations alone can be found malformed. -/
theorem failsMalformed_fragments_iff (h : ∀ t, ns.Declares t → t.WellShaped) :
    FailsMalformed (ns.fragments options) ↔ ns.ReachesIncompleteStorage options := by
  have hconstants : ¬FailsMalformed ((ns.constants.entries.filter fun c =>
      !options.skips c.deprecated).mapM (ns.constantFragment options)) :=
    not_failsMalformed_mapM fun c hc =>
      not_failsMalformed_constantFragment (h _ (.constant (List.mem_filter.mp hc).1))
  have hfunctions : ¬FailsMalformed (ns.functionFragments options none ns.functions.entries) :=
    not_failsMalformed_functionFragments fun f hf t ht => h t (.function hf ht)
  have henums : ∀ {before e after},
      ns.enums.entries.filter (fun e => !options.skips e.deprecated) = before ++ e :: after →
      (FailsMalformed (ns.enumFragments options e) ↔ e.storage.Incomplete) := by
    intro before e after hsplit
    have hmem : e ∈ ns.enums.entries.filter fun e => !options.skips e.deprecated := by
      rw [hsplit]
      exact List.mem_append_right _ List.mem_cons_self
    have he : Entity.enum e ∈ ns.entities := mem_entities_iff.mpr (List.mem_filter.mp hmem).1
    exact failsMalformed_enumFragments_iff fun f hf => wellTyped_methods h he hf
  -- Behind the constants only the registered types count, and of these only the enumerations.
  have hbehind : ∀ constants : List Fragment,
      FailsMalformed (do
        let types ← (ns.entities.filter fun e => !options.skips e.deprecated).mapM
          (ns.entityFragments options)
        let functions ← ns.functionFragments options none ns.functions.entries
        return constants ++ types.flatten ++ functions)
      ↔ FailsMalformed ((ns.enums.entries.filter fun e =>
        !options.skips e.deprecated).mapM (ns.enumFragments options)) := by
    intro constants
    rw [failsMalformed_bind_of_not fun _ _ =>
      not_failsMalformed_bind hfunctions fun _ _ => not_failsMalformed_pure _,
      failsMalformed_entities_iff h]
  unfold fragments
  rw [failsMalformed_bind_iff, or_iff_right hconstants]
  simp only [hbehind]
  rw [exists_and_right, exists_mapM_eq_ok_iff, failsMalformed_mapM_iff, ReachesIncompleteStorage]
  refine and_congr (by simp [List.mem_filter]) ?_
  refine exists_congr fun before => exists_congr fun e => exists_congr fun after => ?_
  exact and_congr_right fun hsplit => and_congr_right fun _ => henums hsplit

/-- Generation from an accepted text fails for a malformed type just when it gets to an enumeration
whose storage is no type. -/
theorem generate_failsMalformed_iff {text : String} (h : load text = .ok ns) (options : Options) :
    (∃ e, ns.generate options = .error e ∧ e.IsMalformed)
      ↔ ns.ReachesIncompleteStorage options := by
  have htypes := forall_checkOccurrence_eq_ok_iff.mp
    (validate_eq_ok_iff.mp (load_eq_ok_iff.mp h).2).1
  rw [← failsMalformed_fragments_iff fun t ht => (htypes t ht).1]
  show FailsMalformed (ns.generate options) ↔ _
  unfold generate source
  rw [failsMalformed_bind_of_not fun _ _ => not_failsMalformed_pure _,
    failsMalformed_bind_of_not fun _ _ => not_failsMalformed_pure _]

/-- A namespace with an enumeration that is stored in arrays. -/
def ofArrayEnum : Namespace :=
  (ofName "Gtk").addEntity (.enum { Enumeration.ofValues "Align" [] with storage := .array })

/-- The enumeration is accepted, and generation does not get past it. -/
theorem generate_failsMalformed_iff_ofArrayEnum :
    ∃ text, load text = .ok ofArrayEnum
      ∧ ∃ e, ofArrayEnum.generate .default = .error e ∧ e.IsMalformed := by
  have hfloat : ofArrayEnum.FloatFree := by
    constructor <;> exact fun _ hmem => (List.not_mem_nil hmem).elim
  have hload : load ofArrayEnum.compact = .ok ofArrayEnum :=
    load_eq_ok_iff.mpr ⟨(parse_written hfloat (by decide)).2, rfl⟩
  have hreached : ofArrayEnum.ReachesIncompleteStorage .default :=
    ⟨nofun, [], _, [], rfl, nofun, by decide⟩
  exact ⟨_, hload, (generate_failsMalformed_iff hload .default).mpr hreached⟩

end Namespace

end Introspection
