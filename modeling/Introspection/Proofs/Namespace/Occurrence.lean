import Introspection.Namespace.Basic

/-!
# `Introspection.Proofs.Namespace.Occurrence`: the types that a namespace declares

`Namespace.Declares` says, member by member, where a namespace names a type. The list of
occurrences that checks and reports go through holds just these types:
`declares_iff_exists_occurrence`.
-/

set_option autoImplicit false

namespace Introspection

/-- The type is that of a parameter, or of the result. -/
def SignatureUses (params : List Parameter) (result t : TypeDesc) : Prop :=
  (∃ p ∈ params, p.type = t) ∨ result = t

/-- The type is that of a parameter of the function, or of its result. -/
def Function.Uses (f : Function) (t : TypeDesc) : Prop := SignatureUses f.params f.returnType t

/-- The types that a registered type names: those of its methods and of all its members. -/
inductive Entity.Declares : Entity → TypeDesc → Prop
  | method {e : Entity} {f : Function} {t : TypeDesc} :
    f ∈ e.methods → f.Uses t → e.Declares t
  | interfaceConstant {i : Interface} {c : Constant} :
    c ∈ i.constants → (Entity.interface i).Declares c.type
  | interfaceProperty {i : Interface} {p : Property} :
    p ∈ i.properties → (Entity.interface i).Declares p.type
  | interfaceSignal {i : Interface} {s : Signal} {t : TypeDesc} :
    s ∈ i.signals → SignatureUses s.params s.returnType t → (Entity.interface i).Declares t
  | interfaceSlot {i : Interface} {s : VirtualSlot} {t : TypeDesc} :
    s ∈ i.slots → SignatureUses s.params s.returnType t → (Entity.interface i).Declares t
  | objectConstant {o : Object} {c : Constant} :
    c ∈ o.constants → (Entity.object o).Declares c.type
  | objectField {o : Object} {f : FieldDecl} :
    f ∈ o.fields → (Entity.object o).Declares f.type
  | objectProperty {o : Object} {p : Property} :
    p ∈ o.properties → (Entity.object o).Declares p.type
  | objectSignal {o : Object} {s : Signal} {t : TypeDesc} :
    s ∈ o.signals → SignatureUses s.params s.returnType t → (Entity.object o).Declares t
  | objectSlot {o : Object} {s : VirtualSlot} {t : TypeDesc} :
    s ∈ o.slots → SignatureUses s.params s.returnType t → (Entity.object o).Declares t
  | structField {s : Struct} {f : FieldDecl} :
    f ∈ s.fields → (Entity.struct s).Declares f.type
  | unionField {u : Union} {f : FieldDecl} :
    f ∈ u.fields → (Entity.union u).Declares f.type

/-- The types that a namespace names: those of its constants, its functions and its registered
types. -/
inductive Namespace.Declares (ns : Namespace) : TypeDesc → Prop
  | constant {c : Constant} : c ∈ ns.constants.entries → ns.Declares c.type
  | function {f : Function} {t : TypeDesc} :
    f ∈ ns.functions.entries → f.Uses t → ns.Declares t
  | entity {e : Entity} {t : TypeDesc} : e ∈ ns.entities → e.Declares t → ns.Declares t

namespace Occurrence

variable {t : TypeDesc}

/-- The occurrences of a list of things are those of each thing. -/
theorem exists_flatMap_iff {α : Type} {as : List α} {f : α → List Occurrence} :
    (∃ o ∈ as.flatMap f, o.type = t) ↔ ∃ a ∈ as, ∃ o ∈ f a, o.type = t := by
  constructor
  · rintro ⟨o, ho, rfl⟩
    obtain ⟨a, ha, ho⟩ := List.mem_flatMap.mp ho
    exact ⟨a, ha, o, ho, rfl⟩
  · rintro ⟨a, ha, o, ho, rfl⟩
    exact ⟨o, List.mem_flatMap.mpr ⟨a, ha, ho⟩, rfl⟩

/-- The occurrences of two lists are those of either. -/
theorem exists_append_iff {os os' : List Occurrence} :
    (∃ o ∈ os ++ os', o.type = t) ↔ (∃ o ∈ os, o.type = t) ∨ ∃ o ∈ os', o.type = t := by
  simp only [List.mem_append, or_and_right, exists_or]

/-- Things with one type each occur once each. -/
theorem exists_map_iff {α : Type} {as : List α} {f : α → Occurrence} :
    (∃ o ∈ as.map f, o.type = t) ↔ ∃ a ∈ as, (f a).type = t := by
  constructor
  · rintro ⟨o, ho, rfl⟩
    obtain ⟨a, ha, rfl⟩ := List.mem_map.mp ho
    exact ⟨a, ha, rfl⟩
  · rintro ⟨a, ha, rfl⟩
    exact ⟨f a, List.mem_map_of_mem ha, rfl⟩

/-- The occurrences of a signature are its parameters and its result. -/
theorem exists_ofSignature_iff {path : String} {params : List Parameter} {result : TypeDesc} :
    (∃ o ∈ ofSignature path params result, o.type = t) ↔ SignatureUses params result t := by
  unfold ofSignature SignatureUses
  rw [exists_append_iff, exists_map_iff]
  simp only [List.mem_singleton, exists_eq_left]

/-- The occurrences of a registered type are the types that it names. -/
theorem exists_ofEntity_iff {owner : String} {e : Entity} :
    (∃ o ∈ ofEntity owner e, o.type = t) ↔ e.Declares t := by
  unfold ofEntity
  rw [exists_append_iff, exists_flatMap_iff]
  constructor
  · rintro (⟨f, hf, ho⟩ | hmembers)
    · exact .method hf (exists_ofSignature_iff.mp ho)
    · cases e with
      | enum e =>
        obtain ⟨o, ho, _⟩ := hmembers
        cases ho
      | interface i =>
        simp only [ofMembers, exists_append_iff, exists_map_iff, exists_flatMap_iff] at hmembers
        rcases hmembers with ((⟨c, hc, rfl⟩ | ⟨p, hp, rfl⟩) | ⟨s, hs, ho⟩) | ⟨s, hs, ho⟩
        · exact .interfaceConstant hc
        · exact .interfaceProperty hp
        · exact .interfaceSignal hs (exists_ofSignature_iff.mp ho)
        · exact .interfaceSlot hs (exists_ofSignature_iff.mp ho)
      | object o =>
        simp only [ofMembers, exists_append_iff, exists_map_iff, exists_flatMap_iff] at hmembers
        rcases hmembers with
          (((⟨c, hc, rfl⟩ | ⟨f, hf, rfl⟩) | ⟨p, hp, rfl⟩) | ⟨s, hs, ho⟩) | ⟨s, hs, ho⟩
        · exact .objectConstant hc
        · exact .objectField hf
        · exact .objectProperty hp
        · exact .objectSignal hs (exists_ofSignature_iff.mp ho)
        · exact .objectSlot hs (exists_ofSignature_iff.mp ho)
      | struct s =>
        obtain ⟨f, hf, rfl⟩ := exists_map_iff.mp hmembers
        exact .structField hf
      | union u =>
        obtain ⟨f, hf, rfl⟩ := exists_map_iff.mp hmembers
        exact .unionField hf
  · intro h
    cases h with
    | method hf ht => exact Or.inl ⟨_, hf, exists_ofSignature_iff.mpr ht⟩
    | _ =>
      refine Or.inr ?_
      simp only [ofMembers, exists_append_iff, exists_map_iff, exists_flatMap_iff, ofConstant,
        ofField, ofProperty, ofSignal, ofSlot, exists_ofSignature_iff]
      grind

end Occurrence

open Occurrence in
/-- The occurrences of a namespace are the types that it names. -/
theorem Namespace.declares_iff_exists_occurrence {ns : Namespace} {t : TypeDesc} :
    ns.Declares t ↔ ∃ o ∈ ns.occurrences, o.type = t := by
  unfold occurrences
  rw [exists_append_iff, exists_append_iff, exists_map_iff, exists_flatMap_iff,
    exists_flatMap_iff]
  constructor
  · intro h
    cases h with
    | constant hc => exact Or.inl (Or.inl ⟨_, hc, rfl⟩)
    | function hf ht => exact Or.inl (Or.inr ⟨_, hf, exists_ofSignature_iff.mpr ht⟩)
    | entity he ht => exact Or.inr ⟨_, he, exists_ofEntity_iff.mpr ht⟩
  · rintro ((⟨c, hc, rfl⟩ | ⟨f, hf, ho⟩) | ⟨e, he, ho⟩)
    · exact .constant hc
    · exact .function hf (exists_ofSignature_iff.mp ho)
    · exact .entity he (exists_ofEntity_iff.mp ho)

end Introspection
