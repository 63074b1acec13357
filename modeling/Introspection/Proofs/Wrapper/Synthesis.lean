import Introspection.Proofs.Conversion.Gap
import Introspection.Proofs.Namespace.Occurrence
import Introspection.Wrapper.HostFunction

/-!
# `Introspection.Proofs.Wrapper.Synthesis`: when a function can be wrapped

For a function of well-shaped types wrapping has three outcomes, told apart by
`synthesize_outcome`: a host function, the report that an array names a length that is no
parameter (`Function.LengthMisplaced`), or the report of a gap. Reports have one layer, which
names the function.

Preparing a function fails for the length alone, since arguments are coupled before any type is
looked at (`failsWhen_couplings`). What is prepared keeps the types of the function
(`wellTyped_couple`), so the rest fails for gaps only.
-/

set_option autoImplicit false

namespace Introspection

open Introspection.Code

variable {α β : Type}

/-! ### Lengths that are no parameter -/

/-- The array type names a length beyond the `count` parameters that there are. -/
def TypeDesc.LengthBeyond (count : Nat) (t : TypeDesc) : Prop :=
  ∃ index, t.array.bind (·.length) = some index ∧ count ≤ index.toNat

/-- Some array among the parameters and the result names a length that is no parameter. -/
def Function.LengthMisplaced (f : Function) : Prop :=
  ∃ t, f.Uses t ∧ t.LengthBeyond f.params.length

/-- The step fails for a length out of range just when `p` holds, and for nothing else. -/
def FailsWhen (p : Prop) (r : Generated α) : Prop :=
  ((∃ a, r = .ok a) ∧ ¬p) ∨ ((∃ index count, r = .error (.lengthOutOfRange index count)) ∧ p)

theorem failsWhen_ok (a : α) : FailsWhen False (.ok a : Generated α) := Or.inl ⟨⟨a, rfl⟩, id⟩

theorem FailsWhen.congr {p q : Prop} {r : Generated α} (h : FailsWhen p r) (hpq : p ↔ q) :
    FailsWhen q r := by
  rwa [FailsWhen, ← hpq]

/-- A chain fails when its first step does, or else its second. -/
theorem FailsWhen.bind {p q : Prop} {r : Generated α} {f : α → Generated β} (hr : FailsWhen p r)
    (hf : ∀ a, FailsWhen q (f a)) : FailsWhen (p ∨ q) (r >>= f) := by
  rcases hr with ⟨⟨a, rfl⟩, hp⟩ | ⟨⟨index, count, rfl⟩, hp⟩
  · rcases hf a with ⟨hok, hq⟩ | ⟨herror, hq⟩
    · exact Or.inl ⟨hok, fun h => h.elim hp hq⟩
    · exact Or.inr ⟨herror, Or.inr hq⟩
  · exact Or.inr ⟨⟨index, count, rfl⟩, Or.inl hp⟩

namespace Wrapper

theorem failsWhen_couplingOf (first count position : Nat) (t : TypeDesc) :
    FailsWhen (t.LengthBeyond count) (couplingOf first count position t) := by
  unfold couplingOf
  cases hlength : t.array.bind (·.length) with
  | none =>
    refine Or.inl ⟨⟨_, rfl⟩, ?_⟩
    rintro ⟨index, hindex, _⟩
    rw [hlength] at hindex
    cases hindex
  | some index =>
    dsimp only
    split
    · refine Or.inl ⟨⟨_, rfl⟩, ?_⟩
      rintro ⟨index', hindex, hbeyond⟩
      rw [hlength] at hindex
      cases hindex
      omega
    · exact Or.inr ⟨⟨_, _, rfl⟩, index, hlength, by omega⟩

theorem failsWhen_paramCouplings (first count : Nat) (ps : List Parameter) (position : Nat) :
    FailsWhen (∃ p ∈ ps, p.type.LengthBeyond count) (paramCouplings first count position ps) := by
  induction ps generalizing position with
  | nil => exact (failsWhen_ok _).congr (by simp)
  | cons p ps ih =>
    refine ((failsWhen_couplingOf first count position p.type).bind fun here =>
      (ih (position + 1)).bind fun rest => failsWhen_ok (here ++ rest)).congr ?_
    simp only [or_false, List.mem_cons, exists_eq_or_imp]

/-- The couplings of a function are missing just when a length is no parameter. -/
theorem failsWhen_couplings (f : Function) (first last : Nat) :
    FailsWhen f.LengthMisplaced (couplings f first last) := by
  have hparams := failsWhen_paramCouplings first f.params.length f.params first
  have hreturn := failsWhen_couplingOf first f.params.length last f.returnType
  refine (hparams.bind fun ofParams =>
    hreturn.bind fun ofResult => failsWhen_ok (ofParams ++ ofResult)).congr ?_
  simp only [Function.LengthMisplaced, Function.Uses, SignatureUses, or_false]
  constructor
  · rintro (⟨p, hp, hbeyond⟩ | hbeyond)
    · exact ⟨p.type, Or.inl ⟨p, hp, rfl⟩, hbeyond⟩
    · exact ⟨f.returnType, Or.inr rfl, hbeyond⟩
  · rintro ⟨t, ⟨p, hp, rfl⟩ | rfl, hbeyond⟩
    · exact Or.inl ⟨p, hp, hbeyond⟩
    · exact Or.inr hbeyond

/-! ### The arguments of a prepared function -/

/-- The arguments of a function have the types of the function. -/
theorem wellTyped_rawArgs {f : Function} {owner via : Option EntityRef}
    (hparams : ∀ p ∈ f.params, p.type.WellShaped) (hreturn : f.returnType.WellShaped) :
    ∀ a ∈ rawArgs f owner via, a.WellTyped := by
  intro a ha
  simp only [rawArgs, List.mem_append, or_assoc] at ha
  rcases ha with hreceiver | hparam | hslot | hresult
  · unfold receivers at hreceiver
    split at hreceiver
    · cases owner with
      | none => cases hreceiver
      | some o =>
        rw [List.mem_singleton.mp hreceiver]
        exact ⟨TypeDesc.wellShaped_named o, fun _ => rfl⟩
    · cases hreceiver
  · obtain ⟨p, hp, rfl⟩ := List.mem_map.mp hparam
    exact ⟨hparams p hp, nofun⟩
  · split at hslot
    · rw [List.mem_singleton.mp hslot]
      exact ⟨TypeDesc.wellShaped_error, nofun⟩
    · cases hslot
  · rw [List.mem_singleton.mp hresult]
    exact ⟨hreturn, nofun⟩

/-- What holds of all items and is kept by a change holds of all items after the change. -/
theorem forall_mem_modify {p : α → Prop} {f : α → α} (hf : ∀ a, p a → p (f a)) :
    ∀ {as : List α} (i : Nat), (∀ a ∈ as, p a) → ∀ a ∈ as.modify i f, p a
  | [], i, _, a, ha => by
    rw [List.modify_nil] at ha
    cases ha
  | b :: bs, 0, h, a, ha => by
    rw [List.modify_zero_cons, List.mem_cons] at ha
    rcases ha with rfl | ha
    · exact hf b (h b List.mem_cons_self)
    · exact h a (List.mem_cons_of_mem _ ha)
  | b :: bs, i + 1, h, a, ha => by
    rw [List.modify_succ_cons, List.mem_cons] at ha
    rcases ha with rfl | ha
    · exact h a List.mem_cons_self
    · exact forall_mem_modify hf i (fun c hc => h c (List.mem_cons_of_mem _ hc)) a ha

theorem wellTyped_withLength {a : Argument} (length : String) (h : a.WellTyped) :
    (a.withLength length).WellTyped := by
  unfold Argument.withLength
  split
  · exact h
  · exact ⟨h.type, nofun⟩
  · exact ⟨h.type, nofun⟩

theorem wellTyped_asLengthOf {a : Argument} (array : Expr) (h : a.WellTyped) :
    (a.asLengthOf array).WellTyped := by
  unfold Argument.asLengthOf
  split
  · exact ⟨h.type, nofun⟩
  · exact h

/-- What holds of all arguments and is kept by both changes of a coupling holds of all arguments
once they are coupled. -/
theorem forall_mem_couple {p : Argument → Prop}
    (hlength : ∀ a length : Argument, p a → p length → p (a.withLength length.nativeLocal))
    (harray : ∀ a array : Argument, p a → p array → p (a.asLengthOf array.hostValue))
    {args : List Argument} (cs : List Coupling) (h : ∀ a ∈ args, p a) :
    ∀ a ∈ cs.foldl Coupling.apply args, p a := by
  induction cs generalizing args with
  | nil => exact h
  | cons c cs ih =>
    refine ih ?_
    unfold Coupling.apply
    split
    next array length hat hlengthAt =>
      have hat := h array (List.mem_of_getElem? hat)
      have hlengthAt := h length (List.mem_of_getElem? hlengthAt)
      refine forall_mem_modify (fun a ha => harray a array ha hat) _ ?_
      exact forall_mem_modify (fun a ha => hlength a length ha hlengthAt) _ h
    next => exact h

/-- All couplings together leave all types as they are. -/
theorem wellTyped_couple {args : List Argument} (cs : List Coupling)
    (h : ∀ a ∈ args, a.WellTyped) : ∀ a ∈ cs.foldl Coupling.apply args, a.WellTyped :=
  forall_mem_couple (fun _ length ha _ => wellTyped_withLength length.nativeLocal ha)
    (fun _ array ha _ => wellTyped_asLengthOf array.hostValue ha) cs h

theorem wellTyped_args {scope : Scope} {f : Function} {owner via : Option EntityRef} {w : Wrapper}
    (hparams : ∀ p ∈ f.params, p.type.WellShaped) (hreturn : f.returnType.WellShaped)
    (h : ofFunction scope f owner via = .ok w) : ∀ a ∈ w.args, a.WellTyped := by
  obtain ⟨cs, _, hw⟩ := bind_eq_ok_iff.mp (within_eq_ok_iff.mp h)
  cases hw
  exact wellTyped_couple cs (wellTyped_rawArgs hparams hreturn)

/-- What holds of the entries that arguments have in a list holds of the list. -/
theorem forall_mem_entries {p : Variable → Prop} {entry : Argument → Generated (Option Variable)}
    {args : List Argument} {entries : List (Option Variable)}
    (hentries : args.mapM entry = .ok entries)
    (h : ∀ a ∈ args, Yields (fun e => ∀ x ∈ e, p x) (entry a)) :
    ∀ x ∈ entries.filterMap id, p x := by
  intro x hx
  obtain ⟨e, he, hex⟩ := List.mem_filterMap.mp hx
  obtain ⟨a, ha, hae⟩ := (mem_of_mapM_eq_ok hentries).mp he
  exact h a ha e hae x hex

/-! ### The host function -/

/-- The signature of well-typed arguments is missing for gaps only. -/
theorem gapsOnly_bareSignature {w : Wrapper} (h : ∀ a ∈ w.args, a.WellTyped) :
    GapsOnly w.bareSignature := by
  have hparams := gapsOnly_mapM fun a ha => Argument.gapsOnly_hostParam w.scope (h a ha)
  have hresults : GapsOnly (w.args.reverse.mapM (·.hostResult w.scope)) :=
    gapsOnly_mapM fun a ha => Argument.gapsOnly_hostResult w.scope (h a (List.mem_reverse.mp ha))
  exact hparams.bind fun params => hresults.bind fun results => gapsOnly_pure _

/-- The host function of well-typed arguments is found, or a gap is reported with its name. -/
theorem hostFunction_outcome {w : Wrapper} (h : ∀ a ∈ w.args, a.WellTyped) :
    (∃ host, w.hostFunction = .ok host)
      ∨ ∃ e, w.hostFunction = .error (.within w.path e) ∧ e.IsGap := by
  have hconvert := gapsOnly_mapM fun a ha => Argument.gapsOnly_convert w.scope (h a ha)
  refine GapsOnly.within ?_ w.path
  exact hconvert.bind fun conversions =>
    (gapsOnly_bareSignature h).bind fun signature => gapsOnly_pure _

/-- The text of a host function is a declaration that ends with its body. -/
theorem exists_text_eq (h : HostFunction) : ∃ middle, h.text = "func " ++ middle ++ "\x7d\n" := by
  have htext : ∃ receiver, h.text
      = "func " ++ receiver ++ h.signature.text ++ " \x7b\n" ++ h.bodyText ++ "\x7d\n" := ⟨_, rfl⟩
  obtain ⟨receiver, htext⟩ := htext
  refine ⟨receiver ++ h.signature.text ++ " \x7b\n" ++ h.bodyText, ?_⟩
  rw [htext]
  simp only [String.append_assoc]

end Wrapper

open Wrapper in
/-- Wrapping a function of well-shaped types gives a declaration, or it reports with the name of
the function that an array names a length that is no parameter, or a gap. The length decides
between the first report and the rest. -/
theorem synthesize_outcome (scope : Scope) (f : Function) (owner via : Option EntityRef)
    (hparams : ∀ p ∈ f.params, p.type.WellShaped) (hreturn : f.returnType.WellShaped) :
    ((∃ host middle, synthesize scope f owner via = .ok host
        ∧ host.text = "func " ++ middle ++ "\x7d\n") ∧ ¬f.LengthMisplaced)
      ∨ ((∃ index count, synthesize scope f owner via
        = .error (.within (pathOf scope f owner) (.lengthOutOfRange index count)))
          ∧ f.LengthMisplaced)
      ∨ ((∃ e, synthesize scope f owner via = .error (.within (pathOf scope f owner) e)
        ∧ e.IsGap) ∧ ¬f.LengthMisplaced) := by
  have hcouplings := failsWhen_couplings f (receivers f owner via).length
    ((rawArgs f owner via).length - 1)
  rcases hcouplings with ⟨⟨cs, hcs⟩, hplaced⟩ | ⟨⟨index, count, herror⟩, hmisplaced⟩
  · have hprepared : ofFunction scope f owner via
        = .ok ⟨scope, f, owner, cs.foldl Coupling.apply (rawArgs f owner via)⟩ := by
      simp only [ofFunction, hcs, ok_bind]
      rfl
    rw [synthesize, hprepared, ok_bind]
    have htyped : ∀ a ∈ cs.foldl Coupling.apply (rawArgs f owner via), a.WellTyped :=
      wellTyped_couple cs (wellTyped_rawArgs hparams hreturn)
    rcases hostFunction_outcome (w := ⟨scope, f, owner, _⟩) htyped with ⟨host, hhost⟩ | hgap
    · obtain ⟨middle, htext⟩ := exists_text_eq host
      exact Or.inl ⟨⟨host, middle, hhost, htext⟩, hplaced⟩
    · exact Or.inr (Or.inr ⟨hgap, hplaced⟩)
  · refine Or.inr (Or.inl ⟨⟨index, count, ?_⟩, hmisplaced⟩)
    simp only [synthesize, ofFunction, herror, error_bind]
    rfl

/-- A function of one array that names a fourth parameter as its length. -/
def Function.ofMisplacedLength : Function :=
  (ofSymbol "init" "gtk_init").withParam
    (.ofType "argv" (.ofArray ⟨.c, some 3, none, false⟩ .utf8))

theorem synthesize_outcome_ofMisplacedLength :
    ∃ index count, synthesize (.ofHome "Gtk") Function.ofMisplacedLength none none
      = .error (.within "Gtk.init" (.lengthOutOfRange index count)) := by
  have hutf8 : TypeDesc.utf8.WellShaped :=
    TypeDesc.wellShaped_iff.mpr ⟨⟨rfl, by decide, by decide⟩, nofun⟩
  have harray : (TypeDesc.ofArray ⟨.c, some 3, none, false⟩ .utf8).WellShaped := by
    refine TypeDesc.wellShaped_iff.mpr ⟨⟨rfl, by decide, by decide⟩, fun u hu => ?_⟩
    rw [List.mem_singleton.mp hu]
    exact hutf8
  have hparams : ∀ p ∈ Function.ofMisplacedLength.params, p.type.WellShaped := by
    intro p hp
    rw [List.mem_singleton.mp hp]
    exact harray
  have hreturn : Function.ofMisplacedLength.returnType.WellShaped :=
    TypeDesc.wellShaped_iff.mpr ⟨⟨rfl, by decide, by decide⟩, nofun⟩
  have hmisplaced : Function.ofMisplacedLength.LengthMisplaced :=
    ⟨_, Or.inl ⟨_, List.mem_singleton.mpr rfl, rfl⟩, 3, rfl, by decide⟩
  rcases synthesize_outcome (.ofHome "Gtk") _ none none hparams hreturn with h | h | h
  · exact absurd hmisplaced h.2
  · exact h.1
  · exact absurd hmisplaced h.2

end Introspection
