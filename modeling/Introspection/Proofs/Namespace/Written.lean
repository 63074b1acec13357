import Introspection.Namespace.Validation
import Introspection.Proofs.Entity.Written
import Introspection.Proofs.Json.Reading

/-!
# `Introspection.Proofs.Namespace.Written`: namespaces read back

Tables and namespaces have the laws of codecs, so that a namespace without binary64 constants
comes back from both of its written forms as it was, the order of its tables included. A text
that was accepted is therefore as good as the text that is written for it.
-/

set_option autoImplicit false

namespace Introspection

open Introspection.Json

/-! ### Tables -/

namespace Table

variable {α : Type} [Named α]

/-- Distinct names that are all new hold no repeated one. -/
theorem firstRepeated_eq_none {seen : List String} {as : List α} (hnodup : (namesOf as).Nodup)
    (hnew : ∀ n ∈ namesOf as, n ∉ seen) : firstRepeated seen as = none := by
  induction as generalizing seen with
  | nil => rfl
  | cons a as ih =>
    rw [namesOf_cons, List.nodup_cons] at hnodup
    rw [namesOf_cons, List.forall_mem_cons] at hnew
    rw [firstRepeated, if_neg hnew.1]
    refine ih hnodup.2 ?_
    intro n hn hseen
    cases hseen with
    | head => exact hnodup.1 hn
    | tail _ hseen => exact hnew.2 n hn hseen

/-- The entries of a table make up that table. -/
theorem ofList?_entries (t : Table α) : ofList? t.entries = .ok t := by
  have hnone := firstRepeated_eq_none t.nodup fun n _ => List.not_mem_nil (a := n)
  unfold ofList?
  split
  · rename_i name hsome
    rw [hnone] at hsome
    cases hsome
  · rfl

/-- The table of a list keeps the list. -/
theorem entries_of_ofList? {as : List α} {t : Table α} (h : ofList? as = .ok t) :
    t.entries = as := by
  unfold ofList? at h
  split at h
  · cases h
  · cases h
    rfl

theorem faithful_codec {c : Codec α} {t : Table α} (h : ∀ a ∈ t.entries, c.Faithful a) :
    (codec c).Faithful t := by
  have hlist := Codec.faithful_list h
  refine ⟨hlist.exact, ?_⟩
  intro levels hlevels
  have hread := hlist.decode_encode levels hlevels
  show (c.list.decode levels (.ofValue (c.list.encode t.entries)) >>= _) = _
  rw [hread, ok_bind, ofList?_entries]

@[simp] theorem bounded_codec {c : Codec α} {levels floor : Nat}
    (h : c.Bounded (levels - 1) (floor - 1)) : (codec c).Bounded levels floor := by
  intro node t hread
  obtain ⟨as, has, hread⟩ := bind_eq_ok_iff.mp hread
  split at hread
  · rename_i t' ht'
    cases hread
    have hdepth := Codec.bounded_list h node as has
    rwa [← entries_of_ofList? ht'] at hdepth
  · cases hread

@[simp] theorem depth_encode_empty (c : Codec α) : ((codec c).encode empty).depth = 1 := (rfl)

end Table

/-! ### Namespaces -/

namespace Namespace

/-- No constant is a binary64 number, neither of the namespace nor of its interfaces and
objects. -/
structure FloatFree (ns : Namespace) : Prop where
  constants : ∀ c ∈ ns.constants.entries, ¬c.value.IsFloat
  interfaces : ∀ i ∈ ns.interfaces.entries, ∀ c ∈ i.constants, ¬c.value.IsFloat
  objects : ∀ o ∈ ns.objects.entries, ∀ c ∈ o.constants, ¬c.value.IsFloat

/-- A namespace without binary64 constants is written without loss and reads back. -/
theorem faithful_codec {ns : Namespace} (h : ns.FloatFree) : codec.Faithful ns := by
  have hconstants : (Table.codec Constant.codec).Faithful ns.constants :=
    Table.faithful_codec fun c hc => Constant.faithful_codec (h.constants c hc)
  have hinterfaces : (Table.codec Interface.codec).Faithful ns.interfaces :=
    Table.faithful_codec fun i hi => Interface.faithful_codec (h.interfaces i hi)
  have hobjects : (Table.codec Object.codec).Faithful ns.objects :=
    Table.faithful_codec fun o ho => Object.faithful_codec (h.objects o ho)
  exact Codec.faithful_record (by decide) rfl
    (by simp [hconstants, hinterfaces, hobjects, Table.faithful_codec])

/-- A namespace that was read is written with six levels or with no more than it was read with. -/
theorem bounded_codec (levels : Nat) : codec.Bounded levels 6 :=
  Codec.bounded_record (fun _ => rfl) (by simp)

/-- A text that says what a namespace is written as reads as that namespace. -/
theorem parse_of_ofText {ns : Namespace} (h : ns.FloatFree)
    (hdepth : (codec.encode ns).depth ≤ maxLevels) {text : String}
    (htext : Document.ofText text = ⟨.ofValue (codec.encode ns), false⟩) :
    parse text = .ok ns := by
  have hread := (faithful_codec h).decode_encode maxLevels hdepth
  simp only [parse, Codec.ofText, htext, hread, ok_bind]
  rfl

/-- Both written forms of a namespace read as that namespace. -/
theorem parse_written {ns : Namespace} (h : ns.FloatFree)
    (hdepth : (codec.encode ns).depth ≤ maxLevels) :
    parse ns.pretty = .ok ns ∧ parse ns.compact = .ok ns := by
  have hexact := (faithful_codec h).exact
  exact ⟨parse_of_ofText h hdepth (ofText_pretty hexact),
    parse_of_ofText h hdepth (ofText_compact hexact)⟩

/-- What was read is written no deeper than texts may be. -/
theorem depth_encode_le {text : String} {ns : Namespace} (h : parse text = .ok ns) :
    (codec.encode ns).depth ≤ maxLevels := by
  unfold parse at h
  cases hread : codec.ofText text with
  | error e =>
    rw [hread] at h
    cases h
  | ok ns' =>
    rw [hread] at h
    cases h
    obtain ⟨a, hdecode, heq⟩ := bind_eq_ok_iff.mp hread
    have ha : a = ns := by
      split at heq
      · cases heq
      · exact Except.ok.inj heq
    rw [ha] at hdecode
    exact bounded_codec maxLevels _ ns hdecode

/-- Loading is reading and then finding no fault. -/
theorem load_eq_ok_iff {text : String} {ns : Namespace} :
    load text = .ok ns ↔ parse text = .ok ns ∧ ns.validate = .ok () := by
  unfold load
  constructor
  · intro h
    obtain ⟨ns', hparse, h⟩ := bind_eq_ok_iff.mp h
    obtain ⟨_, hvalid, heq⟩ := bind_eq_ok_iff.mp h
    cases heq
    exact ⟨hparse, hvalid⟩
  · rintro ⟨hparse, hvalid⟩
    rw [hparse, ok_bind, hvalid]
    rfl

/-- The text that is written for what a text says. -/
def normalize (text : String) : Except ModelError String := (load text).map pretty

/-- A namespace without binary64 constants comes back from its written forms as it was, as long
as a text may be that deep. What a text was accepted as is never too deep, so that its written
forms are accepted as the same, and normalizing once more changes nothing. -/
theorem json_roundTrip :
    (∀ ns : Namespace, ns.FloatFree → (codec.encode ns).depth ≤ 127 →
      parse ns.pretty = .ok ns ∧ parse ns.compact = .ok ns)
    ∧ ∀ (text : String) (ns : Namespace), load text = .ok ns → ns.FloatFree →
      load ns.pretty = .ok ns ∧ load ns.compact = .ok ns
        ∧ normalize text = .ok ns.pretty ∧ normalize ns.pretty = .ok ns.pretty := by
  refine ⟨fun ns h hdepth => parse_written h hdepth, ?_⟩
  intro text ns hload h
  obtain ⟨hparse, hvalid⟩ := load_eq_ok_iff.mp hload
  obtain ⟨hpretty, hcompact⟩ := parse_written h (depth_encode_le hparse)
  have hagain : load ns.pretty = .ok ns := load_eq_ok_iff.mpr ⟨hpretty, hvalid⟩
  refine ⟨hagain, load_eq_ok_iff.mpr ⟨hcompact, hvalid⟩, ?_, ?_⟩
  · rw [normalize, hload, map_ok]
  · rw [normalize, hagain, map_ok]

/-- A namespace with a constant and a function whose parameter is an array of texts. -/
def sample : Namespace :=
  ((ofName "Gtk").addConstant ⟨"MAJOR", .ofTag .int32, .int 4, false⟩).addFunction
    ((Function.ofSymbol "init" "gtk_init").withParam
      (.ofType "argv" (.ofArray (.ofStorage .c) .utf8)))

theorem json_roundTrip_sample :
    (parse sample.pretty = .ok sample ∧ parse sample.compact = .ok sample)
    ∧ load sample.pretty = .ok sample ∧ load sample.compact = .ok sample
      ∧ normalize sample.compact = .ok sample.pretty
      ∧ normalize sample.pretty = .ok sample.pretty := by
  have hfloat : sample.FloatFree := by
    refine ⟨?_, nofun, nofun⟩
    intro c hc
    cases hc with
    | head =>
      rintro ⟨x, hx⟩
      cases hx
    | tail _ hc => cases hc
  have hwritten := json_roundTrip.1 sample hfloat (by decide)
  exact ⟨hwritten,
    json_roundTrip.2 sample.compact sample (load_eq_ok_iff.mpr ⟨hwritten.2, rfl⟩) hfloat⟩

end Namespace

end Introspection
