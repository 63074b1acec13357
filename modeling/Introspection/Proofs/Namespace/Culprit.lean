import Introspection.Proofs.Namespace.Validation

/-!
# `Introspection.Proofs.Namespace.Culprit`: what a reported cycle names

A search that meets a name again has run into a circle. For interfaces the one that is met again
is reported, and it lies on the circle. For objects the one whose chain was followed is reported,
which may only lead into the circle: it is the first object of the table whose chain of parents
does not come to an end (`Namespace.FirstEndless`). So a reported cycle names one of those that
lie on it, unless that first object does not lie on a circle itself
(`Namespace.namesCulprit_iff_of_validate`).

Both searches carry the same invariant: whatever is no longer to be met leads to where the search
stands.
-/

set_option autoImplicit false

namespace Introspection

open Relation

/-- The fault is a cycle of parents or of prerequisites. -/
def ModelError.IsCycle : ModelError → Prop
  | .inheritanceCycle _ | .prerequisiteCycle _ => True
  | _ => False

namespace Namespace

variable {ns : Namespace} {fault : ModelError}

/-- What a reported cycle names lies on a cycle. -/
def NamesCulprit (ns : Namespace) : ModelError → Prop
  | .inheritanceCycle path => ∃ o, TransGen ns.Extends o o ∧ path = ns.name ++ "." ++ o.name
  | .prerequisiteCycle path => ∃ i, TransGen ns.Requires i i ∧ path = ns.name ++ "." ++ i.name
  | _ => True

theorem namesCulprit_of_not_isCycle (h : ¬fault.IsCycle) : ns.NamesCulprit fault := by
  cases fault with
  | inheritanceCycle path => exact absurd trivial h
  | prerequisiteCycle path => exact absurd trivial h
  | unreadable | unknownEntity | wrongKind | malformedType => trivial

/-- The object is the first one of the table whose chain of parents does not come to an end. -/
def FirstEndless (ns : Namespace) (o : Object) : Prop :=
  ∃ before after, ns.objects.entries = before ++ o :: after
    ∧ (∀ p ∈ before, ns.Rooted p) ∧ ¬ns.Rooted o

theorem FirstEndless.mem {o : Object} (h : ns.FirstEndless o) : o ∈ ns.objects.entries := by
  obtain ⟨before, after, hsplit, _⟩ := h
  rw [hsplit]
  exact List.mem_append_cons_self

theorem FirstEndless.unique {o p : Object} (ho : ns.FirstEndless o) (hp : ns.FirstEndless p) :
    o = p := by
  obtain ⟨before, after, hsplit, hbefore, hendless⟩ := ho
  obtain ⟨before', after', hsplit', hbefore', hendless'⟩ := hp
  rw [hsplit] at hsplit'
  -- One of the two comes first, and the other's prefix does not hold it.
  rcases List.append_eq_append_iff.mp hsplit' with ⟨between, rfl, hrest⟩ | ⟨between, rfl, hrest⟩
  · cases between with
    | nil => exact (List.cons.inj hrest).1
    | cons q between =>
      cases hrest
      exact absurd (hbefore' o (by simp)) hendless
  · cases between with
    | nil => exact (List.cons.inj hrest).1.symm
    | cons q between =>
      cases hrest
      exact absurd (hbefore p (by simp)) hendless'

/-! ### Faults that are no cycles -/

theorem not_isCycle_of_checkKnown {owner : String} {r : EntityRef}
    (h : ns.checkKnown owner r = .error fault) : ¬fault.IsCycle := by
  unfold checkKnown at h
  split at h
  · cases h
    exact id
  · cases h

theorem not_isCycle_of_checkKind {owner : String} {expected : EntityKind} {r : EntityRef}
    (h : ns.checkKind owner expected r = .error fault) : ¬fault.IsCycle := by
  unfold checkKind at h
  split at h
  · exact not_isCycle_of_checkKnown h
  · cases h
    exact id

theorem not_isCycle_of_checkPrerequisite {owner : String} {r : EntityRef}
    (h : ns.checkPrerequisite owner r = .error fault) : ¬fault.IsCycle := by
  unfold checkPrerequisite at h
  split at h
  · exact not_isCycle_of_checkKnown h
  · cases h
    exact id

theorem not_isCycle_of_checkOccurrence {o : Occurrence}
    (h : ns.checkOccurrence o = .error fault) : ¬fault.IsCycle := by
  unfold checkOccurrence at h
  split at h
  · cases h
    exact id
  · obtain ⟨_, r, _, _, _, hr⟩ := forM_eq_error_iff.mp h
    exact not_isCycle_of_checkKnown hr

/-! ### Chains of parents -/

/-- One step of the search: the parent is one of those that may still be met. -/
theorem chainEnds_of_extends {fresh : List String} {o p : Object} (h : ns.Extends o p) :
    ns.chainEnds fresh o
      = if p.name ∈ fresh then ns.chainEnds (fresh.erase p.name) p else false := by
  have hparent : o.parent.bind ns.object? = some p := h
  rw [chainEnds]
  simp only [hparent, dite_eq_ite]

/-- A chain that is not followed to its end leads into a circle: the search stops at an object
that was passed. -/
theorem exists_circle_of_chainEnds_eq_false {fresh : List String} {o : Object}
    (hpassed : ∀ q ∈ ns.objects.entries, q.name ∉ fresh → ReflTransGen ns.Extends q o)
    (h : ns.chainEnds fresh o = false) :
    ∃ p, ReflTransGen ns.Extends o p ∧ TransGen ns.Extends p p := by
  induction fresh, o using chainEnds.induct ns with
  | case1 fresh o hroot =>
    unfold chainEnds at h
    simp [hroot] at h
  | case2 fresh o p hparent hfresh ih =>
    have hop : ns.Extends o p := hparent
    rw [chainEnds_of_extends hop, if_pos hfresh] at h
    -- What was passed leads on to the parent, and so does `o`; the parent is passed by now.
    have hnext : ∀ q ∈ ns.objects.entries, q.name ∉ fresh.erase p.name →
        ReflTransGen ns.Extends q p := by
      intro q hq hgone
      by_cases hname : q.name = p.name
      · rw [ns.objects.eq_of_name_eq hq hop.mem hname]
      · exact (hpassed q hq fun hin => hgone ((List.mem_erase_of_ne hname).mpr hin)).tail hop
    obtain ⟨q, hpq, hcircle⟩ := ih hnext h
    exact ⟨q, .head hop hpq, hcircle⟩
  | case3 fresh o p hparent hpassedOnce =>
    have hop : ns.Extends o p := hparent
    -- The parent was passed, so it leads to `o`, and `o` leads back to it.
    exact ⟨p, .single hop, TransGen.tail' (hpassed p hop.mem hpassedOnce) hop⟩

/-- The chain of an object of the namespace that is not accepted leads into a circle. -/
theorem of_checkInheritance_eq_error {o : Object} (ho : o ∈ ns.objects.entries)
    (h : ns.checkInheritance o = .error fault) :
    fault = .inheritanceCycle (ns.name ++ "." ++ o.name)
      ∧ ∃ p, ReflTransGen ns.Extends o p ∧ TransGen ns.Extends p p := by
  unfold checkInheritance at h
  split at h
  · cases h
  · rename_i hends
    rw [Bool.not_eq_true] at hends
    cases h
    refine ⟨rfl, exists_circle_of_chainEnds_eq_false (fun q hq hgone => ?_) hends⟩
    -- Only the name of the object itself is not to be met.
    by_cases hname : q.name = o.name
    · rw [ns.objects.eq_of_name_eq hq ho hname]
    · exact absurd ((List.mem_erase_of_ne hname).mpr (ns.objects.name_mem_names hq)) hgone

/-- The first object that is not accepted is to blame, and where its fault is a cycle, it is the
one that is named. -/
theorem firstEndless_of_checkObject_eq_error {before after : List Object} {o : Object}
    (hsplit : ns.objects.entries = before ++ o :: after)
    (hbefore : ∀ p ∈ before, ns.checkObject p = .ok ())
    (h : ns.checkObject o = .error fault) :
    ¬fault.IsCycle ∨ fault = .inheritanceCycle (ns.name ++ "." ++ o.name) ∧ ns.FirstEndless o
      ∧ ∃ p, ReflTransGen ns.Extends o p ∧ TransGen ns.Extends p p := by
  have ho : o ∈ ns.objects.entries := by
    rw [hsplit]
    exact List.mem_append_cons_self
  unfold checkObject at h
  obtain hparent | ⟨_, _, h⟩ := bind_eq_error_iff.mp h
  · cases hp : o.parent with
    | none =>
      rw [hp] at hparent
      cases hparent
    | some r =>
      rw [hp] at hparent
      exact Or.inl (not_isCycle_of_checkKind hparent)
  obtain hinterfaces | ⟨_, _, h⟩ := bind_eq_error_iff.mp h
  · obtain ⟨_, r, _, _, _, hr⟩ := forM_eq_error_iff.mp hinterfaces
    exact Or.inl (not_isCycle_of_checkKind hr)
  obtain ⟨hfault, hcircle⟩ := of_checkInheritance_eq_error ho h
  refine Or.inr ⟨hfault, ⟨before, after, hsplit, fun p hp => ?_, ?_⟩, hcircle⟩
  · -- An object in front of it was accepted, so its chain ends.
    have hmem : p ∈ ns.objects.entries := by
      rw [hsplit]
      exact List.mem_append_left _ hp
    exact ((checkObject_eq_ok_iff hmem).mp (hbefore p hp)).2.2
  · intro hrooted
    rw [(checkInheritance_eq_ok_iff ho).mpr hrooted] at h
    cases h

/-! ### Circles of interfaces -/

/-- An interface that is not accepted leads to one that is met again, and that one is named. -/
theorem circle_of_checkAcyclic_eq_error {fresh : List String} {i : Interface}
    (hi : i ∈ ns.interfaces.entries)
    (hpath : ∀ j ∈ ns.interfaces.entries, j.name ∉ fresh → TransGen ns.Requires j i)
    (h : ns.checkAcyclic fresh i = .error fault) :
    ∃ j, TransGen ns.Requires j j ∧ fault = .prerequisiteCycle (ns.name ++ "." ++ j.name) := by
  induction fresh, i using checkAcyclic.induct with
  | case1 fresh i hfresh ih =>
    rw [checkAcyclic, dif_pos hfresh] at h
    obtain ⟨before, j, after, hsplit, _, hj⟩ := forM_eq_error_iff.mp h
    have hij : ns.Requires i j := by
      refine List.mem_filterMap.mp ?_
      rw [hsplit]
      exact List.mem_append_cons_self
    -- What led to `i` leads on to `j`, the first prerequisite that is not accepted.
    refine ih j hij.mem (fun k hk hgone => ?_) hj
    by_cases hname : k.name = i.name
    · rw [ns.interfaces.eq_of_name_eq hk hi hname]
      exact .single hij
    · exact (hpath k hk fun hin => hgone ((List.mem_erase_of_ne hname).mpr hin)).tail hij
  | case2 fresh i hmet =>
    rw [checkAcyclic, dif_neg hmet] at h
    cases h
    exact ⟨i, hpath i hi hmet, rfl⟩

/-- Where the fault of an interface is a cycle, it names one that lies on it. -/
theorem circle_of_checkInterface_eq_error {i : Interface} (hi : i ∈ ns.interfaces.entries)
    (h : ns.checkInterface i = .error fault) :
    ¬fault.IsCycle
      ∨ ∃ j, TransGen ns.Requires j j ∧ fault = .prerequisiteCycle (ns.name ++ "." ++ j.name) := by
  unfold checkInterface at h
  obtain hprerequisites | ⟨_, _, h⟩ := bind_eq_error_iff.mp h
  · obtain ⟨_, r, _, _, _, hr⟩ := forM_eq_error_iff.mp hprerequisites
    exact Or.inl (not_isCycle_of_checkPrerequisite hr)
  · -- No interface has been passed yet.
    refine Or.inr (circle_of_checkAcyclic_eq_error hi (fun j hj hgone => ?_) h)
    exact absurd (ns.interfaces.name_mem_names hj) hgone

/-! ### The first fault of a namespace -/

/-- The first fault is no cycle, or blames the first object without an end, or an interface that
lies on a circle. -/
theorem cycle_of_validate_eq_error (h : ns.validate = .error fault) :
    ¬fault.IsCycle
      ∨ (∃ o, fault = .inheritanceCycle (ns.name ++ "." ++ o.name) ∧ ns.FirstEndless o
        ∧ ∃ p, ReflTransGen ns.Extends o p ∧ TransGen ns.Extends p p)
      ∨ ∃ i, TransGen ns.Requires i i ∧ fault = .prerequisiteCycle (ns.name ++ "." ++ i.name) := by
  unfold validate at h
  obtain htypes | ⟨_, _, h⟩ := bind_eq_error_iff.mp h
  · obtain ⟨_, o, _, _, _, ho⟩ := forM_eq_error_iff.mp htypes
    exact Or.inl (not_isCycle_of_checkOccurrence ho)
  obtain hobjects | ⟨_, _, h⟩ := bind_eq_error_iff.mp h
  · obtain ⟨before, o, after, hsplit, hbefore, ho⟩ := forM_eq_error_iff.mp hobjects
    obtain hother | hcycle := firstEndless_of_checkObject_eq_error hsplit hbefore ho
    · exact Or.inl hother
    · exact Or.inr (Or.inl ⟨o, hcycle⟩)
  · obtain ⟨before, i, after, hsplit, _, hi⟩ := forM_eq_error_iff.mp h
    have hmem : i ∈ ns.interfaces.entries := by
      rw [hsplit]
      exact List.mem_append_cons_self
    obtain hother | hcycle := circle_of_checkInterface_eq_error hmem hi
    · exact Or.inl hother
    · exact Or.inr (Or.inr hcycle)

/-- What a reported cycle of prerequisites names lies on it. A reported cycle of parents names the
first object of the table whose chain of parents does not end, which leads into a circle; it
lies on a circle just when that object does. -/
theorem namesCulprit_iff_of_validate (h : ns.validate = .error fault) :
    (∀ path, fault = .inheritanceCycle path →
        ∃ o, ns.FirstEndless o ∧ path = ns.name ++ "." ++ o.name
          ∧ ∃ p, ReflTransGen ns.Extends o p ∧ TransGen ns.Extends p p)
      ∧ (ns.NamesCulprit fault
        ↔ ∀ path o, fault = .inheritanceCycle path → ns.FirstEndless o →
          TransGen ns.Extends o o) := by
  obtain hother | ⟨o, rfl, hfirst, hcircle⟩ | ⟨i, hcircle, rfl⟩ := cycle_of_validate_eq_error h
  · constructor
    · rintro path rfl
      exact absurd trivial hother
    · refine iff_of_true (namesCulprit_of_not_isCycle hother) ?_
      rintro path o rfl _
      exact absurd trivial hother
  · constructor
    · intro path hpath
      cases hpath
      exact ⟨o, hfirst, rfl, hcircle⟩
    · constructor
      · rintro ⟨q, hq, hpath⟩ _ p _ hp
        -- Names tell the objects of the table apart, so it is the blamed one that lies on a circle.
        have hname : o.name = q.name := (String.append_right_inj _).mp hpath
        have hqo : o = q :=
          ns.objects.eq_of_name_eq hfirst.mem (mem_of_transGen_extends hq) hname
        cases hp.unique hfirst
        exact hqo ▸ hq
      · intro hlies
        exact ⟨o, hlies _ o rfl hfirst, rfl⟩
  · exact ⟨nofun, iff_of_true ⟨i, hcircle, rfl⟩ nofun⟩

/-- An object whose parent is `parent`. -/
def objectBelow (name parent : String) : Object :=
  ⟨name, some ⟨"Gtk", parent, .object⟩, [], false, [], [], [], [], [], [], false⟩

/-- Two objects that extend each other, and before them one that extends one of the two. -/
def ofLeadIn : Namespace :=
  (((ofName "Gtk").addEntity (.object (objectBelow "Leaf" "Inner"))).addEntity
    (.object (objectBelow "Inner" "Outer"))).addEntity (.object (objectBelow "Outer" "Inner"))

theorem validate_ofLeadIn : ofLeadIn.validate = .error (.inheritanceCycle "Gtk.Leaf") := by
  have hchain : ofLeadIn.chainEnds ["Inner", "Outer"] (objectBelow "Leaf" "Inner") = false := by
    have hleaf : ofLeadIn.Extends (objectBelow "Leaf" "Inner") (objectBelow "Inner" "Outer") := rfl
    have hinner : ofLeadIn.Extends (objectBelow "Inner" "Outer") (objectBelow "Outer" "Inner") :=
      rfl
    have houter : ofLeadIn.Extends (objectBelow "Outer" "Inner") (objectBelow "Inner" "Outer") :=
      rfl
    rw [chainEnds_of_extends hleaf, if_pos (by decide), chainEnds_of_extends hinner,
      if_pos (by decide), chainEnds_of_extends houter, if_neg (by decide)]
  have hleaf : ofLeadIn.checkObject (objectBelow "Leaf" "Inner")
      = .error (.inheritanceCycle "Gtk.Leaf") := by
    have hinheritance : ofLeadIn.checkInheritance (objectBelow "Leaf" "Inner")
        = .error (.inheritanceCycle "Gtk.Leaf") :=
      if_neg (by rw [show ofLeadIn.objects.names.erase _ = ["Inner", "Outer"] from rfl, hchain]
                 decide)
    unfold checkObject
    rw [hinheritance]
    rfl
  have htypes : ofLeadIn.occurrences.forM ofLeadIn.checkOccurrence = .ok () := rfl
  have hobjects : ofLeadIn.objects.entries.forM ofLeadIn.checkObject
      = .error (.inheritanceCycle "Gtk.Leaf") :=
    forM_eq_error_iff.mpr ⟨[], _, _, rfl, fun _ hp => absurd hp List.not_mem_nil, hleaf⟩
  unfold validate
  rw [htypes, ok_bind, hobjects, error_bind]

/-- The chain of the first object goes round the other two. -/
theorem of_transGen_extends_ofLeadIn {p : Object}
    (h : TransGen ofLeadIn.Extends (objectBelow "Leaf" "Inner") p) :
    p = objectBelow "Inner" "Outer" ∨ p = objectBelow "Outer" "Inner" := by
  induction h with
  | single hparent =>
    cases hparent
    exact Or.inl rfl
  | tail _ hparent ih =>
    rcases ih with rfl | rfl
    · cases hparent
      exact Or.inr rfl
    · cases hparent
      exact Or.inl rfl

/-- The cycle names an object that is not on it. -/
theorem not_namesCulprit_ofLeadIn :
    ofLeadIn.validate = .error (.inheritanceCycle "Gtk.Leaf")
      ∧ ¬ofLeadIn.NamesCulprit (.inheritanceCycle "Gtk.Leaf") := by
  refine ⟨validate_ofLeadIn, ?_⟩
  obtain ⟨hfirst, hiff⟩ := namesCulprit_iff_of_validate validate_ofLeadIn
  obtain ⟨o, ho, hpath, _⟩ := hfirst _ rfl
  have hleaf : o = objectBelow "Leaf" "Inner" := by
    refine ofLeadIn.objects.eq_of_name_eq ho.mem List.mem_cons_self ?_
    exact ((String.append_right_inj "Gtk.").mp
      (show "Gtk." ++ "Leaf" = "Gtk." ++ o.name from hpath)).symm
  rw [hiff]
  intro hlies
  have hcircle := hlies _ o rfl ho
  rw [hleaf] at hcircle
  rcases of_transGen_extends_ofLeadIn hcircle with h | h
  · exact absurd (congrArg Object.name h) (by decide)
  · exact absurd (congrArg Object.name h) (by decide)

end Namespace

end Introspection
