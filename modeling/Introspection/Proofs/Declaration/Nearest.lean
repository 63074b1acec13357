import Introspection.Proofs.Declaration.Closure
import Mathlib.Logic.Function.Iterate

/-!
# `Introspection.Proofs.Declaration.Nearest`: interfaces by their distance

`Namespace.closure` works off its queue level by level. While the interfaces at distance `n` are
met, those at distance `n + 1` queue up behind them (`Namespace.Level`), so that what is met comes
in the order of the distance from the start (`Namespace.nearestFirst_closure`).

The same search with the list of what was found in place of the names that are left is
`Namespace.round`, one reference at a time. It comes to an empty queue after finitely many rounds,
also where prerequisites go round in circles, and what it has found then is the closure
(`Namespace.exists_rounds`).
-/

set_option autoImplicit false

namespace Introspection

open Relation

namespace Namespace

variable {ns : Namespace} {i : Interface}

/-! ### Distances -/

/-- So many prerequisites one after another lead from `i` to the interface. -/
inductive RequiresIn (ns : Namespace) (i : Interface) : Nat → Interface → Prop
  | here : ns.RequiresIn i 0 i
  | further {n : Nat} {j k : Interface} :
    ns.RequiresIn i n j → ns.Requires j k → ns.RequiresIn i (n + 1) k

/-- The interface is so many prerequisites away from `i`, and no fewer lead there. -/
structure Distance (ns : Namespace) (i j : Interface) (n : Nat) : Prop where
  reached : ns.RequiresIn i n j
  least : ∀ m, ns.RequiresIn i m j → n ≤ m

theorem RequiresIn.mem (hi : i ∈ ns.interfaces.entries) {n : Nat} {j : Interface}
    (h : ns.RequiresIn i n j) : j ∈ ns.interfaces.entries := by
  cases h with
  | here => exact hi
  | further _ hk => exact hk.mem

theorem requiresIn_one_iff {j : Interface} : ns.RequiresIn i 1 j ↔ ns.Requires i j := by
  constructor
  · rintro (_ | ⟨_ | _, hij⟩)
    exact hij
  · exact .further .here

/-! ### Working off a queue level by level -/

/-- The search stands among the interfaces at distance `n`. Those that are left of them are in
`near`; `far` has the first ones of the next level. -/
structure Level (ns : Namespace) (i : Interface) (n : Nat) (fresh : List String)
    (near far : List EntityRef) : Prop where
  nodup : fresh.Nodup
  near_reached : ∀ r ∈ near, ∃ j, ns.RequiresIn i n j ∧ r = ns.reference .interface j.name
  far_reached : ∀ r ∈ far, ∃ j, ns.RequiresIn i (n + 1) j ∧ r = ns.reference .interface j.name
  /-- What is nearer has been met. -/
  met : ∀ m < n, ∀ j, ns.RequiresIn i m j → j.name ∉ fresh
  /-- What is at this distance has been met or comes next. -/
  pending : ∀ j, ns.RequiresIn i n j → j.name ∉ fresh ∨ ns.reference .interface j.name ∈ near
  /-- What is required by an interface that has been met has been met, or is in the queue. -/
  spread : ∀ j ∈ ns.interfaces.entries, j.name ∉ fresh → ∀ k, ns.Requires j k →
    k.name ∉ fresh ∨ ns.reference .interface k.name ∈ near ++ far

/-- The search starts with what the interface itself requires. -/
theorem level_one (hi : i ∈ ns.interfaces.entries) :
    ns.Level i 1 (ns.interfaces.names.erase i.name) (ns.knownInterfaces i.prerequisites) [] where
  nodup := ns.interfaces.nodup.erase i.name
  near_reached := by
    intro r hr
    obtain ⟨j, hij, rfl⟩ := mem_knownInterfaces_prerequisites_iff.mp hr
    exact ⟨j, requiresIn_one_iff.mpr hij, rfl⟩
  far_reached := nofun
  met := by
    intro m hm j hj
    obtain rfl : m = 0 := by omega
    cases hj
    exact ns.interfaces.nodup.not_mem_erase
  pending := by
    intro j hj
    exact Or.inr (mem_knownInterfaces_prerequisites_iff.mpr ⟨j, requiresIn_one_iff.mp hj, rfl⟩)
  spread := by
    intro j hj hgone k hjk
    -- The interface itself is the only one that is not to be met.
    by_cases hname : j.name = i.name
    · rw [ns.interfaces.eq_of_name_eq hj hi hname] at hjk
      rw [List.append_nil]
      exact Or.inr (mem_knownInterfaces_prerequisites_iff.mpr ⟨k, hjk, rfl⟩)
    · exact absurd ((List.mem_erase_of_ne hname).mpr (ns.interfaces.name_mem_names hj)) hgone

namespace Level

variable {n : Nat} {fresh : List String} {r : EntityRef} {near far : List EntityRef}

/-- When a level has been worked off, what has queued up is the next one. -/
theorem next (hi : i ∈ ns.interfaces.entries) (h : ns.Level i n fresh [] far) :
    ns.Level i (n + 1) fresh far [] where
  nodup := h.nodup
  near_reached := h.far_reached
  far_reached := nofun
  met := by
    intro m hm j hj
    rcases Nat.lt_succ_iff_lt_or_eq.mp hm with hm | rfl
    · exact h.met m hm j hj
    · exact (h.pending j hj).resolve_right nofun
  pending := by
    rintro k (_ | ⟨hj, hjk⟩)
    exact h.spread _ (hj.mem hi) ((h.pending _ hj).resolve_right nofun) k hjk
  spread := by
    rw [List.append_nil]
    exact h.spread

/-- The head of the queue belongs to this level, or the level has been worked off and it is the
first of the next. -/
theorem exists_cons (hi : i ∈ ns.interfaces.entries) {queue : List EntityRef}
    (h : ns.Level i n fresh near far) (hqueue : near ++ far = r :: queue) :
    ∃ n' near' far', n ≤ n' ∧ queue = near' ++ far' ∧ ns.Level i n' fresh (r :: near') far' := by
  cases near with
  | cons s near =>
    cases hqueue
    exact ⟨n, near, far, Nat.le_refl n, rfl, h⟩
  | nil =>
    rw [List.nil_append] at hqueue
    subst hqueue
    exact ⟨n + 1, queue, [], Nat.le_succ n, (List.append_nil queue).symm, h.next hi⟩

/-- An interface of the level that is met for the first time is not nearer. -/
theorem distance (hfresh : r.name ∈ fresh) (h : ns.Level i n fresh (r :: near) far) :
    ∃ j, ns.Distance i j n ∧ r = ns.reference .interface j.name := by
  obtain ⟨j, hj, rfl⟩ := h.near_reached r List.mem_cons_self
  refine ⟨j, ⟨hj, fun m hm => ?_⟩, rfl⟩
  by_contra hlt
  exact h.met m (by omega) j hm hfresh

/-- What an interface requires that is met for the first time queues up for the next level. -/
theorem meet (hi : i ∈ ns.interfaces.entries) (h : ns.Level i n fresh (r :: near) far) :
    ns.Level i n (fresh.erase r.name) near (far ++ ns.required r) := by
  obtain ⟨j, hj, rfl⟩ := h.near_reached r List.mem_cons_self
  have hmem : j ∈ ns.interfaces.entries := hj.mem hi
  have hrequired : ∀ {s : EntityRef}, s ∈ ns.required (ns.reference .interface j.name)
      ↔ ∃ k, ns.Requires j k ∧ s = ns.reference .interface k.name :=
    mem_required_reference_iff hmem
  have herased : ∀ {name : String}, name ∉ fresh → name ∉ fresh.erase j.name :=
    fun hgone hin => hgone (List.mem_of_mem_erase hin)
  -- A reference of the level is met now or stays in the queue.
  have hhead : ∀ k : Interface, k.name ∉ fresh
      ∨ ns.reference .interface k.name ∈ ns.reference .interface j.name :: near →
      k.name ∉ fresh.erase j.name ∨ ns.reference .interface k.name ∈ near := by
    rintro k (hgone | hin)
    · exact Or.inl (herased hgone)
    · rcases List.mem_cons.mp hin with heq | hin
      · have hname : k.name = j.name := congrArg EntityRef.name heq
        exact Or.inl (hname ▸ h.nodup.not_mem_erase)
      · exact Or.inr hin
  exact
    { nodup := h.nodup.erase _
      near_reached := fun s hs => h.near_reached s (List.mem_cons_of_mem _ hs)
      far_reached := by
        intro s hs
        rcases List.mem_append.mp hs with hs | hs
        · exact h.far_reached s hs
        · obtain ⟨k, hjk, rfl⟩ := hrequired.mp hs
          exact ⟨k, .further hj hjk, rfl⟩
      met := fun m hm k hk => herased (h.met m hm k hk)
      pending := fun k hk => hhead k (h.pending k hk)
      spread := by
        intro k hk hgone l hkl
        by_cases hname : k.name = j.name
        · rw [ns.interfaces.eq_of_name_eq hk hmem hname] at hkl
          have hl := hrequired.mpr ⟨l, hkl, rfl⟩
          exact Or.inr (List.mem_append_right _ (List.mem_append_right _ hl))
        · have hbefore : k.name ∉ fresh :=
            fun hin => hgone ((List.mem_erase_of_ne hname).mpr hin)
          rcases h.spread k hk hbefore l hkl with hl | hl
          · exact Or.inl (herased hl)
          rcases List.mem_append.mp hl with hl | hl
          · exact (hhead l (Or.inr hl)).imp_right (List.mem_append_left _)
          · exact Or.inr (List.mem_append_right _ (List.mem_append_left _ hl)) }

/-- An interface of the level that was met before is passed over. -/
theorem skip (hmet : r.name ∉ fresh) (h : ns.Level i n fresh (r :: near) far) :
    ns.Level i n fresh near far := by
  have hhead : ∀ {k : Interface} {queue : List EntityRef}, k.name ∉ fresh
      ∨ ns.reference .interface k.name ∈ r :: queue →
      k.name ∉ fresh ∨ ns.reference .interface k.name ∈ queue := by
    rintro k queue (hgone | hin)
    · exact Or.inl hgone
    · rcases List.mem_cons.mp hin with rfl | hin
      · exact Or.inl hmet
      · exact Or.inr hin
  exact
    { nodup := h.nodup
      near_reached := fun s hs => h.near_reached s (List.mem_cons_of_mem _ hs)
      far_reached := h.far_reached
      met := h.met
      pending := fun k hk => hhead (h.pending k hk)
      spread := fun k hk hgone l hkl => hhead (h.spread k hk hgone l hkl) }

end Level

/-- What is met from a level on comes in the order of its distance, and is not nearer than the
level. -/
theorem exists_distances_spread (hi : i ∈ ns.interfaces.entries) {fresh : List String}
    {queue : List EntityRef} :
    ∀ {n : Nat} {near far : List EntityRef}, near ++ far = queue → ns.Level i n fresh near far →
      ∃ js steps, ns.spread fresh queue = js.map (fun j => ns.reference .interface j.name)
        ∧ List.Forall₂ (ns.Distance i) js steps ∧ steps.Pairwise (· ≤ ·)
        ∧ ∀ m ∈ steps, n ≤ m := by
  -- Where the queue divides into two levels is no argument of the search, so it stays general.
  induction fresh, queue using spread.induct ns with
  | case1 fresh =>
    intro n near far _ _
    rw [spread]
    exact ⟨[], [], rfl, .nil, .nil, fun m hm => absurd hm List.not_mem_nil⟩
  | case2 fresh r queue hfresh ih =>
    intro n near far hqueue h
    obtain ⟨n', near', far', hn, rfl, h⟩ := h.exists_cons hi hqueue
    -- What is met now is at the distance of the level, and all that follows is not nearer.
    obtain ⟨j, hj, rfl⟩ := h.distance hfresh
    obtain ⟨js, steps, hjs, hsteps, hsorted, hle⟩ := ih (List.append_assoc ..).symm (h.meet hi)
    rw [spread, dif_pos hfresh, hjs]
    refine ⟨j :: js, n' :: steps, rfl, .cons hj hsteps, .cons hle hsorted, ?_⟩
    exact List.forall_mem_cons.mpr ⟨hn, fun m hm => Nat.le_trans hn (hle m hm)⟩
  | case3 fresh r queue hmet ih =>
    intro n near far hqueue h
    obtain ⟨n', near', far', hn, rfl, h⟩ := h.exists_cons hi hqueue
    obtain ⟨js, steps, hjs, hsteps, hsorted, hle⟩ := ih rfl (h.skip hmet)
    rw [spread, dif_neg hmet]
    exact ⟨js, steps, hjs, hsteps, hsorted, fun m hm => Nat.le_trans hn (hle m hm)⟩

/-! ### One reference at a time -/

/-- One round of the search on a queue and what has been found. The interface itself and what has
been found are passed over; what another one requires goes to the end of the queue. -/
def round (ns : Namespace) (i : Interface) :
    List EntityRef × List EntityRef → List EntityRef × List EntityRef
  | ([], found) => ([], found)
  | (r :: queue, found) =>
    if r = ns.reference .interface i.name ∨ r ∈ found then (queue, found)
    else (queue ++ ns.required r, found ++ [r])

/-- The names that are left are those of the others that have not been found. -/
def Left (ns : Namespace) (i : Interface) (found : List EntityRef) (fresh : List String) : Prop :=
  ∀ j ∈ ns.interfaces.entries, j.name ∈ fresh
    ↔ ¬(ns.reference .interface j.name = ns.reference .interface i.name
      ∨ ns.reference .interface j.name ∈ found)

/-- At first the names of all others are left. -/
theorem left_names_erase : ns.Left i [] (ns.interfaces.names.erase i.name) := by
  intro j hj
  have hmem : j.name ∈ ns.interfaces.names.erase i.name ↔ j.name ≠ i.name
      ∧ j.name ∈ ns.interfaces.names := ns.interfaces.nodup.mem_erase_iff
  have hname : j.name ∈ ns.interfaces.names := ns.interfaces.name_mem_names hj
  rw [hmem]
  simp [reference, hname]

/-- What has been found is no longer left. -/
theorem Left.erase {found : List EntityRef} {fresh : List String} (hnodup : fresh.Nodup)
    (h : ns.Left i found fresh) (j : Interface) :
    ns.Left i (found ++ [ns.reference .interface j.name]) (fresh.erase j.name) := by
  intro k hk
  have hname : ns.reference .interface k.name = ns.reference .interface j.name
      ↔ k.name = j.name := by
    simp [reference]
  rw [hnodup.mem_erase_iff, h k hk, List.mem_append, List.mem_singleton, hname]
  tauto

/-- After finitely many rounds the queue is empty, and what has been found on the way is what the
search by names meets. -/
theorem exists_rounds_spread {fresh : List String} {queue : List EntityRef} :
    ∀ {found : List EntityRef}, fresh.Nodup → ns.Left i found fresh →
      (∀ r ∈ queue, ∃ j ∈ ns.interfaces.entries, r = ns.reference .interface j.name) →
      ∃ rounds, (ns.round i)^[rounds] (queue, found) = ([], found ++ ns.spread fresh queue) := by
  induction fresh, queue using spread.induct ns with
  | case1 fresh =>
    intro found _ _ _
    refine ⟨0, ?_⟩
    rw [spread, List.append_nil]
    rfl
  | case2 fresh r queue hfresh ih =>
    intro found hnodup hleft hqueue
    obtain ⟨⟨j, hj, rfl⟩, hrest⟩ := List.forall_mem_cons.mp hqueue
    have hrequired : ∀ s ∈ ns.required (ns.reference .interface j.name),
        ∃ k ∈ ns.interfaces.entries, s = ns.reference .interface k.name := by
      intro s hs
      obtain ⟨k, hjk, rfl⟩ := (mem_required_reference_iff hj).mp hs
      exact ⟨k, hjk.mem, rfl⟩
    obtain ⟨rounds, hrounds⟩ := ih (hnodup.erase _) (hleft.erase hnodup j)
      (List.forall_mem_append.mpr ⟨hrest, hrequired⟩)
    refine ⟨rounds + 1, ?_⟩
    rw [Function.iterate_succ_apply, round, if_neg ((hleft j hj).mp hfresh), hrounds, spread,
      dif_pos hfresh, List.append_assoc, List.singleton_append]
  | case3 fresh r queue hmet ih =>
    intro found hnodup hleft hqueue
    obtain ⟨⟨j, hj, rfl⟩, hrest⟩ := List.forall_mem_cons.mp hqueue
    obtain ⟨rounds, hrounds⟩ := ih hnodup hleft hrest
    refine ⟨rounds + 1, ?_⟩
    -- Its name is used up, so it is the interface itself or was found.
    have hpassed := not_not.mp fun hnot => hmet ((hleft j hj).mpr hnot)
    rw [Function.iterate_succ_apply, round, if_pos hpassed, hrounds, spread, dif_neg hmet]

/-- The rounds come to an end, and what they have found then is the closure. -/
theorem exists_rounds :
    ∃ rounds, (ns.round i)^[rounds] (ns.knownInterfaces i.prerequisites, [])
      = ([], ns.closure i) := by
  refine exists_rounds_spread (ns.interfaces.nodup.erase i.name) left_names_erase ?_
  intro r hr
  obtain ⟨j, hij, rfl⟩ := mem_knownInterfaces_prerequisites_iff.mp hr
  exact ⟨j, hij.mem, rfl⟩

/-! ### The closure of an interface, nearest first -/

/-- The interfaces are those that stand behind `i`, each once and without `i` itself, and they
come in the order of their distance. -/
structure NearestFirst (ns : Namespace) (i : Interface) (js : List Interface) : Prop where
  nodup : js.Nodup
  mem_iff : ∀ j, j ∈ js ↔ j ≠ i ∧ TransGen ns.Requires i j
  ordered : ∃ steps, List.Forall₂ (ns.Distance i) js steps ∧ steps.Pairwise (· ≤ ·)

/-- The search for what stands behind an interface comes to an end, whatever the prerequisites of
the namespace are, and finds the interfaces behind it nearest first. -/
theorem nearestFirst_closure (hi : i ∈ ns.interfaces.entries) :
    (∃ rounds, (ns.round i)^[rounds] (ns.knownInterfaces i.prerequisites, [])
        = ([], ns.closure i))
      ∧ ∃ js, ns.closure i = js.map (fun j => ns.reference .interface j.name)
        ∧ ns.NearestFirst i js := by
  refine ⟨exists_rounds, ?_⟩
  obtain ⟨js, steps, hjs, hsteps, hsorted, _⟩ :=
    exists_distances_spread hi (List.append_nil _) (level_one hi)
  have hclosure : ns.closure i = js.map (fun j => ns.reference .interface j.name) := hjs
  have hmem : ∀ j ∈ js, j ∈ ns.interfaces.entries := by
    have hboth := hsteps.imp fun j n hj => And.intro (hj.reached.mem hi) hj
    exact (List.forall₂_and_left ..).mp hboth |>.1
  refine ⟨js, hclosure, ?_, fun j => ?_, steps, hsteps, hsorted⟩
  · have hnodup : ((ns.closure i).map (·.name)).Nodup := nodup_names_closure
    rw [hclosure, List.map_map] at hnodup
    exact hnodup.of_map _
  · -- One of the interfaces is in the list as soon as its reference is in the closure.
    have hreference : j ∈ js ↔ j ∈ ns.interfaces.entries
        ∧ ns.reference .interface j.name ∈ ns.closure i := by
      rw [hclosure, List.mem_map]
      constructor
      · intro hj
        exact ⟨hmem j hj, j, hj, rfl⟩
      · rintro ⟨hj, k, hk, hkj⟩
        have hname : k.name = j.name := congrArg EntityRef.name hkj
        exact ns.interfaces.eq_of_name_eq (hmem k hk) hj hname ▸ hk
    rw [hreference, mem_closure_iff hi]
    constructor
    · rintro ⟨hj, k, hik, hne, hkj⟩
      have hname : j.name = k.name := congrArg EntityRef.name hkj
      obtain rfl := ns.interfaces.eq_of_name_eq hj (mem_of_transGen_requires hik) hname
      exact ⟨hne, hik⟩
    · rintro ⟨hne, hij⟩
      exact ⟨mem_of_transGen_requires hij, j, hij, hne, rfl⟩

/-- An interface that requires others of its namespace. -/
def interfaceAbove (name : String) (prerequisites : List String) : Interface :=
  ⟨name, prerequisites.map fun other => ⟨"Gtk", other, .interface⟩, [], [], [], [], [], false⟩

/-- An interface with two ways to the last of the others, which requires it in turn. -/
def ofRing : Namespace :=
  ((((ofName "Gtk").addEntity
    (.interface (interfaceAbove "Selectable" ["Focusable", "Shown"]))).addEntity
    (.interface (interfaceAbove "Focusable" ["Active"]))).addEntity
    (.interface (interfaceAbove "Active" ["Selectable"]))).addEntity
    (.interface (interfaceAbove "Shown" ["Focusable", "Active"]))

/-- Both that are required come before the one behind them. -/
theorem nearestFirst_closure_ofRing :
    interfaceAbove "Selectable" ["Focusable", "Shown"] ∈ ofRing.interfaces.entries
      ∧ ∃ js, js.map (fun j => ofRing.reference .interface j.name)
          = [⟨"Gtk", "Focusable", .interface⟩, ⟨"Gtk", "Shown", .interface⟩,
            ⟨"Gtk", "Active", .interface⟩]
        ∧ ofRing.NearestFirst (interfaceAbove "Selectable" ["Focusable", "Shown"]) js := by
  have hi : interfaceAbove "Selectable" ["Focusable", "Shown"] ∈ ofRing.interfaces.entries :=
    List.mem_cons_self
  obtain ⟨_, js, hjs, hnearest⟩ := nearestFirst_closure hi
  refine ⟨hi, js, ?_, hnearest⟩
  rw [← hjs]
  cbv

end Namespace

end Introspection
