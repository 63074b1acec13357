import Introspection.Proofs.Conversion.Line
import Introspection.Proofs.Wrapper.Call
import Introspection.Proofs.Wrapper.Synthesis

/-!
# `Introspection.Proofs.Wrapper.Phase`: the phases of a body

The body of a host function converts what goes in, defers what has to be given back, calls the
native function, converts what comes out and returns the results, in this order. The call is one
line, and passes the native function what that takes (`Function.callText`). What is deferred
is one statement (`HostFunction.Defers`): a call when one line is enough, else a function literal
with the lines of all pieces, moved to the right. That no line is lost or broken on the way depends
on the names of the parameters, each of which must be a text of one line, as identifiers are
(`phased_of_synthesize`).
-/

set_option autoImplicit false

namespace Introspection

open Introspection.Code
open Introspection.Text (OneLine)

/-! ### Names of arguments -/

/-- The identifier of a parameter has the characters of its name, and underscores. -/
theorem Naming.forall_mem_hostIdent {p : Char → Prop} (hp : p '_') {name : String}
    (h : ∀ c ∈ name.toList, p c) : ∀ c ∈ (Naming.hostIdent name).toList, p c := by
  have hunderscored : ∀ c ∈ (Text.underscored name).toList, p c := by
    intro c hc
    rw [Text.underscored, String.toList_ofList] at hc
    obtain ⟨d, hd, rfl⟩ := List.mem_map.mp hc
    split
    · exact hp
    · exact h d hd
  have hlonger : ∀ s : String, (∀ c ∈ s.toList, p c) → ∀ c ∈ (s ++ "_").toList, p c := by
    intro s hs
    rw [String.toList_append, List.forall_mem_append]
    exact ⟨hs, List.forall_mem_singleton.mpr hp⟩
  have hsafe : ∀ c ∈ (Naming.safeIdent name).toList, p c := by
    unfold Naming.safeIdent
    dsimp only
    split
    · exact hlonger _ hunderscored
    · exact hunderscored
  unfold Naming.hostIdent
  dsimp only
  split
  · exact hlonger _ hsafe
  · exact hsafe

theorem Naming.oneLine_hostIdent {name : String} (h : OneLine name) :
    OneLine (Naming.hostIdent name) :=
  forall_mem_hostIdent (by decide) h

/-- The arguments have the names of the parameters, written as identifiers, and names that the
wrapper declares for itself. -/
theorem Wrapper.oneLine_name_of_mem_args {scope : Scope} {f : Function}
    {owner via : Option EntityRef} {w : Wrapper} (h : ofFunction scope f owner via = .ok w)
    (hnames : ∀ p ∈ f.params, OneLine p.name) : ∀ a ∈ w.args, OneLine a.name := by
  obtain ⟨cs, _, hw⟩ := bind_eq_ok_iff.mp (within_eq_ok_iff.mp h)
  cases hw
  refine forall_mem_couple (p := fun a => OneLine a.name) ?_ ?_ cs ?_
  · rintro ⟨name, type, role⟩ length ha _
    cases role <;> exact ha
  · rintro ⟨name, type, role⟩ array ha _
    cases role <;> exact ha
  · simp only [rawArgs, List.forall_mem_append, List.forall_mem_map, List.forall_mem_singleton]
    refine ⟨⟨⟨fun a ha => ?_, fun p hp => Naming.oneLine_hostIdent (hnames p hp)⟩, fun a ha => ?_⟩,
      (by decide : OneLine "ret")⟩
    · unfold receivers at ha
      split at ha
      · obtain ⟨o, _, rfl⟩ := Option.map_eq_some_iff.mp (Option.mem_toList.mp ha)
        exact (by decide : OneLine "this")
      · cases ha
    · split at ha
      · rw [List.mem_singleton.mp ha]
        exact (by decide : OneLine "err")
      · cases ha

/-! ### The deferred statement -/

namespace HostFunction

/-- The code is printed as these lines, at any depth, and none of them breaks in two. -/
structure PrintedAs (code : List Stmt) (lines : List String) : Prop where
  oneLine : ∀ l ∈ lines, OneLine l
  text : ∀ depth, Stmt.listText depth code = Text.joined "" (lines.map (lineAt depth))

/-- The text defers the pieces of code, in their order: no statement for no code, a deferred call
for code of one line, and else a function literal with all lines of all pieces. -/
inductive Defers : List (List Stmt) → String → Prop
  | nothing : Defers [] ""
  | call {f : Expr} {args : List Expr} : OneLine (Expr.call f args).text →
    Defers [[.run (.call f args)]] (lineAt 1 ("defer " ++ (Expr.call f args).text))
  | literal {blocks : List (List Stmt)} {lines : List (List String)} :
    List.Forall₂ PrintedAs blocks lines → 2 ≤ lines.flatten.length →
    Defers blocks
      (lineAt 1 "defer func() \x7b" ++ Text.joined "" (lines.flatten.map (lineAt 2))
        ++ lineAt 1 "\x7d()")

theorem printedAs_linesOf {code : List Stmt} (h : Stmt.OneLined code) :
    PrintedAs code (Stmt.linesOf code) :=
  ⟨h, fun depth => Stmt.listText_eq depth code⟩

/-- Moving the lines of printed code gives the lines of its statements at the new depth. -/
theorem reindent_map_listText {blocks : List (List Stmt)} (h : ∀ b ∈ blocks, Stmt.OneLined b)
    (depth : Nat) :
    reindent depth (blocks.map (Stmt.listText 0))
      = Text.joined "" ((blocks.map Stmt.linesOf).flatten.map (lineAt depth)) := by
  have hlines : (blocks.map (Stmt.listText 0)).flatMap Text.lines
      = (blocks.map Stmt.linesOf).flatten := by
    rw [List.flatMap_map, List.flatMap_def]
    exact congrArg _ (List.map_congr_left fun b hb => Stmt.lines_listText (h b hb))
  rw [reindent, hlines]

/-- What is deferred are the pieces of code, line by line. -/
theorem defers_deferred {blocks : List (List Stmt)} (hne : ∀ b ∈ blocks, b ≠ [])
    (h : ∀ b ∈ blocks, Cleanup b) : Defers blocks (deferred blocks) := by
  have hlined : ∀ b ∈ blocks, Stmt.OneLined b := fun b hb => (h b hb).oneLined
  have hpos : ∀ b ∈ blocks, 0 < (Stmt.linesOf b).length :=
    fun b hb => List.length_pos_of_ne_nil (Stmt.linesOf_ne_nil (hne b hb))
  have hliteral : 2 ≤ (blocks.map Stmt.linesOf).flatten.length →
      Defers blocks (lineAt 1 "defer func() \x7b" ++ reindent 2 (blocks.map (Stmt.listText 0))
        ++ lineAt 1 "\x7d()") := by
    intro hlength
    rw [reindent_map_listText hlined]
    refine .literal (List.forall₂_map_right_iff.mpr ?_) hlength
    exact List.forall₂_same.mpr fun b hb => printedAs_linesOf (hlined b hb)
  match blocks with
  | [] => exact .nothing
  | [b] =>
    have hb := h b List.mem_cons_self
    unfold deferred
    rw [List.map_singleton]
    dsimp only
    rw [Stmt.lines_listText hb.oneLined]
    split
    · rename_i hone
      obtain ⟨f, args, rfl⟩ := hb.eq_call hone
      have htext : tabs 1 ++ "defer " ++ Stmt.listText 0 [.run (.call f args)]
          = lineAt 1 ("defer " ++ (Expr.call f args).text) := by
        rw [Stmt.listText, Stmt.listText, Stmt.text, lineAt_zero, lineAt]
        simp only [String.append_assoc, String.append_empty]
      rw [htext]
      exact .call (Stmt.oneLined_run_iff.mp hb.oneLined)
    · rename_i hmany
      -- There is a first line, and it is not the only one.
      refine hliteral ?_
      have hsome := hpos b List.mem_cons_self
      rw [List.map_singleton, List.flatten_singleton]
      omega
  | b :: c :: rest =>
    -- Each of two pieces has a line.
    refine hliteral ?_
    have hb := hpos b List.mem_cons_self
    have hc := hpos c (List.mem_cons_of_mem b List.mem_cons_self)
    rw [List.map_cons, List.map_cons, List.flatten_cons, List.flatten_cons, List.length_append,
      List.length_append]
    omega

/-- The body as phases, in which the code of each argument stands as a piece. -/
theorem bodyText_eq (f : HostFunction) :
    f.bodyText = Text.joined "" (f.conversions.map fun c => Stmt.listText 1 c.before)
      ++ deferred ((f.conversions.map (·.release)).filter (!·.isEmpty)).reverse
      ++ f.call.text 1
      ++ Text.joined "" (f.conversions.reverse.map fun c => Stmt.listText 1 c.after)
      ++ if f.results.isEmpty then "" else lineAt 1 ("return " ++ Text.joined ", " f.results) := by
  unfold bodyText releases
  rw [Stmt.listText_flatMap, Stmt.listText_flatMap, List.map_reverse, List.filter_reverse]

/-! ### The phases -/

/-- The phases of the body of the host function of `f`, which is declared on `owner`. -/
structure Phased (host : HostFunction) (w : Wrapper) (f : Function) (owner : Option EntityRef) :
    Prop where
  /-- There is a conversion for each argument, in the order of the arguments. -/
  conversions : w.args.mapM (·.convert w.scope) = .ok host.conversions
  /-- The native function is called with all that it is passed, and a result that means something is
  kept. -/
  call : host.call = (let call := Expr.native f.symbol ((f.passed owner).map Passed.expr)
    if f.keepsResult then .assign (.inner "real_ret") call else .run call)
  /-- What is deferred is what the conversions give back, the last one first; those that give
  nothing back do not count. -/
  body : ∃ deferral,
    Defers ((host.conversions.map (·.release)).filter (!·.isEmpty)).reverse deferral
      ∧ host.bodyText = Text.joined "" (host.conversions.map fun c => Stmt.listText 1 c.before)
        ++ deferral
        ++ lineAt 1 (f.callText owner)
        ++ Text.joined "" (host.conversions.reverse.map fun c => Stmt.listText 1 c.after)
        ++ if host.signature.results.isEmpty then ""
          else lineAt 1 ("return " ++ Text.joined ", " (host.signature.results.map (·.name)))

end HostFunction

/-- The names that are returned are those of the results in the signature. -/
theorem results_of_hostFunction {w : Wrapper} {host : HostFunction}
    (h : w.hostFunction = .ok host) : host.results = host.signature.results.map (·.name) := by
  obtain ⟨_, _, h⟩ := bind_eq_ok_iff.mp (within_eq_ok_iff.mp h)
  obtain ⟨s, hs, h⟩ := bind_eq_ok_iff.mp h
  obtain ⟨_, _, hs⟩ := bind_eq_ok_iff.mp hs
  obtain ⟨results, hresults, hs⟩ := bind_eq_ok_iff.mp hs
  cases hs
  cases h
  exact (Argument.names_of_mapM (Argument.name_of_hostResult _) hresults).symm

/-- The body of every host function goes through its phases. -/
theorem phased_of_synthesize {scope : Scope} {f : Function} {owner via : Option EntityRef}
    {host : HostFunction} (h : synthesize scope f owner via = .ok host)
    (hnames : ∀ p ∈ f.params, OneLine p.name) :
    ∃ w, Wrapper.ofFunction scope f owner via = .ok w ∧ host.Phased w f owner := by
  obtain ⟨w, hw, hhost⟩ := bind_eq_ok_iff.mp h
  have hresults := results_of_hostFunction hhost
  obtain ⟨cs, hcs, hhost⟩ := bind_eq_ok_iff.mp (within_eq_ok_iff.mp hhost)
  obtain ⟨s, _, hhost⟩ := bind_eq_ok_iff.mp hhost
  cases hhost
  have hdefers : HostFunction.Defers ((cs.map (·.release)).filter (!·.isEmpty)).reverse
      (HostFunction.deferred ((cs.map (·.release)).filter (!·.isEmpty)).reverse) := by
    refine HostFunction.defers_deferred (fun b hb => ?_) fun b hb => ?_
    · have hkept := (List.mem_filter.mp (List.mem_reverse.mp hb)).2
      simpa using hkept
    · obtain ⟨c, hc, rfl⟩ := List.mem_map.mp (List.mem_filter.mp (List.mem_reverse.mp hb)).1
      obtain ⟨a, ha, hac⟩ := (mem_of_mapM_eq_ok hcs).mp hc
      have hname := Wrapper.oneLine_name_of_mem_args hw hnames a ha
      exact Argument.cleanup_convert w.scope hname c hac
  have hcall := f.text_call owner 1
  rw [← Wrapper.call_eq hw] at hcall
  refine ⟨w, hw, hcs, Wrapper.call_eq hw, _, hdefers, ?_⟩
  rw [HostFunction.bodyText_eq, hresults, List.isEmpty_map, ← hcall]

/-- A function that takes names and a title. -/
def Function.ofTitledNames : Function :=
  ((ofSymbol "set_names" "gtk_set_names").withParam
    (.ofType "names" (.ofArray ⟨.c, none, none, true⟩ .utf8))).withParam (.ofType "title" .utf8)

/-- The title is given back before the names, and each name before the array. -/
theorem phased_of_synthesize_ofTitledNames :
    ∃ host w, synthesize (.ofHome "Gtk") Function.ofTitledNames none none = .ok host
      ∧ Wrapper.ofFunction (.ofHome "Gtk") Function.ofTitledNames none none = .ok w
      ∧ host.Phased w Function.ofTitledNames none
      ∧ ((host.conversions.map (·.release)).filter (!·.isEmpty)).reverse
        = [[.run (.free (.inner "real_title"))],
          [.block (.range "_" "real_names_e" (.inner "real_names_view"))
              [.run (.free (.inner "real_names_e"))],
            .run (.gFree (.inner "real_names"))]] := by
  have hok : ∃ host, synthesize (.ofHome "Gtk") Function.ofTitledNames none none = .ok host
      ∧ ((host.conversions.map (·.release)).filter (!·.isEmpty)).reverse
        = [[.run (.free (.inner "real_title"))],
          [.block (.range "_" "real_names_e" (.inner "real_names_view"))
              [.run (.free (.inner "real_names_e"))],
            .run (.gFree (.inner "real_names"))]] := ⟨_, rfl, rfl⟩
  obtain ⟨host, hhost, hreleases⟩ := hok
  obtain ⟨w, hw, hphased⟩ := phased_of_synthesize hhost (by decide)
  exact ⟨host, w, hhost, hw, hphased, hreleases⟩

end Introspection
