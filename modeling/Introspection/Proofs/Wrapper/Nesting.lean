import Introspection.Proofs.Conversion.Nesting
import Introspection.Proofs.Marshalling.Render
import Introspection.Proofs.Wrapper.Phase

/-!
# `Introspection.Proofs.Wrapper.Nesting`: blocks of host functions

What is written for an argument opens and closes blocks operation by operation, see
`Buffer.Balances`, and the text of a host function is read line by line, see `depthBehind`. When the
names that the function brings with it are flat, as identifiers are, no block stays open in the code
for an argument, nor in the function as a whole, and nothing closes a block that is not open
(`balanced_of_ofFunction`).

The five phases of the body stand in the block of the function. What is deferred is either one line
or a function literal, which is a block around the lines of all pieces.
-/

set_option autoImplicit false

namespace Introspection

open Introspection.Code
open Introspection.Code.Stmt
open Introspection.Text (joined)

variable {scope : Scope} {f : Function} {owner via : Option EntityRef} {w : Wrapper}
  {host : HostFunction}

/-- All names that a function brings with it are flat: its own, that of its symbol, those of its
parameters and those of registered types. -/
structure Function.NamesFlat (f : Function) : Prop where
  name : Text.Flat f.name
  symbol : Text.Flat f.symbol
  params : ∀ p ∈ f.params, Text.Flat p.name
  types : ∀ t, f.Uses t → t.NamesFlat

/-! ### Arguments of a prepared function -/

namespace Argument

variable {a : Argument}

theorem NamesFlat.withLength {length : String} (h : a.NamesFlat) (hlength : Text.Flat length) :
    (a.withLength length).NamesFlat := by
  obtain ⟨name, type, role⟩ := a
  have hstored : ∀ l ∈ some length, Text.Flat l := by
    rintro _ ⟨⟩
    exact hlength
  cases role with
  | receiver via => exact h
  | param p => exact ⟨h.name, h.type, hstored, h.role.2⟩
  | result r => exact ⟨h.name, h.type, hstored⟩

theorem NamesFlat.asLengthOf {array : Expr} (h : a.NamesFlat) (harray : array.Flat) :
    (a.asLengthOf array).NamesFlat := by
  obtain ⟨name, type, role⟩ := a
  cases role with
  | receiver via => exact h
  | result r => exact h
  | param p =>
    refine ⟨h.name, h.type, h.role.1, fun array' hwhy => ?_⟩
    cases hwhy
    exact harray

theorem namesFlat_ofParameter {p : Parameter} (hname : Text.Flat p.name)
    (htype : p.type.NamesFlat) : (ofParameter p).NamesFlat := by
  refine ⟨Naming.forall_mem_hostIdent (by decide) hname, htype, nofun, fun array hwhy => ?_⟩
  dsimp only at hwhy
  split at hwhy <;> cases hwhy

theorem namesFlat_errorSlot : errorSlot.NamesFlat := by
  refine ⟨(by decide : Text.Flat "err"), fun s hs r hr => ?_, nofun, nofun⟩
  cases hs with
  | self => cases hr
  | element he _ => cases he

end Argument

namespace Wrapper

variable (hf : f.NamesFlat) (howner : ∀ r ∈ owner, r.Flat) (hvia : ∀ r ∈ via, r.Flat)

include hf howner hvia

theorem namesFlat_rawArgs : ∀ a ∈ rawArgs f owner via, a.NamesFlat := by
  have hreceivers : ∀ a ∈ receivers f owner via, a.NamesFlat := by
    intro a ha
    unfold receivers at ha
    split at ha
    · obtain ⟨o, ho, rfl⟩ := Option.map_eq_some_iff.mp (Option.mem_toList.mp ha)
      exact ⟨(by decide : Text.Flat "this"), TypeDesc.namesFlat_named (howner o ho), hvia⟩
    · cases ha
  have hparams : ∀ a ∈ f.params.map Argument.ofParameter, a.NamesFlat :=
    List.forall_mem_map.mpr fun p hp =>
      Argument.namesFlat_ofParameter (hf.params p hp) (hf.types p.type (Or.inl ⟨p, hp, rfl⟩))
  have hslot : ∀ a ∈ if f.flags.throws then [Argument.errorSlot] else [], a.NamesFlat := by
    split
    · exact List.forall_mem_singleton.mpr Argument.namesFlat_errorSlot
    · exact nofun
  have hresult : (Argument.ofResult f).NamesFlat :=
    ⟨(by decide : Text.Flat "ret"), hf.types f.returnType (Or.inr rfl), nofun⟩
  unfold rawArgs
  simp only [List.forall_mem_append, List.forall_mem_singleton]
  exact ⟨⟨⟨hreceivers, hparams⟩, hslot⟩, hresult⟩

/-- A coupled argument names the local of its length, and the length the array that it is of. -/
theorem namesFlat_args (h : ofFunction scope f owner via = .ok w) :
    ∀ a ∈ w.args, a.NamesFlat := by
  obtain ⟨cs, _, hw⟩ := bind_eq_ok_iff.mp (within_eq_ok_iff.mp h)
  cases hw
  -- What a coupling stores are names of other arguments, flat as these are.
  exact forall_mem_couple (fun _ _ ha hlength => ha.withLength hlength.nativeLocal)
    (fun _ _ ha harray => ha.asLengthOf (Argument.flat_hostValue harray.name)) cs
    (namesFlat_rawArgs hf howner hvia)

end Wrapper

/-! ### The head -/

/-- The spelling of a declared name is flat. -/
theorem Code.Variable.flat_text {x : Variable} (hname : Text.Flat x.name) (htype : x.type.Flat) :
    Text.Flat x.text := by
  have htype : Text.Flat x.type.text := htype
  simp +decide [text, hname, htype]

theorem Code.Signature.flat_text {s : Signature} (hname : Text.Flat s.name)
    (hparams : ∀ x ∈ s.params, Text.Flat x.text)
    (hresults : ∀ x ∈ s.results, Text.Flat x.text) : Text.Flat s.text := by
  have hentries : ∀ {xs : List Variable}, (∀ x ∈ xs, Text.Flat x.text) →
      Text.Flat (joined ", " (xs.map Variable.text)) :=
    fun h => Text.flat_joined (by decide) (List.forall_mem_map.mpr h)
  unfold text
  split <;> simp +decide [hname, hentries hparams, hentries hresults]

namespace Argument

variable {a : Argument}

theorem flat_receiverDecl (h : a.NamesFlat) : ∀ x ∈ a.receiverDecl, Text.Flat x.text := by
  intro x hx
  unfold receiverDecl at hx
  split at hx
  · obtain ⟨r, hr, rfl⟩ := Option.map_eq_some_iff.mp hx
    have hname : Text.Flat r.name := (h.type _ (.self _) r hr).name
    refine Variable.flat_text h.name ?_
    dsimp only
    split <;> simp [hname, Text.flat_lowerFirst]
  · cases hx

theorem flat_hostParam (h : a.NamesFlat) :
    Yields (fun entry => ∀ x ∈ entry, Text.Flat x.text) (a.hostParam scope) := by
  unfold hostParam
  split
  next p _ =>
    split
    · exact yields_ok_iff.mpr nofun
    · split
      · refine yields_bind fun g hg => yields_pure_iff.mpr ?_
        rintro _ ⟨⟩
        exact Variable.flat_text h.name (TypeDesc.flat_resolveHost h.type true g hg)
      · refine yields_bind fun g hg => yields_pure_iff.mpr ?_
        rintro _ ⟨⟩
        have hg : g.Flat := TypeDesc.flat_resolveHost h.type false g hg
        exact Variable.flat_text h.name ((GoType.flat_pointer g).mpr hg)
  next => exact yields_ok_iff.mpr nofun

theorem flat_hostResult (h : a.NamesFlat) :
    Yields (fun entry => ∀ x ∈ entry, Text.Flat x.name ∧ Text.Flat x.text)
      (a.hostResult scope) := by
  unfold hostResult
  split
  · refine yields_bind fun g hg => yields_pure_iff.mpr ?_
    rintro _ ⟨⟩
    exact ⟨h.name, Variable.flat_text h.name (TypeDesc.flat_resolveHost h.type false g hg)⟩
  · exact yields_ok_iff.mpr nofun

end Argument

namespace Wrapper

theorem flat_hostName (hname : Text.Flat w.function.name) (howner : ∀ r ∈ w.owner, r.Flat) :
    Text.Flat w.hostName := by
  have hpascal := Text.flat_pascalCase hname
  unfold hostName
  dsimp only
  split
  next o ho =>
    split
    · exact hpascal
    · exact Text.flat_append_iff.mpr ⟨(howner o ho).name, hpascal⟩
  next => exact hpascal

theorem flat_bareSignature (hname : Text.Flat w.hostName) (h : ∀ a ∈ w.args, a.NamesFlat) :
    Yields (fun s => Text.Flat s.text ∧ ∀ x ∈ s.results, Text.Flat x.name) w.bareSignature := by
  unfold bareSignature
  refine yields_bind fun params hparams => yields_bind fun results hresults => ?_
  have hparams := forall_mem_entries hparams fun a ha => Argument.flat_hostParam (h a ha)
  have hresults := forall_mem_entries hresults fun a ha =>
    Argument.flat_hostResult (h a (List.mem_reverse.mp ha))
  exact yields_pure_iff.mpr ⟨Signature.flat_text hname hparams fun x hx => (hresults x hx).2,
    fun x hx => (hresults x hx).1⟩

theorem flat_call (hsymbol : Text.Flat w.function.symbol) (h : ∀ a ∈ w.args, a.NamesFlat) :
    w.call.Flat := by
  have hargs : ∀ e ∈ w.args.filterMap Argument.callArg, e.Flat := by
    intro e he
    obtain ⟨a, ha, hcall⟩ := List.mem_filterMap.mp he
    have hlocal := (h a ha).nativeLocal
    unfold Argument.callArg at hcall
    split at hcall
    · cases hcall
      exact hlocal
    · split at hcall <;> cases hcall
      · exact hlocal
      · exact (Expr.flat_address _).mpr hlocal
    · cases hcall
  unfold call
  split
  next result hresult =>
    have hresult := (h result (List.mem_of_find?_eq_some hresult)).realExpr
    simpa [hsymbol, hresult] using hargs
  next => simpa [hsymbol] using hargs

end Wrapper

/-! ### The body -/

namespace HostFunction

/-- Lines of printed pieces nest when those of each piece do. -/
theorem nested_of_printedAs (margin depth : Nat) {blocks : List (List Stmt)}
    {lines : List (List String)} (hlines : List.Forall₂ PrintedAs blocks lines)
    (h : ∀ b ∈ blocks, AllFlat b) :
    Nested margin depth (joined "" (lines.flatten.map (lineAt (margin + depth)))) := by
  induction hlines with
  | nil => exact Nested.empty
  | cons hb _ ih =>
    obtain ⟨hblock, hrest⟩ := List.forall_mem_cons.mp h
    rw [List.flatten_cons, List.map_append, Text.joined_empty_append, ← hb.text]
    exact (nested_listText margin depth _ hblock).append (ih hrest)

/-- Deferred code leads back to the depth of the body: it is a line, or a block of its own. -/
theorem nested_of_defers {blocks : List (List Stmt)} {deferral : String}
    (hdefers : Defers blocks deferral) (h : ∀ b ∈ blocks, AllFlat b) : Nested 0 1 deferral := by
  cases hdefers with
  | nothing => exact Nested.empty
  | call _ =>
    have hcall := (List.forall_mem_singleton.mp h).1
    exact Nested.lineAt (Text.flat_append_iff.mpr ⟨by decide, hcall⟩)
  | literal hlines _ =>
    have hbody := nested_of_printedAs 0 2 hlines h
    have hhead : "defer func() \x7b" = "defer func()" ++ " \x7b" := rfl
    have htail : "\x7d()" = "\x7d" ++ "()" := rfl
    rw [hhead, htail]
    exact Nested.block (by decide) hbody (by decide)

theorem nested_bodyText (hphased : host.Phased w f owner) (hargs : ∀ a ∈ w.args, a.NamesFlat)
    (hcall : Nested 0 1 (lineAt 1 (f.callText owner)))
    (hresults : ∀ x ∈ host.signature.results, Text.Flat x.name) :
    Nested 0 1 host.bodyText := by
  -- Each phase leads back to the depth of the body, so their order does not matter.
  have hconversions : ∀ c ∈ host.conversions, c.Flat := by
    intro c hc
    obtain ⟨a, ha, hac⟩ := (mem_of_mapM_eq_ok hphased.conversions).mp hc
    exact Argument.flat_convert (hargs a ha) c hac
  obtain ⟨deferral, hdefers, hbody⟩ := hphased.body
  have hbefore : Nested 0 1 (joined "" (host.conversions.map fun c => listText 1 c.before)) :=
    Nested.joined (List.forall_mem_map.mpr fun c hc =>
      nested_listText 0 1 c.before (hconversions c hc).before)
  have hdeferral : Nested 0 1 deferral := by
    refine nested_of_defers hdefers fun b hb => ?_
    obtain ⟨c, hc, rfl⟩ := List.mem_map.mp (List.mem_filter.mp (List.mem_reverse.mp hb)).1
    exact (hconversions c hc).release
  have hafter : Nested 0 1
      (joined "" (host.conversions.reverse.map fun c => listText 1 c.after)) :=
    Nested.joined (List.forall_mem_map.mpr fun c hc =>
      nested_listText 0 1 c.after (hconversions c (List.mem_reverse.mp hc)).after)
  have hreturn : Nested 0 1 (if host.signature.results.isEmpty then ""
      else lineAt 1 ("return " ++ joined ", " (host.signature.results.map (·.name)))) := by
    split
    · exact Nested.empty
    · have hnames : Text.Flat (joined ", " (host.signature.results.map (·.name))) :=
        Text.flat_joined (by decide) (List.forall_mem_map.mpr hresults)
      exact Nested.lineAt (Text.flat_append_iff.mpr ⟨by decide, hnames⟩)
  rw [hbody]
  exact (((hbefore.append hdeferral).append hcall).append hafter).append hreturn

/-- The declaration is a block around the body. -/
theorem nested_text (hreceiver : ∀ x ∈ host.receiver, Text.Flat x.text)
    (hsignature : Text.Flat host.signature.text) (hbody : Nested 0 1 host.bodyText) :
    Nested 0 0 host.text := by
  have hdeclares : ∃ head, Text.Flat head
      ∧ host.text = lineAt 0 (head ++ " \x7b") ++ host.bodyText ++ lineAt 0 "\x7d" := by
    unfold text
    simp only [lineAt_zero]
    cases hr : host.receiver with
    | none =>
      refine ⟨"func " ++ "" ++ host.signature.text, ?_, ?_⟩
      · simp +decide [hsignature]
      · simp only [String.append_assoc]
        rfl
    | some x =>
      refine ⟨"func " ++ ("(" ++ x.text ++ ") ") ++ host.signature.text, ?_, ?_⟩
      · simp +decide [hsignature, hreceiver x hr]
      · simp only [String.append_assoc]
        rfl
  obtain ⟨head, hhead, htext⟩ := hdeclares
  have hend : lineAt 0 "\x7d" = lineAt 0 ("\x7d" ++ "") := by rw [String.append_empty]
  rw [htext, hend]
  exact Nested.block hhead hbody (by decide)

end HostFunction

/-! ### Host functions -/

namespace Wrapper

variable (hf : f.NamesFlat) (howner : ∀ r ∈ owner, r.Flat) (hvia : ∀ r ∈ via, r.Flat)

include hf howner hvia

theorem nested_of_hostFunction (h : ofFunction scope f owner via = .ok w)
    (hhost : w.hostFunction = .ok host) : Nested 0 0 host.text := by
  have hargs := namesFlat_args hf howner hvia h
  have hnames : ∀ p ∈ f.params, Text.OneLine p.name := fun p hp => (hf.params p hp).oneLine
  obtain ⟨w', hw', hphased⟩ := phased_of_synthesize (bind_eq_ok_iff.mpr ⟨w, h, hhost⟩) hnames
  obtain rfl : w' = w := Except.ok.inj (hw'.symm.trans h)
  -- The receiver and the signature are made of the arguments of the same wrapper.
  obtain ⟨_, _, hhost⟩ := bind_eq_ok_iff.mp (within_eq_ok_iff.mp hhost)
  obtain ⟨signature, hsignature, hhost⟩ := bind_eq_ok_iff.mp hhost
  cases hhost
  obtain ⟨_, _, hw⟩ := bind_eq_ok_iff.mp (within_eq_ok_iff.mp h)
  cases hw
  have hsignature := flat_bareSignature (flat_hostName hf.name howner) hargs signature hsignature
  refine HostFunction.nested_text (fun x hx => ?_) hsignature.1 ?_
  · obtain ⟨a, ha, hax⟩ := List.exists_of_findSome?_eq_some hx
    exact Argument.flat_receiverDecl (hargs a ha) x hax
  · refine HostFunction.nested_bodyText hphased hargs ?_ hsignature.2
    have hcall := nested_text 0 1 _ (flat_call hf.symbol hargs)
    rw [call_eq h] at hcall
    rwa [← f.text_call owner 1]

/-- When the names that a function brings with it are flat, the blocks nest in the code that is
written for each of its arguments, in all three pieces of it and whatever the types and transfers
are. On the way no operation closes a block that was not opened, so that no buffer stops at depth
zero, and every piece ends at the depth at which it starts. What stands in front of the call and
behind it is indented. The same holds of the literal that defers releases, and the host function as
a whole opens as many blocks as it closes, and its blocks nest too. -/
theorem balanced_of_ofFunction (h : ofFunction scope f owner via = .ok w) :
    (∀ a ∈ w.args, ∀ m, a.marshal scope = .ok m →
      (Buffer.Balances 1 m.before ∧ Buffer.Balances 0 m.release ∧ Buffer.Balances 1 m.after)
        ∧ (Balanced 1 m.beforeText ∧ Balanced 0 m.releaseText ∧ Balanced 1 m.afterText)
        ∧ (∀ l ∈ Text.lines m.beforeText, 1 ≤ indentation l)
        ∧ ∀ l ∈ Text.lines m.afterText, 1 ≤ indentation l)
      ∧ (∀ releases, Buffer.Balances 1 (deferredLiteral releases))
      ∧ ∀ code, w.render = .ok code → Balanced 0 code
        ∧ (Text.lines code).countP opensBlock = (Text.lines code).countP closesBlock := by
  refine ⟨fun a ha m hm => ?_, fun releases => ?_, fun code hcode => ?_⟩
  · -- What is written are the operations of the conversion of the argument.
    rw [Argument.marshal_eq] at hm
    obtain ⟨c, hc, rfl⟩ := map_eq_ok_iff.mp hm
    have hflat := Argument.flat_convert (namesFlat_args hf howner hvia h a ha) c hc
    have hbefore : Balanced 1 (listText 1 c.before) := (nested_listText 1 0 _ hflat.before).balanced
    have hafter : Balanced 1 (listText 1 c.after) := (nested_listText 1 0 _ hflat.after).balanced
    rw [c.beforeText_ops, c.releaseText_ops, c.afterText_ops]
    exact ⟨⟨Buffer.balances_of_closed (closed_opsOf c.before) 1,
        Buffer.balances_of_closed (closed_opsOf c.release) 0,
        Buffer.balances_of_closed (closed_opsOf c.after) 1⟩,
      ⟨hbefore, (nested_listText 0 0 _ hflat.release).balanced, hafter⟩,
      margin_le_indentation hbefore, margin_le_indentation hafter⟩
  · exact Buffer.balances_of_closed (closed_deferredLiteral releases) 1
  · rw [render_eq] at hcode
    obtain ⟨host, hhost, rfl⟩ := map_eq_ok_iff.mp hcode
    have hbalanced := (nested_of_hostFunction hf howner hvia h hhost).balanced
    have hcount := depth_add_countP hbalanced
    rw [Nat.zero_add, Nat.zero_add] at hcount
    exact ⟨hbalanced, hcount⟩

omit hf howner hvia

/-- A method that exchanges the entries of a table, and lists the names that were in it. -/
def exchangeTable : Function :=
  { (Function.ofSymbol "exchange_table" "gtk_button_exchange_table").withParam
      ⟨"table", .hash .utf8 (.named ⟨"Gtk", "Button", .object⟩), .inout, .none, false, false, false,
        false⟩ with
    flags := { FunctionFlags.plain with isMethod := true, throws := true }
    returnType := .list .utf8
    returnTransfer := .full }

/-- The table is filled in a loop, walked in the deferred statement, and walked once more inside a
condition when it comes back. -/
theorem balanced_of_ofFunction_exchangeTable :
    ∃ w code, ofFunction (.ofHome "Gtk") exchangeTable (some ⟨"Gtk", "Button", .object⟩)
        none = .ok w
      ∧ w.render = .ok code
      ∧ (∃ a ∈ w.args, ∃ m, a.marshal (.ofHome "Gtk") = .ok m
        ∧ m.before.length = 5 ∧ m.release.length = 7 ∧ m.after.length = 9
        ∧ Buffer.Balances 1 m.before ∧ Buffer.Balances 0 m.release ∧ Buffer.Balances 1 m.after)
      ∧ Balanced 0 code
      ∧ (Text.lines code).countP opensBlock = (Text.lines code).countP closesBlock := by
  have hok : ∃ w host, ofFunction (.ofHome "Gtk") exchangeTable (some ⟨"Gtk", "Button", .object⟩)
        none = .ok w
      ∧ w.hostFunction = .ok host
      ∧ ∃ a ∈ w.args, ∃ c, a.convert (.ofHome "Gtk") = .ok c
        ∧ c.ops.before.length = 5 ∧ c.ops.release.length = 7 ∧ c.ops.after.length = 9 :=
    ⟨_, _, rfl, rfl, _, List.mem_cons_of_mem _ List.mem_cons_self, _, rfl, rfl, rfl, rfl⟩
  obtain ⟨w, host, hw, hhost, a, ha, c, hc, hbefore, hrelease, hafter⟩ := hok
  have hm : a.marshal (.ofHome "Gtk") = .ok c.ops := by rw [Argument.marshal_eq, hc, map_ok]
  have hcode : w.render = .ok host.text := by rw [render_eq, hhost, map_ok]
  have hnames : exchangeTable.NamesFlat := by
    refine ⟨by decide, by decide, by decide, ?_⟩
    rintro t (⟨p, hp, rfl⟩ | rfl)
    · rw [List.mem_singleton.mp hp]
      decide
    · decide
  have hbalanced := balanced_of_ofFunction hnames (by decide) (by decide) hw
  exact ⟨w, host.text, hw, hcode,
    ⟨a, ha, c.ops, hm, hbefore, hrelease, hafter, (hbalanced.1 a ha c.ops hm).1⟩,
    hbalanced.2.2 host.text hcode⟩

end Wrapper

end Introspection
