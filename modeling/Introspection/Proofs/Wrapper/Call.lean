import Introspection.Proofs.Code.Line
import Introspection.Proofs.Conversion.Declared
import Introspection.Proofs.Generation.Gap
import Introspection.Proofs.Wrapper.Coupling
import Introspection.Wrapper.HostFunction

/-!
# `Introspection.Proofs.Wrapper.Call`: what a native function is passed

A native function takes the instance it is called on, a value for each parameter and the error
slot (`Function.passed`). The host function has the parameters that are left when the skipped ones
and the lengths of arrays are taken out (`Function.visibleParams`). `calls_of_synthesize` says that
every host function calls its native function accordingly: each value that is passed stands in a
local that is declared before the call, and the results that are returned are those of the
signature. It also says what is printed: the receiver (`Function.receiverText`), the line of the
call (`Function.callText`) and the lines of the conversions on both sides of it.

Parameters, call and results are read off one list of arguments, of which couplings change nothing
but what `Argument.outline` leaves out. So each of the three is found for the arguments of a
function whose lengths are skipped.
-/

set_option autoImplicit false

namespace Introspection

open Introspection.Code

/-! ### Values that are passed -/

/-- A value that a native function is passed. -/
structure Passed where
  /-- The local that holds the value. -/
  real : String
  /-- The function gets the address of the local. -/
  byAddress : Bool

/-- The expression in the call. -/
def Passed.expr (p : Passed) : Expr :=
  if p.byAddress then .address (.inner p.real) else .inner p.real

/-- The expression in the call, as it is printed. -/
def Passed.text (p : Passed) : String := if p.byAddress then "&" ++ p.real else p.real

/-- Whether the callee fills a C array that the caller provides. -/
def Parameter.fillsBuffer (p : Parameter) : Bool :=
  p.callerAllocates && p.direction == .output && p.type.array.any (·.storage == .c)

/-- How a value is passed for a parameter. What comes back is written through an address; a C array
is one already. -/
def Parameter.passed (p : Parameter) : Passed :=
  ⟨"real_" ++ Naming.hostIdent p.name, p.direction != .input && !p.fillsBuffer⟩

namespace Function

/-- The values that a function declared on `owner` is passed, in the order in which it takes
them. -/
def passed (f : Function) (owner : Option EntityRef) : List Passed :=
  (if f.isMethod && owner.isSome then [⟨"real_this", false⟩] else [])
    ++ f.params.map Parameter.passed ++ if f.flags.throws then [⟨"real_err", true⟩] else []

/-- The parameters that the host function has: those that are neither skipped nor the length of an
array. -/
def visibleParams (f : Function) : List Parameter := f.withLengthsSkipped.params.filter (!·.skip)

/-- Whether the host function has the result of the native one. -/
def keepsResult (f : Function) : Bool := !f.skipReturn && !f.returnType.isVoid

/-- The line of the native call of a function declared on `owner`. A result that means something is
kept. -/
def callText (f : Function) (owner : Option EntityRef) : String :=
  (if f.keepsResult then "real_ret = " else "")
    ++ "C." ++ f.symbol ++ "(" ++ Text.joined ", " ((f.passed owner).map Passed.text) ++ ")"

end Function

/-- The Go type that methods of a registered type are declared on, below its pointer. -/
def EntityRef.holder (r : EntityRef) : String :=
  if r.kind = .interface then Text.lowerFirst r.name else r.name

namespace Function

/-- The receiver of a function declared on `owner`: the instance of a method, and none else.
Enumerations are passed by value. -/
def receiver? (f : Function) (owner : Option EntityRef) : Option Variable :=
  if f.isMethod then
    owner.map fun o =>
      ⟨"this", if o.kind = .enum then .plain o.name else .pointer (.plain o.holder)⟩
  else none

/-- What is printed in front of the name of a function declared on `owner`. -/
def receiverText (f : Function) (owner : Option EntityRef) : String :=
  match owner with
  | some o =>
    if f.isMethod then "(this " ++ (if o.kind = .enum then o.name else "*" ++ o.holder) ++ ") "
    else ""
  | none => ""

theorem text_receiver? (f : Function) (owner : Option EntityRef) :
    (match f.receiver? owner with
      | some v => "(" ++ v.text ++ ") "
      | none => "") = f.receiverText owner := by
  unfold receiver? receiverText
  cases f.isMethod with
  | false => cases owner <;> rfl
  | true =>
    cases owner with
    | none => rfl
    | some o =>
      have hthis : "(this " = "(" ++ ("this" ++ " ") := by decide
      simp only [Option.map_some, if_true, hthis, Variable.text]
      split <;> simp only [GoType.text, String.append_assoc]

end Function

/-- The arguments of a call, as they are printed. -/
theorem Code.Expr.argsText_eq_joined (es : List Expr) :
    argsText es = Text.joined ", " (es.map text) := by
  induction es with
  | nil => rfl
  | cons e es ih =>
    cases es with
    | nil => rfl
    | cons e' es =>
      rw [argsText, ih]
      rfl

theorem Passed.text_expr (p : Passed) : p.expr.text = p.text := by
  obtain ⟨real, byAddress⟩ := p
  cases byAddress <;> rfl

/-- The line that a native call is printed as. -/
theorem Function.text_call (f : Function) (owner : Option EntityRef) (depth : Nat) :
    (let call := Expr.native f.symbol ((f.passed owner).map Passed.expr)
      if f.keepsResult then Stmt.assign (.inner "real_ret") call else .run call).text depth
      = lineAt depth (f.callText owner) := by
  have hargs : Expr.argsText ((f.passed owner).map Passed.expr)
      = Text.joined ", " ((f.passed owner).map Passed.text) := by
    rw [Expr.argsText_eq_joined, List.map_map]
    exact congrArg _ (List.map_congr_left fun p _ => p.text_expr)
  have hpackage : "C." = "C" ++ "." := by decide
  have hkept : "real_ret = " = "real_ret" ++ " = " := by decide
  unfold callText
  cases f.keepsResult with
  | false =>
    simp only [Bool.false_eq_true, if_false, Stmt.text, Expr.native, Expr.text, hargs, hpackage,
      String.empty_append]
  | true =>
    simp only [if_true, Stmt.text, Expr.native, Expr.text, hargs, hpackage, hkept,
      String.append_assoc]

namespace Argument

/-- The argument stands for a value that is passed. -/
def PassedAs (a : Argument) (p : Passed) : Prop :=
  a.callArg = some p.expr ∧ a.nativeLocal = p.real

/-- Whether the value is a parameter of the host function. -/
def isHostParam (a : Argument) : Bool :=
  match a.role with
  | .param p => p.hidden.isNone && p.binding == .reference
  | _ => false

/-! ### What an outline keeps -/

theorem callArg_outline (a : Argument) : a.outline.callArg = a.callArg := by
  obtain ⟨name, type, role⟩ := a
  cases role <;> rfl

theorem nativeLocal_outline (a : Argument) : a.outline.nativeLocal = a.nativeLocal := by
  obtain ⟨name, type, role⟩ := a
  cases role <;> rfl

theorem name_outline (a : Argument) : a.outline.name = a.name := by
  obtain ⟨name, type, role⟩ := a
  cases role <;> rfl

theorem capturesReturn_outline (a : Argument) : a.outline.capturesReturn = a.capturesReturn := by
  obtain ⟨name, type, role⟩ := a
  cases role <;> rfl

theorem receiverDecl_outline (a : Argument) : a.outline.receiverDecl = a.receiverDecl := by
  obtain ⟨name, type, role⟩ := a
  cases role <;> rfl

theorem isHostParam_outline (a : Argument) : a.outline.isHostParam = a.isHostParam := by
  obtain ⟨name, type, role⟩ := a
  cases role with
  | receiver | result => rfl
  | param p => cases hhidden : p.hidden <;> simp [outline, isHostParam, hhidden]

theorem passedAs_outline_iff {a : Argument} {p : Passed} : a.outline.PassedAs p ↔ a.PassedAs p := by
  rw [PassedAs, PassedAs, callArg_outline, nativeLocal_outline]

/-- The result is not passed. -/
theorem role_ne_of_passedAs {a : Argument} {p : Passed} (h : a.PassedAs p) (r : ReturnRole) :
    a.role ≠ .result r := by
  intro hrole
  have hcall := h.1
  rw [callArg, hrole] at hcall
  cases hcall

theorem passedAs_ofParameter (p : Parameter) : (ofParameter p).PassedAs p.passed := by
  have hlocal : (ofParameter p).nativeLocal = p.passed.real := by
    simp only [nativeLocal, ofParameter, Parameter.passed]
  have hfills : (ofParameter p).fillsBuffer = p.fillsBuffer := by
    simp only [fillsBuffer, ofParameter, Parameter.fillsBuffer]
  have hcall : (ofParameter p).callArg
      = if p.direction == .input || (ofParameter p).fillsBuffer then
          some (.inner (ofParameter p).nativeLocal)
        else some (.address (.inner (ofParameter p).nativeLocal)) := rfl
  refine ⟨?_, hlocal⟩
  rw [hcall, hfills, hlocal, Passed.expr, Parameter.passed]
  cases p.direction <;> cases p.fillsBuffer <;> rfl

/-! ### Entries of the signature -/

theorem name_of_hostParam (scope : Scope) (a : Argument) :
    Yields (fun v => v.map (·.name) = if a.isHostParam then some a.name else none)
      (a.hostParam scope) := by
  unfold hostParam isHostParam
  cases a.role with
  | receiver | result => exact yields_ok_iff.mpr rfl
  | param p =>
    dsimp only
    have hnot : (p.hidden.isSome || p.binding == .result)
        = !(p.hidden.isNone && p.binding == .reference) := by
      cases p.hidden <;> cases p.binding <;> rfl
    by_cases hshown : (p.hidden.isNone && p.binding == .reference) = true
    · rw [hnot, if_pos hshown, if_neg (by rw [hshown]; decide)]
      split <;> exact yields_bind fun host _ => yields_pure_iff.mpr rfl
    · rw [hnot, if_neg hshown, if_pos (by rw [Bool.eq_false_iff.mpr hshown]; rfl)]
      exact yields_ok_iff.mpr rfl

theorem name_of_hostResult (scope : Scope) (a : Argument) :
    Yields (fun v => v.map (·.name) = if a.isHostResult then some a.name else none)
      (a.hostResult scope) := by
  unfold hostResult
  cases a.isHostResult with
  | true => exact yields_bind fun host _ => yields_pure_iff.mpr rfl
  | false => exact yields_ok_iff.mpr rfl

/-- Entries that have the names of some arguments have these names in their order. -/
theorem names_of_mapM {entry : Argument → Generated (Option Variable)} {has : Argument → Bool}
    (hentry : ∀ a, Yields (fun v => v.map (·.name) = if has a then some a.name else none) (entry a))
    {args : List Argument} {entries : List (Option Variable)} (h : args.mapM entry = .ok entries) :
    (entries.filterMap id).map (·.name) = (args.filter has).map (·.name) := by
  replace h := forall₂_of_mapM_eq_ok h
  induction h with
  | nil => rfl
  | @cons a v args entries ha _ ih =>
    have hname := hentry a v ha
    cases hhas : has a with
    | false =>
      rw [hhas, if_neg nofun] at hname
      rw [Option.map_eq_none_iff.mp hname, List.filterMap_cons_none rfl,
        List.filter_cons_of_neg (by rw [hhas]; exact nofun), ih]
    | true =>
      rw [hhas, if_pos rfl] at hname
      obtain ⟨entry, rfl, hentry⟩ := Option.map_eq_some_iff.mp hname
      have hkept : (some entry :: entries).filterMap id = entry :: entries.filterMap id := rfl
      rw [hkept, List.filter_cons_of_pos hhas, List.map_cons, List.map_cons, ih, hentry]

end Argument

/-! ### The arguments of a function -/

namespace Wrapper

open Argument

/-- The arguments of a function but for its result. -/
def passedArgs (f : Function) (owner via : Option EntityRef) : List Argument :=
  receivers f owner via ++ f.params.map ofParameter
    ++ if f.flags.throws then [errorSlot] else []

theorem rawArgs_eq_append (f : Function) (owner via : Option EntityRef) :
    rawArgs f owner via = passedArgs f owner via ++ [ofResult f] :=
  rfl

theorem forall₂_passedArgs (f : Function) (owner via : Option EntityRef) :
    List.Forall₂ PassedAs (passedArgs f owner via) (f.passed owner) := by
  have hreceiver : List.Forall₂ PassedAs (receivers f owner via)
      (if f.isMethod && owner.isSome then [⟨"real_this", false⟩] else []) := by
    unfold receivers
    cases f.isMethod with
    | false => exact .nil
    | true =>
      cases owner with
      | none => exact .nil
      | some o => exact .cons ⟨rfl, rfl⟩ .nil
  have hparams : List.Forall₂ PassedAs (f.params.map ofParameter)
      (f.params.map Parameter.passed) := by
    rw [List.forall₂_map_left_iff, List.forall₂_map_right_iff]
    exact List.forall₂_same.mpr fun p _ => passedAs_ofParameter p
  have hslot : List.Forall₂ PassedAs (if f.flags.throws then [errorSlot] else [])
      (if f.flags.throws then [⟨"real_err", true⟩] else []) := by
    cases f.flags.throws with
    | false => exact .nil
    | true => exact .cons ⟨rfl, rfl⟩ .nil
  exact List.rel_append (List.rel_append hreceiver hparams) hslot

variable {scope : Scope} {f : Function} {owner via : Option EntityRef} {w : Wrapper}

/-- A list that is the same for an argument and its outline is read off the arguments of the
function with the lengths skipped. -/
theorem filterMap_args {α : Type} (h : ofFunction scope f owner via = .ok w)
    {read : Argument → Option α} (hread : ∀ a, read a.outline = read a) :
    w.args.filterMap read = (rawArgs f.withLengthsSkipped owner via).filterMap read := by
  obtain ⟨_, _, _, hargs⟩ := map_outline_args h
  rw [← hargs, List.filterMap_map]
  exact List.filterMap_congr fun a _ => (hread a).symm

theorem passed_withLengthsSkipped (f : Function) (owner : Option EntityRef) :
    f.withLengthsSkipped.passed owner = f.passed owner := by
  have hparams : f.withLengthsSkipped.params.map Parameter.passed
      = f.params.map Parameter.passed := by
    refine List.ext_getElem? fun i => ?_
    rw [List.getElem?_map, List.getElem?_map, Function.withLengthsSkipped, List.getElem?_mapIdx,
      Option.map_map]
    rfl
  unfold Function.passed
  rw [hparams]
  rfl

/-- The call passes what the function is passed. -/
theorem filterMap_callArg (h : ofFunction scope f owner via = .ok w) :
    w.args.filterMap callArg = (f.passed owner).map Passed.expr := by
  have hpassed : ∀ {args : List Argument} {ps : List Passed}, List.Forall₂ PassedAs args ps →
      args.filterMap callArg = ps.map Passed.expr := by
    intro args ps hall
    induction hall with
    | nil => rfl
    | cons ha _ ih => rw [List.filterMap_cons_some ha.1, List.map_cons, ih]
  rw [filterMap_args h callArg_outline, rawArgs_eq_append, List.filterMap_append,
    hpassed (forall₂_passedArgs _ owner via), passed_withLengthsSkipped]
  exact List.append_nil _

/-- Arguments that are picked out and read by what an outline keeps are found among the arguments
of the function with the lengths skipped. -/
theorem map_filter_args {α : Type} (h : ofFunction scope f owner via = .ok w)
    {has : Argument → Bool} {read : Argument → α} (hhas : ∀ a, has a.outline = has a)
    (hread : ∀ a, read a.outline = read a) :
    (w.args.filter has).map read
      = ((rawArgs f.withLengthsSkipped owner via).filter has).map read := by
  simp only [← List.filterMap_eq_map, List.filterMap_filter]
  refine filterMap_args h fun a => ?_
  rw [hhas, Function.comp_apply, hread, Function.comp_apply]

/-- The parameters that are not skipped are parameters of the host function. -/
theorem filter_isHostParam_rawArgs (f : Function) (owner via : Option EntityRef) :
    (rawArgs f owner via).filter isHostParam
      = (f.params.filter (!·.skip)).map ofParameter := by
  have hreceivers : (receivers f owner via).filter isHostParam = [] := by
    rcases receivers_eq f owner via with h | ⟨o, h⟩
    · rw [h]
      rfl
    · rw [h]
      rfl
  have hparam : isHostParam ∘ ofParameter = (!·.skip) := by
    funext p
    show (ofParameter p).isHostParam = !p.skip
    unfold isHostParam ofParameter
    cases p.skip <;> rfl
  have hslot : (if f.flags.throws then [errorSlot] else []).filter isHostParam = [] := by
    split <;> rfl
  have hresult : [ofResult f].filter isHostParam = [] := rfl
  rw [rawArgs, List.filter_append, List.filter_append, List.filter_append, hreceivers, hslot,
    hresult, List.filter_map, hparam]
  simp

/-- The result of the native function is kept if it means something. -/
theorem filter_capturesReturn_rawArgs (f : Function) (owner via : Option EntityRef) :
    (rawArgs f owner via).filter capturesReturn
      = if f.keepsResult then [ofResult f] else [] := by
  have hreceivers : (receivers f owner via).filter capturesReturn = [] := by
    rcases receivers_eq f owner via with h | ⟨o, h⟩
    · rw [h]
      rfl
    · rw [h]
      rfl
  have hparams : (f.params.map ofParameter).filter capturesReturn = [] := by
    rw [List.filter_map]
    exact congrArg (List.map ofParameter) (List.filter_false f.params)
  have hslot : (if f.flags.throws then [errorSlot] else []).filter capturesReturn = [] := by
    split <;> rfl
  rw [rawArgs, List.filter_append, List.filter_append, List.filter_append, hreceivers, hslot,
    hparams, List.append_nil, List.append_nil, List.nil_append, List.filter_singleton,
    Bool.cond_eq_ite]
  rfl

/-- The host function has the visible parameters. -/
theorem names_of_isHostParam (h : ofFunction scope f owner via = .ok w) :
    (w.args.filter isHostParam).map (·.name)
      = f.visibleParams.map fun p => Naming.hostIdent p.name := by
  rw [map_filter_args h isHostParam_outline name_outline, filter_isHostParam_rawArgs, List.map_map]
  rfl

/-- The result is kept in a local of its own. -/
theorem find?_capturesReturn (h : ofFunction scope f owner via = .ok w) :
    (w.args.find? capturesReturn).map realExpr
      = if f.keepsResult then some (.inner "real_ret") else none := by
  have hread : ∀ a : Argument, a.outline.realExpr = a.realExpr := by
    intro a
    rw [realExpr, nativeLocal_outline, realExpr]
  rw [← List.head?_filter, ← List.head?_map, map_filter_args h capturesReturn_outline hread,
    filter_capturesReturn_rawArgs]
  show _ = if f.withLengthsSkipped.keepsResult then some (Expr.inner "real_ret") else none
  split <;> rfl

/-- The receiver that is declared is the instance. -/
theorem findSome?_receiverDecl (h : ofFunction scope f owner via = .ok w) :
    w.args.findSome? receiverDecl = f.receiver? owner := by
  have hparams : (f.withLengthsSkipped.params.map ofParameter).filterMap receiverDecl = [] := by
    rw [List.filterMap_map]
    exact List.filterMap_eq_nil_iff.mpr fun p _ => rfl
  have hslot : (if f.flags.throws then [errorSlot] else []).filterMap receiverDecl = [] := by
    split <;> rfl
  rw [← List.head?_filterMap, filterMap_args h receiverDecl_outline, rawArgs_eq_append,
    passedArgs, List.filterMap_append, List.filterMap_append, List.filterMap_append, hparams]
  show (((receivers f owner via).filterMap receiverDecl ++ []
    ++ (if f.flags.throws then [errorSlot] else []).filterMap receiverDecl) ++ []).head? = _
  rw [hslot]
  unfold receivers Function.receiver?
  cases f.isMethod with
  | false => rfl
  | true =>
    cases owner with
    | none => rfl
    | some o =>
      obtain ⟨home, name, kind⟩ := o
      cases kind <;> rfl

/-- The native call of a prepared function. -/
theorem call_eq (h : ofFunction scope f owner via = .ok w) :
    w.call = (let call := Expr.native f.symbol ((f.passed owner).map Passed.expr)
      if f.keepsResult then .assign (.inner "real_ret") call else .run call) := by
  obtain ⟨_, hfunction, _, _⟩ := map_outline_args h
  have hkept := find?_capturesReturn h
  unfold call
  rw [filterMap_callArg h, hfunction]
  cases hfind : w.args.find? capturesReturn with
  | none =>
    rw [hfind] at hkept
    have hkeeps : ¬f.keepsResult = true := by
      intro hkeeps
      rw [if_pos hkeeps] at hkept
      cases hkept
    rw [if_neg hkeeps]
  | some result =>
    rw [hfind] at hkept
    have hkeeps : f.keepsResult = true := by
      by_contra hkeeps
      rw [if_neg hkeeps] at hkept
      cases hkept
    rw [if_pos hkeeps] at hkept ⊢
    rw [← Option.some.inj hkept]

/-- Each value that is passed has a conversion that declares its local. -/
theorem forall₂_conversions (h : ofFunction scope f owner via = .ok w) {cs : List Conversion}
    (hcs : w.args.mapM (·.convert w.scope) = .ok cs) :
    ∃ own last, cs = own ++ [last]
      ∧ List.Forall₂ (fun p c => (Stmt.declaredBy c.before).count p.real = 1)
        (f.passed owner) own := by
  have hall : ∀ {args : List Argument} {ps : List Passed} {own : List Conversion},
      List.Forall₂ PassedAs args ps →
      List.Forall₂ (fun a c => a.convert w.scope = .ok c) args own →
      List.Forall₂ (fun p c => (Stmt.declaredBy c.before).count p.real = 1) ps own := by
    intro args ps own hpassed hown
    induction hpassed generalizing own with
    | nil =>
      cases hown
      exact .nil
    | @cons a p _ _ ha _ ih =>
      cases hown with
      | cons hc hown =>
        refine .cons ?_ (ih hown)
        have hdeclares := a.declaresLocal_convert w.scope hc (role_ne_of_passedAs ha)
        rwa [DeclaresLocal, ha.2] at hdeclares
  -- The result is the last argument, also behind the couplings.
  obtain ⟨_, _, _, hargs⟩ := map_outline_args h
  rw [rawArgs_eq_append] at hargs
  obtain ⟨args, results, hsplit, hpassed, hresult⟩ := List.map_eq_append_iff.mp hargs
  obtain ⟨result, rfl, _⟩ := List.map_eq_singleton_iff.mp hresult
  rw [hsplit, List.mapM_append] at hcs
  obtain ⟨own, hown, hcs⟩ := bind_eq_ok_iff.mp hcs
  obtain ⟨lasts, hlast, hcs⟩ := bind_eq_ok_iff.mp hcs
  cases hcs
  have hone := forall₂_of_mapM_eq_ok hlast
  cases hone with
  | cons _ hnone =>
    cases hnone
    refine ⟨own, _, rfl, hall ?_ (forall₂_of_mapM_eq_ok hown)⟩
    have hoffered := forall₂_passedArgs f.withLengthsSkipped owner via
    rw [← hpassed, List.forall₂_map_left_iff, passed_withLengthsSkipped] at hoffered
    exact hoffered.imp fun a p => passedAs_outline_iff.mp

end Wrapper

/-- How a host function calls its native function. -/
structure HostFunction.Calls (h : HostFunction) (f : Function) (owner : Option EntityRef) :
    Prop where
  /-- The call passes every value in its turn, and a result that means something is kept. -/
  call : h.call = (let call := Expr.native f.symbol ((f.passed owner).map Passed.expr)
    if f.keepsResult then .assign (.inner "real_ret") call else .run call)
  /-- There is a conversion for each value that is passed, and last one for the result. The code
  that runs before the call declares the local of the value, once. -/
  declares : ∃ own last, h.conversions = own ++ [last]
    ∧ List.Forall₂ (fun p c => (Stmt.declaredBy c.before).count p.real = 1) (f.passed owner) own
  params : h.signature.params.map (·.name) = f.visibleParams.map fun p => Naming.hostIdent p.name
  results : h.results = h.signature.results.map (·.name)
  /-- What is printed: the receiver and the signature, the lines of the conversions before the call,
  what is deferred, the line of the call, the lines of the conversions after it, and the line that
  returns the results. -/
  layout : h.text = "func " ++ f.receiverText owner ++ h.signature.text ++ " \x7b\n"
    ++ (Text.joined "" ((Stmt.linesOf (h.conversions.flatMap (·.before))).map (lineAt 1))
      ++ deferred h.releases
      ++ lineAt 1 (f.callText owner)
      ++ Text.joined "" ((Stmt.linesOf (h.conversions.reverse.flatMap (·.after))).map (lineAt 1))
      ++ if h.results.isEmpty then "" else lineAt 1 ("return " ++ Text.joined ", " h.results))
    ++ "\x7d\n"

open Wrapper in
/-- A host function passes its native function what that takes. -/
theorem calls_of_synthesize {scope : Scope} {f : Function} {owner via : Option EntityRef}
    {host : HostFunction} (h : synthesize scope f owner via = .ok host) : host.Calls f owner := by
  obtain ⟨w, hw, hhost⟩ := bind_eq_ok_iff.mp h
  obtain ⟨cs, hcs, hhost⟩ := bind_eq_ok_iff.mp (within_eq_ok_iff.mp hhost)
  obtain ⟨s, hs, hhost⟩ := bind_eq_ok_iff.mp hhost
  obtain ⟨params, hparams, hs⟩ := bind_eq_ok_iff.mp hs
  obtain ⟨results, hresults, hs⟩ := bind_eq_ok_iff.mp hs
  cases hs
  cases hhost
  refine ⟨call_eq hw, forall₂_conversions hw hcs, ?_, ?_, ?_⟩
  · show (params.filterMap id).map (·.name) = _
    rw [Argument.names_of_mapM (Argument.name_of_hostParam _) hparams, names_of_isHostParam hw]
  · show _ = (results.filterMap id).map (·.name)
    rw [Argument.names_of_mapM (Argument.name_of_hostResult _) hresults]
    rfl
  · have hcall := f.text_call owner 1
    rw [← call_eq hw] at hcall
    rw [← hcall, ← f.text_receiver? owner, ← findSome?_receiverDecl hw, ← Stmt.listText_eq,
      ← Stmt.listText_eq]
    rfl

/-- A method that takes names with their number, gives back a position and may fail. -/
def Function.ofNameList : Function :=
  { (((ofSymbol "set_names" "gtk_list_set_names").withParam
        (.ofType "names" (.ofArray ⟨.c, some 1, none, false⟩ .utf8))).withParam
        (.ofType "n_names" (.ofTag .int32))).withParam
        { Parameter.ofType "position" (.ofTag .int32) with direction := .output } with
    flags := { FunctionFlags.plain with isMethod := true, throws := true } }

/-- The number of names is passed, and is no parameter of the host function. -/
theorem calls_of_synthesize_ofNameList :
    ∃ host, synthesize (.ofHome "Gtk") Function.ofNameList (some ⟨"Gtk", "List", .object⟩)
        none = .ok host
      ∧ host.call = .run (.native "gtk_list_set_names"
        [.inner "real_this", .inner "real_names", .inner "real_n_names",
          .address (.inner "real_position"), .address (.inner "real_err")])
      ∧ host.signature.params.map (·.name) = ["names", "position"] := by
  have hok : ∃ host, synthesize (.ofHome "Gtk") Function.ofNameList (some ⟨"Gtk", "List", .object⟩)
      none = .ok host := ⟨_, rfl⟩
  obtain ⟨host, hhost⟩ := hok
  have hcalls := calls_of_synthesize hhost
  exact ⟨host, hhost, hcalls.call, hcalls.params⟩

end Introspection
