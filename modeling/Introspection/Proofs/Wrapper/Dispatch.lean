import Introspection.Declaration.Method
import Introspection.Proofs.Wrapper.Call

/-!
# `Introspection.Proofs.Wrapper.Dispatch`: one method on several types

A method of an interface is declared on the type that carries the interface and on every type that
implements it. `dispatch_of_isMethod` says that all of them are the same method: they fail for the
same reason, or they have the same text behind the receiver, and their signature is the one that
the interface type lists.

The reason is that nothing but the receiver depends on the type. `synthesize_eq` builds a method of
any type from one host function without a receiver, and `signatureOf_eq` finds the signature without
looking at a type at all.
-/

set_option autoImplicit false

namespace Introspection

open Introspection.Code

/-! ### Failing for the same reason -/

/-- Two steps succeed with related results, or fail for the same innermost reason. -/
inductive Agree {α β : Type} (related : α → β → Prop) : Generated α → Generated β → Prop
  | ok {a : α} {b : β} : related a b → Agree related (.ok a) (.ok b)
  | error {e e' : GenerationError} : e.root = e'.root → Agree related (.error e) (.error e')

/-- One step with its result read in two ways, in two contexts. -/
theorem agree_within_map {α β γ : Type} {related : β → γ → Prop} {r : Generated α} {f : α → β}
    {g : α → γ} (h : ∀ a, r = .ok a → related (f a) (g a)) (context context' : String) :
    Agree related (Generated.within context (r.map f)) (Generated.within context' (r.map g)) := by
  cases r with
  | error e => exact .error rfl
  | ok a => exact .ok (h a rfl)

/-- A context around two steps is a context around each of them. -/
theorem within_bind {α β : Type} (context : String) (r : Generated α) (f : α → Generated β) :
    Generated.within context (r >>= f)
      = Generated.within context r >>= fun a => Generated.within context (f a) := by
  cases r <;> rfl

/-! ### The signature of a method -/

/-- The signature of a function that is declared on `owner`, see `Wrapper.ofFunction`. -/
def signatureOf (scope : Scope) (f : Function) (owner via : Option EntityRef) :
    Generated Signature := do
  (← Wrapper.ofFunction scope f owner via).signature

namespace Wrapper

/-- The signature of a method whose arguments behind the instance are these. -/
def signatureBehind (scope : Scope) (f : Function) (args : List Argument) :
    Generated Signature := do
  let params ← args.mapM (·.hostParam scope)
  let results ← args.reverse.mapM (·.hostResult scope)
  return ⟨f.methodName, params.filterMap id, results.filterMap id⟩

/-- An instance is neither a parameter nor a result. -/
theorem bareSignature_eq {f : Function} (hf : f.isMethod = true) (scope : Scope)
    (owner via : Option EntityRef) (args : List Argument) :
    (Wrapper.mk scope f owner (receivers f owner via ++ args)).bareSignature
      = signatureBehind scope f args := by
  have hname : (Wrapper.mk scope f owner (receivers f owner via ++ args)).hostName
      = f.methodName := by
    unfold hostName
    cases owner with
    | none => rfl
    | some o => exact if_pos hf
  unfold bareSignature signatureBehind
  rw [hname]
  unfold receivers
  rw [if_pos hf]
  cases owner with
  | none => rfl
  | some o =>
    have hparams : (Argument.receiver o via :: args).mapM (Argument.hostParam scope)
        = (args.mapM (Argument.hostParam scope)).map (none :: ·) := by
      rw [List.mapM_cons]
      cases args.mapM (Argument.hostParam scope) <;> rfl
    have hresults : (Argument.receiver o via :: args).reverse.mapM (Argument.hostResult scope)
        = (args.reverse.mapM (Argument.hostResult scope)).map (· ++ [none]) := by
      rw [List.reverse_cons, List.mapM_append]
      cases args.reverse.mapM (Argument.hostResult scope) <;> rfl
    show ((Argument.receiver o via :: args).mapM (Argument.hostParam scope) >>= fun params =>
      (Argument.receiver o via :: args).reverse.mapM (Argument.hostResult scope) >>= fun results =>
        _) = (args.mapM (Argument.hostParam scope) >>= fun params =>
      args.reverse.mapM (Argument.hostResult scope) >>= fun results => _)
    rw [hparams, hresults]
    cases args.mapM (Argument.hostParam scope) with
    | error e => rfl
    | ok params =>
      cases args.reverse.mapM (Argument.hostResult scope) with
      | error e => rfl
      | ok results =>
        show Except.ok (Signature.mk f.methodName (params.filterMap id)
          ((results ++ [none]).filterMap id)) = _
        rw [List.filterMap_append, List.filterMap_cons_none rfl, List.filterMap_nil,
          List.append_nil]
        rfl

/-- The signature of a method depends on no type that it is declared on. -/
theorem signatureOf_eq {f : Function} (hf : f.isMethod = true) (scope : Scope)
    (owner via : Option EntityRef) :
    signatureOf scope f owner via
      = Generated.within (pathOf scope f owner) (coupledArgs f >>= signatureBehind scope f) := by
  rw [within_bind, signatureOf, ofFunction_eq]
  cases coupledArgs f with
  | error e => rfl
  | ok args =>
    show Generated.within _ (Wrapper.mk scope f owner _).bareSignature = _
    rw [bareSignature_eq hf]
    rfl

/-! ### The body of a method -/

/-- The conversion of an instance to the native type of an interface. -/
def interfaceHandle (i : EntityRef) : Generated Conversion := do
  let native ← resolveNative (.named i)
  return .ofBefore (.define "real_this" (.cast native (.invoke (.host "this") "Native")))

/-- The host function of a method of an interface whose arguments behind the instance are these,
but for the receiver. -/
def hostFunctionBehind (scope : Scope) (f : Function) (i : EntityRef) (args : List Argument) :
    Generated HostFunction := do
  let handle ← interfaceHandle i
  let conversions ← args.mapM (·.convert scope)
  let signature ← signatureBehind scope f args
  return {
    receiver := none
    signature := signature
    conversions := handle :: conversions
    call := (Wrapper.mk scope f none (.receiver i none :: args)).call
    results := (Wrapper.mk scope f none args).resultNames }

/-- An instance is passed in the same way whether its type is the interface or implements it. -/
theorem convert_receiver {o i : EntityRef} {via : Option EntityRef} (ho : o.kind ≠ .enum)
    (hvia : via.getD o = i) (scope : Scope) :
    (Argument.receiver o via).convert scope = interfaceHandle i := by
  show (if o.kind = .enum then _ else resolveNative (.named (via.getD o)) >>= fun native => _) = _
  rw [if_neg ho, hvia]
  rfl

/-- A method that is declared on a type, as a method of an interface, is one host function for all
such types, with the receiver of this type. -/
theorem synthesize_eq {f : Function} (hf : f.isMethod = true) {o i : EntityRef}
    {via : Option EntityRef} (ho : o.kind ≠ .enum) (hvia : via.getD o = i) (scope : Scope) :
    synthesize scope f (some o) via
      = Generated.within (pathOf scope f (some o))
        ((coupledArgs f >>= hostFunctionBehind scope f i).map fun host =>
          { host with receiver := (Argument.receiver o via).receiverDecl }) := by
  rw [synthesize, ofFunction_eq]
  cases coupledArgs f with
  | error e => rfl
  | ok args =>
    have hreceivers : receivers f (some o) via = [.receiver o via] := if_pos hf
    have hnames : (Wrapper.mk scope f (some o) (.receiver o via :: args)).resultNames
        = (Wrapper.mk scope f none args).resultNames := by
      unfold resultNames
      rw [List.reverse_cons, List.filter_append]
      exact congrArg _ (List.append_nil _)
    show (Wrapper.mk scope f (some o) (receivers f (some o) via ++ args)).hostFunction
      = Generated.within (pathOf scope f (some o)) ((hostFunctionBehind scope f i args).map _)
    unfold hostFunction
    rw [bareSignature_eq hf, hreceivers, List.singleton_append, hnames, List.mapM_cons,
      convert_receiver ho hvia]
    unfold hostFunctionBehind
    -- The steps that can fail come in one order on both sides.
    cases interfaceHandle i with
    | error e => rfl
    | ok handle =>
      cases args.mapM (Argument.convert scope) with
      | error e => rfl
      | ok conversions =>
        cases signatureBehind scope f args with
        | error e => rfl
        | ok signature => rfl

end Wrapper

/-- The receiver of a method that is declared on a type. -/
theorem Argument.receiverDecl_receiver {o : EntityRef} (ho : o.kind ≠ .enum)
    (via : Option EntityRef) :
    (receiver o via).receiverDecl = some ⟨"this", .pointer (.plain o.holder)⟩ := by
  obtain ⟨home, name, kind⟩ := o
  cases kind with
  | enum => exact absurd rfl ho
  | interface | object | struct | union => rfl

/-- The text of a method names the type in its receiver. -/
theorem HostFunction.text_of_receiver {o : EntityRef} (ho : o.kind ≠ .enum)
    (via : Option EntityRef) (host : HostFunction) :
    { host with receiver := (Argument.receiver o via).receiverDecl }.text
      = "func (this *" ++ o.holder ++ ") " ++ host.signature.text
        ++ (" \x7b\n" ++ host.bodyText ++ "\x7d\n") := by
  have hreceiver := Argument.receiverDecl_receiver ho via
  have hstart : "func (this *" ++ o.holder ++ ") "
      = "func " ++ ("(" ++ ("this" ++ " " ++ ("*" ++ o.holder)) ++ ") ") := by
    have hword : "func (this *" = "func " ++ "(" ++ "this" ++ " " ++ "*" := by decide
    rw [hword]
    simp only [String.append_assoc]
  rw [hreceiver, hstart]
  simp only [HostFunction.text, String.append_assoc]
  rfl

/-- A method has one signature, whatever it is declared on. -/
theorem signatureOf_agree {f : Function} (hf : f.isMethod = true) (scope : Scope)
    (owner via owner' via' : Option EntityRef) :
    Agree (· = ·) (signatureOf scope f owner via) (signatureOf scope f owner' via') := by
  rw [Wrapper.signatureOf_eq hf, Wrapper.signatureOf_eq hf]
  cases Wrapper.coupledArgs f >>= Wrapper.signatureBehind scope f with
  | error e => exact .error rfl
  | ok s => exact .ok rfl

/-- A host function has the signature of its function. -/
theorem signatureOf_of_synthesize {scope : Scope} {f : Function} {owner via : Option EntityRef}
    {host : HostFunction} (h : synthesize scope f owner via = .ok host) :
    signatureOf scope f owner via = .ok host.signature := by
  obtain ⟨w, hw, hhost⟩ := bind_eq_ok_iff.mp h
  obtain ⟨conversions, _, hhost⟩ := bind_eq_ok_iff.mp (within_eq_ok_iff.mp hhost)
  obtain ⟨s, hs, hhost⟩ := bind_eq_ok_iff.mp hhost
  cases hhost
  rw [signatureOf, hw, ok_bind]
  exact within_eq_ok_iff.mpr hs

/-- A method of an interface is the same on the carrier of the interface and on every type that
implements it, but for the receiver. Its signature depends on no type, so that it is the one that
the interface type lists. -/
theorem dispatch_of_isMethod (scope : Scope) {f : Function} (hf : f.isMethod = true)
    {i o : EntityRef} (hi : i.kind = .interface) (ho : o.kind ≠ .enum) :
    Agree
        (fun own carried => own.signature = carried.signature ∧ ∃ body,
          own.text = "func (this *" ++ o.holder ++ ") " ++ own.signature.text ++ body
          ∧ carried.text
            = "func (this *" ++ Text.lowerFirst i.name ++ ") " ++ own.signature.text ++ body)
        (synthesize scope f (some o) (some i)) (synthesize scope f (some i) none)
      ∧ (∀ owner via owner' via',
        Agree (· = ·) (signatureOf scope f owner via) (signatureOf scope f owner' via'))
      ∧ ∀ (ns : Namespace) (options : Options) (fs : List Function) (entries : List InterfaceEntry),
        ns.scope options = scope → f ∈ options.instanceMethods fs →
        ns.methodEntries options i fs = .ok entries →
        ∀ owner via host, synthesize scope f owner via = .ok host →
          .method host.signature ∈ entries := by
  refine ⟨?_, signatureOf_agree hf scope, ?_⟩
  · have hcarrier : i.kind ≠ .enum := by
      rw [hi]
      exact nofun
    have hholder : i.holder = Text.lowerFirst i.name := if_pos hi
    rw [Wrapper.synthesize_eq hf ho rfl, Wrapper.synthesize_eq hf hcarrier rfl]
    refine agree_within_map
      (fun host _ => ⟨rfl, _, HostFunction.text_of_receiver ho _ host, ?_⟩) _ _
    rw [HostFunction.text_of_receiver hcarrier, hholder]
  · rintro ns options fs entries rfl hmem hentries owner via host hhost
    have hs := signatureOf_of_synthesize hhost
    -- The entry is made from the signature of the method on the interface itself.
    have hagree := signatureOf_agree hf (ns.scope options) owner via (some i) none
    rw [hs] at hagree
    cases hentry : signatureOf (ns.scope options) f (some i) none with
    | error e =>
      rw [hentry] at hagree
      cases hagree
    | ok s =>
      rw [hentry] at hagree
      cases hagree with
      | ok hsame =>
        refine (mem_of_mapM_eq_ok hentries).mpr ⟨f, hmem, ?_⟩
        obtain ⟨w, hw, hsignature⟩ := bind_eq_ok_iff.mp hentry
        show (Wrapper.ofFunction (ns.scope options) f (some i) none
          >>= fun w => w.signature >>= fun s => _) = _
        rw [hw, ok_bind, hsignature, hsame]
        rfl

/-- A method without parameters. -/
def Function.ofClick : Function :=
  { ofSymbol "click" "gtk_clickable_click" with
    flags := { FunctionFlags.plain with isMethod := true } }

theorem dispatch_of_isMethod_ofClick :
    ∃ own carried, synthesize (.ofHome "Gtk") .ofClick (some ⟨"Gtk", "Button", .object⟩)
        (some ⟨"Gtk", "Clickable", .interface⟩) = .ok own
      ∧ synthesize (.ofHome "Gtk") .ofClick (some ⟨"Gtk", "Clickable", .interface⟩)
        none = .ok carried
      ∧ ∃ body, own.text = "func (this *Button) " ++ own.signature.text ++ body
        ∧ carried.text = "func (this *clickable) " ++ own.signature.text ++ body := by
  have hok : ∃ own, synthesize (.ofHome "Gtk") .ofClick (some ⟨"Gtk", "Button", .object⟩)
      (some ⟨"Gtk", "Clickable", .interface⟩) = .ok own := ⟨_, rfl⟩
  obtain ⟨own, hown⟩ := hok
  have hagree := (dispatch_of_isMethod (.ofHome "Gtk") (f := .ofClick) rfl
    (i := ⟨"Gtk", "Clickable", .interface⟩) (o := ⟨"Gtk", "Button", .object⟩) rfl nofun).1
  rw [hown] at hagree
  cases hcarried : synthesize (.ofHome "Gtk") .ofClick (some ⟨"Gtk", "Clickable", .interface⟩)
      none with
  | error e =>
    rw [hcarried] at hagree
    cases hagree
  | ok carried =>
    rw [hcarried] at hagree
    cases hagree with
    | ok h => exact ⟨own, carried, hown, rfl, h.2⟩

end Introspection
