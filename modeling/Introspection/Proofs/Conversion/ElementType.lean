import Introspection.Conversion.Element
import Introspection.Declaration.Basic
import Introspection.Proofs.Code.Typing
import Introspection.Proofs.Resolution.Unchecked

/-!
# `Introspection.Proofs.Conversion.ElementType`: types of converted elements

An element of a container becomes a host value by `wordOut` or by `valueOut`. The value that
`valueOut` makes has the host type of the element (`hasType_valueOut`). The value that `wordOut`
makes has the type `wordHost`, which knows nothing of an indirection of the element
(`hasType_wordOut`), while the host types `elementHost` and `pointerSlotHost` of elements may:
`wordHost_eq_elementHost_iff` and `slotType_eq_iff` say when they are the same.
-/

set_option autoImplicit false

namespace Introspection

open Introspection.Code

/-! ### Results of generated functions -/

/-- Result type of the function that wraps a native handle of a registered type. -/
def Scope.wrapResult (scope : Scope) (r : EntityRef) : GoType :=
  if r.kind = .interface then scope.typeName r.home r.name
  else .pointer (scope.typeName r.home r.name)

/-- The declaration is that of the Go type of a registered type. -/
def Declaration.Declares (d : Declaration) (r : EntityRef) : Prop :=
  match d with
  | .interface name _ => name = r.name ∧ r.kind = .interface
  | .handle name => name = r.name ∧ r.kind ≠ .interface
  | .derived name _ _ _ => name = r.name ∧ r.kind ≠ .interface
  | _ => False

/-- The declaration of a type declares the function that wraps a native handle, with this
result. -/
theorem exists_wrapText {scope : Scope} {d : Declaration} {r : EntityRef} (hd : d.Declares r)
    (hr : scope.isLocal r.home = true) :
    ∃ before made content,
      d.text = before ++ wrapText r.name (scope.wrapResult r).text made content := by
  have hname : scope.typeName r.home r.name = .plain r.name := if_pos hr
  cases d with
  | interface name entries =>
    obtain ⟨rfl, hkind⟩ := hd
    rw [Scope.wrapResult, if_pos hkind, hname]
    exact ⟨_, _, _, rfl⟩
  | handle name =>
    obtain ⟨rfl, hkind⟩ := hd
    rw [Scope.wrapResult, if_neg hkind, hname]
    exact ⟨_, _, _, rfl⟩
  | derived name parent base wrapBase =>
    obtain ⟨rfl, hkind⟩ := hd
    rw [Scope.wrapResult, if_neg hkind, hname]
    exact ⟨_, _, _, rfl⟩
  | _ => exact hd.elim

/-- What is declared where elements of a type are converted. -/
def Scope.typing (scope : Scope) (t : TypeDesc) : TypeEnv where
  result f :=
    match t.entity with
    | some r =>
      if f = (scope.wrapFunction r).text then some (scope.wrapResult r) else libraryResult f
    | none => libraryResult f
  variableType _ := none

/-- A function whose name has no `W` wraps no native handle. -/
theorem Scope.result_typing (scope : Scope) (t : TypeDesc) {f : String} (hf : 'W' ∉ f.toList) :
    (scope.typing t).result f = libraryResult f := by
  unfold Scope.typing
  cases t.entity with
  | none => rfl
  | some r =>
    refine if_neg fun hwrap => hf ?_
    rw [hwrap, Scope.wrapFunction]
    split <;> simp [Expr.text]

/-- The expression has the type wherever elements of `t` are converted, whatever variables there
are. -/
def HasType (scope : Scope) (t : TypeDesc) (e : Expr) (g : GoType) : Prop :=
  ∀ env : TypeEnv, env.result = (scope.typing t).result → e.type? env = some g

namespace TypeDesc

variable {scope : Scope} {t : TypeDesc}

/-! ### Host types of elements -/

@[simp] theorem view_byValue (t : TypeDesc) : t.byValue.view = t.view := by
  cases t
  rfl

@[simp] theorem entity_byValue (t : TypeDesc) : t.byValue.entity = t.entity := by
  cases t
  rfl

@[simp] theorem pointer_byValue (t : TypeDesc) : t.byValue.pointer = false := by
  cases t
  rfl

/-- A type of another class than the named ones names no registered type. -/
theorem Agrees.entity_eq_none (h : t.Agrees) (hview : t.view ≠ .named) : t.entity = none := by
  have htag : t.tag ≠ .interface := by
    intro htag
    rw [view, htag] at hview
    exact hview rfl
  cases hentity : t.entity with
  | none => rfl
  | some r => exact absurd (h.entity.mpr (by rw [hentity]; rfl)) htag

/-- Go type of a value without elements, of another class than the named ones, taken without its
indirection. -/
def plainHost (scope : Scope) : TagClass → Option GoType
  | .basic n => some (.plain n.hostName)
  | .boolean => some (.plain "bool")
  | .typeHandle => some (scope.typeName "GObject" "GType")
  | _ => none

/-- Numbers, truth values and type handles have a type behind a pointer if asked for. -/
theorem hostType_of_plainHost {g : GoType} (hg : plainHost scope t.view = some g)
    (isArg pointer : Bool) : t.hostType scope isArg pointer = .ok (.pointerIf pointer g) := by
  obtain ⟨tag, own, params, entity, array⟩ := t
  change plainHost scope tag.view = some g at hg
  unfold hostType
  cases hview : tag.view <;> rw [hview] at hg <;> cases hg <;> rfl

theorem resolveHost_byValue_of_plainHost (ht : t.WellShaped) {g : GoType}
    (hg : plainHost scope t.view = some g) (isArg : Bool) :
    resolveHost scope t.byValue isArg = .ok g := by
  rw [resolveHost_eq ht.byValue, pointer_byValue,
    hostType_of_plainHost (by rwa [view_byValue]) isArg false]
  rfl

theorem resolveHost_of_string (ht : t.WellShaped) (hview : t.view = .string) (isArg : Bool) :
    resolveHost scope t isArg = .ok (.plain "string") := by
  rw [resolveHost_eq ht]
  obtain ⟨tag, own, params, entity, array⟩ := t
  change tag.view = .string at hview
  unfold hostType
  rw [hview]

theorem resolveHost_of_void (ht : t.WellShaped) (hview : t.view = .void) (isArg : Bool) :
    resolveHost scope t isArg = .ok (if t.pointer then GoType.unsafePointer else .void) := by
  rw [resolveHost_eq ht]
  obtain ⟨tag, own, params, entity, array⟩ := t
  change tag.view = .void at hview
  unfold hostType
  rw [hview]

theorem resolveHost_of_named (ht : t.WellShaped) (hview : t.view = .named) {r : EntityRef}
    (hr : t.entity = some r) (isArg : Bool) :
    resolveHost scope t isArg = .ok (namedHost scope r t.pointer isArg) := by
  rw [resolveHost_eq ht]
  obtain ⟨tag, own, params, entity, array⟩ := t
  change tag.view = .named at hview
  unfold hostType
  rw [hview]
  simp only [entityOf_eq_ok hr, ok_bind]
  rfl

theorem elementHost_of_named (hview : t.view = .named) {r : EntityRef} (hr : t.entity = some r) :
    elementHost scope t = .ok (.pointerIf t.storesPointer (namedHost scope r false false)) := by
  rw [elementHost, elementHostOr, if_pos hview, namedElementHost, entityOf_eq_ok hr]
  rfl

theorem elementHost_of_ne_named (hview : t.view ≠ .named) :
    elementHost scope t = resolveHost scope t false := by
  rw [elementHost, elementHostOr, if_neg hview]

/-! ### Types of converted elements -/

/-- Go type of the host value of a word that holds an element. -/
def wordHost (scope : Scope) (t : TypeDesc) : Generated GoType :=
  if t.view = .void then .ok GoType.unsafePointer else elementHost scope t.byValue

theorem hasType_convert (g : GoType) (e : Expr) : HasType scope t (.convert g e) g := fun _ _ => rfl

/-- What a library function makes has the result type of the function. -/
theorem hasType_library {f : Expr} {g : GoType} (hW : 'W' ∉ f.text.toList)
    (hf : libraryResult f.text = some g) (args : List Expr) :
    HasType scope t (.call f args) g := by
  intro env henv
  show env.result f.text = some g
  rw [henv, scope.result_typing t hW, hf]

/-- A wrapped handle has the type that the wrapping function returns. -/
theorem hasType_wrap {r : EntityRef} (hr : t.entity = some r) (handle : Expr) :
    HasType scope t (scope.wrap r handle) (scope.wrapResult r) := by
  intro env henv
  show env.result (scope.wrapFunction r).text = _
  rw [henv, Scope.typing, hr]
  exact if_pos rfl

theorem storesPointer_eq {r : EntityRef} (hr : t.entity = some r) :
    t.storesPointer = (r.kind == .object || r.kind == .struct || r.kind == .union) := by
  rw [storesPointer, entityKind, hr, Option.map_some]
  cases r.kind <;> rfl

/-- A wrapped handle is what a container stores for a registered type. -/
theorem wrapResult_eq {r : EntityRef} (hr : t.entity = some r) (hkind : r.kind ≠ .enum) :
    scope.wrapResult r = .pointerIf t.storesPointer (namedHost scope r false false) := by
  rw [storesPointer_eq hr, Scope.wrapResult, namedHost]
  cases hr : r.kind with
  | enum => exact absurd hr hkind
  | interface | object | struct | union => rfl

/-- A wrapped handle has the host type of a pointer to the registered type. -/
theorem wrapResult_eq_namedHost {r : EntityRef} (hkind : r.kind ≠ .enum) :
    scope.wrapResult r = namedHost scope r true false := by
  rw [Scope.wrapResult, namedHost]
  cases hr : r.kind with
  | enum => exact absurd hr hkind
  | interface | object | struct | union => rfl

theorem wordHost_eq {c : TagClass} (hview : t.view = c) (hvoid : c ≠ .void) (hnamed : c ≠ .named) :
    t.wordHost scope = resolveHost scope t.byValue false := by
  rw [wordHost, if_neg (by rwa [hview]), elementHost_of_ne_named (by rwa [view_byValue, hview])]

theorem wordHost_of_plainHost (ht : t.WellShaped) {c : TagClass} (hview : t.view = c)
    (hvoid : c ≠ .void) (hnamed : c ≠ .named) {g : GoType} (hg : plainHost scope c = some g) :
    t.wordHost scope = .ok g := by
  rw [wordHost_eq hview hvoid hnamed, resolveHost_byValue_of_plainHost ht (by rwa [hview])]

theorem wordHost_of_named (hview : t.view = .named) {r : EntityRef} (hr : t.entity = some r) :
    t.wordHost scope = .ok (.pointerIf t.storesPointer (namedHost scope r false false)) := by
  rw [wordHost, if_neg (by rw [hview]; exact nofun),
    elementHost_of_named (by rwa [view_byValue]) (by rwa [entity_byValue]),
    storesPointer_eq hr, storesPointer_eq (by rwa [entity_byValue])]

/-- The host value of a word has the type of an element without indirection. -/
theorem hasType_wordOut (ht : t.WellShaped) (w : Expr) :
    Yields (fun e => ∃ g, t.wordHost scope = .ok g ∧ HasType scope t e g) (t.wordOut scope w) := by
  unfold wordOut
  cases hview : t.view with
  | void =>
    cases t.pointer with
    | false => exact yields_error _ _
    | true =>
      refine yields_ok_iff.mpr ⟨_, ?_, hasType_convert _ _⟩
      rw [wordHost, if_pos hview]
  | basic n =>
    have hg : t.wordHost scope = .ok (.plain n.hostName) :=
      wordHost_of_plainHost ht hview nofun nofun rfl
    cases n with
    | float | double =>
      exact yields_ok_iff.mpr ⟨_, hg, hasType_library (by decide) (by decide) _⟩
    | _ =>
      refine yields_bind fun host hhost => yields_pure_iff.mpr ⟨host, ?_, hasType_convert _ _⟩
      rw [wordHost_eq hview nofun nofun, hhost]
  | typeHandle =>
    refine yields_bind fun host hhost => yields_pure_iff.mpr ⟨host, ?_, hasType_convert _ _⟩
    rw [wordHost_eq hview nofun nofun, hhost]
  | boolean =>
    have hg : t.wordHost scope = .ok (.plain "bool") :=
      wordHost_of_plainHost ht hview nofun nofun rfl
    exact yields_ok_iff.mpr ⟨_, hg, fun _ _ => rfl⟩
  | string =>
    refine yields_ok_iff.mpr
      ⟨.plain "string", ?_, hasType_library (by decide) (by decide) _⟩
    rw [wordHost_eq hview nofun nofun, resolveHost_of_string ht.byValue (by rwa [view_byValue])]
  | named =>
    obtain ⟨r, hr⟩ := ht.agrees.exists_entity hview
    have hword : t.wordHost scope
        = .ok (.pointerIf t.storesPointer (namedHost scope r false false)) :=
      wordHost_of_named hview hr
    simp only [entityOf_eq_ok hr, ok_bind]
    cases hkind : r.kind with
    | enum =>
      refine yields_bind fun host hhost => yields_pure_iff.mpr ⟨host, ?_, hasType_convert _ _⟩
      rw [hword, ← hhost, elementHost_of_named hview hr]
    | _ =>
      refine yields_pure_iff.mpr ⟨_, hword, ?_⟩
      rw [← wrapResult_eq hr (by rw [hkind]; exact nofun)]
      exact hasType_wrap hr _
  | array | list | hash | error => exact yields_error _ _

/-- The host value of an element of an array has the host type of the element. -/
theorem hasType_valueOut (ht : t.WellShaped) (v : Expr) :
    Yields (fun e => ∃ g, resolveHost scope t false = .ok g ∧ HasType scope t e g)
      (t.valueOut scope v) := by
  unfold valueOut
  cases hview : t.view with
  | void =>
    cases hpointer : t.pointer with
    | false => exact yields_error _ _
    | true =>
      refine yields_ok_iff.mpr ⟨_, ?_, hasType_convert _ _⟩
      rw [resolveHost_of_void ht hview, hpointer]
      rfl
  | basic | typeHandle =>
    cases t.pointer with
    | true => exact yields_error _ _
    | false =>
      refine yields_bind fun host hhost => yields_pure_iff.mpr ⟨host, hhost, hasType_convert _ _⟩
  | boolean =>
    cases hpointer : t.pointer with
    | true => exact yields_error _ _
    | false =>
      refine yields_ok_iff.mpr ⟨.plain "bool", ?_, fun _ _ => rfl⟩
      have hg : plainHost scope t.view = some (.plain "bool") := by rw [hview]; rfl
      rw [resolveHost_eq ht, hostType_of_plainHost hg, hpointer]
      rfl
  | string =>
    exact yields_ok_iff.mpr
      ⟨.plain "string", resolveHost_of_string ht hview false,
        hasType_library (by decide) (by decide) _⟩
  | named =>
    obtain ⟨r, hr⟩ := ht.agrees.exists_entity hview
    have hhost : resolveHost scope t false = .ok (namedHost scope r t.pointer false) :=
      resolveHost_of_named ht hview hr false
    -- A structure is copied to the heap, and what is stored is the value of the copy.
    have hcopied : r.kind = .struct ∨ r.kind = .union → t.pointer = false →
        Yields (fun e => ∃ g, resolveHost scope t false = .ok g ∧ HasType scope t e g)
          (do return .deref (← t.heapCopy scope v)) := by
      intro hkind hpointer
      refine yields_bind fun copy hcopy => yields_pure_iff.mpr ⟨_, hhost, fun env henv => ?_⟩
      rw [heapCopy, entityOf_eq_ok hr] at hcopy
      cases hcopy
      show ((scope.wrap r _).type? env).bind GoType.target? = _
      rw [hasType_wrap hr _ env henv, hpointer, Scope.wrapResult, namedHost]
      rcases hkind with hkind | hkind <;> rw [hkind] <;> rfl
    simp only [entityOf_eq_ok hr, ok_bind]
    cases hkind : r.kind <;> cases hpointer : t.pointer
    case enum.false =>
      exact yields_bind fun host hhost => yields_pure_iff.mpr ⟨host, hhost, hasType_convert _ _⟩
    case struct.false => exact hcopied (Or.inl hkind) hpointer
    case union.false => exact hcopied (Or.inr hkind) hpointer
    case enum.true | interface.false | object.false => exact yields_error _ _
    all_goals
      refine yields_pure_iff.mpr ⟨_, hhost, ?_⟩
      rw [hpointer, ← wrapResult_eq_namedHost (by rw [hkind]; exact nofun)]
      exact hasType_wrap hr _
  | array | list | hash | error => exact yields_error _ _

/-! ### Agreement of the host types of elements -/

/-- A pointer to a number, a truth value or a type handle. -/
def isScalarPointer (t : TypeDesc) : Bool :=
  t.pointer &&
    match t.view with
    | .basic _ => true
    | .boolean => true
    | .typeHandle => true
    | _ => false

/-- Where words that hold elements are converted, the host value has the host type of an element,
but for pointers to scalars. -/
theorem wordHost_eq_elementHost_iff (ht : t.WellShaped) {w e : Expr}
    (he : t.wordOut scope w = .ok e) :
    t.wordHost scope = elementHost scope t ↔ t.isScalarPointer = false := by
  -- A number, truth value or type handle has its own type, or that type behind a pointer.
  have hplain : ∀ {c : TagClass} {g : GoType}, t.view = c → c ≠ .void → c ≠ .named →
      plainHost scope c = some g →
      (t.wordHost scope = elementHost scope t ↔ t.pointer = false) := by
    intro c g hview hvoid hnamed hg
    rw [wordHost_of_plainHost ht hview hvoid hnamed hg, elementHost_of_ne_named (by rwa [hview]),
      resolveHost_eq ht, hostType_of_plainHost (by rwa [hview])]
    cases t.pointer with
    | false => exact ⟨fun _ => rfl, fun _ => rfl⟩
    | true =>
      -- No type is its own pointer.
      refine ⟨fun h => ?_, nofun⟩
      have hsize := congrArg sizeOf (Except.ok.inj h)
      simp [GoType.pointerIf] at hsize
  unfold isScalarPointer
  cases hview : t.view with
  | void =>
    rw [Bool.and_false]
    refine ⟨fun _ => rfl, fun _ => ?_⟩
    cases hpointer : t.pointer with
    | false =>
      rw [wordOut, hview, hpointer] at he
      cases he
    | true =>
      rw [wordHost, if_pos hview, elementHost_of_ne_named (by rw [hview]; exact nofun),
        resolveHost_of_void ht hview, hpointer]
      rfl
  | basic | boolean | typeHandle => rw [hplain hview nofun nofun rfl, Bool.and_true]
  | string =>
    rw [Bool.and_false]
    refine ⟨fun _ => rfl, fun _ => ?_⟩
    rw [wordHost_eq hview nofun nofun, elementHost_of_ne_named (by rw [hview]; exact nofun),
      resolveHost_of_string ht hview, resolveHost_of_string ht.byValue (by rwa [view_byValue])]
  | named =>
    rw [Bool.and_false]
    refine ⟨fun _ => rfl, fun _ => ?_⟩
    obtain ⟨r, hr⟩ := ht.agrees.exists_entity hview
    rw [wordHost_of_named hview hr, elementHost_of_named hview hr]
  | array | list | hash | error =>
    rw [wordOut, hview] at he
    cases he

/-- Go type of what goes into a slice for a word of a pointer array: a wrapped handle as it is,
anything else through the address of a variable. -/
def slotType (t : TypeDesc) (g : GoType) : GoType := if t.storesPointer then g else .pointer g

/-- Where pointer arrays are converted, a slot has the type of what goes into it, but for untyped
pointers. -/
theorem slotType_eq_iff (ht : t.WellShaped) {w e : Expr} (he : t.wordOut scope w = .ok e)
    {g : GoType} (hg : t.wordHost scope = .ok g) :
    pointerSlotHost scope t = .ok (t.slotType g) ↔ t.view ≠ .void := by
  have hother : t.view ≠ .named → t.slotType g = .pointer g := by
    intro hview
    have hstores : t.storesPointer = false := by
      rw [storesPointer, entityKind, ht.agrees.entity_eq_none hview]
      rfl
    rw [slotType, hstores]
    rfl
  unfold pointerSlotHost
  cases hview : t.view with
  | void =>
    rw [wordHost, if_pos hview] at hg
    cases hg
    rw [resolveHost_of_void ht.byValue (by rwa [view_byValue]), pointer_byValue,
      hother (by rw [hview]; exact nofun)]
    exact ⟨nofun, fun h => absurd rfl h⟩
  | basic | boolean | typeHandle | string =>
    rw [wordHost_eq hview nofun nofun] at hg
    rw [hg, hother (by rw [hview]; exact nofun)]
    exact ⟨fun _ => nofun, fun _ => rfl⟩
  | named =>
    refine ⟨fun _ => nofun, fun _ => ?_⟩
    obtain ⟨r, hr⟩ := ht.agrees.exists_entity hview
    rw [wordHost_of_named hview hr] at hg
    cases hg
    rw [resolveHost_of_named ht.byValue (by rwa [view_byValue]) (by rwa [entity_byValue]),
      pointer_byValue, slotType]
    cases t.storesPointer <;> rfl
  | array | list | hash | error =>
    rw [wordOut, hview] at he
    cases he

end TypeDesc

end Introspection
