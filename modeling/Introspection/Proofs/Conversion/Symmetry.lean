import Introspection.Proofs.Conversion.Storage
import Introspection.Proofs.Resolution.Outcome

/-!
# `Introspection.Proofs.Conversion.Symmetry`: containers in both directions

The code that fills a native container and the code that reads one decide on their own which types
of elements they have rules for. Words take the same types in both directions (`TypeDesc.FitsWord`).
Elements in their native form do so but for instances, objects and interfaces that are no pointers:
these are passed, by copying what the handle points to, and never read back, since there would be
nothing for a handle to point to (`TypeDesc.IsInstance`).

So a container is accepted in both directions or in neither, unless it is a C array or a dynamic
array of instances (`convert_symmetric`). The number of elements has to be known, since to find it
out takes more than a rule for the elements.
-/

set_option autoImplicit false

namespace Introspection

open Introspection.Code

/-! ### Steps that succeed -/

/-- The step gives a result. -/
def Succeeds {ε α : Type} (r : Except ε α) : Prop := ∃ a, r = .ok a

section Steps

variable {ε α β : Type}

@[simp] theorem succeeds_ok (a : α) : Succeeds (.ok a : Except ε α) := ⟨a, rfl⟩

@[simp] theorem succeeds_pure (a : α) : Succeeds (pure a : Except ε α) := ⟨a, rfl⟩

@[simp] theorem not_succeeds_error (e : ε) : ¬Succeeds (.error e : Except ε α) := nofun

@[simp] theorem not_succeeds_unsupported (use : Use) (t : TypeDesc) :
    ¬Succeeds (unsupported use t : Generated α) := nofun

/-- A chain succeeds when both steps do, if the second does not mind what the first one gives. -/
theorem succeeds_bind_iff {r : Except ε α} {f : α → Except ε β} {p : Prop}
    (hf : ∀ a, Succeeds (f a) ↔ p) : Succeeds (r >>= f) ↔ Succeeds r ∧ p := by
  constructor
  · rintro ⟨b, hb⟩
    obtain ⟨a, ha, hfa⟩ := bind_eq_ok_iff.mp hb
    exact ⟨⟨a, ha⟩, (hf a).mp ⟨b, hfa⟩⟩
  · rintro ⟨⟨a, rfl⟩, hp⟩
    exact (hf a).mpr hp

/-- What is done to a result at the end does not fail. -/
@[simp] theorem succeeds_bind_ok_iff {r : Except ε α} {f : α → β} :
    Succeeds (r >>= fun a => .ok (f a)) ↔ Succeeds r := by
  rw [succeeds_bind_iff fun a => iff_true_intro (succeeds_ok (f a)), and_true]

end Steps

namespace TypeDesc

variable {t : TypeDesc} (scope : Scope)

/-! ### Elements with a rule -/

/-- A word can hold an element of the type. -/
def FitsWord (t : TypeDesc) : Prop :=
  match t.view with
  | .void => t.pointer = true
  | .basic _ | .boolean | .typeHandle | .string | .named => True
  | .array | .list _ | .hash | .error => False

/-- An element of the type can be stored in its native form. -/
def FitsPlace (t : TypeDesc) : Prop :=
  match t.view with
  | .void => t.pointer = true
  | .basic _ | .boolean | .typeHandle => t.pointer = false
  | .string => True
  | .named => t.entityKind = some .enum → t.pointer = false
  | .array | .list _ | .hash | .error => False

/-- Elements of the type are objects or interfaces themselves and no pointers to them. -/
def IsInstance (t : TypeDesc) : Prop :=
  t.pointer = false ∧ (t.entityKind = some .object ∨ t.entityKind = some .interface)

/-! ### Elements in words -/

theorem succeeds_wordIn_iff (h : t.WellShaped) (v : Expr) :
    Succeeds (t.wordIn v) ↔ t.FitsWord := by
  unfold wordIn FitsWord
  cases hview : t.view with
  | void => cases t.pointer <;> simp
  | basic n => cases n <;> simp
  | typeHandle | boolean | string => simp
  | named =>
    obtain ⟨r, hr⟩ := h.agrees.exists_entity hview
    simp only [entityOf_eq_ok hr, ok_bind]
    cases r.kind <;> simp
  | array | list | hash | error => simp

theorem succeeds_wordOut_iff (h : t.WellShaped) (w : Expr) :
    Succeeds (t.wordOut scope w) ↔ t.FitsWord := by
  have hhost : Succeeds (resolveHost scope t.byValue false) :=
    exists_resolveHost scope h.byValue false
  unfold wordOut FitsWord
  cases hview : t.view with
  | void => cases t.pointer <;> simp
  | basic n => cases n <;> simp [hhost]
  | typeHandle => simp [hhost]
  | boolean | string => simp
  | named =>
    obtain ⟨r, hr⟩ := h.agrees.exists_entity hview
    have helement : Succeeds (elementHost scope t) := exists_elementHost scope h
    simp only [entityOf_eq_ok hr, ok_bind]
    cases r.kind <;> simp [helement]
  | array | list | hash | error => simp

/-! ### Elements in their native form -/

/-- All types but arrays have a native type, whatever is inside. -/
theorem succeeds_resolveNative_of_view (h : t.WellShaped) (hview : t.view ≠ .array) :
    Succeeds (resolveNative t) := by
  have hlast : ∀ e, ¬t.CElement e := by
    intro e he
    rw [view, he.tag] at hview
    exact hview rfl
  rw [resolveNative_eq h]
  exact exists_nativeType h hlast

/-- What can be stored in its native form has a native type. -/
theorem succeeds_resolveNative (h : t.WellShaped) (hfits : t.FitsPlace) :
    Succeeds (resolveNative t) := by
  refine succeeds_resolveNative_of_view h fun hview => ?_
  rw [FitsPlace, hview] at hfits
  exact hfits

theorem succeeds_valueIn_iff (h : t.WellShaped) (v : Expr) :
    Succeeds (t.valueIn v) ↔ t.FitsPlace := by
  unfold valueIn
  rw [succeeds_bind_iff (p := t.FitsPlace) fun native => ?_]
  · exact and_iff_right_of_imp (succeeds_resolveNative h)
  · unfold FitsPlace
    cases hview : t.view with
    | void | basic | typeHandle | boolean => cases t.pointer <;> simp
    | string => simp
    | named =>
      obtain ⟨r, hr⟩ := h.agrees.exists_entity hview
      simp only [entityOf_eq_ok hr, ok_bind, entityKind, hr, Option.map_some, Option.some.injEq]
      cases r.kind <;> cases t.pointer <;> simp
    | array | list | hash | error => simp

/-- Other than on the way in, instances have no rule on the way out. -/
theorem succeeds_valueOut_iff (h : t.WellShaped) (v : Expr) :
    Succeeds (t.valueOut scope v) ↔ t.FitsPlace ∧ ¬t.IsInstance := by
  have hhost : Succeeds (resolveHost scope t false) := exists_resolveHost scope h false
  unfold valueOut FitsPlace IsInstance
  cases hview : t.view with
  | named =>
    obtain ⟨r, hr⟩ := h.agrees.exists_entity hview
    have hcopy : Succeeds (t.heapCopy scope v) := by
      rw [heapCopy, entityOf_eq_ok hr, ok_bind]
      exact succeeds_pure _
    simp only [entityOf_eq_ok hr, ok_bind, entityKind, hr, Option.map_some, Option.some.injEq]
    cases r.kind <;> cases t.pointer <;> simp [hhost, hcopy]
  | void | boolean =>
    have hentity := h.agrees.entity_eq_none (by simp [hview])
    cases t.pointer <;> simp [entityKind, hentity]
  | basic | typeHandle =>
    have hentity := h.agrees.entity_eq_none (by simp [hview])
    cases t.pointer <;> simp [entityKind, hentity, hhost]
  | string | array | list | hash | error =>
    have hentity := h.agrees.entity_eq_none (by simp [hview])
    simp [entityKind, hentity]

/-- Instances are of a registered type. -/
theorem IsInstance.view (h : t.Agrees) (hinstance : t.IsInstance) : t.view = .named := by
  by_contra hview
  have hentity := h.entity_eq_none hview
  simp [IsInstance, entityKind, hentity] at hinstance

/-- An instance can be passed. -/
theorem IsInstance.fitsPlace (h : t.Agrees) (hinstance : t.IsInstance) : t.FitsPlace := by
  rw [FitsPlace, hinstance.view h]
  exact fun _ => hinstance.1

/-- Where an instance is read, there is no rule for it. -/
theorem valueOut_of_isInstance (h : t.Agrees) (hinstance : t.IsInstance) (v : Expr) :
    t.valueOut scope v = .error (.unsupported .arrayElement t.text) := by
  have hview := hinstance.view h
  obtain ⟨r, hr⟩ := h.exists_entity hview
  obtain ⟨hpointer, hkind⟩ := hinstance
  simp only [entityKind, hr, Option.map_some, Option.some.injEq] at hkind
  unfold valueOut
  rw [hview]
  simp only [entityOf_eq_ok hr, ok_bind, hpointer]
  rcases hkind with hkind | hkind <;> rw [hkind] <;> rfl

/-! ### Containers -/

/-- There is a rule for passing the elements of the container. -/
def FitsContainer (t : TypeDesc) : Prop :=
  match t.view with
  | .list _ | .hash => ∀ e ∈ t.params, e.FitsWord
  | .array =>
    match t.array.map ArrayInfo.storage with
    | some .c | some .array => ∀ e ∈ t.params, e.FitsPlace
    | some .ptrArray => ∀ e ∈ t.params, e.FitsWord
    | some .byteArray | none => True
  | _ => False

/-- The elements of the container are instances of the type `e`, one behind the other: they are
those of a C array or of a dynamic array. -/
structure HoldsInstances (t e : TypeDesc) : Prop where
  params : t.params = [e]
  storage : ∃ info, t.array = some info ∧ (info.storage = .c ∨ info.storage = .array)
  isInstance : e.IsInstance

/-- Only arrays hold instances one behind the other. -/
theorem HoldsInstances.view {e : TypeDesc} (h : t.Agrees) (hholds : t.HoldsInstances e) :
    t.view = .array := by
  obtain ⟨info, hinfo, -⟩ := hholds.storage
  have htag : t.tag = .array := h.array.mpr (by rw [hinfo]; rfl)
  rw [TypeDesc.view, htag]
  rfl

theorem HoldsInstances.wellShaped {e : TypeDesc} (h : t.WellShaped)
    (hholds : t.HoldsInstances e) : e.WellShaped :=
  h.of_mem_params (by rw [hholds.params]; exact List.mem_cons_self)

/-- An array of instances is passed. -/
theorem HoldsInstances.fitsContainer {e : TypeDesc} (h : t.WellShaped)
    (hholds : t.HoldsInstances e) : t.FitsContainer := by
  have hview := hholds.view h.agrees
  have hfits := hholds.isInstance.fitsPlace (hholds.wellShaped h).agrees
  obtain ⟨hparams, ⟨info, hinfo, hstorage⟩, -⟩ := hholds
  unfold FitsContainer
  rw [hview, hinfo, hparams]
  rcases hstorage with hstorage | hstorage <;> simpa [hstorage] using hfits

/-- Whether an array holds instances is a matter of its storage and of its one type of elements. -/
theorem forall_not_holdsInstances_iff {info : ArrayInfo} {element : TypeDesc}
    (hinfo : t.array = some info) (hparams : t.params = [element]) :
    (∀ e, ¬t.HoldsInstances e)
      ↔ (info.storage = .c ∨ info.storage = .array → ¬element.IsInstance) := by
  constructor
  · intro h hstorage hinstance
    exact h element ⟨hparams, ⟨info, hinfo, hstorage⟩, hinstance⟩
  · rintro h e ⟨hparams', ⟨info', hinfo', hstorage⟩, hinstance⟩
    cases hinfo.symm.trans hinfo'
    cases hparams.symm.trans hparams'
    exact h hstorage hinstance

end TypeDesc

open TypeDesc

variable {t : TypeDesc}

namespace Input

variable (i : Input)

theorem succeeds_list_iff (h : t.WellShaped) {k : ListKind} (hview : t.view = .list k) :
    Succeeds (i.list k t) ↔ t.FitsContainer := by
  obtain ⟨element, hparams, helement⟩ := h.exists_list hview
  obtain ⟨native, hnative⟩ := succeeds_resolveNative_of_view h (by simp [hview])
  unfold list FitsContainer
  rw [elementOf_eq_ok hparams, ok_bind, hnative, ok_bind, hview]
  simp [hparams, succeeds_wordIn_iff helement]

theorem succeeds_hash_iff (h : t.WellShaped) (hview : t.view = .hash) :
    Succeeds (i.hash t) ↔ t.FitsContainer := by
  obtain ⟨key, value, hparams, hkey, hvalue⟩ := h.exists_hash hview
  unfold hash FitsContainer
  rw [elementOf_eq_ok hparams, ok_bind, valueOf_eq_ok hparams, ok_bind, hview,
    succeeds_bind_iff (p := value.FitsWord) fun _ => by simp [succeeds_wordIn_iff hvalue]]
  simp [hparams, succeeds_wordIn_iff hkey]

theorem succeeds_array_iff (h : t.WellShaped) (hview : t.view = .array) :
    Succeeds (i.array t) ↔ t.FitsContainer := by
  obtain ⟨info, element, hinfo, hparams, helement⟩ := h.exists_array hview
  have hplace := and_iff_right_of_imp (succeeds_resolveNative helement)
  unfold array FitsContainer
  rw [arrayInfoOf_eq_ok hinfo, ok_bind, elementOf_eq_ok hparams, ok_bind, hview, hinfo, hparams]
  cases hstorage : info.storage with
  | c | array =>
    simp only [Option.map_some, hstorage, List.forall_mem_singleton]
    rw [succeeds_bind_iff (p := element.FitsPlace) fun _ => by
      simp [succeeds_valueIn_iff helement], hplace]
  | ptrArray => simp [hstorage, succeeds_wordIn_iff helement]
  | byteArray => simp [hstorage]

/-- A container is passed if there is a rule for its elements. -/
theorem succeeds_convert_iff (h : t.WellShaped) (hcontainer : t.IsContainer) (nullable : Bool) :
    Succeeds (i.convert nullable t) ↔ t.FitsContainer := by
  unfold convert
  rcases hcontainer with ⟨k, hview⟩ | hview | hview <;> rw [hview]
  · exact succeeds_list_iff i h hview
  · exact succeeds_hash_iff i h hview
  · exact succeeds_array_iff i h hview

end Input

namespace Output

variable (scope : Scope) (o : Output)

/-- The number of elements is known: from another value or because it never changes, if the value
is a C array, and from the container itself if not. -/
def KnowsCount (o : Output) (t : TypeDesc) : Prop :=
  ∀ info, t.array = some info → info.storage = .c →
    o.length.isSome = true ∨ info.fixedSize.isSome = true

variable {o}

theorem succeeds_count {info : ArrayInfo}
    (hknown : o.length.isSome = true ∨ info.fixedSize.isSome = true) (element : TypeDesc)
    (native : GoType) : Succeeds (o.count element native info) := by
  unfold count
  split
  · exact succeeds_ok _
  · exact succeeds_ok _
  · rename_i hsize hlength
    simp [hsize, hlength] at hknown

variable (o)

theorem succeeds_list_iff (h : t.WellShaped) {k : ListKind} (hview : t.view = .list k) :
    Succeeds (o.list scope k t) ↔ t.FitsContainer := by
  obtain ⟨element, hparams, helement⟩ := h.exists_list hview
  unfold list FitsContainer
  rw [elementOf_eq_ok hparams, ok_bind, hview]
  simp [hparams, succeeds_wordOut_iff scope helement]

theorem succeeds_hash_iff (h : t.WellShaped) (hview : t.view = .hash) :
    Succeeds (o.hash scope t) ↔ t.FitsContainer := by
  obtain ⟨key, value, hparams, hkey, hvalue⟩ := h.exists_hash hview
  obtain ⟨host, hhost⟩ := exists_resolveHost scope h false
  unfold hash FitsContainer
  rw [elementOf_eq_ok hparams, ok_bind, valueOf_eq_ok hparams, ok_bind, hhost, ok_bind, hview,
    succeeds_bind_iff (p := value.FitsWord) fun _ => by simp [succeeds_wordOut_iff scope hvalue]]
  simp [hparams, succeeds_wordOut_iff scope hkey]

variable {o}

/-- An array is read if there is a rule for passing its elements, and no instances are among
them. -/
theorem succeeds_array_iff (h : t.WellShaped) (hview : t.view = .array)
    (hknown : o.KnowsCount t) :
    Succeeds (o.array scope t) ↔ t.FitsContainer ∧ ∀ e, ¬t.HoldsInstances e := by
  obtain ⟨info, element, hinfo, hparams, helement⟩ := h.exists_array hview
  have hplace : Succeeds (resolveNative element) ∧ element.FitsPlace ∧ ¬element.IsInstance
      ↔ element.FitsPlace ∧ ¬element.IsInstance :=
    and_iff_right_of_imp fun hfits => succeeds_resolveNative helement hfits.1
  unfold array FitsContainer
  rw [arrayInfoOf_eq_ok hinfo, ok_bind, elementOf_eq_ok hparams, ok_bind, hview, hinfo, hparams,
    forall_not_holdsInstances_iff hinfo hparams]
  cases hstorage : info.storage with
  | c =>
    simp only [Option.map_some, hstorage, List.forall_mem_singleton]
    rw [succeeds_bind_iff (p := element.FitsPlace ∧ ¬element.IsInstance) fun native => ?_, hplace]
    · simp
    · -- Counting and the host type do not fail, so that the elements decide.
      have hcounted := hknown info hinfo hstorage
      obtain ⟨⟨counting, count⟩, hcount⟩ := succeeds_count hcounted element native
      obtain ⟨host, hhost⟩ := exists_resolveHost scope h false
      rw [hcount, ok_bind]
      dsimp only
      rw [hhost, ok_bind]
      simp [succeeds_valueOut_iff scope helement]
  | array =>
    simp only [Option.map_some, hstorage, List.forall_mem_singleton]
    rw [succeeds_bind_iff (p := element.FitsPlace ∧ ¬element.IsInstance) fun _ => by
      simp [succeeds_valueOut_iff scope helement], hplace]
    simp
  | ptrArray => simp [hstorage, succeeds_wordOut_iff scope helement]
  | byteArray => simp [hstorage]

/-- A container is read if there is a rule for passing its elements, and no instances are among
them. -/
theorem succeeds_convert_iff (h : t.WellShaped) (hcontainer : t.IsContainer)
    (hknown : o.KnowsCount t) :
    Succeeds (o.convert scope t) ↔ t.FitsContainer ∧ ∀ e, ¬t.HoldsInstances e := by
  have hno : t.view ≠ .array → ∀ e, ¬t.HoldsInstances e := fun hview e hholds =>
    hview (hholds.view h.agrees)
  unfold convert
  rcases hcontainer with ⟨k, hview⟩ | hview | hview <;> rw [hview]
  · rw [and_iff_left (hno (by simp [hview]))]
    exact succeeds_list_iff scope o h hview
  · rw [and_iff_left (hno (by simp [hview]))]
    exact succeeds_hash_iff scope o h hview
  · exact succeeds_array_iff scope h hview hknown

/-- Where instances are read from an array, there is no rule for them. -/
theorem convert_of_holdsInstances (h : t.WellShaped) (hknown : o.KnowsCount t) {e : TypeDesc}
    (hholds : t.HoldsInstances e) :
    o.convert scope t = .error (.unsupported .arrayElement e.text) := by
  have hview := hholds.view h.agrees
  have helement := hholds.wellShaped h
  obtain ⟨hparams, ⟨info, hinfo, hstorage⟩, hinstance⟩ := hholds
  obtain ⟨native, hnative⟩ :=
    succeeds_resolveNative helement (hinstance.fitsPlace helement.agrees)
  have hvalue := fun v => valueOut_of_isInstance scope helement.agrees hinstance v
  unfold convert
  rw [hview]
  show o.array scope t = _
  unfold array
  rw [arrayInfoOf_eq_ok hinfo, ok_bind, elementOf_eq_ok hparams, ok_bind]
  rcases hstorage with hstorage | hstorage
  · have hcounted := hknown info hinfo hstorage
    obtain ⟨⟨counting, count⟩, hcount⟩ := succeeds_count hcounted e native
    obtain ⟨host, hhost⟩ := exists_resolveHost scope h false
    simp only [hstorage]
    rw [hnative, ok_bind, hcount, ok_bind]
    dsimp only
    rw [hhost, ok_bind, hvalue]
    rfl
  · simp only [hstorage]
    rw [hnative, ok_bind, hvalue]
    rfl

end Output

/-- A container is passed exactly if it is read, but for arrays of instances: those are passed, and
refused where they would be read. -/
theorem convert_symmetric (scope : Scope) (i : Input) (nullable : Bool) {o : Output}
    (h : t.WellShaped) (hcontainer : t.IsContainer) (hknown : o.KnowsCount t) :
    ((∀ e, ¬t.HoldsInstances e) →
        (Succeeds (i.convert nullable t) ↔ Succeeds (o.convert scope t)))
      ∧ ∀ e, t.HoldsInstances e →
        Succeeds (i.convert nullable t)
          ∧ o.convert scope t = .error (.unsupported .arrayElement e.text) := by
  have hinput := i.succeeds_convert_iff h hcontainer nullable
  have houtput := Output.succeeds_convert_iff scope h hcontainer hknown
  constructor
  · intro hno
    rw [hinput, houtput, and_iff_left hno]
  · intro e hholds
    exact ⟨hinput.mpr (hholds.fitsContainer h),
      Output.convert_of_holdsInstances scope h hknown hholds⟩

/-- Two texts in a C array. -/
def TypeDesc.twoNames : TypeDesc := .ofArray ⟨.c, none, some 2, false⟩ .utf8

/-- Two buttons, which are no pointers, in a C array. -/
def TypeDesc.twoButtons : TypeDesc :=
  .ofArray ⟨.c, none, some 2, false⟩ (TypeDesc.named ⟨"Gtk", "Button", .object⟩).byValue

/-- A value that is passed. -/
def Input.ofPassed : Input := ⟨"real_in", .host "in", .none⟩

/-- A value that is read, with nothing but its type to tell how many elements it has. -/
def Output.ofRead : Output := ⟨.inner "real_out", "real_out", .host "out", .none, none⟩

theorem TypeDesc.wellShaped_twoNames_twoButtons : twoNames.WellShaped ∧ twoButtons.WellShaped :=
  ⟨shapeDefect_eq_none_iff.mp (by decide), shapeDefect_eq_none_iff.mp (by decide)⟩

theorem Output.knowsCount_ofRead :
    ofRead.KnowsCount TypeDesc.twoNames ∧ ofRead.KnowsCount TypeDesc.twoButtons := by
  constructor <;> intro info hinfo _ <;> cases hinfo <;> exact Or.inr rfl

/-- Texts are passed and read; buttons are passed only. -/
theorem convert_symmetric_twoNames_twoButtons :
    Succeeds (Output.ofRead.convert (.ofHome "Gtk") .twoNames)
      ∧ Succeeds (Input.ofPassed.convert false .twoButtons)
      ∧ Output.ofRead.convert (.ofHome "Gtk") .twoButtons
        = .error (.unsupported .arrayElement "Gtk.Button") := by
  have hnames : ∀ e, ¬TypeDesc.twoNames.HoldsInstances e := by
    rintro e ⟨hparams, -, hinstance⟩
    cases hparams
    exact absurd hinstance.1 (by decide)
  have hbuttons : TypeDesc.twoButtons.HoldsInstances
      (TypeDesc.named ⟨"Gtk", "Button", .object⟩).byValue :=
    ⟨rfl, ⟨_, rfl, Or.inl rfl⟩, rfl, Or.inl rfl⟩
  have hpassed : Succeeds (Input.ofPassed.convert false .twoNames) := ⟨_, rfl⟩
  obtain ⟨hagree, -⟩ := convert_symmetric (.ofHome "Gtk") Input.ofPassed false
    TypeDesc.wellShaped_twoNames_twoButtons.1 (Or.inr (Or.inr rfl)) Output.knowsCount_ofRead.1
  obtain ⟨-, hinstances⟩ := convert_symmetric (.ofHome "Gtk") Input.ofPassed false
    TypeDesc.wellShaped_twoNames_twoButtons.2 (Or.inr (Or.inr rfl)) Output.knowsCount_ofRead.2
  exact ⟨(hagree hnames).mp hpassed, hinstances _ hbuttons⟩

/-- A C array of two buttons is passed, and not read although their number is known. -/
theorem not_succeeds_convert_iff_twoButtons :
    TypeDesc.twoButtons.WellShaped ∧ TypeDesc.twoButtons.IsContainer
      ∧ Output.ofRead.KnowsCount .twoButtons
      ∧ ¬(Succeeds (Input.ofPassed.convert false .twoButtons)
        ↔ Succeeds (Output.ofRead.convert (.ofHome "Gtk") .twoButtons)) := by
  refine ⟨TypeDesc.wellShaped_twoNames_twoButtons.2, Or.inr (Or.inr rfl),
    Output.knowsCount_ofRead.2, fun hagree => ?_⟩
  have hpassed : Succeeds (Input.ofPassed.convert false .twoButtons) := ⟨_, rfl⟩
  obtain ⟨code, hcode⟩ := hagree.mp hpassed
  cases hcode

end Introspection
