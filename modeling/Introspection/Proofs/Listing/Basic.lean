import Introspection.Proofs.Conversion.Home
import Introspection.Proofs.Listing.Block
import Introspection.Proofs.Resolution.Escape

/-!
# `Introspection.Proofs.Listing.Basic`: colours are decoration

A printer takes its palette along wherever it writes. Still, two listings of a namespace that differ
in the choice of colours alone show the same blocks, each in its own palette
(`Namespace.listing_eq`). Every span of these blocks shows a fixed word, a number, a text of the
namespace, a resolved type or the message of an error, so where neither the namespace nor the name
of the package has an escape character no span has one. Erasing the colours of one listing then
gives the other (`erase_listing`).
-/

set_option autoImplicit false

namespace Introspection

namespace Listing

open Introspection.Text (EscapeFree)

variable {scope : Scope}

/-! ### Spans -/

theorem escapeFree_orVoid {s : String} (h : EscapeFree s) : EscapeFree (orVoid s) := by
  unfold orVoid
  split
  · decide
  · exact h

/-- A message in angle brackets. -/
theorem escapeFree_bracketed {message : String} (h : EscapeFree message) :
    EscapeFree ("<" ++ message ++ ">") := by
  simp +decide [h]

/-- Both spellings of a type are shown, or the message of an error. -/
theorem escapeFree_typeSpans {t : TypeDesc} (h : TypeDesc.codec.EscapeFree t) (isArg : Bool) :
    ∀ s ∈ typeSpans scope t isArg, EscapeFree s.text := by
  unfold typeSpans
  split
  · next native host hnative hhost =>
    have hn := escapeFree_orVoid (escapeFree_text_of_resolveNative h native hnative)
    have hh := escapeFree_orVoid (escapeFree_text_of_resolveHost h scope isArg host hhost)
    simp +decide [plain, keyword, hn, hh]
  · next e _ herr =>
    have he := escapeFree_bracketed (escapeFree_message_of_resolveNative h herr)
    simpa [keyword] using he
  · next e herr _ =>
    have he := escapeFree_bracketed (escapeFree_message_of_resolveHost h herr)
    simpa [keyword] using he

theorem escapeFree_deprecatedSpans (deprecated : Bool) :
    ∀ s ∈ deprecatedSpans deprecated, EscapeFree s.text := by
  cases deprecated <;> decide

theorem escapeFree_flagSpans (applies : Bool) {word : String} (h : EscapeFree word) :
    ∀ s ∈ flagSpans applies word, EscapeFree s.text := by
  cases applies <;> simp +decide [flagSpans, plain, keyword, h]

/-! ### Lines -/

theorem escapeFree_labelled {depth : Nat} {word text : String} (hword : EscapeFree word)
    (htext : EscapeFree text) : (labelled depth word text).EscapeFree := by
  simp +decide [Line.EscapeFree, labelled, plain, keyword, hword, htext]

theorem escapeFree_typed {depth : Nat} {word subject : String} {t : TypeDesc} {isArg : Bool}
    {further : List Span} (hword : EscapeFree word) (hsubject : EscapeFree subject)
    (ht : TypeDesc.codec.EscapeFree t) (hfurther : ∀ s ∈ further, EscapeFree s.text) :
    (typed scope depth word subject t isArg further).EscapeFree := by
  unfold Line.EscapeFree typed
  simp only [List.forall_mem_append, List.forall_mem_cons]
  refine ⟨⟨hword, ?_, escapeFree_typeSpans ht isArg⟩, hfurther⟩
  simp +decide [plain, hsubject]

theorem escapeFree_parameterLine {depth : Nat} {p : Parameter}
    (h : Parameter.codec.EscapeFree p) : (parameterLine scope depth p).EscapeFree := by
  obtain ⟨hname, htype⟩ := Parameter.escapeFree_iff.mp h
  exact escapeFree_typed p.direction.escapeFree_name hname htype
    (escapeFree_flagSpans p.skip (by decide))

theorem escapeFree_signatureLines {depth : Nat} {params : List Parameter} {result : TypeDesc}
    (hparams : ∀ p ∈ params, Parameter.codec.EscapeFree p)
    (hresult : TypeDesc.codec.EscapeFree result) :
    Block.EscapeFree (signatureLines scope depth params result) := by
  unfold signatureLines
  refine List.forall_mem_append.mpr ⟨?_, ?_⟩
  · exact List.forall_mem_map.mpr fun p hp => escapeFree_parameterLine (hparams p hp)
  · split
    · exact List.forall_mem_nil _
    · refine List.forall_mem_singleton.mpr (List.forall_mem_cons.mpr ⟨?_, ?_⟩)
      · decide
      · exact List.forall_mem_cons.mpr ⟨by decide, escapeFree_typeSpans hresult false⟩

theorem escapeFree_functionLines {depth : Nat} {f : Function} (h : Function.codec.EscapeFree f) :
    Block.EscapeFree (functionLines scope depth f) := by
  obtain ⟨hname, hsymbol, hparams, hresult⟩ := Function.escapeFree_iff.mp h
  refine List.forall_mem_cons.mpr ⟨?_, escapeFree_signatureLines hparams hresult⟩
  have hword : EscapeFree (functionWord f) := by
    unfold functionWord
    split_ifs <;> decide
  unfold Line.EscapeFree
  simp only [List.forall_mem_append]
  refine ⟨⟨?_, escapeFree_flagSpans _ (by decide)⟩, escapeFree_deprecatedSpans _⟩
  simp +decide [plain, keyword, name, hword, hname, hsymbol]

theorem escapeFree_fieldLine {f : FieldDecl} (h : FieldDecl.codec.EscapeFree f) :
    (fieldLine scope f).EscapeFree := by
  obtain ⟨hname, htype⟩ := FieldDecl.escapeFree_iff.mp h
  have haccess : ∀ readable writable, EscapeFree (accessText readable writable) := by decide
  exact escapeFree_typed (by decide) hname htype
    (List.forall_mem_singleton.mpr (haccess f.readable f.writable))

theorem escapeFree_propertyLine {p : Property} (h : Property.codec.EscapeFree p) :
    (propertyLine scope p).EscapeFree := by
  obtain ⟨hname, htype⟩ := Property.escapeFree_iff.mp h
  exact escapeFree_typed (by decide) hname htype nofun

theorem escapeFree_signalLines {s : Signal} (h : Signal.codec.EscapeFree s) :
    Block.EscapeFree (signalLines scope s) := by
  obtain ⟨hname, hparams, hresult⟩ := Signal.escapeFree_iff.mp h
  refine List.forall_mem_cons.mpr ⟨?_, escapeFree_signatureLines hparams hresult⟩
  refine List.forall_mem_append.mpr ⟨?_, escapeFree_deprecatedSpans _⟩
  simp +decide [plain, keyword, hname]

theorem escapeFree_slotLines {s : VirtualSlot} (h : VirtualSlot.codec.EscapeFree s) :
    Block.EscapeFree (slotLines scope s) := by
  obtain ⟨hname, hparams, hresult, hinvoker⟩ := VirtualSlot.escapeFree_iff.mp h
  refine List.forall_mem_cons.mpr ⟨?_, escapeFree_signatureLines hparams hresult⟩
  refine List.forall_mem_append.mpr ⟨?_, ?_⟩
  · simp +decide [plain, keyword, hname]
  · split
    · next i hi => simp +decide [plain, keyword, hinvoker i hi]
    · exact List.forall_mem_nil _

theorem escapeFree_memberLines {methods : List Function} {properties : List Property}
    {signals : List Signal} {slots : List VirtualSlot}
    (hmethods : ∀ m ∈ methods, Function.codec.EscapeFree m)
    (hproperties : ∀ p ∈ properties, Property.codec.EscapeFree p)
    (hsignals : ∀ s ∈ signals, Signal.codec.EscapeFree s)
    (hslots : ∀ s ∈ slots, VirtualSlot.codec.EscapeFree s) :
    Block.EscapeFree (memberLines scope methods properties signals slots) := by
  unfold memberLines Block.EscapeFree
  simp only [List.forall_mem_append, List.forall_mem_map, List.forall_mem_flatMap]
  exact ⟨⟨⟨fun p hp => escapeFree_propertyLine (hproperties p hp),
    fun m hm => escapeFree_functionLines (hmethods m hm)⟩,
    fun s hs => escapeFree_signalLines (hsignals s hs)⟩,
    fun s hs => escapeFree_slotLines (hslots s hs)⟩

/-! ### Blocks -/

theorem escapeFree_listed {v : ConstantValue} : EscapeFree v.listed := by
  cases v with
  | bool b => cases b <;> decide
  | int n => exact Text.escapeFree_intText n.toInt
  | float x => exact Text.escapeFree_write_plainLayout x
  | string s => exact Text.escapeFree_listed s

theorem escapeFree_constantBlock {c : Constant} (h : Constant.codec.EscapeFree c) :
    (constantBlock scope c).EscapeFree := by
  obtain ⟨hname, htype, _⟩ := Constant.escapeFree_iff.mp h
  refine List.forall_mem_singleton.mpr ?_
  unfold Line.EscapeFree
  simp only [List.forall_mem_append]
  refine ⟨⟨?_, escapeFree_typeSpans htype false⟩, ?_⟩
  · simp +decide [plain, name, hname]
  · simp +decide [plain, escapeFree_listed]

theorem escapeFree_valueLine {v : EnumValue} (h : EnumValue.codec.EscapeFree v) :
    (valueLine v).EscapeFree := by
  obtain ⟨hname, _⟩ := EnumValue.escapeFree_iff.mp h
  refine List.forall_mem_cons.mpr ⟨?_, escapeFree_deprecatedSpans _⟩
  simp +decide [plain, hname]

/-- The lines of functions in a row. -/
theorem escapeFree_methodLines {methods : List Function}
    (h : ∀ m ∈ methods, Function.codec.EscapeFree m) :
    Block.EscapeFree (methods.flatMap (functionLines scope 1)) :=
  List.forall_mem_flatMap.mpr fun m hm => escapeFree_functionLines (h m hm)

/-- The lines of fields in a row. -/
theorem escapeFree_fieldLines {fields : List FieldDecl}
    (h : ∀ f ∈ fields, FieldDecl.codec.EscapeFree f) :
    Block.EscapeFree (fields.map (fieldLine scope)) :=
  List.forall_mem_map.mpr fun f hf => escapeFree_fieldLine (h f hf)

/-- The lines that name registered types, or whatever else has a text. -/
theorem escapeFree_labelledLines {α : Type} {word : String} {text : α → String} {as : List α}
    (hword : EscapeFree word) (h : ∀ a ∈ as, EscapeFree (text a)) :
    Block.EscapeFree (as.map fun a => labelled 1 word (text a)) :=
  List.forall_mem_map.mpr fun a ha => escapeFree_labelled hword (h a ha)

theorem escapeFree_enumBlock {e : Enumeration} (h : Enumeration.codec.EscapeFree e) :
    (enumBlock scope e).EscapeFree := by
  obtain ⟨hname, hvalues, hmethods, hdomain⟩ := Enumeration.escapeFree_iff.mp h
  have hstorage : TypeDesc.codec.EscapeFree (.ofTag e.storage) :=
    TypeDesc.escapeFree_iff.mpr ⟨nofun, nofun⟩
  have hword : EscapeFree (if e.isFlags then "flags" else "enum") := by
    split <;> decide
  unfold enumBlock Block.EscapeFree
  simp only [List.forall_mem_append, List.forall_mem_cons]
  refine ⟨⟨⟨?_, ?_⟩, ?_⟩, escapeFree_methodLines hmethods⟩
  · refine List.forall_mem_append.mpr ⟨?_, escapeFree_typeSpans hstorage false⟩
    simp +decide [plain, keyword, name, hword, hname]
  · cases hdomains : e.errorDomain with
    | none => exact List.forall_mem_nil _
    | some d =>
      exact List.forall_mem_singleton.mpr (escapeFree_labelled (by decide) (hdomain d hdomains))
  · exact List.forall_mem_map.mpr fun v hv => escapeFree_valueLine (hvalues v hv)

theorem escapeFree_interfaceBlock {i : Interface} (h : Interface.codec.EscapeFree i) :
    (interfaceBlock scope i).EscapeFree := by
  obtain ⟨hname, hprerequisites, hmethods, hsignals, hslots, hproperties, _⟩ :=
    Interface.escapeFree_iff.mp h
  unfold interfaceBlock Block.EscapeFree
  simp only [List.forall_mem_append, List.forall_mem_cons]
  refine ⟨⟨?_, ?_⟩, escapeFree_memberLines hmethods hproperties hsignals hslots⟩
  · refine List.forall_mem_append.mpr ⟨?_, escapeFree_deprecatedSpans _⟩
    simp +decide [plain, keyword, name, hname]
  · exact escapeFree_labelledLines (by decide) fun r hr =>
      EntityRef.escapeFree_text (hprerequisites r hr)

theorem escapeFree_objectBlock {o : Object} (h : Object.codec.EscapeFree o) :
    (objectBlock scope o).EscapeFree := by
  obtain ⟨hname, hparent, hinterfaces, hfields, hmethods, hsignals, hslots, hproperties, _⟩ :=
    Object.escapeFree_iff.mp h
  unfold objectBlock Block.EscapeFree
  simp only [List.forall_mem_append, List.forall_mem_cons]
  refine ⟨⟨⟨?_, ?_⟩, escapeFree_fieldLines hfields⟩,
    escapeFree_memberLines hmethods hproperties hsignals hslots⟩
  · unfold Line.EscapeFree
    simp only [List.forall_mem_append]
    refine ⟨⟨⟨?_, ?_⟩, escapeFree_flagSpans _ (by decide)⟩, escapeFree_deprecatedSpans _⟩
    · simp +decide [plain, keyword, name, hname]
    · split
      · next p hp => simp +decide [plain, EntityRef.escapeFree_text (hparent p hp)]
      · exact List.forall_mem_nil _
  · exact escapeFree_labelledLines (by decide) fun r hr =>
      EntityRef.escapeFree_text (hinterfaces r hr)

theorem escapeFree_recordBlock {word title : String} {size : UInt64} {isClass deprecated : Bool}
    {fields : List FieldDecl} {methods : List Function} (hword : EscapeFree word)
    (htitle : EscapeFree title) (hfields : ∀ f ∈ fields, FieldDecl.codec.EscapeFree f)
    (hmethods : ∀ m ∈ methods, Function.codec.EscapeFree m) :
    (recordBlock scope word title size isClass deprecated fields methods).EscapeFree := by
  unfold recordBlock Block.EscapeFree
  simp only [List.forall_mem_append, List.forall_mem_cons]
  refine ⟨⟨?_, escapeFree_fieldLines hfields⟩, escapeFree_methodLines hmethods⟩
  unfold Line.EscapeFree
  simp only [List.forall_mem_append]
  refine ⟨⟨?_, escapeFree_flagSpans _ (by decide)⟩, escapeFree_deprecatedSpans _⟩
  simp +decide [plain, keyword, name, hword, htitle]

theorem escapeFree_headBlock {ns : Namespace} {options : Options} (h : ns.EscapeFree)
    (hpackage : ∀ p, options.package = some p → EscapeFree p) :
    (headBlock ns options).EscapeFree := by
  obtain ⟨hname, hversion, hdependencies, _⟩ := Namespace.escapeFree_iff.mp h
  have hshown : EscapeFree (Package.ofNamespace ns options).name := by
    show EscapeFree (options.package.getD (Naming.packageName ns.name))
    cases hoverride : options.package with
    | none => exact Text.escapeFree_packageName hname
    | some p => exact hpackage p hoverride
  unfold headBlock Block.EscapeFree
  simp only [List.forall_mem_append, List.forall_mem_cons]
  refine ⟨⟨?_, ?_⟩, ?_, ?_⟩
  · simp +decide [Line.EscapeFree, plain, keyword, name, hname]
  · cases hversions : ns.version with
    | none => exact List.forall_mem_nil _
    | some v =>
      exact List.forall_mem_singleton.mpr (escapeFree_labelled (by decide) (hversion v hversions))
  · exact escapeFree_labelled (by decide) hshown
  · exact escapeFree_labelledLines (by decide) hdependencies

/-- Every line that lists a namespace is free of escape characters when its texts are. -/
theorem escapeFree_blocks {ns : Namespace} {options : Options} (h : ns.EscapeFree)
    (hpackage : ∀ p, options.package = some p → EscapeFree p) :
    ∀ b ∈ blocks ns options, b.EscapeFree := by
  obtain ⟨_, _, _, hconstants, henums, hinterfaces, hobjects, hstructs, hunions, hfunctions⟩ :=
    Namespace.escapeFree_iff.mp h
  unfold blocks Namespace.entities
  simp only [List.forall_mem_append, List.forall_mem_cons, List.forall_mem_map, List.map_append,
    List.map_map]
  refine ⟨⟨⟨escapeFree_headBlock h hpackage, ?_⟩, ⟨⟨⟨?_, ?_⟩, ?_⟩, ?_⟩, ?_⟩, ?_⟩
  · exact fun c hc => escapeFree_constantBlock (hconstants c hc)
  · exact fun e he => escapeFree_enumBlock (henums e he)
  · exact fun i hi => escapeFree_interfaceBlock (hinterfaces i hi)
  · exact fun o ho => escapeFree_objectBlock (hobjects o ho)
  · intro s hs
    obtain ⟨hname, hfields, hmethods⟩ := Struct.escapeFree_iff.mp (hstructs s hs)
    exact escapeFree_recordBlock (by decide) hname hfields hmethods
  · intro u hu
    obtain ⟨hname, hfields, hmethods⟩ := Union.escapeFree_iff.mp (hunions u hu)
    exact escapeFree_recordBlock (by decide) hname hfields hmethods
  · exact fun f hf => escapeFree_functionLines (hfunctions f hf)

/-! ### Scopes of one namespace -/

section Home

variable {s s' : Scope} (h : s.home = s'.home)

include h

theorem typeSpans_congr : typeSpans s = typeSpans s' := by
  funext t isArg
  simp only [typeSpans, resolveHost_congr h]

theorem typed_congr : typed s = typed s' := by
  funext depth word subject t isArg further
  simp only [typed, typeSpans_congr h]

theorem signatureLines_congr : signatureLines s = signatureLines s' := by
  have hline : parameterLine s = parameterLine s' := by
    funext depth p
    simp only [parameterLine, typed_congr h]
  funext depth params result
  simp only [signatureLines, hline, typeSpans_congr h]

theorem functionLines_congr : functionLines s = functionLines s' := by
  funext depth f
  simp only [functionLines, signatureLines_congr h]

theorem fieldLine_congr : fieldLine s = fieldLine s' := by
  funext f
  simp only [fieldLine, typed_congr h]

theorem memberLines_congr : memberLines s = memberLines s' := by
  have hproperty : propertyLine s = propertyLine s' := by
    funext p
    simp only [propertyLine, typed_congr h]
  have hsignal : signalLines s = signalLines s' := by
    funext g
    simp only [signalLines, signatureLines_congr h]
  have hslot : slotLines s = slotLines s' := by
    funext v
    simp only [slotLines, signatureLines_congr h]
  funext methods properties signals slots
  simp only [memberLines, hproperty, hsignal, hslot, functionLines_congr h]

theorem constantBlock_congr : constantBlock s = constantBlock s' := by
  funext c
  simp only [constantBlock, typeSpans_congr h]

theorem entityBlock_congr : entityBlock s = entityBlock s' := by
  funext e
  cases e <;> simp only [entityBlock, enumBlock, interfaceBlock, objectBlock, recordBlock,
    typeSpans_congr h, functionLines_congr h, fieldLine_congr h, memberLines_congr h]

end Home

end Listing

/-! ### Two listings -/

namespace Namespace

/-- Of the options, the package alone decides what a listing shows. -/
theorem blocks_eq {ns : Namespace} {o o' : Options} (hpackage : o'.package = o.package) :
    Listing.blocks ns o' = Listing.blocks ns o := by
  have hhome : (ns.scope o').home = (ns.scope o).home := rfl
  have hname : (ns.scope o').package.name = (ns.scope o).package.name := by
    simp only [scope, Package.ofNamespace, hpackage]
  simp only [Listing.blocks, Listing.headBlock, hname, Listing.constantBlock_congr hhome,
    Listing.entityBlock_congr hhome, Listing.functionLines_congr hhome]

/-- Where neither the namespace nor the package has an escape character, erasing the colours of a
listing gives the listing without colours. -/
theorem erase_listing {ns : Namespace} {o o' : Options} (hns : ns.EscapeFree)
    (hpackage : ∀ p, o.package = some p → Text.EscapeFree p) (hsame : o'.package = o.package)
    (hcolored : o.colored = true) (hplain : o'.colored = false) :
    Listing.Palette.on.erase (ns.listing o) = ns.listing o' := by
  have hblocks := Listing.escapeFree_blocks hns hpackage
  rw [listing_eq, listing_eq, hcolored, hplain, blocks_eq hsame]
  exact Listing.erase_render hblocks

/-- A namespace with one function. -/
def quitNamespace : Namespace := (ofName "Gtk").addFunction (.ofSymbol "quit" "gtk_quit")

/-- Erasing the colours from the listing of `quitNamespace` leaves its lines. -/
theorem erase_listing_ofQuit :
    Listing.Palette.on.erase (quitNamespace.listing { Options.default with colored := true })
      = "namespace Gtk\n  package gtk\n\nfunction quit (gtk_quit)\n" := by
  have hns : quitNamespace.EscapeFree := by
    unfold EscapeFree Json.Codec.EscapeFree
    decide +kernel
  have hpackage : ∀ p, Options.default.package = some p → Text.EscapeFree p := by
    intro p hp
    cases hp
  have herased : Listing.Palette.on.erase
      (quitNamespace.listing { Options.default with colored := true })
        = quitNamespace.listing .default :=
    erase_listing hns hpackage rfl rfl rfl
  exact herased.trans (by decide +kernel)

end Namespace

end Introspection
