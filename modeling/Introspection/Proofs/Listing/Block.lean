import Introspection.Listing.Basic
import Introspection.Proofs.Listing.Styled
import Introspection.Proofs.Text.Line

/-!
# `Introspection.Proofs.Listing.Block`: a listing as blocks of spans

Which blocks a listing shows, of which lines and spans, does not depend on its colours (`blocks`).
What a `Printer` writes are these blocks in the colours of its palette (`Namespace.listing_eq`):
there is one lemma for each of its functions, which says what it writes behind a given text.
-/

set_option autoImplicit false

namespace Introspection

open Introspection.Text (natText intText joined)

namespace Listing

/-! ### What a listing shows -/

/-- Both spellings of a type. -/
def typeSpans (scope : Scope) (t : TypeDesc) (isArg : Bool) : List Span :=
  match resolveNative t, resolveHost scope t isArg with
  | .ok native, .ok host =>
    [⟨.native, orVoid native.text⟩, plain " ", keyword "/", plain " ", ⟨.host, orVoid host.text⟩]
  | .error e, _ => [keyword ("<" ++ e.message ++ ">")]
  | _, .error e => [keyword ("<" ++ e.message ++ ">")]

/-- A word at the end of a line about something deprecated. -/
def deprecatedSpans (deprecated : Bool) : List Span :=
  if deprecated then [plain " (deprecated)"] else []

/-- A keyword behind a blank, if it applies. -/
def flagSpans (applies : Bool) (word : String) : List Span :=
  if applies then [plain " ", keyword word] else []

/-- A keyword and a text. -/
def labelled (depth : Nat) (word text : String) : Line :=
  ⟨depth, [keyword word, plain (" " ++ text)]⟩

/-- A keyword, a name and a type. -/
def typed (scope : Scope) (depth : Nat) (word subject : String) (t : TypeDesc) (isArg : Bool)
    (further : List Span) : Line :=
  ⟨depth, keyword word :: plain (" " ++ subject ++ ": ") :: typeSpans scope t isArg ++ further⟩

/-- The line of a parameter. -/
def parameterLine (scope : Scope) (depth : Nat) (p : Parameter) : Line :=
  typed scope depth p.direction.name p.name p.type (p.direction == .input)
    (flagSpans p.skip "skip")

/-- The lines of parameters and of a result. -/
def signatureLines (scope : Scope) (depth : Nat) (params : List Parameter) (result : TypeDesc) :
    List Line :=
  params.map (parameterLine scope depth)
    ++ if result.isVoid then []
      else [⟨depth, keyword "return" :: plain " " :: typeSpans scope result false⟩]

/-- The lines of a function. -/
def functionLines (scope : Scope) (depth : Nat) (f : Function) : List Line :=
  ⟨depth,
      [keyword (functionWord f), plain " ", name f.name, plain " ",
          keyword ("(" ++ f.symbol ++ ")")]
        ++ flagSpans f.flags.throws "throws" ++ deprecatedSpans f.deprecated⟩
    :: signatureLines scope (depth + 1) f.params f.returnType

/-- The line of a field. -/
def fieldLine (scope : Scope) (f : FieldDecl) : Line :=
  typed scope 1 "field" f.name f.type false [plain (accessText f.readable f.writable)]

/-- The line of a property. -/
def propertyLine (scope : Scope) (p : Property) : Line :=
  typed scope 1 "property" p.name p.type false []

/-- The lines of a signal. -/
def signalLines (scope : Scope) (s : Signal) : List Line :=
  ⟨1, [keyword "signal", plain (" " ++ s.name)] ++ deprecatedSpans s.deprecated⟩
    :: signatureLines scope 2 s.params s.returnType

/-- The lines of a virtual function slot. -/
def slotLines (scope : Scope) (s : VirtualSlot) : List Line :=
  let invoker := match s.invoker with
    | some i => [plain " ", keyword "invoked by", plain (" " ++ i)]
    | none => []
  ⟨1, [keyword "vfunc", plain (" " ++ s.name)] ++ invoker⟩
    :: signatureLines scope 2 s.params s.returnType

/-- The lines of the members that interfaces and objects share. -/
def memberLines (scope : Scope) (methods : List Function) (properties : List Property)
    (signals : List Signal) (slots : List VirtualSlot) : List Line :=
  properties.map (propertyLine scope) ++ methods.flatMap (functionLines scope 1)
    ++ signals.flatMap (signalLines scope) ++ slots.flatMap (slotLines scope)

/-- The block of a constant. -/
def constantBlock (scope : Scope) (c : Constant) : Block :=
  [⟨0, [plain "constant ", name c.name, plain ": "] ++ typeSpans scope c.type false
    ++ [plain (" = " ++ c.value.listed)]⟩]

/-- The line of an enumeration value. -/
def valueLine (v : EnumValue) : Line :=
  ⟨1, plain (v.name ++ " = " ++ intText v.value.toInt) :: deprecatedSpans v.deprecated⟩

/-- The block of an enumeration. -/
def enumBlock (scope : Scope) (e : Enumeration) : Block :=
  let word := if e.isFlags then "flags" else "enum"
  ⟨0, [keyword word, plain " ", name e.name, plain ": "]
      ++ typeSpans scope (.ofTag e.storage) false⟩
    :: (e.errorDomain.map (labelled 1 "error domain")).toList
    ++ e.values.map valueLine ++ e.methods.flatMap (functionLines scope 1)

/-- The block of an interface. -/
def interfaceBlock (scope : Scope) (i : Interface) : Block :=
  ⟨0, [keyword "interface", plain " ", name i.name] ++ deprecatedSpans i.deprecated⟩
    :: i.prerequisites.map (fun r => labelled 1 "requires" r.text)
    ++ memberLines scope i.methods i.properties i.signals i.slots

/-- The block of an object. -/
def objectBlock (scope : Scope) (o : Object) : Block :=
  let parent := match o.parent with
    | some p => [plain (": " ++ p.text)]
    | none => []
  ⟨0, [keyword "object", plain " ", name o.name] ++ parent ++ flagSpans o.isAbstract "abstract"
      ++ deprecatedSpans o.deprecated⟩
    :: o.interfaces.map (fun r => labelled 1 "implements" r.text)
    ++ o.fields.map (fieldLine scope) ++ memberLines scope o.methods o.properties o.signals o.slots

/-- The block of a struct or union. -/
def recordBlock (scope : Scope) (word title : String) (size : UInt64) (isClass deprecated : Bool)
    (fields : List FieldDecl) (methods : List Function) : Block :=
  ⟨0, [keyword word, plain " ", name title, plain " ",
        keyword ("(" ++ natText size.toNat ++ " bytes)")]
      ++ flagSpans isClass "class" ++ deprecatedSpans deprecated⟩
    :: fields.map (fieldLine scope) ++ methods.flatMap (functionLines scope 1)

/-- The block of a registered type. -/
def entityBlock (scope : Scope) : Entity → Block
  | .enum e => enumBlock scope e
  | .interface i => interfaceBlock scope i
  | .object o => objectBlock scope o
  | .struct s =>
    recordBlock scope "struct" s.name s.size s.isClassStruct s.deprecated s.fields s.methods
  | .union u => recordBlock scope "union" u.name u.size false u.deprecated u.fields u.methods

/-- The block of the namespace itself. -/
def headBlock (ns : Namespace) (options : Options) : Block :=
  ⟨0, [keyword "namespace", plain " ", name ns.name]⟩
    :: (ns.version.map (labelled 1 "version")).toList
    ++ labelled 1 "package" (ns.scope options).package.name
    :: ns.dependencies.map (labelled 1 "depends")

/-- All blocks of a namespace. -/
def blocks (ns : Namespace) (options : Options) : List Block :=
  let scope := ns.scope options
  headBlock ns options :: ns.constants.entries.map (constantBlock scope)
    ++ ns.entities.map (entityBlock scope) ++ ns.functions.entries.map (functionLines scope 0)

/-! ### Texts of spans -/

/-- Spans in the colours of a palette. -/
def spansText (c : Palette) (spans : List Span) : String := joined "" (spans.map (Span.render c))

section Spans

variable (c : Palette) (s : String) (span : Span) (spans more : List Span)

@[simp] theorem render_plain : (plain s).render c = s := by
  simp [plain, Span.render, Palette.before, Palette.behind]

@[simp] theorem render_name : (name s).render c = c.name ++ s ++ c.reset := rfl

@[simp] theorem render_keyword : (keyword s).render c = c.dim ++ s ++ c.reset := rfl

@[simp] theorem render_native : Span.render c ⟨.native, s⟩ = c.native ++ s ++ c.reset := rfl

@[simp] theorem render_host : Span.render c ⟨.host, s⟩ = c.host ++ s ++ c.reset := rfl

@[simp] theorem spansText_nil : spansText c [] = "" := rfl

@[simp] theorem spansText_cons :
    spansText c (span :: spans) = span.render c ++ spansText c spans := by
  rw [spansText, List.map_cons, Text.joined_empty_cons, spansText]

@[simp] theorem spansText_append :
    spansText c (spans ++ more) = spansText c spans ++ spansText c more := by
  rw [spansText, List.map_append, Text.joined_empty_append, spansText, spansText]

@[simp] theorem spansText_deprecatedSpans (deprecated : Bool) :
    spansText c (deprecatedSpans deprecated) = deprecatedText deprecated := by
  cases deprecated <;> simp [deprecatedSpans, deprecatedText]

end Spans

/-! ### What is written behind a text -/

/-- The lines of the block are written, whatever is written already. -/
def Puts (c : Palette) (put : String → String) (b : Block) : Prop :=
  ∀ out, put out = out ++ b.render c

/-- The blocks are written, each below a blank line, when something is written already. -/
def PutsBehind (c : Palette) (put : String → String) (bs : List Block) : Prop :=
  ∀ out, out.isEmpty = false → put out = out ++ joined "" (bs.map fun b => "\n" ++ b.render c)

section Writing

variable {α : Type} {c : Palette} {f g : String → String}

theorem Block.render_append (a b : Block) :
    Block.render c (a ++ b) = Block.render c a ++ Block.render c b := by
  rw [Block.render, List.map_append, Text.joined_empty_append, Block.render, Block.render]

theorem Block.render_cons_ne_empty (l : Line) (b : Block) :
    (Block.render c (l :: b)).isEmpty = false := by
  rw [Block.render, List.map_cons, Text.joined_empty_cons, Line.render]
  simp

/-- Below the first block, each block stands below a blank line. -/
theorem render_cons (b : Block) (bs : List Block) :
    render c (b :: bs) = b.render c ++ joined "" (bs.map fun b => "\n" ++ b.render c) := by
  induction bs generalizing b with
  | nil => simp [render, joined]
  | cons b' bs ih =>
    have htail := ih b'
    rw [render, List.map_cons] at htail
    rw [render, List.map_cons, List.map_cons, joined, htail, List.map_cons,
      Text.joined_empty_cons]
    simp only [String.append_assoc]

theorem puts_line {depth : Nat} {text : String} {spans : List Span}
    (h : text = spansText c spans) : Puts c (putLine depth text) [⟨depth, spans⟩] := by
  intro out
  simp only [h, putLine, spansText, Block.render, Line.render, indent, List.map_singleton, joined,
    String.append_assoc]

theorem Puts.comp {a b : Block} (hf : Puts c f a) (hg : Puts c g b) :
    Puts c (fun out => g (f out)) (a ++ b) := by
  intro out
  show g (f out) = _
  rw [hg, hf, Block.render_append, String.append_assoc]

theorem puts_all {put : α → String → String} {block : α → Block} {items : List α}
    (h : ∀ a ∈ items, Puts c (put a) (block a)) :
    Puts c (putAll put items) (items.flatMap block) := by
  induction items with
  | nil => exact fun out => String.append_empty.symm
  | cons a items ih =>
    obtain ⟨ha, hitems⟩ := List.forall_mem_cons.mp h
    exact ha.comp (ih hitems)

/-- Items that take one line each. -/
theorem puts_allLines {put : α → String → String} {line : α → Line} {items : List α}
    (h : ∀ a, Puts c (put a) [line a]) : Puts c (putAll put items) (items.map line) := by
  rw [List.map_eq_flatMap]
  exact puts_all fun a _ => h a

theorem Puts.behind {b : Block} (h : Puts c f b) :
    PutsBehind c (fun out => f (putGap out)) [b] := by
  intro out hout
  have hgap : putGap out = out ++ "\n" := by
    rw [putGap, hout]
    rfl
  show f (putGap out) = _
  rw [hgap, h, List.map_singleton, joined, String.append_assoc]

theorem PutsBehind.comp {as bs : List Block} (hf : PutsBehind c f as) (hg : PutsBehind c g bs) :
    PutsBehind c (fun out => g (f out)) (as ++ bs) := by
  intro out hout
  have hstill : (f out).isEmpty = false := by
    rw [hf out hout, String.isEmpty_eq_false_iff, ne_eq, String.append_eq_empty_iff]
    exact fun h => String.isEmpty_eq_false_iff.mp hout h.1
  show g (f out) = _
  rw [hg _ hstill, hf out hout, List.map_append, Text.joined_empty_append, String.append_assoc]

theorem putsBehind_all {put : α → String → String} {block : α → Block} (items : List α)
    (h : ∀ a, PutsBehind c (put a) [block a]) :
    PutsBehind c (putAll put items) (items.map block) := by
  induction items with
  | nil => exact fun out _ => String.append_empty.symm
  | cons a items ih => exact (h a).comp ih

end Writing

/-! ### What a printer writes -/

namespace Printer

variable (p : Printer)

theorem type_eq (t : TypeDesc) (isArg : Bool) :
    p.type t isArg = spansText p.palette (typeSpans p.scope t isArg) := by
  unfold type typeSpans
  cases resolveNative t with
  | error e => simp [String.append_assoc]
  | ok native =>
    cases resolveHost p.scope t isArg with
    | error e => simp [String.append_assoc]
    | ok host => simp [String.append_assoc]

theorem flag_eq (applies : Bool) (word : String) :
    p.flag applies word = spansText p.palette (flagSpans applies word) := by
  cases applies <;> simp [flag, flagSpans, Printer.keyword]

theorem puts_labelled (depth : Nat) (word text : String) :
    Puts p.palette (p.putLabelled depth word text) [labelled depth word text] :=
  puts_line (by simp [Printer.keyword, String.append_assoc])

theorem puts_parameter (depth : Nat) (a : Parameter) :
    Puts p.palette (p.putParameter depth a) [parameterLine p.scope depth a] :=
  puts_line (by simp [Printer.keyword, type_eq, flag_eq, String.append_assoc])

theorem puts_signature (depth : Nat) (params : List Parameter) (result : TypeDesc) :
    Puts p.palette (p.putSignature depth params result)
      (signatureLines p.scope depth params result) := by
  have hparams : Puts p.palette (putAll (p.putParameter depth) params)
      (params.map (parameterLine p.scope depth)) := puts_allLines (p.puts_parameter depth)
  unfold putSignature signatureLines
  cases result.isVoid with
  | true =>
    simpa using hparams
  | false =>
    refine hparams.comp (puts_line ?_)
    simp [Printer.keyword, type_eq, String.append_assoc]

theorem puts_function (depth : Nat) (f : Function) :
    Puts p.palette (p.putFunction depth f) (functionLines p.scope depth f) := by
  refine (puts_line ?_).comp (p.puts_signature (depth + 1) f.params f.returnType)
  simp [Printer.keyword, Printer.name, flag_eq, String.append_assoc]

theorem puts_field (f : FieldDecl) : Puts p.palette (p.putField f) [fieldLine p.scope f] :=
  puts_line (by simp [Printer.keyword, type_eq, String.append_assoc])

theorem puts_property (property : Property) :
    Puts p.palette (p.putProperty property) [propertyLine p.scope property] :=
  puts_line (by simp [Printer.keyword, type_eq, String.append_assoc])

theorem puts_signal (s : Signal) : Puts p.palette (p.putSignal s) (signalLines p.scope s) := by
  refine (puts_line ?_).comp (p.puts_signature 2 s.params s.returnType)
  simp [Printer.keyword, String.append_assoc]

theorem puts_slot (s : VirtualSlot) : Puts p.palette (p.putSlot s) (slotLines p.scope s) := by
  refine (puts_line ?_).comp (p.puts_signature 2 s.params s.returnType)
  cases s.invoker <;> simp [Printer.keyword, String.append_assoc]

theorem puts_methods (methods : List Function) :
    Puts p.palette (putAll (p.putFunction 1) methods)
      (methods.flatMap (functionLines p.scope 1)) :=
  puts_all fun f _ => p.puts_function 1 f

theorem puts_fields (fields : List FieldDecl) :
    Puts p.palette (putAll p.putField fields) (fields.map (fieldLine p.scope)) :=
  puts_allLines p.puts_field

theorem puts_members (methods : List Function) (properties : List Property)
    (signals : List Signal) (slots : List VirtualSlot) :
    Puts p.palette (p.putMembers methods properties signals slots)
      (memberLines p.scope methods properties signals slots) :=
  (((puts_allLines p.puts_property).comp (p.puts_methods methods)).comp
    (puts_all fun s _ => p.puts_signal s)).comp (puts_all fun s _ => p.puts_slot s)

theorem putsBehind_constant (c : Constant) :
    PutsBehind p.palette (p.putConstant c) [constantBlock p.scope c] :=
  (puts_line (by simp [Printer.name, type_eq, String.append_assoc])).behind

theorem puts_value (c : Palette) (v : EnumValue) : Puts c (putValue v) [valueLine v] :=
  puts_line (by simp [String.append_assoc])

theorem putsBehind_enum (e : Enumeration) :
    PutsBehind p.palette (p.putEnum e) [enumBlock p.scope e] := by
  have hdomain : Puts p.palette (putAll (p.putLabelled 1 "error domain") e.errorDomain.toList)
      (e.errorDomain.map (labelled 1 "error domain")).toList := by
    rw [Option.toList_map]
    exact puts_allLines (p.puts_labelled 1 "error domain")
  refine ((((puts_line ?_).comp hdomain).comp (puts_allLines (puts_value p.palette))).comp
    (p.puts_methods e.methods)).behind
  simp [Printer.keyword, Printer.name, type_eq, String.append_assoc]

/-- The lines that name registered types. -/
theorem puts_references (word : String) (rs : List EntityRef) :
    Puts p.palette (putAll (fun r => p.putLabelled 1 word r.text) rs)
      (rs.map fun r => labelled 1 word r.text) :=
  puts_allLines fun r => p.puts_labelled 1 word r.text

theorem putsBehind_interface (i : Interface) :
    PutsBehind p.palette (p.putInterface i) [interfaceBlock p.scope i] := by
  refine (((puts_line ?_).comp (p.puts_references "requires" i.prerequisites)).comp
    (p.puts_members i.methods i.properties i.signals i.slots)).behind
  simp [Printer.keyword, Printer.name, String.append_assoc]

theorem putsBehind_object (o : Object) :
    PutsBehind p.palette (p.putObject o) [objectBlock p.scope o] := by
  refine ((((puts_line ?_).comp (p.puts_references "implements" o.interfaces)).comp
    (p.puts_fields o.fields)).comp
      (p.puts_members o.methods o.properties o.signals o.slots)).behind
  cases o.parent <;> simp [Printer.keyword, Printer.name, flag_eq, String.append_assoc]

theorem putsBehind_record (word title : String) (size : UInt64) (isClass deprecated : Bool)
    (fields : List FieldDecl) (methods : List Function) :
    PutsBehind p.palette (p.putRecord word title size isClass deprecated fields methods)
      [recordBlock p.scope word title size isClass deprecated fields methods] := by
  refine (((puts_line ?_).comp (p.puts_fields fields)).comp (p.puts_methods methods)).behind
  simp [Printer.keyword, Printer.name, flag_eq, String.append_assoc]

theorem putsBehind_struct (s : Struct) :
    PutsBehind p.palette (p.putStruct s) [entityBlock p.scope (.struct s)] :=
  p.putsBehind_record _ _ _ _ _ _ _

theorem putsBehind_union (u : Union) :
    PutsBehind p.palette (p.putUnion u) [entityBlock p.scope (.union u)] :=
  p.putsBehind_record _ _ _ _ _ _ _

theorem putsBehind_free (f : Function) :
    PutsBehind p.palette (p.putFree f) [functionLines p.scope 0 f] :=
  (p.puts_function 0 f).behind

theorem puts_head {ns : Namespace} {options : Options} (hscope : p.scope = ns.scope options) :
    Puts p.palette (p.putHead ns) (headBlock ns options) := by
  have hversion : Puts p.palette (putAll (p.putLabelled 1 "version") ns.version.toList)
      (ns.version.map (labelled 1 "version")).toList := by
    rw [Option.toList_map]
    exact puts_allLines (p.puts_labelled 1 "version")
  unfold headBlock
  rw [← hscope, List.append_cons]
  refine (((puts_line ?_).comp hversion).comp (p.puts_labelled 1 "package" _)).comp
    (puts_allLines (p.puts_labelled 1 "depends"))
  simp [Printer.keyword, Printer.name, String.append_assoc]

/-- A namespace is written as its blocks in the colours of the palette. -/
theorem print_eq {ns : Namespace} {options : Options} (hscope : p.scope = ns.scope options) :
    p.print ns = render p.palette (blocks ns options) := by
  have hhead := p.puts_head hscope ""
  rw [String.empty_append] at hhead
  have hsome : (p.putHead ns "").isEmpty = false := by
    rw [hhead, headBlock]
    exact Block.render_cons_ne_empty ..
  have hconstants := putsBehind_all ns.constants.entries p.putsBehind_constant
  have henums := putsBehind_all ns.enums.entries p.putsBehind_enum
  have hinterfaces := putsBehind_all ns.interfaces.entries p.putsBehind_interface
  have hobjects := putsBehind_all ns.objects.entries p.putsBehind_object
  have hstructs := putsBehind_all ns.structs.entries p.putsBehind_struct
  have hunions := putsBehind_all ns.unions.entries p.putsBehind_union
  have hfunctions := putsBehind_all ns.functions.entries p.putsBehind_free
  have hall := ((((((hconstants.comp henums).comp hinterfaces).comp hobjects).comp hstructs).comp
    hunions).comp hfunctions) _ hsome
  have hblocks : blocks ns options = headBlock ns options ::
      (ns.constants.entries.map (constantBlock p.scope) ++ ns.enums.entries.map (enumBlock p.scope)
        ++ ns.interfaces.entries.map (interfaceBlock p.scope)
        ++ ns.objects.entries.map (objectBlock p.scope)
        ++ ns.structs.entries.map (fun s => entityBlock p.scope (.struct s))
        ++ ns.unions.entries.map (fun u => entityBlock p.scope (.union u))
        ++ ns.functions.entries.map (functionLines p.scope 0)) := by
    rw [blocks, hscope, Namespace.entities]
    simp [Function.comp_def, entityBlock]
  rw [hblocks, render_cons, ← hhead]
  exact hall

end Printer

end Listing

/-- A listing shows the blocks of the namespace in the colours that the options choose. -/
theorem Namespace.listing_eq (ns : Namespace) (options : Options) :
    ns.listing options
      = Listing.render (.select options.colored) (Listing.blocks ns options) :=
  Listing.Printer.print_eq ⟨ns.scope options, .select options.colored⟩ rfl

end Introspection
