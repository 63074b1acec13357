import Introspection.Declaration.Emission
import Introspection.Proofs.Wrapper.Token
import Introspection.Source.Basic

/-!
# `Introspection.Proofs.Declaration.Token`: which words of declarations stand in front of points

`Declaration.tokens` lists the pieces of a declaration in the order of its text, those included that
the text of every handle holds: the untyped pointer `unsafe.Pointer` and the field `this.native`.
The words in front of points in the text of a file's declarations are those of these pieces:
`Fragment.qualifiersIn_bodyText`.
-/

set_option autoImplicit false

namespace Introspection

open Introspection.Code
open Introspection.Text

/-- The untyped pointer of Go. -/
def unsafePointerToken : Token := .qualified "unsafe" "Pointer"

/-! ### Interface types -/

/-- The pieces of an entry. -/
def InterfaceEntry.tokens : InterfaceEntry → List Token
  | handle => [unsafePointerToken]
  | embedded t => t.tokens
  | method s => s.tokens

theorem InterfaceEntry.qualifiersIn_text (e : InterfaceEntry) :
    qualifiersIn e.text = Token.allQualifiers e.tokens := by
  cases e with
  | handle => decide
  | embedded t => exact t.qualifiersIn_text
  | method s => exact s.qualifiersIn_text

theorem qualifiersIn_interfaceText (name : String) (entries : List InterfaceEntry) :
    qualifiersIn (interfaceText name entries)
      = Token.allQualifiers (.plain name :: entries.flatMap InterfaceEntry.tokens) := by
  have hlines : entries.map (fun e => lineAt 1 e.text)
      = (entries.map InterfaceEntry.text).map (lineAt 1) := by
    rw [List.map_map]
    rfl
  have hentries : qualifiersIn (joined "" (entries.map fun e => lineAt 1 e.text))
      = Token.allQualifiers (entries.flatMap InterfaceEntry.tokens) := by
    rw [hlines, qualifiersIn_joined_lineAt]
    exact Token.flatMap_qualifiersIn_map InterfaceEntry.qualifiersIn_text entries
  unfold interfaceText
  simp (disch := decide) only [qualifiersIn_before, qualifiersIn_between,
    qualifiersIn_behind, hentries, Token.allQualifiers_cons, Token.qualifiers_plain]

/-! ### Handles -/

theorem closes_handleText (name : String) : Closes (handleText name) := .append (by decide)

/-- The pieces of the struct around a native pointer. -/
def handleTokens (name : String) : List Token :=
  [.plain name, unsafePointerToken, .plain name, unsafePointerToken, .selected "this" "native"]

theorem qualifiersIn_handleText (name : String) :
    qualifiersIn (handleText name) = Token.allQualifiers (handleTokens name) := by
  have hstruct : qualifiersIn " struct \x7b\n\tnative unsafe.Pointer\n\x7d\n\nfunc (this *"
      = unsafePointerToken.qualifiers := by decide
  have haccessor : qualifiersIn ") Native() unsafe.Pointer \x7b\n\treturn this.native\n\x7d\n"
      = unsafePointerToken.qualifiers ++ (Token.selected "this" "native").qualifiers := by decide
  unfold handleText
  rw [qualifiersIn_append_of_opens (by decide),
    qualifiersIn_append_of_closes (.append (by decide)), qualifiersIn_append_of_opens (by decide),
    qualifiersIn_behind (by decide) (by decide), hstruct, haccessor]
  simp [handleTokens]

theorem closes_wrapText (name result made content : String) :
    Closes (wrapText name result made content) :=
  .append (by decide)

theorem qualifiersIn_wrapText (name result made content : String) :
    qualifiersIn (wrapText name result made content)
      = qualifiersIn ("Wrap" ++ name) ++ unsafePointerToken.qualifiers ++ qualifiersIn result
        ++ qualifiersIn made ++ qualifiersIn content := by
  have hname : "\nfunc Wrap" ++ name = "\nfunc " ++ ("Wrap" ++ name) := by
    rw [← String.append_assoc]
    rfl
  have hparam : qualifiersIn "(p unsafe.Pointer) " = unsafePointerToken.qualifiers := by decide
  unfold wrapText
  rw [qualifiersIn_before (by decide) (by decide),
    qualifiersIn_between (by decide) (by decide) (by decide),
    qualifiersIn_between (by decide) (by decide) (by decide),
    qualifiersIn_append_of_closes (.append (by decide)), qualifiersIn_append_of_opens (by decide),
    hname, qualifiersIn_behind (by decide) (by decide), hparam]

/-! ### Declarations -/

/-- The pieces of the constant of an enumeration value. -/
def ValueName.tokens (enumeration : String) (v : ValueName) : List Token :=
  [.plain v.host, .plain enumeration, .qualified "C" v.native]

theorem qualifiersIn_valuesText (name : String) (values : List ValueName) :
    qualifiersIn (valuesText name values)
      = Token.allQualifiers (values.flatMap (ValueName.tokens name)) := by
  have hone : ∀ v : ValueName, qualifiersIn (v.host ++ " " ++ name ++ " = C." ++ v.native)
      = Token.allQualifiers (v.tokens name) := by
    intro v
    have hassigned : " = C." = " = " ++ ("C" ++ ".") := by decide
    have hnative : v.host ++ " " ++ name ++ " = C." ++ v.native
        = v.host ++ " " ++ name ++ " = " ++ ("C" ++ "." ++ v.native) := by
      rw [hassigned]
      simp only [String.append_assoc]
    rw [hnative]
    simp (disch := decide) only [qualifiersIn_between, ValueName.tokens, Token.allQualifiers_cons,
      Token.qualifiers, Token.allQualifiers_nil, List.append_nil, List.append_assoc]
  unfold valuesText
  split
  next h => rw [List.isEmpty_iff.mp h]; rfl
  next =>
    have hlines : (values.map fun v => lineAt 1 (v.host ++ " " ++ name ++ " = C." ++ v.native))
        = (values.map fun v => v.host ++ " " ++ name ++ " = C." ++ v.native).map (lineAt 1) := by
      rw [List.map_map]
      rfl
    rw [qualifiersIn_before (by decide) (by decide), qualifiersIn_behind (by decide) (by decide),
      hlines, qualifiersIn_joined_lineAt]
    exact Token.flatMap_qualifiersIn_map hone values

/-- The pieces of a getter. -/
def FieldGetter.tokens (g : FieldGetter) : List Token :=
  .plain g.owner.name :: (g.signature.tokens ++ Stmt.tokensOf g.reading)

theorem FieldGetter.qualifiersIn_text (g : FieldGetter) :
    qualifiersIn g.text = Token.allQualifiers g.tokens := by
  have hreading := Stmt.whole_listText 1 g.reading
  have hfront : Whole ("func (this *" ++ g.owner.name ++ ") " ++ g.signature.text ++ " \x7b\n") :=
    Or.inr (.append (by decide))
  have hreturn : qualifiersIn (lineAt 1 "return ret") = [] := by
    rw [qualifiersIn_lineAt]
    exact qualifiersIn_eq_nil (by decide)
  unfold text
  rw [qualifiersIn_before (by decide) (by decide),
    qualifiersIn_append_of_whole (hfront.append hreading), qualifiersIn_append_of_whole hfront,
    Stmt.qualifiersIn_listText, hreturn, qualifiersIn_before (by decide) (by decide),
    qualifiersIn_between (by decide) (by decide) (by decide),
    qualifiersIn_behind (by decide) (by decide), Signature.qualifiersIn_text, tokens,
    Token.allQualifiers_cons, Token.allQualifiers_append, Token.qualifiers_plain, List.append_nil,
    List.append_assoc]

/-- The pieces of a declaration, in the order of its text. -/
def Declaration.tokens : Declaration → List Token
  | constant name type value => .plain name :: (type.tokens ++ [.literal value.literal])
  | enumeration name storage values =>
    .plain name :: (storage.tokens ++ values.flatMap (ValueName.tokens name))
  | interface name entries =>
    let carrier := lowerFirst name
    .plain name :: entries.flatMap InterfaceEntry.tokens ++ handleTokens carrier
      ++ [.plain ("Wrap" ++ name), unsafePointerToken, .plain name, .plain carrier]
  | handle name =>
    handleTokens name
      ++ [.plain ("Wrap" ++ name), unsafePointerToken, .plain name, .plain name]
  | derived name parent base wrapBase =>
    .plain name :: base.tokens
      ++ [.plain ("Wrap" ++ name), unsafePointerToken, .plain name, .plain name]
      ++ .plain parent.name :: wrapBase.tokens
  | methodSet name entries => .plain ("I" ++ name) :: entries.flatMap InterfaceEntry.tokens
  | method f => f.tokens
  | function f => f.tokens
  | getter g => g.tokens

/-- The words in front of points in a declaration are those of its pieces. -/
theorem Declaration.qualifiersIn_text (d : Declaration) :
    qualifiersIn d.text = Token.allQualifiers d.tokens := by
  have hcontent : qualifiersIn "native: p" = [] := qualifiersIn_eq_nil (by decide)
  cases d with
  | constant name type value =>
    simp (disch := decide) only [text, tokens, qualifiersIn_before, qualifiersIn_behind,
      qualifiersIn_between, GoType.qualifiersIn_text, Token.allQualifiers_cons,
      Token.allQualifiers_append, Token.qualifiers_plain, Token.qualifiers_literal,
      Token.allQualifiers_nil, List.append_nil, List.append_assoc]
  | enumeration name storage values =>
    rw [text, qualifiersIn_between (by decide) (by decide) (by decide)]
    simp (disch := decide) only [tokens, qualifiersIn_behind, qualifiersIn_between,
      GoType.qualifiersIn_text, qualifiersIn_valuesText, Token.allQualifiers_cons,
      Token.allQualifiers_append, Token.qualifiers_plain, List.append_assoc]
  | interface name entries =>
    rw [text, qualifiersIn_append_of_closes (closes_handleText _).append,
      qualifiersIn_between (by decide) (by decide) (by decide), qualifiersIn_interfaceText,
      qualifiersIn_handleText, qualifiersIn_wrapText, hcontent]
    simp only [tokens, Token.allQualifiers_append, Token.allQualifiers_cons, Token.qualifiers_plain,
      Token.allQualifiers_nil, List.append_assoc, List.cons_append, List.append_nil]
  | handle name =>
    have hresult : qualifiersIn ("*" ++ name) = qualifiersIn name :=
      qualifiersIn_behind (by decide) (by decide) name
    rw [text, qualifiersIn_append_of_closes (closes_handleText name), qualifiersIn_handleText,
      qualifiersIn_wrapText, hcontent, hresult]
    simp only [tokens, Token.allQualifiers_append, Token.allQualifiers_cons, Token.qualifiers_plain,
      Token.allQualifiers_nil, List.append_assoc, List.append_nil]
  | derived name parent base wrapBase =>
    have hresult : qualifiersIn ("*" ++ name) = qualifiersIn name :=
      qualifiersIn_behind (by decide) (by decide) name
    have hcontent : qualifiersIn (parent.name ++ ": " ++ (Expr.deref wrapBase).text)
        = qualifiersIn parent.name ++ Token.allQualifiers wrapBase.tokens := by
      rw [qualifiersIn_between (by decide) (by decide) (by decide), Expr.qualifiersIn_text]
      rfl
    have hbase : qualifiersIn
        ("type " ++ name ++ " struct \x7b\n" ++ lineAt 1 base.text ++ "\x7d\n")
        = qualifiersIn name ++ Token.allQualifiers base.tokens := by
      rw [qualifiersIn_before (by decide) (by decide),
        qualifiersIn_between (by decide) (by decide) (by decide),
        qualifiersIn_behind (by decide) (by decide), qualifiersIn_lineAt, base.qualifiersIn_text]
    rw [text, qualifiersIn_append_of_closes (.append (by decide)), hbase, qualifiersIn_wrapText,
      hcontent, hresult]
    simp only [tokens, Token.allQualifiers_append, Token.allQualifiers_cons, Token.qualifiers_plain,
      List.append_assoc, List.nil_append, List.cons_append]
  | methodSet name entries => exact qualifiersIn_interfaceText ("I" ++ name) entries
  | method f | function f => exact f.qualifiersIn_text
  | getter g => exact g.qualifiersIn_text

/-- Every declaration ends its last line. -/
theorem Declaration.whole_text (d : Declaration) : Whole d.text := by
  cases d with
  | constant => exact Or.inr (.append (by decide))
  | enumeration name storage values =>
    refine .append (Or.inr (.append (by decide))) ?_
    unfold valuesText
    split
    · exact Or.inl rfl
    · exact Or.inr (.append (by decide))
  | interface | handle | derived => exact Or.inr (closes_wrapText ..).append
  | methodSet => exact Or.inr (.append (by decide))
  | method f | function f => exact Or.inr f.closes_text
  | getter g => exact Or.inr (.append (by decide))

/-! ### Files -/

namespace Fragment

/-- The pieces of a fragment. -/
def tokens (f : Fragment) : List Token :=
  (if f.noted then [.literal "// Deprecated."] else []) ++ f.declaration.tokens

theorem qualifiersIn_text (f : Fragment) :
    qualifiersIn f.text = Token.allQualifiers f.tokens := by
  unfold text tokens
  rw [Token.allQualifiers_append, ← f.declaration.qualifiersIn_text]
  cases f.noted with
  | false => simp
  | true =>
    have hnote : qualifiersIn "// Deprecated.\n" = qualifiersIn "// Deprecated." := by decide
    rw [if_pos rfl, qualifiersIn_append_of_closes (by decide), hnote]
    simp

theorem whole_text (f : Fragment) : Whole f.text := by
  refine .append ?_ f.declaration.whole_text
  split
  · exact Or.inr (by decide)
  · exact Or.inl rfl

/-- The words in front of points in the text of fragments are those of their pieces. -/
theorem qualifiersIn_bodyText (fs : List Fragment) :
    qualifiersIn (bodyText fs) = Token.allQualifiers (fs.flatMap tokens) := by
  induction fs using bodyText.induct with
  | case1 => rfl
  | case2 f => simp [bodyText, f.qualifiersIn_text]
  | case3 f g rest ih =>
    have hseparator : qualifiersIn (f.separator g) = [] ∧ Whole (f.separator g) := by
      unfold separator
      split
      · exact ⟨rfl, Or.inl rfl⟩
      · exact ⟨by decide, Or.inr (by decide)⟩
    show qualifiersIn (f.text ++ f.separator g ++ bodyText (g :: rest))
      = Token.allQualifiers (f.tokens ++ (g :: rest).flatMap tokens)
    rw [qualifiersIn_append_of_whole (f.whole_text.append hseparator.2),
      qualifiersIn_append_of_whole f.whole_text, hseparator.1, ih, f.qualifiersIn_text,
      List.append_nil, Token.allQualifiers_append]

end Fragment

end Introspection
