import Introspection.Listing.Palette
import Introspection.Proofs.Text.Escape
import Introspection.Text.Search

/-!
# `Introspection.Proofs.Listing.Styled`: colours taken out of a text

Coloured text is made of lines, a line of spans (`Line`). Each span has a style, which decides what
a palette writes before it and behind it.

`Palette.erase` deletes what a palette writes around its spans from a text, wherever it stands.
Erasing goes from the left and never looks back, so what it does to a text is put together from what
it does to the parts (`Erases.append`): it keeps a part without an escape character as it is
(`erases_of_escapeFree`) and takes the colours out. Lines whose spans have no escape characters
(`Line.EscapeFree`) are left with these spans alone, as with the palette `off` (`erase_render`).
-/

set_option autoImplicit false

namespace Introspection.Listing

open Introspection.Text (escape joined)

/-! ### Spans, lines and blocks -/

/-- What a span of a line shows. -/
inductive Style
  | plain
  /-- Names of entities and members. -/
  | name
  /-- Native types. -/
  | native
  /-- Host types. -/
  | host
  /-- Keywords and punctuation. -/
  | dim
  deriving DecidableEq

namespace Palette

/-- What is written before spans of a style. -/
def before (p : Palette) : Style → String
  | .plain => ""
  | .name => p.name
  | .native => p.native
  | .host => p.host
  | .dim => p.dim

/-- What is written behind spans of a style. -/
def behind (p : Palette) : Style → String
  | .plain => ""
  | _ => p.reset

end Palette

/-- A part of a line. -/
structure Span where
  style : Style
  text : String

/-- A span in the colours of a palette. -/
def Span.render (p : Palette) (s : Span) : String :=
  p.before s.style ++ s.text ++ p.behind s.style

/-- A line at a depth. -/
structure Line where
  depth : Nat
  spans : List Span

/-- A line in the colours of a palette, with two blanks for each level. -/
def Line.render (p : Palette) (l : Line) : String :=
  String.ofList (List.replicate (2 * l.depth) ' ')
    ++ joined "" (l.spans.map (Span.render p)) ++ "\n"

/-- Lines that stand together. -/
abbrev Block := List Line

/-- Lines in the colours of a palette. -/
def Block.render (p : Palette) (b : Block) : String := joined "" (b.map (Line.render p))

/-- Blocks in the colours of a palette, with blank lines between them. -/
def render (p : Palette) (blocks : List Block) : String :=
  joined "\n" (blocks.map (Block.render p))

/-- Text without a style. -/
def plain (s : String) : Span := ⟨.plain, s⟩

/-- A name. -/
def name (s : String) : Span := ⟨.name, s⟩

/-- A keyword. -/
def keyword (s : String) : Span := ⟨.dim, s⟩

/-! ### Erasing -/

/-- What is left when each occurrence of one of the parts is deleted, from the left. `skip`
characters still belong to the last occurrence. -/
def eraseParts (parts : List (List Char)) (skip : Nat) : List Char → List Char
  | [] => []
  | c :: cs =>
    if skip > 0 then eraseParts parts (skip - 1) cs
    else
      match parts.find? fun part => !part.isEmpty && part.isPrefixOf (c :: cs) with
      | some part => eraseParts parts (part.length - 1) cs
      | none => c :: eraseParts parts 0 cs

namespace Palette

/-- What is written around spans, in characters. -/
def parts (p : Palette) : List (List Char) :=
  [p.name.toList, p.native.toList, p.host.toList, p.dim.toList, p.reset.toList]

/-- The text without what a palette writes around spans. -/
def erase (p : Palette) (s : String) : String := String.ofList (eraseParts p.parts 0 s.toList)

end Palette

/-! ### Erasing part by part -/

/-- Erasing the colours of `Palette.on` from a text that begins with `s` leaves `t` of it. -/
def Erases (s t : String) : Prop :=
  ∀ rest, eraseParts Palette.on.parts 0 (s.toList ++ rest)
    = t.toList ++ eraseParts Palette.on.parts 0 rest

theorem Erases.append {s s' t t' : String} (h : Erases s s') (h' : Erases t t') :
    Erases (s ++ t) (s' ++ t') := by
  intro rest
  rw [String.toList_append, String.toList_append, List.append_assoc, List.append_assoc, h, h']

/-- All colours begin with an escape character. -/
theorem eraseParts_cons_of_ne {c : Char} (h : c ≠ escape) (cs : List Char) :
    eraseParts Palette.on.parts 0 (c :: cs) = c :: eraseParts Palette.on.parts 0 cs := by
  have hstart : ∀ part ∈ Palette.on.parts, part.head? = some escape := by decide
  have hnone : (Palette.on.parts.find? fun part => !part.isEmpty && part.isPrefixOf (c :: cs))
      = none := by
    rw [List.find?_eq_none]
    intro part hpart
    have hhead := hstart part hpart
    cases part with
    | nil => simp
    | cons d ds =>
      cases hhead
      simp [List.isPrefixOf, h.symm]
  rw [eraseParts, if_neg (Nat.lt_irrefl 0), hnone]

theorem erases_of_escapeFree {s : String} (h : Text.EscapeFree s) : Erases s s := by
  intro rest
  unfold Text.EscapeFree at h
  -- By induction on the characters, since erasing goes on with the state it started with.
  generalize s.toList = cs at h ⊢
  induction cs with
  | nil => rfl
  | cons c cs ih =>
    rw [List.mem_cons, not_or] at h
    rw [List.cons_append, eraseParts_cons_of_ne (Ne.symm h.1), ih h.2, List.cons_append]

/-- What stands before a span is erased. -/
theorem erases_before (style : Style) : Erases (Palette.on.before style) "" := by
  cases style <;> exact fun _ => rfl

/-- What stands behind a span is erased. -/
theorem erases_behind (style : Style) : Erases (Palette.on.behind style) "" := by
  cases style <;> exact fun _ => rfl

/-- Joined texts are erased one by one. -/
theorem erases_joined {α : Type} {f g : α → String} {separator : String}
    (hseparator : Erases separator separator) {as : List α} (h : ∀ a ∈ as, Erases (f a) (g a)) :
    Erases (joined separator (as.map f)) (joined separator (as.map g)) := by
  induction as with
  | nil => exact fun _ => rfl
  | cons a as ih =>
    obtain ⟨ha, has⟩ := List.forall_mem_cons.mp h
    cases as with
    | nil => exact ha
    | cons b as => exact (ha.append hseparator).append (ih has)

/-! ### Lines -/

/-- No span of the line shows an escape character. -/
def Line.EscapeFree (l : Line) : Prop := ∀ s ∈ l.spans, Text.EscapeFree s.text

/-- No line of the block shows an escape character. -/
def Block.EscapeFree (b : Block) : Prop := ∀ l ∈ b, l.EscapeFree

/-- Without colours a span is its text. -/
theorem Span.render_off (s : Span) : s.render .off = "" ++ s.text ++ "" := by
  obtain ⟨style, text⟩ := s
  cases style <;> rfl

/-- A span is left with its text. -/
theorem erases_span {s : Span} (h : Text.EscapeFree s.text) :
    Erases (s.render .on) (s.render .off) := by
  rw [s.render_off]
  exact ((erases_before s.style).append (erases_of_escapeFree h)).append (erases_behind s.style)

theorem erases_line {l : Line} (h : l.EscapeFree) : Erases (l.render .on) (l.render .off) := by
  have hindent : Text.EscapeFree (String.ofList (List.replicate (2 * l.depth) ' ')) := by
    rw [Text.escapeFree_ofList, List.mem_replicate]
    exact fun hmem => absurd hmem.2 (by decide)
  have hempty : Erases "" "" := fun _ => rfl
  have hspans := erases_joined hempty fun s hs => erases_span (h s hs)
  exact ((erases_of_escapeFree hindent).append hspans).append (erases_of_escapeFree (by decide))

theorem erases_block {b : Block} (h : b.EscapeFree) : Erases (b.render .on) (b.render .off) :=
  erases_joined (erases_of_escapeFree (by decide)) fun l hl => erases_line (h l hl)

/-- Blocks without an escape character of their own are left as they are without colours. -/
theorem erase_render {blocks : List Block} (h : ∀ b ∈ blocks, b.EscapeFree) :
    Palette.on.erase (render .on blocks) = render .off blocks := by
  have hblocks : Erases (render .on blocks) (render .off blocks) :=
    erases_joined (erases_of_escapeFree (by decide)) fun b hb => erases_block (h b hb)
  have hall := hblocks []
  rw [List.append_nil] at hall
  rw [Palette.erase, hall]
  simp [eraseParts]

end Introspection.Listing
