import Introspection.Conversion.Container
import Introspection.Proofs.Code.Line
import Introspection.Proofs.Text.Flat

/-!
# `Introspection.Proofs.Code.Nesting`: blocks of printed code

Code is read here as lines, with no knowledge of the statements that they were printed from. A line
that ends in ` {` opens a block, a line that starts with `}` behind its tabs closes one
(`depthBehind`), and every line has to stand one tab deeper than the block that it is in. A text is
`Balanced` when no line closes a block that is not open and all blocks are closed at the end.

Printed statements are balanced when their names are flat (`Stmt.nested_listText`): then no line
opens or closes a block but the head and the end of one. There is one lemma for each way of building
a type, an expression or a statement, so that `simp` reduces code to the names in it.
-/

set_option autoImplicit false

namespace Introspection.Code

open Introspection.Text (Flat OneLine joined)

/-! ### Lines that open and close blocks -/

/-- The line ends in ` {`. -/
def opensBlock (l : String) : Bool := [' ', '\x7b'].isSuffixOf l.toList

/-- The line starts with `}`, behind its tabs. -/
def closesBlock (l : String) : Bool := (l.toList.dropWhile (· == '\t')).head? == some '\x7d'

/-- The number of tabs in front of the line. -/
def indentation (l : String) : Nat := (l.toList.takeWhile (· == '\t')).length

/-- How many blocks a line stands in, with `depth` of them open in front of it. The line that closes
a block does not stand in it; there is no answer when no block is open. -/
def levelAt (depth : Nat) (l : String) : Option Nat :=
  if closesBlock l then
    match depth with
    | 0 => none
    | outer + 1 => some outer
  else some depth

/-- How many blocks are open behind a line, with `depth` of them open in front of it. There is no
answer when the line closes a block that is not open, or when it does not stand behind `margin` tabs
and one more for each block that it is in. -/
def depthBehind (margin depth : Nat) (l : String) : Option Nat := do
  let level ← levelAt depth l
  if indentation l = margin + level then some (level + (opensBlock l).toNat) else none

/-- How many blocks are open behind all the lines. -/
def depthAfter (margin depth : Nat) (ls : List String) : Option Nat :=
  ls.foldlM (depthBehind margin) depth

/-- In the text each block is closed by a line of its own, which closes no other, and the lines
stand as deep as their blocks, the outermost behind `margin` tabs. -/
def Balanced (margin : Nat) (s : String) : Prop := depthAfter margin 0 (Text.lines s) = some 0

instance (margin : Nat) (s : String) : Decidable (Balanced margin s) :=
  inferInstanceAs (Decidable (depthAfter margin 0 (Text.lines s) = some 0))

/-! ### What reading one line says, and what reading many does -/

theorem depthBehind_eq_some_iff {margin depth next : Nat} {l : String} :
    depthBehind margin depth l = some next ↔ ∃ level, levelAt depth l = some level
      ∧ indentation l = margin + level ∧ next = level + (opensBlock l).toNat := by
  unfold depthBehind
  cases levelAt depth l with
  | none => simp
  | some level =>
    simp only [Option.bind_eq_bind, Option.bind_some, Option.some.injEq, exists_eq_left']
    split <;> simp_all [eq_comm]

/-- A line goes as many blocks down as it opens, and as many up as it closes. -/
theorem depth_add_of_depthBehind {margin depth next : Nat} {l : String}
    (h : depthBehind margin depth l = some next) :
    depth + (opensBlock l).toNat = next + (closesBlock l).toNat := by
  obtain ⟨level, hlevel, _, rfl⟩ := depthBehind_eq_some_iff.mp h
  unfold levelAt at hlevel
  split at hlevel
  next hcloses =>
    rw [hcloses]
    cases depth with
    | zero => cases hlevel
    | succ outer =>
      cases hlevel
      rw [Bool.toNat_true]
      omega
  next hcloses =>
    cases hlevel
    rw [Bool.not_eq_true] at hcloses
    rw [hcloses, Bool.toNat_false]
    rfl

theorem depthAfter_cons {margin depth : Nat} {l : String} {ls : List String} :
    depthAfter margin depth (l :: ls)
      = (depthBehind margin depth l).bind (depthAfter margin · ls) :=
  List.foldlM_cons

theorem depthAfter_append {margin depth : Nat} {xs ys : List String} :
    depthAfter margin depth (xs ++ ys)
      = (depthAfter margin depth xs).bind (depthAfter margin · ys) :=
  List.foldlM_append

/-- Lines that are read to the end open as many blocks as they close, but for those that are left
open. -/
theorem depth_add_countP {margin depth next : Nat} {ls : List String}
    (h : depthAfter margin depth ls = some next) :
    depth + ls.countP opensBlock = next + ls.countP closesBlock := by
  induction ls generalizing depth with
  | nil =>
    cases h
    rfl
  | cons l ls ih =>
    obtain ⟨middle, hl, hls⟩ := Option.bind_eq_some_iff.mp (depthAfter_cons.symm.trans h)
    have hstep := depth_add_of_depthBehind hl
    have hrest := ih hls
    have hone : ∀ b : Bool, (if b = true then 1 else 0) = b.toNat := by decide
    rw [List.countP_cons, List.countP_cons, hone, hone]
    omega

/-- Lines that are read to the end all stand behind the margin. -/
theorem margin_le_indentation {margin depth next : Nat} {ls : List String}
    (h : depthAfter margin depth ls = some next) : ∀ l ∈ ls, margin ≤ indentation l := by
  induction ls generalizing depth with
  | nil => exact nofun
  | cons l ls ih =>
    obtain ⟨middle, hl, hls⟩ := Option.bind_eq_some_iff.mp (depthAfter_cons.symm.trans h)
    obtain ⟨level, _, hindentation, _⟩ := depthBehind_eq_some_iff.mp hl
    exact List.forall_mem_cons.mpr ⟨by omega, ih hls⟩

/-! ### The lines that printed code is made of -/

section

variable {n : Nat} {s : String}

/-- Behind its tabs a line is the rest, when that does not go on with one. -/
theorem indentation_tabs_append (h : s.toList.head? ≠ some '\t') :
    indentation (tabs n ++ s) = n := by
  have htabs : ∀ c ∈ List.replicate n '\t', (c == '\t') = true := fun c hc => by
    rw [List.eq_of_mem_replicate hc, beq_self_eq_true]
  rw [indentation, tabs, String.toList_append, String.toList_ofList,
    List.takeWhile_append_of_pos htabs, List.length_append, List.length_replicate]
  cases hs : s.toList with
  | nil => rfl
  | cons c cs =>
    rw [hs, List.head?_cons, ne_eq, Option.some.injEq] at h
    rw [List.takeWhile_cons_of_neg (by simpa using h)]
    rfl

theorem closesBlock_tabs_append (h : s.toList.head? ≠ some '\t') :
    closesBlock (tabs n ++ s) = (s.toList.head? == some '\x7d') := by
  have htabs : ∀ c ∈ List.replicate n '\t', (c == '\t') = true := fun c hc => by
    rw [List.eq_of_mem_replicate hc, beq_self_eq_true]
  rw [closesBlock, tabs, String.toList_append, String.toList_ofList,
    List.dropWhile_append_of_pos htabs]
  cases hs : s.toList with
  | nil => rfl
  | cons c cs =>
    rw [hs, List.head?_cons, ne_eq, Option.some.injEq] at h
    rw [List.dropWhile_cons_of_neg (by simpa using h)]

theorem head?_ne_of_flat (h : Flat s) {c : Char} (hc : Text.isLayout c = true) :
    s.toList.head? ≠ some c := by
  intro hhead
  rw [h c (List.mem_of_head? hhead)] at hc
  cases hc

theorem opensBlock_eq_false {l : String} (h : '\x7b' ∉ l.toList) : opensBlock l = false := by
  rw [← Bool.not_eq_true, opensBlock, List.isSuffixOf_iff_suffix]
  exact fun hsuffix => h (hsuffix.subset (List.mem_cons_of_mem ' ' List.mem_cons_self))

theorem brace_not_mem (h : Flat s) : '\x7b' ∉ (tabs n).toList ∧ '\x7b' ∉ s.toList := by
  refine ⟨fun hmem => ?_, fun hmem => ?_⟩
  · rw [tabs, String.toList_ofList] at hmem
    exact absurd (List.eq_of_mem_replicate hmem) (by decide)
  · exact absurd (h _ hmem) (by decide)

variable {margin depth : Nat}

/-- A line that closes nothing stands in all blocks that are open. -/
theorem depthBehind_of_head?_ne (h : ∀ c, Text.isLayout c = true → s.toList.head? ≠ some c) :
    depthBehind margin depth (tabs (margin + depth) ++ s)
      = some (depth + (opensBlock (tabs (margin + depth) ++ s)).toNat) := by
  have htab := h '\t' (by decide)
  have hcloses : closesBlock (tabs (margin + depth) ++ s) = false := by
    rw [closesBlock_tabs_append htab, beq_eq_false_iff_ne]
    exact h _ (by decide)
  refine depthBehind_eq_some_iff.mpr ⟨depth, ?_, indentation_tabs_append htab, rfl⟩
  unfold levelAt
  rw [hcloses]
  rfl

/-- A line without layout of its own neither opens nor closes a block. -/
theorem depthBehind_flat (h : Flat s) :
    depthBehind margin depth (tabs (margin + depth) ++ s) = some depth := by
  have hopens : opensBlock (tabs (margin + depth) ++ s) = false := by
    refine opensBlock_eq_false ?_
    rw [String.toList_append, List.mem_append, not_or]
    exact brace_not_mem h
  rw [depthBehind_of_head?_ne fun c => head?_ne_of_flat h, hopens]
  rfl

/-- The head of a block opens it. -/
theorem depthBehind_head (h : Flat s) :
    depthBehind margin depth (tabs (margin + depth) ++ (s ++ " \x7b")) = some (depth + 1) := by
  have hhead : ∀ c, Text.isLayout c = true → (s ++ " \x7b").toList.head? ≠ some c := by
    intro c hc
    rw [String.toList_append, List.head?_append]
    cases hs : s.toList.head? with
    | some d =>
      rw [Option.some_or, ← hs]
      exact head?_ne_of_flat h hc
    | none =>
      rintro heq
      cases heq
      revert hc
      decide
  have hopens : opensBlock (tabs (margin + depth) ++ (s ++ " \x7b")) = true := by
    rw [opensBlock, List.isSuffixOf_iff_suffix, ← String.append_assoc, String.toList_append]
    exact List.suffix_append _ _
  rw [depthBehind_of_head?_ne hhead, hopens]
  rfl

/-- The end of a block closes it, whatever is done with the block there. -/
theorem depthBehind_end (h : Flat s) :
    depthBehind margin (depth + 1) (tabs (margin + depth) ++ ("\x7d" ++ s)) = some depth := by
  have hhead : ("\x7d" ++ s).toList.head? = some '\x7d' := by
    rw [String.toList_append]
    rfl
  have htab : ("\x7d" ++ s).toList.head? ≠ some '\t' := by
    rw [hhead]
    decide
  have hcloses : closesBlock (tabs (margin + depth) ++ ("\x7d" ++ s)) = true := by
    rw [closesBlock_tabs_append htab, hhead, beq_self_eq_true]
  have hopens : opensBlock (tabs (margin + depth) ++ ("\x7d" ++ s)) = false := by
    refine opensBlock_eq_false ?_
    rw [String.toList_append, String.toList_append, List.mem_append, List.mem_append, not_or,
      not_or]
    exact ⟨(brace_not_mem h).1, by decide, (brace_not_mem (n := 0) h).2⟩
  refine depthBehind_eq_some_iff.mpr ⟨depth, ?_, indentation_tabs_append htab, ?_⟩
  · unfold levelAt
    rw [hcloses]
    rfl
  · rw [hopens]
    rfl

end

/-! ### Texts that lead back to the depth that they start from -/

/-- The text is made of whole lines which, read at a depth, lead back to it. -/
def Nested (margin depth : Nat) (s : String) : Prop :=
  ∃ ls, (∀ l ∈ ls, OneLine l) ∧ s = joined "" (ls.map (· ++ "\n"))
    ∧ depthAfter margin depth ls = some depth

namespace Nested

variable {margin depth : Nat} {s t : String}

theorem empty : Nested margin depth "" := ⟨[], nofun, rfl, rfl⟩

theorem append (hs : Nested margin depth s) (ht : Nested margin depth t) :
    Nested margin depth (s ++ t) := by
  obtain ⟨xs, hxs, rfl, hsdepth⟩ := hs
  obtain ⟨ys, hys, rfl, htdepth⟩ := ht
  -- The second text starts at the depth that the first one leads back to.
  refine ⟨xs ++ ys, List.forall_mem_append.mpr ⟨hxs, hys⟩, ?_, ?_⟩
  · rw [List.map_append, Text.joined_empty_append]
  · rw [depthAfter_append, hsdepth, Option.bind_some, htdepth]

theorem joined {texts : List String} (h : ∀ s ∈ texts, Nested margin depth s) :
    Nested margin depth (joined "" texts) := by
  induction texts with
  | nil => exact empty
  | cons s texts ih =>
    obtain ⟨hs, htexts⟩ := List.forall_mem_cons.mp h
    rw [Text.joined_empty_cons]
    exact hs.append (ih htexts)

theorem oneLine_tabs (n : Nat) : OneLine (tabs n) := by
  intro c hc
  rw [tabs, String.toList_ofList] at hc
  rw [List.eq_of_mem_replicate hc]
  decide

theorem lineAt (h : Flat s) : Nested margin depth (lineAt (margin + depth) s) := by
  refine ⟨[tabs (margin + depth) ++ s], List.forall_mem_singleton.mpr ?_, rfl, ?_⟩
  · exact Text.oneLine_append_iff.mpr ⟨oneLine_tabs _, h.oneLine⟩
  · rw [depthAfter_cons, depthBehind_flat h]
    rfl

/-- A block around lines that stand one deeper. -/
theorem block {head body tail : String} (hhead : Flat head)
    (hbody : Nested margin (depth + 1) body) (htail : Flat tail) :
    Nested margin depth (Code.lineAt (margin + depth) (head ++ " \x7b") ++ body
      ++ Code.lineAt (margin + depth) ("\x7d" ++ tail)) := by
  obtain ⟨ls, hls, rfl, hdepth⟩ := hbody
  refine ⟨(tabs (margin + depth) ++ (head ++ " \x7b")) :: ls
    ++ [tabs (margin + depth) ++ ("\x7d" ++ tail)], ?_, ?_, ?_⟩
  · rw [List.forall_mem_append, List.forall_mem_cons, List.forall_mem_singleton]
    simp only [Text.oneLine_append_iff]
    exact ⟨⟨⟨oneLine_tabs _, hhead.oneLine, by decide⟩, hls⟩,
      oneLine_tabs _, by decide, htail.oneLine⟩
  · rw [List.map_append, Text.joined_empty_append, List.map_cons, Text.joined_empty_cons]
    rfl
  · -- The head goes one deeper, the body stays there, and the end comes back.
    rw [depthAfter_append, depthAfter_cons, depthBehind_head hhead, Option.bind_some, hdepth,
      Option.bind_some, depthAfter_cons, depthBehind_end htail]
    rfl

/-- The lines are those that the text is read as. -/
theorem depthAfter_lines (h : Nested margin depth s) :
    depthAfter margin depth (Text.lines s) = some depth := by
  obtain ⟨ls, hls, rfl, hdepth⟩ := h
  rw [Text.lines_joined hls, hdepth]

theorem balanced (h : Nested margin 0 s) : Balanced margin s := h.depthAfter_lines

end Nested

/-! ### Types -/

namespace GoType

/-- The spelling of the type is flat. -/
def Flat (t : GoType) : Prop := Text.Flat t.text

variable (t u : GoType) (name : String)

@[simp] theorem flat_void : void.Flat := (by decide : Text.Flat "")

@[simp] theorem flat_plain : (plain name).Flat ↔ Text.Flat name := Iff.rfl

@[simp] theorem flat_qualified (package : String) :
    (qualified package name).Flat ↔ Text.Flat package ∧ Text.Flat name := by
  simp +decide [Flat, text]

@[simp] theorem flat_native : (native name).Flat ↔ Text.Flat name := by
  simp +decide [native]

@[simp] theorem flat_gpointer : gpointer.Flat := (by decide : Text.Flat "C.gpointer")

@[simp] theorem flat_unsafePointer : unsafePointer.Flat :=
  (by decide : Text.Flat "unsafe.Pointer")

@[simp] theorem flat_pointer : (pointer t).Flat ↔ t.Flat := by
  simp +decide [Flat, text]

@[simp] theorem flat_slice : (slice t).Flat ↔ t.Flat := by
  simp +decide [Flat, text]

@[simp] theorem flat_map : (map t u).Flat ↔ t.Flat ∧ u.Flat := by
  simp +decide [Flat, text]

@[simp] theorem flat_pointerIf (indirect : Bool) : (pointerIf indirect t).Flat ↔ t.Flat := by
  cases indirect <;> simp [pointerIf]

end GoType

/-! ### Expressions -/

namespace Expr

/-- The spelling of the expression is flat. -/
def Flat (e : Expr) : Prop := Text.Flat e.text

variable (e f : Expr) (es : List Expr) (t : GoType) (name : String)

theorem flat_argsText_iff : Text.Flat (argsText es) ↔ ∀ e ∈ es, e.Flat := by
  induction es with
  | nil => exact iff_of_true (by decide : Text.Flat "") nofun
  | cons e es ih =>
    cases es with
    | nil => simp [argsText, Flat]
    | cons f rest =>
      rw [List.forall_mem_cons, ← ih, argsText, Text.flat_append_iff, Text.flat_append_iff]
      simp +decide [Flat]

@[simp] theorem flat_host : (host name).Flat ↔ Text.Flat name := Iff.rfl

@[simp] theorem flat_inner : (inner name).Flat ↔ Text.Flat name := Iff.rfl

@[simp] theorem flat_plain : (plain name).Flat ↔ Text.Flat name := Iff.rfl

@[simp] theorem flat_qualified (package : String) :
    (qualified package name).Flat ↔ Text.Flat package ∧ Text.Flat name := by
  simp +decide [Flat, text]

@[simp] theorem flat_typed : (typed t).Flat ↔ t.Flat := Iff.rfl

@[simp] theorem flat_member : (member e name).Flat ↔ e.Flat ∧ Text.Flat name := by
  simp +decide [Flat, text]

@[simp] theorem flat_index : (index e f).Flat ↔ e.Flat ∧ f.Flat := by
  simp +decide [Flat, text]

@[simp] theorem flat_call : (call f es).Flat ↔ f.Flat ∧ ∀ e ∈ es, e.Flat := by
  rw [← flat_argsText_iff]
  simp +decide [Flat, text]

@[simp] theorem flat_convert : (convert t e).Flat ↔ t.Flat ∧ e.Flat := by
  simp +decide [Flat, GoType.Flat, text]

@[simp] theorem flat_cast : (cast t e).Flat ↔ t.Flat ∧ e.Flat := by
  simp +decide [Flat, GoType.Flat, text]

@[simp] theorem flat_deref : (deref e).Flat ↔ e.Flat := by
  simp +decide [Flat, text]

@[simp] theorem flat_address : (address e).Flat ↔ e.Flat := by
  simp +decide [Flat, text]

@[simp] theorem flat_paren : (paren e).Flat ↔ e.Flat := by
  simp +decide [Flat, text]

@[simp] theorem flat_not : (not e).Flat ↔ e.Flat := by
  simp +decide [Flat, text]

@[simp] theorem flat_succ : (succ e).Flat ↔ e.Flat := by
  simp +decide [Flat, text]

@[simp] theorem flat_binary (op : String) :
    (binary op e f).Flat ↔ e.Flat ∧ Text.Flat op ∧ f.Flat := by
  simp +decide [Flat, text, and_assoc]

@[simp] theorem flat_native :
    (native name es).Flat ↔ Text.Flat name ∧ ∀ e ∈ es, e.Flat := by
  simp +decide [native]

@[simp] theorem flat_builtin :
    (builtin name es).Flat ↔ Text.Flat name ∧ ∀ e ∈ es, e.Flat := by
  simp [builtin]

@[simp] theorem flat_invoke : (invoke e name).Flat ↔ e.Flat ∧ Text.Flat name := by
  simp [invoke]

@[simp] theorem flat_nil : nil.Flat := (by decide : Text.Flat "nil")

@[simp] theorem flat_nativeConst : (nativeConst name).Flat ↔ Text.Flat name := by
  simp +decide [nativeConst]

@[simp] theorem flat_toUnsafe : e.toUnsafe.Flat ↔ e.Flat := by
  simp [toUnsafe]

@[simp] theorem flat_toGpointer : e.toGpointer.Flat ↔ e.Flat := by
  simp [toGpointer]

@[simp] theorem flat_toNative : (toNative name e).Flat ↔ Text.Flat name ∧ e.Flat := by
  simp [toNative]

@[simp] theorem flat_toWord : e.toWord.Flat ↔ e.Flat := by
  simp +decide [toWord]

@[simp] theorem flat_gboolean (b : Bool) : (gboolean b).Flat := by
  cases b <;> simp +decide [gboolean]

@[simp] theorem flat_len : e.len.Flat ↔ e.Flat := by
  simp +decide [len]

@[simp] theorem flat_differs : (differs e f).Flat ↔ e.Flat ∧ f.Flat := by
  simp +decide [differs]

@[simp] theorem flat_notNil : e.notNil.Flat ↔ e.Flat := by
  simp [notNil]

@[simp] theorem flat_sizeOf : e.sizeOf.Flat ↔ e.Flat := by
  simp +decide [sizeOf]

@[simp] theorem flat_sizeOfType : (sizeOfType t).Flat ↔ t.Flat := by
  simp +decide [sizeOfType]

@[simp] theorem flat_slice : (slice e f).Flat ↔ e.Flat ∧ f.Flat := by
  simp +decide [slice]

@[simp] theorem flat_goString : e.goString.Flat ↔ e.Flat := by
  simp +decide [goString]

@[simp] theorem flat_cString : e.cString.Flat ↔ e.Flat := by
  simp +decide [cString]

@[simp] theorem flat_free : e.free.Flat ↔ e.Flat := by
  simp +decide [free]

@[simp] theorem flat_gFree : e.gFree.Flat ↔ e.Flat := by
  simp +decide [gFree]

@[simp] theorem flat_indexable : e.indexable.Flat ↔ e.Flat := by
  cases e <;> simp [indexable]

end Expr

/-! ### Statements -/

/-- What a loop does after each round has a flat spelling. -/
def Step.Flat (s : Step) : Prop := Text.Flat s.text

@[simp] theorem Step.flat_assign (name : String) (value : Expr) :
    (assign name value).Flat ↔ Text.Flat name ∧ value.Flat := by
  simp +decide [Flat, text, Expr.Flat]

@[simp] theorem Step.flat_increment (name : String) :
    (increment name).Flat ↔ Text.Flat name := by
  simp +decide [Flat, text]

/-- What opens a block has a flat spelling. -/
def Head.Flat (h : Head) : Prop := Text.Flat h.text

namespace Stmt

mutual

/-- All spellings in the statement are flat, so that it is laid out by its blocks only. -/
def Flat : Stmt → Prop
  | declare names type => (∀ name ∈ names, Text.Flat name) ∧ type.Flat
  | define name value => Text.Flat name ∧ value.Flat
  | assign target value => target.Flat ∧ value.Flat
  | run e => e.Flat
  | block head body => head.Flat ∧ AllFlat body

/-- All spellings in statements in a row are flat. -/
def AllFlat : List Stmt → Prop
  | [] => True
  | s :: rest => s.Flat ∧ AllFlat rest

end

variable (e f : Expr) (t : GoType) (name : String) (code : List Stmt)

@[simp] theorem allFlat_nil : AllFlat [] := trivial

@[simp] theorem allFlat_cons (s : Stmt) : AllFlat (s :: code) ↔ s.Flat ∧ AllFlat code := Iff.rfl

@[simp] theorem allFlat_append (rest : List Stmt) :
    AllFlat (code ++ rest) ↔ AllFlat code ∧ AllFlat rest := by
  induction code with
  | nil => simp
  | cons s code ih => simp [ih, and_assoc]

@[simp] theorem flat_declare (names : List String) :
    (declare names t).Flat ↔ (∀ name ∈ names, Text.Flat name) ∧ t.Flat :=
  Iff.rfl

@[simp] theorem flat_declareOne : (declareOne name t).Flat ↔ Text.Flat name ∧ t.Flat := by
  simp [declareOne]

@[simp] theorem flat_define : (define name e).Flat ↔ Text.Flat name ∧ e.Flat := Iff.rfl

@[simp] theorem flat_assign : (assign e f).Flat ↔ e.Flat ∧ f.Flat := Iff.rfl

@[simp] theorem flat_run : (run e).Flat ↔ e.Flat := Iff.rfl

theorem flat_block (head : Head) : (block head code).Flat ↔ head.Flat ∧ AllFlat code := Iff.rfl

@[simp] theorem flat_ifTrue : (block (.ifTrue e) code).Flat ↔ e.Flat ∧ AllFlat code := by
  simp +decide [flat_block, Head.Flat, Head.text, Expr.Flat]

@[simp] theorem flat_loop : (block (.loop e) code).Flat ↔ e.Flat ∧ AllFlat code := by
  simp +decide [flat_block, Head.Flat, Head.text, Expr.Flat]

@[simp] theorem flat_range (index : String) : (block (.range index name e) code).Flat
    ↔ Text.Flat index ∧ Text.Flat name ∧ e.Flat ∧ AllFlat code := by
  simp +decide [flat_block, Head.Flat, Head.text, Expr.Flat, and_assoc]

@[simp] theorem flat_walk (step : Step) : (block (.walk name e f step) code).Flat
    ↔ Text.Flat name ∧ e.Flat ∧ f.Flat ∧ step.Flat ∧ AllFlat code := by
  simp +decide [flat_block, Head.Flat, Head.text, Expr.Flat, Step.Flat, and_assoc]

mutual

/-- A statement leads back to the depth that it is printed at. -/
theorem nested_text (margin depth : Nat) :
    (s : Stmt) → s.Flat → Nested margin depth (s.text (margin + depth))
  | declare names type, h => by
    have hnames : Text.Flat (joined ", " names) := Text.flat_joined (by decide) h.1
    have htype : Text.Flat type.text := h.2
    exact Nested.lineAt (by simp +decide [hnames, htype])
  | define name value, h => by
    have hvalue : Text.Flat value.text := h.2
    exact Nested.lineAt (by simp +decide [h.1, hvalue])
  | assign target value, h => by
    have htarget : Text.Flat target.text := h.1
    have hvalue : Text.Flat value.text := h.2
    exact Nested.lineAt (by simp +decide [htarget, hvalue])
  | run e, h => Nested.lineAt h
  | block head body, h => by
    -- The body is printed one level deeper, and nothing stands behind the brace at its end.
    have hbody := nested_listText margin (depth + 1) body h.2
    have hblock := Nested.block h.1 hbody (by decide : Text.Flat "")
    rwa [String.append_empty] at hblock

/-- Statements in a row lead back to the depth that they are printed at. -/
theorem nested_listText (margin depth : Nat) :
    (code : List Stmt) → AllFlat code → Nested margin depth (listText (margin + depth) code)
  | [], _ => Nested.empty
  | s :: rest, h => (nested_text margin depth s h.1).append (nested_listText margin depth rest h.2)

end

end Stmt

end Introspection.Code
