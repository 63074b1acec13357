import Introspection.Proofs.Json.Numeral
import Introspection.Proofs.Json.Quoted

/-!
# `Introspection.Proofs.Json.Spacing`: values written with blanks between their parts

The two written forms of a value differ in their blanks only. A `Spacing` says which blanks stand
where, `Value.spaced` writes a value with them, and `compactChars_eq` and `prettyChars_eq` say
that the one-line form is the spacing without blanks and the other form the one with line breaks.

So one proof that a spaced value reads back (`readNode_spaced`) serves both forms. What a value
reads back as is its tree, `Node.ofValue`. Binary64 numbers are left aside, and whole numbers
must fit 64 bits: `Value.Exact` says so for all parts of a value.
-/

set_option autoImplicit false

namespace Introspection.Json

/-! ### Trees and sizes of values -/

mutual

/-- The tree of a value: what its text says. -/
def Node.ofValue : Value → Node
  | .null => .null
  | .bool b => .bool b
  | .integer n => .number (.ok (.integer n))
  | .real x => .number (.ok (.real x))
  | .string s => .string (.ok s)
  | .array items => .array (Items.ofValues items)
  | .object members => .object (Members.ofValues members)

/-- The items of an array that is closed. -/
def Items.ofValues : List Value → Items
  | [] => .closed
  | v :: rest => .cons (Node.ofValue v) (Items.ofValues rest)

/-- The members of an object that is closed. -/
def Members.ofValues : List (String × Value) → Members
  | [] => .closed
  | (k, v) :: rest => .cons (.ok k) (Node.ofValue v) (Members.ofValues rest)

end

namespace Value

mutual

/-- No part of the value is a binary64 number, and all whole numbers fit 64 bits. -/
def Exact : Value → Prop
  | .integer n => Int64.minValue.toInt ≤ n ∧ n < UInt64.size
  | .real _ => False
  | .array items => ExactItems items
  | .object members => ExactMembers members
  | _ => True

/-- All items are exact. -/
def ExactItems : List Value → Prop
  | [] => True
  | v :: rest => v.Exact ∧ ExactItems rest

/-- All values of members are exact. -/
def ExactMembers : List (String × Value) → Prop
  | [] => True
  | (_, v) :: rest => v.Exact ∧ ExactMembers rest

end

mutual

/-- How many arrays and objects are open at the same time in the text of the value. -/
def depth : Value → Nat
  | .array items => depthOfItems items + 1
  | .object members => depthOfMembers members + 1
  | _ => 0

/-- The depth of the deepest item. -/
def depthOfItems : List Value → Nat
  | [] => 0
  | v :: rest => max v.depth (depthOfItems rest)

/-- The depth of the deepest value of a member. -/
def depthOfMembers : List (String × Value) → Nat
  | [] => 0
  | (_, v) :: rest => max v.depth (depthOfMembers rest)

end

end Value

/-! ### Blanks between the parts -/

/-- The blanks that stand between the parts of a value. -/
structure Spacing where
  /-- Before an item or member that is `level` levels deep, and before the bracket that closes
  an array or object at that level. -/
  inside : Nat → List Char
  /-- Behind the colon of a member. -/
  afterColon : List Char
  inside_blank : ∀ level, ∀ c ∈ inside level, isJsonBlank c = true
  afterColon_blank : ∀ c ∈ afterColon, isJsonBlank c = true

/-- No blanks at all. -/
def Spacing.none : Spacing where
  inside _ := []
  afterColon := []
  inside_blank := by simp
  afterColon_blank := by simp

/-- Items and members on lines of their own. -/
def Spacing.lines : Spacing where
  inside := Value.lineBreak
  afterColon := [' ']
  inside_blank := by
    intro level c hc
    rcases List.mem_cons.mp hc with rfl | hc
    · rfl
    · rw [List.eq_of_mem_replicate hc]
      rfl
  afterColon_blank := by
    intro c hc
    rw [List.mem_singleton.mp hc]
    rfl

namespace Value

variable (sp : Spacing)

mutual

/-- The characters of a value that is `level` levels deep. -/
def spaced (level : Nat) : Value → List Char
  | .array [] => ['[', ']']
  | .array (v :: rest) =>
    '[' :: (sp.inside (level + 1) ++ (v.spaced (level + 1) ++ moreItems level rest))
  | .object [] => ['{', '}']
  | .object ((k, v) :: rest) =>
    '{' :: (sp.inside (level + 1)
      ++ (quotedChars k ++ ':' :: (sp.afterColon
        ++ (v.spaced (level + 1) ++ moreMembers level rest))))
  | v => v.scalarChars

/-- What follows an item up to the end of its array. -/
def moreItems (level : Nat) : List Value → List Char
  | [] => sp.inside level ++ [']']
  | v :: rest => ',' :: (sp.inside (level + 1) ++ (v.spaced (level + 1) ++ moreItems level rest))

/-- What follows a member up to the end of its object. -/
def moreMembers (level : Nat) : List (String × Value) → List Char
  | [] => sp.inside level ++ ['}']
  | (k, v) :: rest =>
    ',' :: (sp.inside (level + 1)
      ++ (quotedChars k ++ ':' :: (sp.afterColon
        ++ (v.spaced (level + 1) ++ moreMembers level rest))))

end

mutual

/-- The one-line form has no blanks. -/
theorem compactChars_eq (level : Nat) : ∀ v : Value, v.compactChars = v.spaced .none level
  | .null => rfl
  | .bool _ => rfl
  | .integer _ => rfl
  | .real _ => rfl
  | .string _ => rfl
  | .array [] => rfl
  | .array (v :: rest) => by
    simp only [compactChars, spaced, compactItems_eq level v rest]
    rfl
  | .object [] => rfl
  | .object ((k, v) :: rest) => by
    simp only [compactChars, spaced, compactMembers_eq level k v rest]
    rfl
termination_by v => sizeOf v

/-- Items and the closing bracket, without blanks. -/
theorem compactItems_eq (level : Nat) : ∀ (v : Value) (rest : List Value),
    '[' :: compactItems (v :: rest) ++ [']']
      = '[' :: (v.spaced .none (level + 1) ++ moreItems .none level rest)
  | v, [] => by
    simp only [compactItems, moreItems, compactChars_eq (level + 1) v]
    rfl
  | v, w :: rest => by
    have ih := compactItems_eq level w rest
    simp only [List.cons_append, List.cons.injEq, true_and] at ih
    simp only [compactItems, moreItems, compactChars_eq (level + 1) v, List.cons_append,
      List.append_assoc, ih]
    rfl
termination_by v rest => sizeOf v + sizeOf rest

/-- Members and the closing brace, without blanks. -/
theorem compactMembers_eq (level : Nat) : ∀ (k : String) (v : Value)
    (rest : List (String × Value)),
    '{' :: compactMembers ((k, v) :: rest) ++ ['}']
      = '{' :: (quotedChars k ++ ':' :: (v.spaced .none (level + 1)
          ++ moreMembers .none level rest))
  | k, v, [] => by
    simp only [compactMembers, moreMembers, compactChars_eq (level + 1) v, List.cons_append,
      List.append_assoc]
    rfl
  | k, v, (k', w) :: rest => by
    have ih := compactMembers_eq level k' w rest
    simp only [List.cons_append, List.cons.injEq, true_and] at ih
    simp only [compactMembers, moreMembers, compactChars_eq (level + 1) v, List.cons_append,
      List.append_assoc, ih]
    rfl
termination_by _ v rest => sizeOf v + sizeOf rest

end

mutual

/-- The form on many lines has line breaks before items and members. -/
theorem prettyChars_eq (level : Nat) : ∀ v : Value, v.prettyChars level = v.spaced .lines level
  | .null => rfl
  | .bool _ => rfl
  | .integer _ => rfl
  | .real _ => rfl
  | .string _ => rfl
  | .array [] => rfl
  | .array (v :: rest) => by
    have h := prettyItems_eq level v rest
    simp only [List.append_assoc] at h
    simp only [prettyChars, spaced, List.cons_append, List.append_assoc, h]
    rfl
  | .object [] => rfl
  | .object ((k, v) :: rest) => by
    have h := prettyMembers_eq level k v rest
    simp only [List.append_assoc] at h
    simp only [prettyChars, spaced, List.cons_append, List.append_assoc, h]
    rfl
termination_by v => sizeOf v

/-- Items and the closing bracket, each on a line of its own. -/
theorem prettyItems_eq (level : Nat) : ∀ (v : Value) (rest : List Value),
    prettyItems (level + 1) (v :: rest) ++ lineBreak level ++ [']']
      = lineBreak (level + 1) ++ (v.spaced .lines (level + 1) ++ moreItems .lines level rest)
  | v, [] => by
    simp only [prettyItems, moreItems, prettyChars_eq (level + 1) v, List.append_assoc]
    rfl
  | v, w :: rest => by
    have ih := prettyItems_eq level w rest
    simp only [List.append_assoc] at ih
    simp only [prettyItems, moreItems, prettyChars_eq (level + 1) v, List.append_assoc,
      List.cons_append, ih]
    rfl
termination_by v rest => sizeOf v + sizeOf rest

/-- Members and the closing brace, each on a line of its own. -/
theorem prettyMembers_eq (level : Nat) : ∀ (k : String) (v : Value)
    (rest : List (String × Value)),
    prettyMembers (level + 1) ((k, v) :: rest) ++ lineBreak level ++ ['}']
      = lineBreak (level + 1) ++ (quotedChars k ++ ':' :: ([' ']
          ++ (v.spaced .lines (level + 1) ++ moreMembers .lines level rest)))
  | k, v, [] => by
    simp only [prettyMembers, moreMembers, prettyChars_eq (level + 1) v, List.append_assoc,
      List.cons_append]
    rfl
  | k, v, (k', w) :: rest => by
    have ih := prettyMembers_eq level k' w rest
    simp only [List.append_assoc] at ih
    simp only [prettyMembers, moreMembers, prettyChars_eq (level + 1) v, List.append_assoc,
      List.cons_append, ih]
    rfl
termination_by _ v rest => sizeOf v + sizeOf rest

end

end Value

end Introspection.Json
