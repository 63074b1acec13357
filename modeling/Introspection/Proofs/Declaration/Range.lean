import Introspection.Proofs.Conversion.ElementType
import Introspection.Proofs.Declaration.Integer
import Introspection.Proofs.Generation.Gap
import Introspection.Proofs.Resolution.Outcome

/-!
# `Introspection.Proofs.Declaration.Range`: numbers and the types they are declared with

The declaration of a constant gives a number and a Go type, and Go takes it only if the number is a
value of that type (`GoType.Holds`). The number is the one that was read, while the type is found
from the descriptor of the constant, and nothing compares the two: a constant with an integer and a
type of integers is declared whenever its descriptor holds together.
`Namespace.declaresNumber_of_integer` says which of these declarations Go takes.
-/

set_option autoImplicit false

namespace Introspection

open Introspection.Code (GoType)
open Introspection.Text (intText)

/-! ### Integers of Go -/

/-- A type of integers: its least and its largest value. -/
structure Code.IntegerType where
  least : Int
  most : Int

namespace Code.IntegerType

/-- The number is a value of the type. -/
def Holds (k : IntegerType) (n : Int) : Prop := k.least ≤ n ∧ n ≤ k.most

theorem holds_iff_lt {k : IntegerType} {n : Int} : k.Holds n ↔ k.least ≤ n ∧ n < k.most + 1 :=
  and_congr_right fun _ => Int.lt_add_one_iff.symm

/-- The predeclared types of integers whose width does not depend on the machine, with the values
that the Go specification gives them. -/
def named : List (String × IntegerType) :=
  [ ("int8", ⟨-128, 127⟩), ("int16", ⟨-32768, 32767⟩), ("int32", ⟨-2147483648, 2147483647⟩),
    ("int64", ⟨-9223372036854775808, 9223372036854775807⟩), ("uint8", ⟨0, 255⟩),
    ("uint16", ⟨0, 65535⟩), ("uint32", ⟨0, 4294967295⟩), ("uint64", ⟨0, 18446744073709551615⟩),
    ("byte", ⟨0, 255⟩), ("rune", ⟨-2147483648, 2147483647⟩) ]

end Code.IntegerType

namespace Code.GoType

/-- The type of integers that a type is, if it is one. -/
def integers? : GoType → Option IntegerType
  | plain name => IntegerType.named.lookup name
  | _ => none

/-- The type is one of integers, and the number is a value of it. -/
def Holds (g : GoType) (n : Int) : Prop := ∃ k, g.integers? = some k ∧ k.Holds n

variable {g : GoType} {n : Int}

theorem holds_iff {k : IntegerType} (hg : g.integers? = some k) : g.Holds n ↔ k.Holds n := by
  constructor
  · rintro ⟨k', hk', hn⟩
    cases hg.symm.trans hk'
    exact hn
  · intro hn
    exact ⟨k, hg, hn⟩

/-- No integer is a value of a type of pointers. -/
theorem holds_pointerIf_iff {indirect : Bool} :
    (pointerIf indirect g).Holds n ↔ indirect = false ∧ g.Holds n := by
  cases indirect with
  | false => simp [pointerIf]
  | true => simp [pointerIf, Holds, integers?]

end Code.GoType

namespace Tag

/-- Tags of integers: those that have a range, and code points. -/
def IsInteger (t : Tag) : Prop :=
  t ∈ [int8, uint8, int16, uint16, int32, uint32, int64, uint64, unichar]
  deriving Decidable

/-- The tag with the same range in Go, where a code point has 32 bits and a sign. -/
def inGo : Tag → Tag
  | unichar => int32
  | t => t

/-- A tag of integers stands for a type of integers in Go, which has the range of the tag. -/
theorem IsInteger.exists_basic {t : Tag} (h : t.IsInteger) :
    ∃ m, t.view = .basic m ∧ ∀ n, (GoType.plain m.hostName).Holds n ↔ t.inGo.Holds n := by
  cases t with
  | int8 | int16 | int32 | int64 | unichar =>
    exact ⟨_, rfl, fun n => (Code.GoType.holds_iff rfl).trans Iff.rfl⟩
  | uint8 | uint16 | uint32 | uint64 =>
    exact ⟨_, rfl, fun n => (Code.GoType.holds_iff rfl).trans Code.IntegerType.holds_iff_lt⟩
  | _ => exact absurd h (by decide)

end Tag

/-! ### Declarations -/

namespace Namespace

variable {ns : Namespace} {options : Options} {c : Constant} {n : Int64} {f : Fragment}

/-- The fragment declares the constant with its number and with a type of Go. -/
structure DeclaresNumber (c : Constant) (n : Int64) (f : Fragment) (type : GoType) : Prop where
  declaration : f.declaration = .constant (Text.pascalCase c.name) type (.int n)
  text : f.declaration.text
    = "const " ++ Text.pascalCase c.name ++ " " ++ type.text ++ " = " ++ intText n.toInt ++ "\n"

/-- A number of a numeric type is declared as soon as the descriptor holds together. -/
theorem constantFragment_eq_ok_iff {m : Numeric} (hview : c.type.view = .basic m)
    (hvalue : c.value = .int n) :
    ns.constantFragment options c = .ok f ↔ c.type.WellShaped
      ∧ f = ⟨.item ns.name c.name, c.deprecated,
        .constant (Text.pascalCase c.name) (.pointerIf c.type.pointer (.plain m.hostName))
          (.int n)⟩ := by
  have htyped : c.typedValue = .ok (.int n) := by
    rw [Constant.typedValue, hvalue, hview]
    rfl
  have hhost : c.type.WellShaped → resolveHost (ns.scope options) c.type false
      = .ok (.pointerIf c.type.pointer (.plain m.hostName)) := by
    intro hshape
    have hplain : TypeDesc.plainHost (ns.scope options) c.type.view = some (.plain m.hostName) := by
      rw [hview]
      rfl
    rw [TypeDesc.resolveHost_eq hshape, TypeDesc.hostType_of_plainHost hplain]
  unfold constantFragment
  rw [within_eq_ok_iff, htyped]
  constructor
  · intro hf
    obtain ⟨type, htype, hfragment⟩ := bind_eq_ok_iff.mp hf
    have hshape : c.type.WellShaped :=
      TypeDesc.wellShaped_of_resolveHost htype
    cases (hhost hshape).symm.trans htype
    cases hfragment
    exact ⟨hshape, rfl⟩
  · rintro ⟨hshape, rfl⟩
    rw [hhost hshape]
    rfl

/-- A constant with an integer and a type of integers is declared whatever the integer is. Go takes
the declaration if the integer is in the range of the type, and the type is not one of pointers. -/
theorem declaresNumber_of_integer (ns : Namespace) (options : Options) (hvalue : c.value = .int n)
    (htag : c.type.tag.IsInteger) :
    ((∃ f, ns.constantFragment options c = .ok f) ↔ c.type.WellShaped)
      ∧ ∀ f, ns.constantFragment options c = .ok f → ∃ type, DeclaresNumber c n f type
        ∧ (type.Holds n.toInt ↔ c.type.pointer = false ∧ c.type.tag.inGo.Holds n.toInt) := by
  obtain ⟨m, hview, hholds⟩ := htag.exists_basic
  constructor
  · constructor
    · rintro ⟨f, hf⟩
      exact ((constantFragment_eq_ok_iff hview hvalue).mp hf).1
    · intro hshape
      exact ⟨_, (constantFragment_eq_ok_iff hview hvalue).mpr ⟨hshape, rfl⟩⟩
  · intro f hf
    obtain ⟨-, rfl⟩ := (constantFragment_eq_ok_iff hview hvalue).mp hf
    exact ⟨_, ⟨rfl, rfl⟩, by rw [Code.GoType.holds_pointerIf_iff, hholds]⟩

/-- A constant of 8 bits that needs one more. -/
def limitEntry : Constant := ⟨"LIMIT", .ofTag .int8, .int 300, false⟩

/-- It is declared, with a type that does not have its number. -/
theorem not_holds_limitEntry :
    ∃ f type, (ofName "Gtk").constantFragment .default limitEntry = .ok f
      ∧ DeclaresNumber limitEntry 300 f type ∧ ¬type.Holds 300 := by
  have hshape : (TypeDesc.ofTag .int8).WellShaped :=
    TypeDesc.shapeDefect_eq_none_iff.mp (by decide)
  obtain ⟨hdeclared, hnumber⟩ :=
    declaresNumber_of_integer (ofName "Gtk") .default (c := limitEntry) (n := 300) rfl (by decide)
  obtain ⟨f, hf⟩ := hdeclared.mpr hshape
  obtain ⟨type, hdeclares, hholds⟩ := hnumber f hf
  refine ⟨f, type, hf, hdeclares, fun h => ?_⟩
  have hrange : Tag.int8.Holds (300 : Int64).toInt := (hholds.mp h).2
  exact absurd hrange.2 (by decide)

end Namespace

end Introspection
