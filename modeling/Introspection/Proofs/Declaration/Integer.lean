import Introspection.Declaration.Emission
import Introspection.Proofs.Decimal.Binary64
import Introspection.Proofs.Json.Numeral
import Introspection.Proofs.Json.Simulation
import Introspection.Proofs.Namespace.Validation
import Introspection.Proofs.Resolution.Unchecked

/-!
# `Introspection.Proofs.Declaration.Integer`: whole numbers from a text to a declaration

A whole number in the entry of a constant goes through a reader that does not look at the type of
the constant, is stored, and is written twice: as a literal of a declaration and as a JSON value.
`Namespace.carries_iff` says when both give the number back (`Namespace.Carries`), for entries
whose number is in the range of their type (`Tag.Holds`). The entries are those that read with
that number for their value and nothing else (`Constant.writtenAs`), so that they may have their
members in any order, and members that nobody asks for.

Reading never fails, but it keeps whole numbers in 64 bits with a sign. So the upper half of the
range of `uint64` becomes binary64 numbers, and so does a zero that is written with a minus sign
(`IntegerLiteral`).
-/

set_option autoImplicit false

namespace Introspection

open Introspection.Code (GoType)
open Introspection.Decimal
open Introspection.Json
open Introspection.Json.Numeral (EndsNumber)
open Introspection.Text (intDigits intText)

/-! ### Ranges of integers -/

namespace Tag

/-- The number is in the range of the integers of that tag; other tags have no range. -/
def Holds : Tag → Int → Prop
  | int8, n => Int8.minValue.toInt ≤ n ∧ n ≤ Int8.maxValue.toInt
  | int16, n => Int16.minValue.toInt ≤ n ∧ n ≤ Int16.maxValue.toInt
  | int32, n => Int32.minValue.toInt ≤ n ∧ n ≤ Int32.maxValue.toInt
  | int64, n => Int64.minValue.toInt ≤ n ∧ n ≤ Int64.maxValue.toInt
  | uint8, n => 0 ≤ n ∧ n < UInt8.size
  | uint16, n => 0 ≤ n ∧ n < UInt16.size
  | uint32, n => 0 ≤ n ∧ n < UInt32.size
  | uint64, n => 0 ≤ n ∧ n < UInt64.size
  | _, _ => False

variable {t : Tag} {n : Int}

/-- Integers have 64 bits at most. -/
theorem Holds.bounds (h : t.Holds n) : Int64.minValue.toInt ≤ n ∧ n < UInt64.size := by
  cases t with
  | int8 | int16 | int32 | int64 =>
    exact ⟨Int.le_trans (by decide) h.1, Int.lt_of_le_of_lt h.2 (by decide)⟩
  | uint8 | uint16 | uint32 | uint64 =>
    exact ⟨Int.le_trans (by decide) h.1, Int.lt_of_lt_of_le h.2 (by decide)⟩
  | _ => exact h.elim

/-- Integers are numeric and go by the same name in Go. -/
theorem Holds.exists_basic (h : t.Holds n) : ∃ m, t.view = .basic m ∧ m.hostName = t.name := by
  cases t with
  | int8 | int16 | int32 | int64 | uint8 | uint16 | uint32 | uint64 => exact ⟨_, rfl, rfl⟩
  | _ => exact h.elim

/-- Integers name no registered type. -/
theorem Holds.ne_interface (h : t.Holds n) : t ≠ .interface := by
  rintro rfl
  exact h

/-- Integers have no elements. -/
theorem Holds.arity (h : t.Holds n) : t.arity = 0 := by
  cases t with
  | int8 | int16 | int32 | int64 | uint8 | uint16 | uint32 | uint64 => rfl
  | _ => exact h.elim

end Tag

namespace TypeDesc

variable {s t : TypeDesc} {n : Int}

/-- The host type of an integer has the name of its tag. -/
theorem hostType_of_holds (scope : Scope) (isArg pointer : Bool) (hn : t.tag.Holds n) :
    t.hostType scope isArg pointer = .ok (.pointerIf pointer (.plain t.tag.name)) := by
  obtain ⟨tag, own, params, entity, array⟩ := t
  obtain ⟨m, hview, hname⟩ := hn.exists_basic
  change tag.view = .basic m at hview
  change m.hostName = tag.name at hname
  unfold hostType
  simp only [hview, hname]
  rfl

/-- There is no registered type inside a type of integers. -/
theorem entity_of_holds (hshape : t.WellShaped) (hn : t.tag.Holds n) (hs : s.Inside t) :
    s.entity = none := by
  have hparams : t.params = [] := by
    rw [← List.length_eq_zero_iff, hshape.agrees.params, hn.arity]
  obtain rfl | ⟨u, hu, -⟩ := inside_iff.mp hs
  · cases hentity : s.entity with
    | none => rfl
    | some r =>
      exact absurd (hshape.agrees.entity.mpr (by rw [hentity]; rfl)) hn.ne_interface
  · rw [hparams] at hu
    cases hu

end TypeDesc

/-! ### Whole numbers in a text -/

/-- How a whole number stands in a text: in decimal digits, or as a zero with a minus sign. -/
inductive IntegerLiteral : List Char → Int → Prop
  | digits (n : Int) : IntegerLiteral (intDigits n) n
  | minusZero : IntegerLiteral ['-', '0'] 0

/-- A zero with a minus sign reads as a binary64 number. -/
theorem readNumber_minusZero :
    ∃ x, readNumber ['-', '0'] = (.number (.ok (.real x)), some []) := by
  obtain ⟨x, hx⟩ := Binary64.exists_ofDecimal true (show 0 < 2 ^ 64 by decide)
  refine ⟨x, ?_⟩
  have hvalue : Numeral.value ⟨true, ['0'], [], none⟩ = .ok (.real x) := by
    unfold Numeral.value
    dsimp only
    rw [if_neg (by decide)]
    split
    · rename_i y hy
      cases hy.symm.trans hx
      rfl
    · rename_i hnone
      cases hnone.symm.trans hx
  show (Node.number (Numeral.value ⟨true, ['0'], [], none⟩), some []) = _
  rw [hvalue]

/-- What a reader makes of a whole number of at most 64 bits. -/
theorem IntegerLiteral.read {lit : List Char} {n : Int} {k : Number} (h : IntegerLiteral lit n)
    (hlow : Int64.minValue.toInt ≤ n) (hhigh : n < UInt64.size)
    (hread : readNumber lit = (.number (.ok k), some [])) :
    (lit ≠ ['-', '0'] ∧ k = .integer n) ∨ (lit = ['-', '0'] ∧ ∃ x, k = .real x) := by
  obtain ⟨x, hminus⟩ := readNumber_minusZero
  cases h with
  | digits =>
    have hends : EndsNumber [] := trivial
    have hdigits := readNumber_intDigits hlow hhigh hends
    rw [List.append_nil] at hdigits
    refine Or.inl ⟨?_, ?_⟩
    · intro heq
      rw [heq, hminus] at hdigits
      cases hdigits
    · rw [hdigits] at hread
      cases hread
      rfl
  | minusZero =>
    rw [hminus] at hread
    cases hread
    exact Or.inr ⟨rfl, x, rfl⟩

/-! ### Entries with a number -/

/-- A number as a JSON value. -/
def Json.Number.toValue : Number → Value
  | .integer n => .integer n
  | .real x => .real x

/-- Reads the given number and nothing else. -/
def Json.Codec.exactly (k : Number) : Codec Unit where
  encode _ := k.toValue
  decode
    | _, .number (.ok k') => if k' = k then .ok () else Node.refuse (.number (.ok k')) "a number"
    | _, node => node.refuse "a number"

/-- Entries of constants that have the number `k` for their value: what they say besides. -/
def Constant.writtenAs (k : Number) : Codec (String × TypeDesc × Bool) :=
  .record "ConstantInfo"
    (.field (.required "name" .string)
      (.field (.required "type" TypeDesc.codec)
        (.field (.required "value" (.exactly k))
          (.field (.withDefault "deprecated" .bool false) .none))))
    (fun (name, type, deprecated) => (name, type, (), deprecated, ()))
    (fun (name, type, _, deprecated, _) => (name, type, deprecated))

/-- Where the number is read, the constant gets the value that it stands for. -/
theorem ConstantValue.follows_exactly {k : Number} {v : ConstantValue}
    (hk : ofValue? k.toValue = some v) (levels : Nat) (node : Node) :
    Follows (fun _ w => w = v) ((Codec.exactly k).decode levels node)
      (ConstantValue.codec.decode levels node) := by
  have hvalue : ConstantValue.codec.decode levels (.number (.ok k)) = .ok v := by
    cases k with
    | integer n =>
      replace hk : ofValue? (.integer n) = some v := hk
      simp only [codec, Codec.value, Node.value, Decoded.ofDefect, ok_bind, hk]
    | real x =>
      replace hk : ofValue? (.real x) = some v := hk
      simp only [codec, Codec.value, Node.value, Decoded.ofDefect, ok_bind, hk]
  simp only [Codec.exactly]
  split
  · split
    · rename_i heq
      rw [heq, hvalue]
      exact follows_ok rfl
    · exact follows_refuse _ _ _
  · exact follows_refuse _ _ _

/-- The entry reads as a constant with the value that its number stands for. -/
theorem Constant.decode_of_writtenAs {k : Number} {v : ConstantValue}
    (hk : ConstantValue.ofValue? k.toValue = some v) {levels : Nat} {entry : Node} {name : String}
    {type : TypeDesc} {deprecated : Bool}
    (hentry : (Constant.writtenAs k).decode levels entry = .ok (name, type, deprecated)) :
    Constant.codec.decode levels entry = .ok ⟨name, type, v, deprecated⟩ := by
  have hvalue : Field.Matches (levels - 1) (fun _ w => w = v)
      (.required "value" (.exactly k)) (.required "value" ConstantValue.codec) :=
    ⟨rfl, nofun, ConstantValue.follows_exactly hk (levels - 1)⟩
  -- The other fields are the same on both sides.
  have hmatches := Fields.Matches.field (.refl (levels - 1) (.required "name" .string))
    (.field (.refl _ (.required "type" TypeDesc.codec))
      (.field hvalue (.field (.refl _ (.withDefault "deprecated" .bool false)) .none)))
  obtain ⟨⟨name', type', _, deprecated', _⟩, ht, heq⟩ := map_eq_ok_iff.mp hentry
  cases heq
  obtain ⟨⟨_, _, w, _, _⟩, ht', rfl, rfl, rfl, rfl, _⟩ := hmatches.decode "ConstantInfo" entry _ ht
  exact map_eq_ok_iff.mpr ⟨_, ht', rfl⟩

/-! ### What is stored -/

/-- Every whole number of at most 64 bits gets a value: itself when it is written in digits and
leaves room for a sign, and a binary64 number otherwise. -/
theorem IntegerLiteral.exists_ofValue {lit : List Char} {n : Int} {k : Number}
    (h : IntegerLiteral lit n) (hlow : Int64.minValue.toInt ≤ n) (hhigh : n < UInt64.size)
    (hread : readNumber lit = (.number (.ok k), some [])) :
    ∃ v, ConstantValue.ofValue? k.toValue = some v
      ∧ ((v = .int (Int64.ofInt n) ∧ n ≤ Int64.maxValue.toInt ∧ lit ≠ ['-', '0'])
        ∨ ((∃ x, v = .float x) ∧ ¬(n ≤ Int64.maxValue.toInt ∧ lit ≠ ['-', '0']))) := by
  rcases h.read hlow hhigh hread with ⟨hplain, rfl⟩ | ⟨hminus, x, rfl⟩
  · by_cases hfits : n ≤ Int64.maxValue.toInt
    · exact ⟨.int (Int64.ofInt n), if_pos ⟨hlow, hfits⟩, Or.inl ⟨rfl, hfits, hplain⟩⟩
    · have hmax : 0 ≤ Int64.maxValue.toInt := by decide
      have hsize : UInt64.size = 2 ^ 64 := rfl
      obtain ⟨x, hx⟩ :=
        Binary64.exists_ofDecimal (decide (n < 0)) (show n.natAbs < 2 ^ 64 by omega)
      refine ⟨.float x, ?_, Or.inr ⟨⟨x, rfl⟩, fun h => hfits h.1⟩⟩
      show (if _ then some (ConstantValue.int _) else Option.map _ _) = some (.float x)
      rw [if_neg (fun h => hfits h.2), hx, Option.map_some]
  · exact ⟨.float x, rfl, Or.inr ⟨⟨x, rfl⟩, fun h => h.2 hminus⟩⟩

/-! ### What is written -/

/-- The declaration of a constant with a type of integers that gives it the number `n`. -/
def Constant.declarationOf (c : Constant) (n : Int) : String :=
  "const " ++ Text.pascalCase c.name ++ " "
    ++ (GoType.pointerIf c.type.pointer (.plain c.type.tag.name)).text ++ " = " ++ intText n ++ "\n"

namespace Namespace

variable {ns : Namespace} {options : Options} {c : Constant} {n : Int}

/-- The declaration of the constant gives the number `n`, and so does its JSON form, as a whole
number. -/
structure Carries (ns : Namespace) (options : Options) (c : Constant) (n : Int) : Prop where
  declared : ∃ f, ns.constantFragment options c = .ok f ∧ f.declaration.text = c.declarationOf n
  json : (Constant.codec.encode c).member? "value" = some (.integer n)

/-- A constant with a number and a type of integers has a declaration. -/
theorem constantFragment_of_holds (ns : Namespace) (options : Options)
    (hshape : c.type.WellShaped) (hn : c.type.tag.Holds n)
    (hvalue : ∀ m, c.value.fits (.basic m) = true) :
    ns.constantFragment options c = .ok ⟨.item ns.name c.name, c.deprecated,
      .constant (Text.pascalCase c.name) (.pointerIf c.type.pointer (.plain c.type.tag.name))
        c.value⟩ := by
  have hhost : resolveHost (ns.scope options) c.type false
      = .ok (.pointerIf c.type.pointer (.plain c.type.tag.name)) := by
    rw [TypeDesc.resolveHost_eq hshape,
      TypeDesc.hostType_of_holds (ns.scope options) false c.type.pointer hn]
  have htyped : c.typedValue = .ok c.value := by
    obtain ⟨m, hview, -⟩ := hn.exists_basic
    have hfits : c.value.fits c.type.view = true := by
      rw [TypeDesc.view, hview]
      exact hvalue m
    rw [Constant.typedValue, if_pos hfits]
  rw [constantFragment, hhost, ok_bind, htyped]
  rfl

/-- A number that is stored as itself is carried. -/
theorem carries_of_int (hshape : c.type.WellShaped) (hn : c.type.tag.Holds n)
    (hhigh : n ≤ Int64.maxValue.toInt) (hvalue : c.value = .int (Int64.ofInt n)) :
    ns.Carries options c n := by
  have htoInt : (Int64.ofInt n).toInt = n :=
    Int64.toInt_ofInt_of_le hn.bounds.1 (Int.lt_add_one_of_le hhigh)
  constructor
  · refine ⟨_, constantFragment_of_holds ns options hshape hn (fun m => by rw [hvalue]; rfl), ?_⟩
    rw [Constant.declarationOf, ← htoInt, hvalue]
    rfl
  · show some (ConstantValue.codec.encode c.value) = _
    rw [hvalue]
    exact congrArg (fun k => some (Value.integer k)) htoInt

/-- A number that is stored as a binary64 number is not: in JSON that is no whole number, even
where the two are equal. -/
theorem not_carries_of_float {x : Binary64} (hvalue : c.value = .float x) :
    ¬ns.Carries options c n := by
  intro h
  have hjson : some (ConstantValue.codec.encode c.value) = some (.integer n) := h.json
  rw [hvalue] at hjson
  cases hjson

/-- An entry whose value is a whole number in the range of its type is read and declared. The
declaration and the JSON form give the number when it is at most the largest one of 64 bits with a
sign and zero is not written with a minus sign, and only then. -/
theorem carries_iff (ns : Namespace) (options : Options) {lit : List Char} {n : Int}
    {k : Number} {levels : Nat}
    {entry : Node} {name : String} {type : TypeDesc} {deprecated : Bool}
    (hlit : IntegerLiteral lit n) (hread : readNumber lit = (.number (.ok k), some []))
    (hentry : (Constant.writtenAs k).decode levels entry = .ok (name, type, deprecated))
    (hshape : type.WellShaped) (hn : type.tag.Holds n) :
    ∃ c, Constant.codec.decode levels entry = .ok c
      ∧ c.name = name ∧ c.type = type ∧ c.deprecated = deprecated
      ∧ (∀ path, ns.checkOccurrence ⟨path, c.type⟩ = .ok ())
      ∧ (∃ f, ns.constantFragment options c = .ok f)
      ∧ (ns.Carries options c n ↔ n ≤ Int64.maxValue.toInt ∧ lit ≠ ['-', '0']) := by
  obtain ⟨v, hv, hstored⟩ := hlit.exists_ofValue hn.bounds.1 hn.bounds.2 hread
  refine ⟨⟨name, type, v, deprecated⟩, Constant.decode_of_writtenAs hv hentry, rfl, rfl, rfl,
    fun path => ?_, ?_, ?_⟩
  · refine checkOccurrence_eq_ok_iff.mpr ⟨hshape, fun s hs r hr => ?_⟩
    rw [TypeDesc.entity_of_holds hshape hn hs] at hr
    cases hr
  · refine ⟨_, constantFragment_of_holds ns options hshape hn fun m => ?_⟩
    obtain ⟨rfl, -⟩ | ⟨⟨x, rfl⟩, -⟩ := hstored <;> rfl
  · obtain ⟨rfl, hfits, hplain⟩ | ⟨⟨x, rfl⟩, hnot⟩ := hstored
    · exact iff_of_true (carries_of_int hshape hn hfits rfl) ⟨hfits, hplain⟩
    · exact iff_of_false (not_carries_of_float rfl) hnot

/-- The largest number of 64 bits, as a constant of the type that has room for it. -/
def largestEntry : Node :=
  .object (.cons (.ok "name") (.string (.ok "MAXUINT64"))
    (.cons (.ok "type") (.object (.cons (.ok "tag") (.string (.ok "uint64")) .closed))
      (.cons (.ok "value") (.number (.ok (.integer 18446744073709551615))) .closed)))

/-- It is read and declared, but not carried. -/
theorem not_carries_largestEntry :
    ∃ c, Constant.codec.decode maxLevels largestEntry = .ok c
      ∧ c.type.tag.Holds 18446744073709551615
      ∧ (∃ f, (ofName "GLib").constantFragment .default c = .ok f)
      ∧ ¬(ofName "GLib").Carries .default c 18446744073709551615 := by
  have hshape : (TypeDesc.ofTag .uint64).WellShaped :=
    TypeDesc.shapeDefect_eq_none_iff.mp (by decide)
  have hholds : (TypeDesc.ofTag .uint64).tag.Holds 18446744073709551615 :=
    show (0 : Int) ≤ _ ∧ _ < (UInt64.size : Int) by decide
  have hread : readNumber (intDigits 18446744073709551615)
      = (.number (.ok (.integer 18446744073709551615)), some []) := rfl
  have hentry : (Constant.writtenAs (.integer 18446744073709551615)).decode maxLevels largestEntry
      = .ok ("MAXUINT64", .ofTag .uint64, false) := rfl
  obtain ⟨c, hc, -, htype, -, -, hdeclared, hcarries⟩ :=
    carries_iff (ofName "GLib") .default (.digits 18446744073709551615) hread hentry hshape hholds
  refine ⟨c, hc, by rw [htype]; exact hholds, hdeclared, ?_⟩
  rw [hcarries]
  exact fun h => absurd h.1 (by decide)

end Namespace

end Introspection
