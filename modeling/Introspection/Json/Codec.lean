import Introspection.Json.Reader
import Introspection.Json.Value
import Introspection.Text.Quoting
import Introspection.Text.Search

/-!
# `Introspection.Json.Codec`: values of a type as JSON

A `Codec` writes the values of a type as JSON values and reads them back from the tree of a
text. Reading goes through the tree in the order of the text, so that the first wrong type or
defect in the text is the one reported. At most `levels` arrays and objects may be open at the
same time, values that are skipped not counted.

* `Codec.bool`, `Codec.string`, `Codec.int64`, `Codec.uint64`: scalars.
* `Codec.list`, `Codec.optional`: arrays, and values that may be `null`.
* `Codec.choice`: one of several names, alone or as the only key of an object.
* `Codec.record`: the fields of a record, as the members of an object or as the items of an
  array in the order of the fields.
-/

set_option autoImplicit false

namespace Introspection.Json

open Introspection.Decimal
open Introspection.Text (intText natText listed joined)

/-- A value of the wrong type, as far as a message shows it. -/
inductive Found
  | null
  | bool (b : Bool)
  | integer (n : Int)
  | real (x : Binary64)
  | string (s : String)
  | sequence
  | map

/-- How a message names what was found. -/
def Found.text : Found → String
  | .null => "null"
  | .bool true => "boolean `true`"
  | .bool false => "boolean `false`"
  | .integer n => "integer `" ++ intText n ++ "`"
  | .real x => "floating point `" ++ realLayout.write x ++ "`"
  | .string s => "string " ++ listed s
  | .sequence => "sequence"
  | .map => "map"

/-- Ways in which a text is not what its reader expects. -/
inductive DecodeError
  /-- The text is not JSON. -/
  | defect (d : Defect)
  | wrongType (found : Found) (expected : String)
  /-- A whole number outside the range of its type. -/
  | outOfRange (n : Int) (expected : String)
  /-- An array with too few items for a record. -/
  | tooShort (length : Nat) (expected : String)
  | unknownName (name : String) (known : List String)
  | missingField (name : String)
  | repeatedField (name : String)
  /-- Two entries of a table share a name. -/
  | repeatedEntry (name : String)
  /-- A value that is none of the kinds that a type allows. -/
  | noVariant (type : String)

/-- What an error is called in a message. -/
def DecodeError.message : DecodeError → String
  | .defect d => d.message
  | .wrongType found expected => "invalid type: " ++ found.text ++ ", expected " ++ expected
  | .outOfRange n expected => "invalid value: integer `" ++ intText n ++ "`, expected " ++ expected
  | .tooShort length expected =>
    "invalid length " ++ natText length ++ ", expected " ++ expected
  | .unknownName name known =>
    "unknown variant `" ++ name ++ "`, expected one of "
      ++ joined ", " (known.map fun k => "`" ++ k ++ "`")
  | .missingField name => "missing field `" ++ name ++ "`"
  | .repeatedField name => "duplicate field `" ++ name ++ "`"
  | .repeatedEntry name => "duplicate entry `" ++ name ++ "`"
  | .noVariant type => "data did not match any variant of untagged enum " ++ type

/-- Result of reading a value. -/
abbrev Decoded (α : Type) := Except DecodeError α

/-- A defect met while reading. -/
def Decoded.ofDefect {α : Type} : Except Defect α → Decoded α
  | .ok a => .ok a
  | .error d => .error (.defect d)

/-- Refuses a node that is not of the expected type. -/
def Node.refuse {α : Type} (node : Node) (expected : String) : Decoded α :=
  match node with
  | .null => .error (.wrongType .null expected)
  | .bool b => .error (.wrongType (.bool b) expected)
  | .number (.ok (.integer n)) => .error (.wrongType (.integer n) expected)
  | .number (.ok (.real x)) => .error (.wrongType (.real x) expected)
  | .number (.error d) => .error (.defect d)
  | .string (.ok s) => .error (.wrongType (.string s) expected)
  | .string (.error d) => .error (.defect d)
  | .array _ => .error (.wrongType .sequence expected)
  | .object _ => .error (.wrongType .map expected)
  | .broken d => .error (.defect d.read)

/-- How the values of a type are written and read. -/
structure Codec (α : Type) where
  encode : α → Value
  /-- Reads a value inside which at most `levels` arrays and objects may be open. -/
  decode (levels : Nat) (node : Node) : Decoded α

namespace Codec

/-- Truth values. -/
def bool : Codec Bool where
  encode := .bool
  decode
    | _, .bool b => .ok b
    | _, node => node.refuse "a boolean"

/-- Texts. -/
def string : Codec String where
  encode := .string
  decode
    | _, .string s => .ofDefect s
    | _, node => node.refuse "a string"

/-- Whole numbers from `-2 ^ 63` up to `2 ^ 63 - 1`. -/
def int64 : Codec Int64 where
  encode n := .integer n.toInt
  decode
    | _, .number (.ok (.integer n)) =>
      if Int64.minValue.toInt ≤ n ∧ n ≤ Int64.maxValue.toInt then .ok (Int64.ofInt n)
      else .error (.outOfRange n "i64")
    | _, node => node.refuse "i64"

/-- Whole numbers from `0` up to `2 ^ 64 - 1`. -/
def uint64 : Codec UInt64 where
  encode n := .integer n.toNat
  decode
    | _, .number (.ok (.integer n)) =>
      if 0 ≤ n ∧ n < UInt64.size then .ok (UInt64.ofNat n.toNat) else .error (.outOfRange n "usize")
    | _, node => node.refuse "usize"

/-- A value or `null`. -/
def optional {α : Type} (c : Codec α) : Codec (Option α) where
  encode
    | none => .null
    | some a => c.encode a
  decode
    | _, .null => .ok none
    | levels, node => (c.decode levels node).map some

end Codec

/-- Reads the items of an array up to its end. -/
def Items.decode {α : Type} (item : Node → Decoded α) : Items → Decoded (List α)
  | .closed => .ok []
  | .broken d => .error (.defect d.read)
  | .cons node rest => do
    let a ← item node
    return a :: (← rest.decode item)

/-- Reads an array; `item` reads one item, and is asked only when `levels` is not zero. -/
def Node.decodeList {α : Type} (levels : Nat) (item : Node → Decoded α) (node : Node) :
    Decoded (List α) :=
  match node with
  | .array items => if levels = 0 then .error (.defect .tooDeep) else items.decode item
  | node => node.refuse "a sequence"

/-- Arrays. -/
def Codec.list {α : Type} (c : Codec α) : Codec (List α) where
  encode as := .array (as.map c.encode)
  decode levels node := node.decodeList levels (c.decode (levels - 1))

/-- The end of an object that holds a single name. -/
def Members.expectClosed : Members → Decoded Unit
  | .closed => .ok ()
  | .broken .unclosed => .error (.defect .endInObject)
  | _ => .error (.defect .valueExpected)

/-- Reads `null` and nothing else. -/
def Node.expectNull : Node → Decoded Unit
  | .null => .ok ()
  | node => node.refuse "unit"

/-- Reads one of the known names. -/
def decodeName {α : Type} (known : List (String × α)) (name : String) : Decoded α :=
  match known.lookup name with
  | some a => .ok a
  | none => .error (.unknownName name (known.map (·.1)))

/-- Reads an object whose only key is one of the known names and whose value is `null`. -/
def Members.decodeName {α : Type} (known : List (String × α)) : Members → Decoded α
  | .closed => .error (.defect .valueExpected)
  | .broken d => .error (.defect d.read)
  | .keyless => .error (.defect .keyExpected)
  | .cons key value rest => do
    let a ← Json.decodeName known (← Decoded.ofDefect key)
    value.expectNull
    rest.expectClosed
    return a

/-- One of several names. -/
def Codec.choice {α : Type} (nameOf : α → String) (all : List α) : Codec α where
  encode a := .string (nameOf a)
  decode levels node :=
    let known := all.map fun a => (nameOf a, a)
    match node with
    | .string s => do decodeName known (← Decoded.ofDefect s)
    | .object members =>
      if levels = 0 then .error (.defect .tooDeep) else members.decodeName known
    | .broken d => .error (.defect d.choice)
    | _ => .error (.defect .valueExpected)

/-- A field of a record. -/
structure Field (α : Type) where
  name : String
  codec : Codec α
  /-- The value of a field that is not written; without one the field is required. -/
  default? : Option α
  /-- Whether a value is left out when the record is written. -/
  hidden : α → Bool

/-- A field that must be there and is always written. -/
def Field.required {α : Type} (name : String) (codec : Codec α) : Field α :=
  ⟨name, codec, none, fun _ => false⟩

/-- A field that may be left out by others and is always written here. -/
def Field.withDefault {α : Type} (name : String) (codec : Codec α) (default : α) : Field α :=
  ⟨name, codec, some default, fun _ => false⟩

/-- A field that is left out when it holds nothing. -/
def Field.maybe {α : Type} (name : String) (codec : Codec α) : Field (Option α) :=
  ⟨name, codec.optional, some none, Option.isNone⟩

/-- The fields of a record. Their values, in order, make up a tuple of type `τ`; while a record
is read they fill a tuple of slots of type `σ`. -/
inductive Fields : Type → Type → Type 1
  | none : Fields Unit Unit
  | field {α τ σ : Type} (f : Field α) (rest : Fields τ σ) : Fields (α × τ) (Option α × σ)

namespace Fields

/-- No value read. -/
def empty : {τ σ : Type} → Fields τ σ → σ
  | _, _, .none => ()
  | _, _, .field _ rest => (Option.none, rest.empty)

/-- Number of fields. -/
def size : {τ σ : Type} → Fields τ σ → Nat
  | _, _, .none => 0
  | _, _, .field _ rest => rest.size + 1

/-- Reads the value of a member into the slot of its field. A member that belongs to no field
is skipped, a second one for the same field refused. -/
def place (levels : Nat) (key : String) (value : Node) :
    {τ σ : Type} → Fields τ σ → σ → Decoded σ
  | _, _, .none, () => .ofDefect value.skip
  | _, _, .field f rest, (slot, slots) =>
    if key = f.name then
      match slot with
      | some _ => .error (.repeatedField f.name)
      | Option.none => do return (some (← f.codec.decode levels value), slots)
    else do return (slot, ← rest.place levels key value slots)

/-- Reads the members of an object into the slots. -/
def placeAll (levels : Nat) {τ σ : Type} (fs : Fields τ σ) : Members → σ → Decoded σ
  | .closed, slots => .ok slots
  | .broken d, _ => .error (.defect d.read)
  | .keyless, _ => .error (.defect .keyExpected)
  | .cons key value rest, slots => do
    let slots ← fs.place levels (← Decoded.ofDefect key) value slots
    fs.placeAll levels rest slots

/-- The tuple of all values, with defaults in empty slots. -/
def finish : {τ σ : Type} → Fields τ σ → σ → Decoded τ
  | _, _, .none, () => .ok ()
  | _, _, .field f rest, (slot, slots) =>
    match slot.or f.default? with
    | some a => do return (a, ← rest.finish slots)
    | Option.none => .error (.missingField f.name)

/-- Reads the values of the fields off the items of an array, and returns the items that are
left. `done` counts the items already taken. -/
def takeItems (levels : Nat) (expected : String) :
    {τ σ : Type} → Fields τ σ → (done : Nat) → Items → Decoded (τ × Items)
  | _, _, .none, _, items => .ok ((), items)
  | _, _, .field f rest, done, .cons node items => do
    let a ← f.codec.decode levels node
    let (t, left) ← rest.takeItems levels expected (done + 1) items
    return ((a, t), left)
  | _, _, .field f rest, done, .closed =>
    match f.default? with
    | some a => do
      let (t, left) ← rest.takeItems levels expected (done + 1) .closed
      return ((a, t), left)
    | Option.none => .error (.tooShort done expected)
  | _, _, .field _ _, _, .broken d => .error (.defect d.read)

/-- The members that are written for a tuple. -/
def encode : {τ σ : Type} → Fields τ σ → τ → List (String × Value)
  | _, _, .none, _ => []
  | _, _, .field f rest, (a, t) =>
    if f.hidden a then rest.encode t else (f.name, f.codec.encode a) :: rest.encode t

end Fields

/-- The end of an array whose items have all been taken. -/
def Items.expectEnd : Items → Decoded Unit
  | .closed => .ok ()
  | .broken d => .error (.defect d.atEnd)
  | .cons _ _ => .error (.defect .trailingText)

/-- Reads the fields of a record from an object or an array; `type` is the record's name in
messages. -/
def Fields.decode {τ σ : Type} (type : String) (fs : Fields τ σ) (levels : Nat) (node : Node) :
    Decoded τ :=
  let expected := "struct " ++ type
  match node with
  | .object members =>
    if levels = 0 then .error (.defect .tooDeep)
    else do fs.finish (← fs.placeAll (levels - 1) members fs.empty)
  | .array items =>
    if levels = 0 then .error (.defect .tooDeep)
    else do
      let elements := if fs.size = 1 then " element" else " elements"
      let (t, left) ←
        fs.takeItems (levels - 1) (expected ++ " with " ++ natText fs.size ++ elements) 0 items
      left.expectEnd
      return t
  | node => node.refuse expected

/-- Records of type `α`, taken apart into a tuple of the values of their fields. -/
def Codec.record {α τ σ : Type} (type : String) (fs : Fields τ σ) (toTuple : α → τ)
    (ofTuple : τ → α) : Codec α where
  encode a := .object (fs.encode (toTuple a))
  decode levels node := (fs.decode type levels node).map ofTuple

/-- How many arrays and objects may be open at the same time in a text. -/
def maxLevels : Nat := 127

/-- Reads a value from a text that holds nothing else. -/
def Codec.ofText {α : Type} (c : Codec α) (s : String) : Decoded α := do
  let doc := Document.ofText s
  let a ← c.decode maxLevels doc.root
  if doc.trailing then .error (.defect .trailingText) else return a

mutual

/-- The value of a node that is read completely. -/
def Node.value (levels : Nat) : Node → Except Defect Value
  | .null => .ok .null
  | .bool b => .ok (.bool b)
  | .number n => do
    match ← n with
    | .integer n => .ok (.integer n)
    | .real x => .ok (.real x)
  | .string s => s.map .string
  | .array items =>
    match levels with
    | 0 => .error .tooDeep
    | levels + 1 => (items.values levels).map .array
  | .object members =>
    match levels with
    | 0 => .error .tooDeep
    | levels + 1 => (members.values levels).map .object
  | .broken d => .error d.read

/-- The values of all items. -/
def Items.values (levels : Nat) : Items → Except Defect (List Value)
  | .closed => .ok []
  | .broken d => .error d.read
  | .cons node rest => do
    let v ← node.value levels
    return v :: (← rest.values levels)

/-- The keys and values of all members. -/
def Members.values (levels : Nat) : Members → Except Defect (List (String × Value))
  | .closed => .ok []
  | .broken d => .error d.read
  | .keyless => .error .keyExpected
  | .cons key node rest => do
    let k ← key
    let v ← node.value levels
    return (k, v) :: (← rest.values levels)

end

/-- Any JSON value, as it is. -/
def Codec.value : Codec Value where
  encode := id
  decode levels node := .ofDefect (node.value levels)

end Introspection.Json
