import Introspection.Code.Buffer
import Introspection.Conversion.Container

/-!
# `Introspection.Marshalling.Container`: writing the code of containers

The code that converts lists, hash tables and arrays, written operation by operation into buffers.
Code that goes in is written into two of them, one for the code in front of the call and one for
what gives back what that allocated (`Sink`). Helpers write parts of blocks: `openHashWalk` opens a
loop that its caller has to close, and `Output.writeCount` writes a loop before the block that
needs its result.
-/

set_option autoImplicit false

namespace Introspection

open Introspection.Code
open Introspection.Text (natText)

/-- What is written for a value on its way to the native side. -/
structure Sink where
  /-- Declares and fills the native local. -/
  code : List Op
  /-- Gives back what the code allocated. -/
  release : List Op

/-- Enters a loop over the nodes of a list. -/
def enterListWalk (node : String) (start : Expr) : Op :=
  .enter (.walk node start (.notNil (.inner node)) (.assign node (.member (.inner node) "next")))

/-- Enters a loop over the entries of a hash table, with `<stem>_k` and `<stem>_v` bound. The loop
is left open. -/
def openHashWalk (stem : String) (real : Expr) : List Op :=
  let iter := stem ++ "_iter"
  let key := stem ++ "_k"
  let value := stem ++ "_v"
  [ .declare [iter] (.native "GHashTableIter"),
    .declare [key, value] GoType.gpointer,
    .eval (.native "g_hash_table_iter_init" [.address (.inner iter), real]),
    .enter
      (.loop
        (.differs
          (.native "g_hash_table_iter_next"
            [.address (.inner iter), .address (.inner key), .address (.inner value)])
          (.nativeConst "FALSE"))) ]

namespace Input

/-- Frees every copied element of a slice. -/
def releaseCopies (i : Input) (element : TypeDesc) (view : Expr) : List Op :=
  let item := i.real ++ "_e"
  if !element.isCopied then []
  else [.enter (.range "_" item view), .eval (.free (.inner item)), .leave]

/-- A host slice as a linked list. -/
def writeList (i : Input) (k : ListKind) (t : TypeDesc) : Generated Sink := do
  let element ← t.elementOf
  let val := i.real ++ "_val"
  let node := i.real ++ "_l"
  let native ← resolveNative t
  let word ← element.wordIn (.inner val)
  return {
    code :=
      [ .declare [i.real] native,
        .enter (.range "_" val i.host),
        .assign i.realExpr (.native (k.symbol ++ "_prepend") [i.realExpr, word]),
        .leave,
        .assign i.realExpr (.native (k.symbol ++ "_reverse") [i.realExpr]) ]
    release :=
      if i.keeps then
        (if element.isCopied then
          [ enterListWalk node i.realExpr,
            .eval (.free (.member (.inner node) "data")),
            .leave ]
        else [])
        ++ [.eval (.native (k.symbol ++ "_free") [i.realExpr])]
      else [] }

/-- A host map as a hash table. -/
def writeHash (i : Input) (t : TypeDesc) : Generated Sink := do
  let key ← t.elementOf
  let value ← t.valueOf
  let k := i.real ++ "_key"
  let v := i.real ++ "_val"
  let table :=
    if key.isCopied then Expr.native "girgen_str_hash_table_new" []
    else .native "g_hash_table_new" [.nil, .nil]
  let keyWord ← key.wordIn (.inner k)
  let valueWord ← value.wordIn (.inner v)
  return {
    code :=
      [ .define i.real table,
        .enter (.range k v i.host),
        .eval (.native "g_hash_table_insert" [i.realExpr, keyWord, valueWord]),
        .leave ]
    release :=
      if i.keeps then
        (if key.isCopied || value.isCopied then
          openHashWalk i.real i.realExpr
            ++ (if key.isCopied then [Op.eval (.free (.inner (i.real ++ "_k")))] else [])
            ++ (if value.isCopied then [Op.eval (.free (.inner (i.real ++ "_v")))] else [])
            -- The loop was entered by `openHashWalk`.
            ++ [.leave]
        else [])
        ++ [.eval (.native "g_hash_table_unref" [i.realExpr])]
      else [] }

/-- A host slice as an array. -/
def writeArray (i : Input) (t : TypeDesc) : Generated Sink := do
  let info ← t.arrayInfoOf
  let element ← t.elementOf
  let val := i.real ++ "_val"
  match info.storage with
  | .c =>
    let native ← resolveNative element
    let count := if info.zeroTerminated then Expr.succ (.len i.host) else .len i.host
    let view := i.real ++ "_view"
    let position := i.real ++ "_i"
    let value ← element.valueIn (.inner val)
    return {
      code :=
        [ .define i.real (allocate native count),
          .define view (.slice i.realExpr count),
          .enter (.range position val i.host),
          .assign (.index (.inner view) (.inner position)) value,
          .leave ]
      release :=
        if i.keeps then i.releaseCopies element (.inner view) ++ [.eval (.gFree i.realExpr)]
        else [] }
  | .array =>
    let native ← resolveNative element
    let item := i.real ++ "_elem"
    let value ← element.valueIn (.inner val)
    return {
      code :=
        [ .define i.real
            (.native "g_array_sized_new"
              [ .gboolean info.zeroTerminated, .gboolean true,
                .toNative "guint" (.sizeOfType native), .toNative "guint" (.len i.host) ]),
          .enter (.range "_" val i.host),
          .define item value,
          .eval
            (.native "g_array_append_vals"
              [ i.realExpr,
                .toNative "gconstpointer" (.toUnsafe (.address (.inner item))),
                .plain "1" ]),
          .leave ]
      release :=
        if i.keeps then
          i.releaseCopies element (arrayView native i.realExpr)
            ++ [.eval (.native "g_array_free" [i.realExpr, .gboolean true])]
        else [] }
  | .ptrArray =>
    let word ← element.wordIn (.paren (.deref (.inner val)))
    return {
      code :=
        [ .define i.real
            (.native "g_ptr_array_sized_new" [.toNative "guint" (.len i.host)]),
          .enter (.range "_" val i.host),
          .eval (.native "g_ptr_array_add" [i.realExpr, word]),
          .leave ]
      release :=
        if i.keeps then
          i.releaseCopies element (ptrArrayView i.realExpr)
            ++ [.eval (.native "g_ptr_array_free" [i.realExpr, .gboolean true])]
        else [] }
  | .byteArray =>
    return {
      code :=
        [ .define i.real
            (.native "g_byte_array_sized_new" [.toNative "guint" (.len i.host)]),
          .enter (.ifTrue (.binary ">" (.len i.host) (.plain "0"))),
          .eval
            (.native "g_byte_array_append"
              [ i.realExpr,
                .cast (.pointer (.native "guint8"))
                  (.toUnsafe (.address (.index i.host (.plain "0")))),
                .toNative "guint" (.len i.host) ]),
          .leave ]
      release :=
        if i.keeps then [.eval (.native "g_byte_array_unref" [i.realExpr])] else [] }

end Input

namespace Output

/-- Whether the elements of a container are copies that changed hands. -/
def takesElements (o : Output) (element : TypeDesc) : Bool :=
  o.transfer == .full && element.isCopied

/-- Whether the container changed hands. -/
def takesContainer (o : Output) : Bool := o.transfer != .none

/-- Assigns the host slice with one element more. -/
def writeAppend (o : Output) (e : Expr) : Op :=
  .assign o.target (.builtin "append" [o.target, e])

/-- A linked list as a host slice. -/
def writeList (scope : Scope) (o : Output) (k : ListKind) (t : TypeDesc) :
    Generated (List Op) := do
  let element ← t.elementOf
  let node := o.stem ++ "_l"
  let data := Expr.member (.inner node) "data"
  let value ← element.wordOut scope data
  return [.assign o.target .nil, enterListWalk node o.real, o.writeAppend value]
    ++ (if o.takesElements element then [.eval (.native "g_free" [data])] else [])
    ++ [.leave]
    ++ if o.takesContainer then [.eval (.native (k.symbol ++ "_free") [o.real])] else []

/-- A hash table as a host map. -/
def writeHash (scope : Scope) (o : Output) (t : TypeDesc) : Generated (List Op) := do
  let key ← t.elementOf
  let value ← t.valueOf
  let host ← resolveHost scope t false
  let k ← key.wordOut scope (.inner (o.stem ++ "_k"))
  let v ← value.wordOut scope (.inner (o.stem ++ "_v"))
  return [ .assign o.target (.builtin "make" [.typed host]),
      .enter (.ifTrue (.notNil o.real)) ]
    ++ openHashWalk o.stem o.real
    ++ [.assign (.index o.target.indexable k) v, .leave]
    ++ (if o.takesContainer then [.eval (.native "g_hash_table_unref" [o.real])] else [])
    ++ [.leave]

/-- The number of elements of a C array. When nothing better is known, a loop is written that
counts up to a terminator. -/
def writeCount (o : Output) (element : TypeDesc) (native : GoType) (info : ArrayInfo) :
    Generated (List Op × Expr) :=
  match info.fixedSize, o.length with
  | some size, _ => .ok ([], .plain (natText size.toNat))
  | none, some length => .ok ([], .convert (.plain "int") length)
  | none, none =>
    if !info.zeroTerminated then
      .error (.unboundedArray (Text.dropStartWhile (· == '*') o.target.text))
    else do
      let zero ← element.terminator native
      let count := o.stem ++ "_n"
      let cursor := o.stem ++ "_p"
      let next :=
        Expr.call (.qualified "unsafe" "Add")
          [.toUnsafe (.inner cursor), .sizeOf (.deref (.inner cursor))]
      return (
        [ .define count (.plain "0"),
          .enter
            (.walk cursor o.real
              (.binary "&&" (.notNil (.inner cursor)) (.differs (.deref (.inner cursor)) zero))
              (.increment count)),
          .assign (.inner cursor) (.cast (.pointer native) next),
          .leave ],
        .inner count)

/-- An array as a host slice. -/
def writeArray (scope : Scope) (o : Output) (t : TypeDesc) : Generated (List Op) := do
  let info ← t.arrayInfoOf
  let element ← t.elementOf
  let item := o.stem ++ "_e"
  let freeItem : List Op :=
    if o.takesElements element then [.eval (.gFree (.inner item))] else []
  match info.storage with
  | .c =>
    let native ← resolveNative element
    let (counting, count) ← o.writeCount element native info
    let position := o.stem ++ "_i"
    let host ← resolveHost scope t false
    let value ← element.valueOut scope (.inner item)
    return counting
      ++ [ .assign o.target (.builtin "make" [.typed host, count]),
        .enter (.ifTrue (.notNil o.real)),
        .enter (.range position item (.slice o.real count)),
        .assign (.index o.target.indexable (.inner position)) value ]
      ++ freeItem
      ++ [.leave]
      ++ (if o.takesContainer then [.eval (.gFree o.real)] else [])
      ++ [.leave]
  | .array =>
    let native ← resolveNative element
    let value ← element.valueOut scope (.inner item)
    return [ .assign o.target .nil,
        .enter (.ifTrue (.notNil o.real)),
        .enter (.range "_" item (arrayView native o.real)),
        o.writeAppend value ]
      ++ freeItem
      ++ [.leave]
      ++ (if o.takesContainer then [.eval (.native "g_array_free" [o.real, .gboolean true])]
        else [])
      ++ [.leave]
  | .ptrArray =>
    let value ← element.wordOut scope (.inner item)
    let slot := item ++ "_v"
    -- A wrapped handle is a pointer already; any other value gets a variable of its own.
    return [ .assign o.target .nil,
        .enter (.ifTrue (.notNil o.real)),
        .enter (.range "_" item (ptrArrayView o.real)) ]
      ++ (if element.storesPointer then [o.writeAppend value]
        else [.define slot value, o.writeAppend (.address (.inner slot))])
      ++ [.leave]
      ++ (if o.takesContainer then [.eval (.native "g_ptr_array_unref" [o.real])] else [])
      ++ [.leave]
  | .byteArray =>
    return [ .assign o.target .nil,
        .enter (.ifTrue (.notNil o.real)),
        .assign o.target
          (.native "GoBytes"
            [ .toUnsafe (.member o.real "data"), .toNative "int" (.member o.real "len") ]) ]
      ++ (if o.takesContainer then [.eval (.native "g_byte_array_unref" [o.real])] else [])
      ++ [.leave]

end Output

end Introspection
