import Introspection.Code.Stmt
import Introspection.Conversion.Element
import Introspection.Text.Digits

/-!
# `Introspection.Conversion.Container`: lists, hash tables and arrays

Conversion of containers in both directions.

* `Passing` is the code that builds a native container from a host value, together with the code
  that gives it back after the call. The container and the copies it points to are given back
  unless the callee takes full ownership.
* `Output` is the value of a native container that is converted to a host value. The container
  is given back when it changed hands, copied strings in lists, C arrays and dynamic arrays when
  they changed hands too.
-/

set_option autoImplicit false

namespace Introspection

open Introspection.Code
open Introspection.Text (natText)

/-- Calls that give native memory back. -/
def Code.Expr.free (e : Expr) : Expr := .native "free" [.toUnsafe e]

/-- Gives back memory of the C library's own allocator. -/
def Code.Expr.gFree (e : Expr) : Expr := .native "g_free" [.toGpointer (.toUnsafe e)]

/-- Code that passes a host value to the native side. -/
structure Passing where
  /-- Declares and fills the native local. -/
  code : List Stmt
  /-- Gives back what the code allocated. -/
  release : List Stmt

/-- A host value on its way to the native side. -/
structure Input where
  /-- Native local that is declared. -/
  real : String
  /-- Host expression that holds the value. -/
  host : Expr
  transfer : Transfer

/-- A native value on its way to the host side. -/
structure Output where
  /-- Native expression that holds the value. -/
  real : Expr
  /-- What the names of further locals start with. -/
  stem : String
  /-- Host place that receives the value. -/
  target : Expr
  transfer : Transfer
  /-- Number of elements of an array, if it is known. -/
  length : Option Expr

/-- Visits the nodes of a list from the first to the last. -/
def listWalk (node : String) (start : Expr) (body : List Stmt) : Stmt :=
  .block
    (.walk node start (.notNil (.inner node)) (.assign node (.member (.inner node) "next"))) body

/-- Visits the entries of a hash table, binding `<stem>_k` and `<stem>_v`. -/
def hashWalk (stem : String) (real : Expr) (body : List Stmt) : List Stmt :=
  let iter := stem ++ "_iter"
  let key := stem ++ "_k"
  let value := stem ++ "_v"
  [ .declareOne iter (.native "GHashTableIter"),
    .declare [key, value] GoType.gpointer,
    .run (.native "g_hash_table_iter_init" [.address (.inner iter), real]),
    .block
      (.loop
        (.differs
          (.native "g_hash_table_iter_next"
            [.address (.inner iter), .address (.inner key), .address (.inner value)])
          (.nativeConst "FALSE")))
      body ]

/-- The elements of a dynamic array as a slice. -/
def arrayView (native : GoType) (real : Expr) : Expr :=
  .slice (.cast (.pointer native) (.toUnsafe (.member real "data")))
    (.convert (.plain "int") (.member real "len"))

/-- The words of a pointer array as a slice. -/
def ptrArrayView (real : Expr) : Expr :=
  .slice (.member real "pdata") (.convert (.plain "int") (.member real "len"))

/-- A zeroed C array of `count` elements. -/
def allocate (native : GoType) (count : Expr) : Expr :=
  .cast (.pointer native)
    (.native "g_malloc0_n"
      [.toNative "gsize" count, .toNative "gsize" (.sizeOfType native)])

namespace Input

/-- The native local as an expression. -/
def realExpr (i : Input) : Expr := .inner i.real

/-- Whether the wrapper gives back what it allocated. -/
def keeps (i : Input) : Bool := i.transfer != .full

/-- Statements that are needed when the wrapper gives back what it allocated. -/
def whenKept (i : Input) (release : List Stmt) : List Stmt := if i.keeps then release else []

/-- Frees every copied element of a slice. -/
def freeCopies (i : Input) (element : TypeDesc) (view : Expr) : List Stmt :=
  let item := i.real ++ "_e"
  if element.isCopied then [.block (.range "_" item view) [.run (.free (.inner item))]] else []

/-- A host slice as a linked list. -/
def list (i : Input) (k : ListKind) (t : TypeDesc) : Generated Passing := do
  let element ← t.elementOf
  let val := i.real ++ "_val"
  let node := i.real ++ "_l"
  let native ← resolveNative t
  let word ← element.wordIn (.inner val)
  return {
    code :=
      [ .declareOne i.real native,
        .block (.range "_" val i.host)
          [.assign i.realExpr (.native (k.symbol ++ "_prepend") [i.realExpr, word])],
        .assign i.realExpr (.native (k.symbol ++ "_reverse") [i.realExpr]) ]
    release := i.whenKept
      ((if element.isCopied then
          [listWalk node i.realExpr [.run (.free (.member (.inner node) "data"))]]
        else [])
        ++ [.run (.native (k.symbol ++ "_free") [i.realExpr])]) }

/-- A host map as a hash table. -/
def hash (i : Input) (t : TypeDesc) : Generated Passing := do
  let key ← t.elementOf
  let value ← t.valueOf
  let k := i.real ++ "_key"
  let v := i.real ++ "_val"
  let table :=
    if key.isCopied then Expr.native "girgen_str_hash_table_new" []
    else .native "g_hash_table_new" [.nil, .nil]
  let keyWord ← key.wordIn (.inner k)
  let valueWord ← value.wordIn (.inner v)
  let freeKey := if key.isCopied then [Stmt.run (.free (.inner (i.real ++ "_k")))] else []
  let freeValue := if value.isCopied then [Stmt.run (.free (.inner (i.real ++ "_v")))] else []
  return {
    code :=
      [ .define i.real table,
        .block (.range k v i.host)
          [.run (.native "g_hash_table_insert" [i.realExpr, keyWord, valueWord])] ]
    release := i.whenKept
      ((if key.isCopied || value.isCopied then hashWalk i.real i.realExpr (freeKey ++ freeValue)
        else [])
        ++ [.run (.native "g_hash_table_unref" [i.realExpr])]) }

/-- A host slice as an array. -/
def array (i : Input) (t : TypeDesc) : Generated Passing := do
  let info ← t.arrayInfoOf
  let element ← t.elementOf
  let val := i.real ++ "_val"
  match info.storage with
  | .c =>
    let native ← resolveNative element
    let count := if info.zeroTerminated then Expr.succ (.len i.host) else .len i.host
    let view := i.real ++ "_view"
    let position := i.real ++ "_i"
    let value ← element.valueIn (.inner val)
    return {
      code :=
        [ .define i.real (allocate native count),
          .define view (.slice i.realExpr count),
          .block (.range position val i.host)
            [.assign (.index (.inner view) (.inner position)) value] ]
      release := i.whenKept (i.freeCopies element (.inner view) ++ [.run (.gFree i.realExpr)]) }
  | .array =>
    let native ← resolveNative element
    let item := i.real ++ "_elem"
    let value ← element.valueIn (.inner val)
    return {
      code :=
        [ .define i.real
            (.native "g_array_sized_new"
              [ .gboolean info.zeroTerminated, .gboolean true,
                .toNative "guint" (.sizeOfType native), .toNative "guint" (.len i.host) ]),
          .block (.range "_" val i.host)
            [ .define item value,
              .run
                (.native "g_array_append_vals"
                  [ i.realExpr,
                    .toNative "gconstpointer" (.toUnsafe (.address (.inner item))),
                    .plain "1" ]) ] ]
      release := i.whenKept
        (i.freeCopies element (arrayView native i.realExpr)
          ++ [.run (.native "g_array_free" [i.realExpr, .gboolean true])]) }
  | .ptrArray =>
    let word ← element.wordIn (.paren (.deref (.inner val)))
    return {
      code :=
        [ .define i.real
            (.native "g_ptr_array_sized_new" [.toNative "guint" (.len i.host)]),
          .block (.range "_" val i.host) [.run (.native "g_ptr_array_add" [i.realExpr, word])] ]
      release := i.whenKept
        (i.freeCopies element (ptrArrayView i.realExpr)
          ++ [.run (.native "g_ptr_array_free" [i.realExpr, .gboolean true])]) }
  | .byteArray =>
    return {
      code :=
        [ .define i.real
            (.native "g_byte_array_sized_new" [.toNative "guint" (.len i.host)]),
          .block (.ifTrue (.binary ">" (.len i.host) (.plain "0")))
            [ .run
                (.native "g_byte_array_append"
                  [ i.realExpr,
                    .cast (.pointer (.native "guint8"))
                      (.toUnsafe (.address (.index i.host (.plain "0")))),
                    .toNative "guint" (.len i.host) ]) ] ]
      release := i.whenKept [.run (.native "g_byte_array_unref" [i.realExpr])] }

end Input

namespace Output

/-- Statements that are needed when the container changed hands. -/
def whenTaken (o : Output) (release : List Stmt) : List Stmt :=
  if o.transfer != .none then release else []

/-- Statements that are needed when the elements changed hands and are copies. -/
def whenElementsTaken (o : Output) (element : TypeDesc) (release : List Stmt) : List Stmt :=
  if o.transfer == .full && element.isCopied then release else []

/-- Appends an element to the host slice. -/
def append (o : Output) (e : Expr) : Stmt :=
  .assign o.target (.builtin "append" [o.target, e])

/-- A linked list as a host slice. -/
def list (scope : Scope) (o : Output) (k : ListKind) (t : TypeDesc) : Generated (List Stmt) := do
  let element ← t.elementOf
  let node := o.stem ++ "_l"
  let data := Expr.member (.inner node) "data"
  let value ← element.wordOut scope data
  return [
      .assign o.target .nil,
      listWalk node o.real
        (o.append value :: o.whenElementsTaken element [.run (.native "g_free" [data])]) ]
      ++ o.whenTaken [.run (.native (k.symbol ++ "_free") [o.real])]

/-- A hash table as a host map. -/
def hash (scope : Scope) (o : Output) (t : TypeDesc) : Generated (List Stmt) := do
  let key ← t.elementOf
  let value ← t.valueOf
  let host ← resolveHost scope t false
  let k ← key.wordOut scope (.inner (o.stem ++ "_k"))
  let v ← value.wordOut scope (.inner (o.stem ++ "_v"))
  return [
      .assign o.target (.builtin "make" [.typed host]),
      .block (.ifTrue (.notNil o.real))
        (hashWalk o.stem o.real [.assign (.index o.target.indexable k) v]
          ++ o.whenTaken [.run (.native "g_hash_table_unref" [o.real])]) ]

/-- The number of elements of a C array, and the code that counts up to a terminator when
nothing better is known. -/
def count (o : Output) (element : TypeDesc) (native : GoType) (info : ArrayInfo) :
    Generated (List Stmt × Expr) :=
  match info.fixedSize, o.length with
  | some size, _ => .ok ([], .plain (natText size.toNat))
  | none, some length => .ok ([], .convert (.plain "int") length)
  | none, none =>
    if info.zeroTerminated then do
      let zero ← element.terminator native
      let count := o.stem ++ "_n"
      let cursor := o.stem ++ "_p"
      let next :=
        Expr.call (.qualified "unsafe" "Add")
          [.toUnsafe (.inner cursor), .sizeOf (.deref (.inner cursor))]
      let counting : List Stmt :=
        [ .define count (.plain "0"),
          .block
            (.walk cursor o.real
              (.binary "&&" (.notNil (.inner cursor)) (.differs (.deref (.inner cursor)) zero))
              (.increment count))
            [.assign (.inner cursor) (.cast (.pointer native) next)] ]
      return (counting, .inner count)
    else .error (.unboundedArray (Text.dropStartWhile (· == '*') o.target.text))

/-- An array as a host slice. -/
def array (scope : Scope) (o : Output) (t : TypeDesc) : Generated (List Stmt) := do
  let info ← t.arrayInfoOf
  let element ← t.elementOf
  let item := o.stem ++ "_e"
  let freeItem := o.whenElementsTaken element [.run (.gFree (.inner item))]
  match info.storage with
  | .c =>
    let native ← resolveNative element
    let (counting, count) ← o.count element native info
    let position := o.stem ++ "_i"
    let host ← resolveHost scope t false
    let value ← element.valueOut scope (.inner item)
    return counting ++
      [ .assign o.target (.builtin "make" [.typed host, count]),
        .block (.ifTrue (.notNil o.real))
          (.block (.range position item (.slice o.real count))
              (.assign (.index o.target.indexable (.inner position)) value :: freeItem)
            :: o.whenTaken [.run (.gFree o.real)]) ]
  | .array =>
    let native ← resolveNative element
    let value ← element.valueOut scope (.inner item)
    return [
        .assign o.target .nil,
        .block (.ifTrue (.notNil o.real))
          (.block (.range "_" item (arrayView native o.real)) (o.append value :: freeItem)
            :: o.whenTaken [.run (.native "g_array_free" [o.real, .gboolean true])]) ]
  | .ptrArray =>
    let value ← element.wordOut scope (.inner item)
    let slot := item ++ "_v"
    -- A wrapped handle is a pointer already; any other value gets a variable of its own.
    let body :=
      if element.storesPointer then [o.append value]
      else [.define slot value, o.append (.address (.inner slot))]
    return [
        .assign o.target .nil,
        .block (.ifTrue (.notNil o.real))
          (.block (.range "_" item (ptrArrayView o.real)) body
            :: o.whenTaken [.run (.native "g_ptr_array_unref" [o.real])]) ]
  | .byteArray =>
    return [
        .assign o.target .nil,
        .block (.ifTrue (.notNil o.real))
          (.assign o.target
              (.native "GoBytes"
                [ .toUnsafe (.member o.real "data"),
                  .toNative "int" (.member o.real "len") ])
            :: o.whenTaken [.run (.native "g_byte_array_unref" [o.real])]) ]

end Output

end Introspection
