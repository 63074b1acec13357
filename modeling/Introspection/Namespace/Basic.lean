import Introspection.Entity.Written
import Introspection.Namespace.Table

/-!
# `Introspection.Namespace.Basic`: namespaces

A `Namespace` is everything that is known of one library: its constants, its registered types
by kind and its free functions, each in a table. `Namespace.lookup` resolves references;
a reference to another namespace resolves to nothing.

`Namespace.occurrences` lists every type descriptor of the namespace together with the dotted
path of what it belongs to, in the order in which they are checked.
-/

set_option autoImplicit false

namespace Introspection

open Introspection.Json

/-- All that is known of one library. -/
structure Namespace where
  name : String
  version : Option String
  /-- Namespaces this one depends on, as `Name-Version`. -/
  dependencies : List String
  constants : Table Constant
  enums : Table Enumeration
  interfaces : Table Interface
  objects : Table Object
  structs : Table Struct
  unions : Table Union
  functions : Table Function

namespace Namespace

/-- A namespace without content. -/
def ofName (name : String) : Namespace :=
  ⟨name, none, [], .empty, .empty, .empty, .empty, .empty, .empty, .empty⟩

/-- Namespaces as records. -/
def codec : Codec Namespace :=
  .record "Namespace"
    (.field (.required "name" .string)
      (.field (.maybe "version" .string)
        (.field (.withDefault "dependencies" (.list .string) [])
          (.field (.withDefault "constants" (Table.codec Constant.codec) .empty)
            (.field (.withDefault "enums" (Table.codec Enumeration.codec) .empty)
              (.field (.withDefault "interfaces" (Table.codec Interface.codec) .empty)
                (.field (.withDefault "objects" (Table.codec Object.codec) .empty)
                  (.field (.withDefault "structs" (Table.codec Struct.codec) .empty)
                    (.field (.withDefault "unions" (Table.codec Union.codec) .empty)
                      (.field (.withDefault "functions" (Table.codec Function.codec) .empty)
                        .none))))))))))
    (fun ns => (ns.name, ns.version, ns.dependencies, ns.constants, ns.enums, ns.interfaces,
      ns.objects, ns.structs, ns.unions, ns.functions, ()))
    (fun (name, version, dependencies, constants, enums, interfaces, objects, structs, unions,
        functions, _) =>
      ⟨name, version, dependencies, constants, enums, interfaces, objects, structs, unions,
        functions⟩)

/-- Adds a constant, or replaces the one of its name. -/
def addConstant (ns : Namespace) (c : Constant) : Namespace :=
  { ns with constants := ns.constants.insert c }

/-- Adds a free function, or replaces the one of its name. -/
def addFunction (ns : Namespace) (f : Function) : Namespace :=
  { ns with functions := ns.functions.insert f }

/-- Adds a registered type, or replaces the one of its kind and name. -/
def addEntity (ns : Namespace) : Entity → Namespace
  | .enum e => { ns with enums := ns.enums.insert e }
  | .interface i => { ns with interfaces := ns.interfaces.insert i }
  | .object o => { ns with objects := ns.objects.insert o }
  | .struct s => { ns with structs := ns.structs.insert s }
  | .union u => { ns with unions := ns.unions.insert u }

/-- Reference to a registered type of this namespace. -/
def reference (ns : Namespace) (kind : EntityKind) (name : String) : EntityRef :=
  ⟨ns.name, name, kind⟩

/-- The registered type a reference stands for, if it is one of this namespace. -/
def lookup (ns : Namespace) (r : EntityRef) : Option Entity :=
  if r.home = ns.name then
    match r.kind with
    | .enum => (ns.enums.find? r.name).map .enum
    | .interface => (ns.interfaces.find? r.name).map .interface
    | .object => (ns.objects.find? r.name).map .object
    | .struct => (ns.structs.find? r.name).map .struct
    | .union => (ns.unions.find? r.name).map .union
  else none

/-- The object a reference stands for. -/
def object? (ns : Namespace) (r : EntityRef) : Option Object :=
  match ns.lookup r with
  | some (.object o) => some o
  | _ => none

/-- The interface a reference stands for. -/
def interface? (ns : Namespace) (r : EntityRef) : Option Interface :=
  match ns.lookup r with
  | some (.interface i) => some i
  | _ => none

/-- All registered types: enumerations, interfaces, objects, structs, unions. -/
def entities (ns : Namespace) : List Entity :=
  ns.enums.entries.map .enum ++ ns.interfaces.entries.map .interface
    ++ ns.objects.entries.map .object ++ ns.structs.entries.map .struct
    ++ ns.unions.entries.map .union

end Namespace

/-- A type descriptor and the dotted path of what it belongs to. -/
structure Occurrence where
  path : String
  type : TypeDesc

namespace Occurrence

/-- Types of the parameters and the result of a callable. -/
def ofSignature (path : String) (params : List Parameter) (result : TypeDesc) : List Occurrence :=
  params.map (fun p => ⟨path ++ "(" ++ p.name ++ ")", p.type⟩) ++ [⟨path, result⟩]

/-- Types of a function. -/
def ofFunction (path : String) (f : Function) : List Occurrence :=
  ofSignature path f.params f.returnType

/-- Type of a constant of an entity. -/
def ofConstant (owner : String) (c : Constant) : Occurrence := ⟨owner ++ "." ++ c.name, c.type⟩

/-- Type of a field. -/
def ofField (owner : String) (f : FieldDecl) : Occurrence := ⟨owner ++ "." ++ f.name, f.type⟩

/-- Type of a property. -/
def ofProperty (owner : String) (p : Property) : Occurrence := ⟨owner ++ ":" ++ p.name, p.type⟩

/-- Types of a signal. -/
def ofSignal (owner : String) (s : Signal) : List Occurrence :=
  ofSignature (owner ++ "::" ++ s.name) s.params s.returnType

/-- Types of a virtual function slot. -/
def ofSlot (owner : String) (s : VirtualSlot) : List Occurrence :=
  ofSignature (owner ++ "." ++ s.name) s.params s.returnType

/-- Types of the members of an entity, its methods left aside. -/
def ofMembers (owner : String) : Entity → List Occurrence
  | .enum _ => []
  | .interface i =>
    i.constants.map (ofConstant owner) ++ i.properties.map (ofProperty owner)
      ++ i.signals.flatMap (ofSignal owner) ++ i.slots.flatMap (ofSlot owner)
  | .object o =>
    o.constants.map (ofConstant owner) ++ o.fields.map (ofField owner)
      ++ o.properties.map (ofProperty owner) ++ o.signals.flatMap (ofSignal owner)
      ++ o.slots.flatMap (ofSlot owner)
  | .struct s => s.fields.map (ofField owner)
  | .union u => u.fields.map (ofField owner)

/-- Types of the methods and members of an entity. -/
def ofEntity (owner : String) (e : Entity) : List Occurrence :=
  e.methods.flatMap (fun m => ofFunction (owner ++ "." ++ m.name) m) ++ ofMembers owner e

end Occurrence

/-- Every type descriptor of a namespace: those of constants, functions and registered types. -/
def Namespace.occurrences (ns : Namespace) : List Occurrence :=
  ns.constants.entries.map (Occurrence.ofConstant ns.name)
    ++ ns.functions.entries.flatMap (fun f => Occurrence.ofFunction (ns.name ++ "." ++ f.name) f)
    ++ ns.entities.flatMap fun e => Occurrence.ofEntity (ns.name ++ "." ++ e.name) e

end Introspection
