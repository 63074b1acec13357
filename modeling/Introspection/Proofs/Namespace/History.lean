import Introspection.Proofs.Json.Simulation
import Introspection.Proofs.Namespace.Insertion
import Introspection.Proofs.Namespace.Reference
import Introspection.Proofs.Namespace.Written

/-!
# `Introspection.Proofs.Namespace.History`: what is in a namespace after additions

A namespace is empty at first or is read from data (`Namespace.StartsWith`), and things are added
to it one by one (`Namespace.add`). `Namespace.Stores` says what is in it then: each of its seven
tables records the things that came for that table, from the data and by additions, and looking up
references and listing the registered types show what the tables record.
`Namespace.stores_of_startsWith` proves this for all sequences of additions.

Additions replace what has the same name. Data must not repeat a name: `Table.exists_decode_iff`.
-/

set_option autoImplicit false

namespace Introspection

open Introspection.Json

/-! ### Tables by kind -/

/-- The tables of a namespace. -/
inductive TableKind
  | constants
  | functions
  | types (kind : EntityKind)
  deriving DecidableEq

namespace TableKind

/-- What is in a table. -/
@[reducible] def Entry : TableKind → Type
  | constants => Constant
  | functions => Function
  | types .enum => Enumeration
  | types .interface => Interface
  | types .object => Object
  | types .struct => Struct
  | types .union => Union

instance : (k : TableKind) → Named k.Entry
  | constants => inferInstanceAs (Named Constant)
  | functions => inferInstanceAs (Named Function)
  | types .enum => inferInstanceAs (Named Enumeration)
  | types .interface => inferInstanceAs (Named Interface)
  | types .object => inferInstanceAs (Named Object)
  | types .struct => inferInstanceAs (Named Struct)
  | types .union => inferInstanceAs (Named Union)

end TableKind

/-- The registered type of an entry. -/
def Entity.ofEntry : (kind : EntityKind) → (TableKind.types kind).Entry → Entity
  | .enum, e => .enum e
  | .interface, i => .interface i
  | .object, o => .object o
  | .struct, s => .struct s
  | .union, u => .union u

@[simp] theorem Entity.kind_ofEntry (kind : EntityKind) (a : (TableKind.types kind).Entry) :
    (Entity.ofEntry kind a).kind = kind := by
  cases kind <;> rfl

@[simp] theorem Entity.name_ofEntry (kind : EntityKind) (a : (TableKind.types kind).Entry) :
    (Entity.ofEntry kind a).name = Named.name a := by
  cases kind <;> rfl

namespace Namespace

/-- The table of a kind. -/
def table (ns : Namespace) : (k : TableKind) → Table k.Entry
  | .constants => ns.constants
  | .functions => ns.functions
  | .types .enum => ns.enums
  | .types .interface => ns.interfaces
  | .types .object => ns.objects
  | .types .struct => ns.structs
  | .types .union => ns.unions

variable (ns : Namespace)

theorem lookup_eq (r : EntityRef) :
    ns.lookup r = if r.home = ns.name then
      ((ns.table (.types r.kind)).find? r.name).map (Entity.ofEntry r.kind) else none := by
  unfold lookup
  cases r.kind <;> rfl

theorem entities_eq :
    ns.entities = EntityKind.all.flatMap fun kind =>
      (ns.table (.types kind)).entries.map (Entity.ofEntry kind) := by
  simp only [EntityKind.all, List.flatMap_cons, List.flatMap_nil, List.append_nil, entities,
    List.append_assoc]
  rfl

/-- Of the registered types, one has the kind and the name, or none. -/
theorem filter_entities (kind : EntityKind) (name : String) :
    (ns.entities.filter fun e => e.kind = kind ∧ e.name = name)
      = (((ns.table (.types kind)).find? name).map (Entity.ofEntry kind)).toList := by
  have hother : ∀ kind', kind' ≠ kind → ((ns.table (.types kind')).entries.map
      (Entity.ofEntry kind')).filter (fun e => e.kind = kind ∧ e.name = name) = [] := by
    intro kind' hne
    simp [List.filter_eq_nil_iff, hne]
  have hown : ((ns.table (.types kind)).entries.map (Entity.ofEntry kind)).filter
      (fun e => e.kind = kind ∧ e.name = name)
        = (((ns.table (.types kind)).find? name).map (Entity.ofEntry kind)).toList := by
    have hentries := filter_name_eq (ns.table (.types kind)).nodup name
    rw [List.filter_map, Option.toList_map]
    simp only [Function.comp_def, Entity.kind_ofEntry, Entity.name_ofEntry, true_and, hentries]
    rfl
  rw [entities_eq, EntityKind.all]
  cases kind <;>
    simp only [List.flatMap_cons, List.flatMap_nil, List.filter_append, hown, hother, ne_eq,
      reduceCtorEq, not_false_eq_true, List.nil_append, List.append_nil]

/-! ### Additions -/

/-- Something that is added to a namespace. -/
structure Addition where
  kind : TableKind
  entry : kind.Entry

/-- Adds something, or replaces what has its kind and name. -/
def add (ns : Namespace) : Addition → Namespace
  | ⟨.constants, c⟩ => ns.addConstant c
  | ⟨.functions, f⟩ => ns.addFunction f
  | ⟨.types kind, e⟩ => ns.addEntity (.ofEntry kind e)

/-- What is added to a table. -/
def Addition.entryOf? (k : TableKind) (a : Addition) : Option k.Entry :=
  if h : a.kind = k then some (h ▸ a.entry) else none

/-- The entries for one table, in order. -/
def entriesOf (k : TableKind) (as : List Addition) : List k.Entry := as.filterMap (·.entryOf? k)

theorem name_add (a : Addition) : (ns.add a).name = ns.name := by
  obtain ⟨k, e⟩ := a
  cases k with
  | constants => rfl
  | functions => rfl
  | types kind => cases kind <;> rfl

/-- An addition goes into its own table. -/
theorem table_add_self (k : TableKind) (e : k.Entry) :
    (ns.add ⟨k, e⟩).table k = (ns.table k).insert e := by
  cases k with
  | constants => rfl
  | functions => rfl
  | types kind => cases kind <;> rfl

/-- An addition leaves the other tables alone. -/
theorem table_add_of_ne {a : Addition} {k : TableKind} (h : a.kind ≠ k) :
    (ns.add a).table k = ns.table k := by
  obtain ⟨k', e⟩ := a
  cases k' with
  | constants | functions =>
    cases k with
    | types kind => cases kind <;> rfl
    | _ => first | rfl | exact absurd rfl h
  | types kind' =>
    cases k with
    | constants | functions => cases kind' <;> rfl
    | types kind => cases kind' <;> cases kind <;> first | rfl | exact absurd rfl h

theorem entriesOf_cons_self (k : TableKind) (e : k.Entry) (as : List Addition) :
    entriesOf k (⟨k, e⟩ :: as) = e :: entriesOf k as := by
  simp [entriesOf, Addition.entryOf?]

theorem entriesOf_cons_of_ne {a : Addition} {k : TableKind} (h : a.kind ≠ k) (as : List Addition) :
    entriesOf k (a :: as) = entriesOf k as := by
  simp [entriesOf, Addition.entryOf?, h]

/-- After additions, a table is what comes of inserting what they have for it. -/
theorem table_foldl_add (k : TableKind) (as : List Addition) :
    (as.foldl add ns).table k = (entriesOf k as).foldl Table.insert (ns.table k) := by
  induction as generalizing ns with
  | nil => rfl
  | cons a as ih =>
    rw [List.foldl_cons, ih]
    by_cases h : a.kind = k
    · obtain ⟨k', e⟩ := a
      subst h
      rw [table_add_self, entriesOf_cons_self, List.foldl_cons]
    · rw [table_add_of_ne ns h, entriesOf_cons_of_ne h]

theorem name_foldl_add (as : List Addition) : (as.foldl add ns).name = ns.name := by
  induction as generalizing ns with
  | nil => rfl
  | cons a as ih => rw [List.foldl_cons, ih, name_add]

end Namespace

/-! ### Data -/

/-- The entries of a table are those of its names. -/
theorem Table.filterMap_find?_names {α : Type} [Named α] (t : Table α) :
    t.names.filterMap t.find? = t.entries := by
  have hfind : ∀ a ∈ t.entries, (t.find? ∘ Named.name) a = some a := fun a ha =>
    t.find?_eq_some_iff.mpr ⟨ha, rfl⟩
  rw [names, namesOf, List.filterMap_map, List.filterMap_congr hfind]
  exact List.filterMap_some

theorem Table.ofList?_eq_ok_iff {α : Type} [Named α] {as : List α} :
    (∃ t, Table.ofList? as = .ok t) ↔ (namesOf as).Nodup := by
  constructor
  · rintro ⟨t, ht⟩
    rw [← entries_of_ofList? ht]
    exact t.nodup
  · intro hnodup
    exact ⟨⟨as, hnodup⟩, ofList?_entries ⟨as, hnodup⟩⟩

/-- A table is read from an array if no name comes twice there. It has the items of the array, in
their order. -/
theorem Table.exists_decode_iff {α : Type} [Named α] {c : Codec α} {levels : Nat} {node : Node}
    {as : List α} (has : c.list.decode levels node = .ok as) :
    ((∃ t, (Table.codec c).decode levels node = .ok t) ↔ (namesOf as).Nodup)
      ∧ ∀ t, (Table.codec c).decode levels node = .ok t → t.entries = as := by
  have hdecode : ∀ t, (Table.codec c).decode levels node = .ok t ↔ Table.ofList? as = .ok t := by
    intro t
    simp only [Table.codec, has, ok_bind]
    cases Table.ofList? as <;> simp
  simp only [hdecode]
  exact ⟨Table.ofList?_eq_ok_iff, fun t ht => Table.entries_of_ofList? ht⟩

/-- A namespace as it stands in data, where names may come again. -/
structure NamespaceData where
  name : String
  version : Option String
  dependencies : List String
  /-- The items of the array for a table. -/
  entries : (k : TableKind) → List k.Entry

/-- Namespaces as records, with arrays in the places of tables. -/
def NamespaceData.codec : Codec NamespaceData :=
  .record "Namespace"
    (.field (.required "name" .string)
      (.field (.maybe "version" .string)
        (.field (.withDefault "dependencies" (.list .string) [])
          (.field (.withDefault "constants" Constant.codec.list [])
            (.field (.withDefault "enums" Enumeration.codec.list [])
              (.field (.withDefault "interfaces" Interface.codec.list [])
                (.field (.withDefault "objects" Object.codec.list [])
                  (.field (.withDefault "structs" Struct.codec.list [])
                    (.field (.withDefault "unions" Union.codec.list [])
                      (.field (.withDefault "functions" Function.codec.list [])
                        .none))))))))))
    (fun d => (d.name, d.version, d.dependencies, d.entries .constants, d.entries (.types .enum),
      d.entries (.types .interface), d.entries (.types .object), d.entries (.types .struct),
      d.entries (.types .union), d.entries .functions, ()))
    (fun (name, version, dependencies, constants, enums, interfaces, objects, structs, unions,
        functions, _) =>
      { name, version, dependencies
        entries := fun
          | .constants => constants
          | .functions => functions
          | .types .enum => enums
          | .types .interface => interfaces
          | .types .object => objects
          | .types .struct => structs
          | .types .union => unions })

/-- Where a table is read, the array is read too, and has the entries of the table. -/
theorem Table.matches_entries {α : Type} [Named α] (levels : Nat) (name : String) (c : Codec α) :
    Field.Matches levels (fun t as => t.entries = as)
      (.withDefault name (Table.codec c) Table.empty) (.withDefault name c.list []) where
  name := rfl
  default t ht := by
    cases ht
    exact ⟨[], rfl, rfl⟩
  decode node := by
    intro t ht
    obtain ⟨as, has, _⟩ := bind_eq_ok_iff.mp ht
    exact ⟨as, has, (Table.exists_decode_iff has).2 t ht⟩

namespace Namespace

/-- Where a namespace is read, its tables have the items of the arrays. -/
theorem exists_data_of_decode {levels : Nat} {node : Node} {ns : Namespace}
    (h : codec.decode levels node = .ok ns) :
    ∃ data, NamespaceData.codec.decode levels node = .ok data ∧ data.name = ns.name
      ∧ ∀ k, (ns.table k).entries = data.entries k := by
  have hmatches := Fields.Matches.field (.refl (levels - 1) (.required "name" .string))
    (.field (.refl _ (.maybe "version" .string))
      (.field (.refl _ (.withDefault "dependencies" (.list .string) []))
        (.field (Table.matches_entries _ "constants" Constant.codec)
          (.field (Table.matches_entries _ "enums" Enumeration.codec)
            (.field (Table.matches_entries _ "interfaces" Interface.codec)
              (.field (Table.matches_entries _ "objects" Object.codec)
                (.field (Table.matches_entries _ "structs" Struct.codec)
                  (.field (Table.matches_entries _ "unions" Union.codec)
                    (.field (Table.matches_entries _ "functions" Function.codec) .none)))))))))
  obtain ⟨tuple, htuple, rfl⟩ := map_eq_ok_iff.mp h
  obtain ⟨tuple', htuple', hname, -, -, hconstants, henums, hinterfaces, hobjects, hstructs,
    hunions, hfunctions, -⟩ := hmatches.decode "Namespace" node _ htuple
  refine ⟨_, map_eq_ok_iff.mpr ⟨tuple', htuple', rfl⟩, hname.symm, fun k => ?_⟩
  cases k with
  | constants => exact hconstants
  | functions => exact hfunctions
  | types kind =>
    cases kind with
    | enum => exact henums
    | interface => exact hinterfaces
    | object => exact hobjects
    | struct => exact hstructs
    | union => exact hunions

/-! ### Histories -/

/-- The namespace is empty or was read, and its tables start with what `given` has for them. -/
inductive StartsWith : Namespace → ((k : TableKind) → List k.Entry) → Prop
  | ofName (name : String) : StartsWith (.ofName name) fun _ => []
  | read {levels : Nat} {node : Node} {ns : Namespace} {data : NamespaceData}
      (hns : codec.decode levels node = .ok ns)
      (hdata : NamespaceData.codec.decode levels node = .ok data) : StartsWith ns data.entries

/-- Tables start with what comes of inserting what is given. -/
theorem StartsWith.table_eq {ns : Namespace} {given : (k : TableKind) → List k.Entry}
    (h : ns.StartsWith given) (k : TableKind) :
    ns.table k = (given k).foldl Table.insert Table.empty := by
  cases h with
  | ofName name =>
    cases k with
    | types kind => cases kind <;> rfl
    | _ => rfl
  | read hns hdata =>
    obtain ⟨data', hdata', -, hentries⟩ := exists_data_of_decode hns
    cases hdata.symm.trans hdata'
    rw [← hentries k, Table.foldl_insert_entries]

/-- The namespace holds what has come for its tables: `history`, from the first thing to the
last. -/
structure Stores (ns : Namespace) (history : (k : TableKind) → List k.Entry) : Prop where
  /-- The keys of the maps are the names of the entries. -/
  keyed : ∀ k, Keyed.ofHistory (history k) = Keyed.ofEntries (ns.table k).entries
  distinct : ∀ k, (ns.table k).names.Nodup
  /-- Names stand where they first came. -/
  order : ∀ k, (ns.table k).names = (namesOf (history k)).eraseDups
  /-- Each name has the thing that came last. -/
  find? : ∀ k name, (ns.table k).find? name = latest (history k) name
  /-- A reference into the namespace stands for what came last under its kind and name. -/
  lookup : ∀ r, ns.lookup r = if r.home = ns.name then
    (latest (history (.types r.kind)) r.name).map (Entity.ofEntry r.kind) else none
  /-- Under each kind and name, what came last is listed once. -/
  entities : ∀ kind name, (ns.entities.filter fun e => e.kind = kind ∧ e.name = name)
    = ((latest (history (.types kind)) name).map (Entity.ofEntry kind)).toList
  /-- The listing goes from kind to kind, and through the names of each where they first came. -/
  listing : ns.entities = EntityKind.all.flatMap fun kind =>
    ((namesOf (history (.types kind))).eraseDups.filterMap
      (latest (history (.types kind)))).map (Entity.ofEntry kind)

/-- A namespace whose tables come of inserting what is given holds it. -/
theorem stores_of_table_eq {ns : Namespace} {history : (k : TableKind) → List k.Entry}
    (h : ∀ k, ns.table k = (history k).foldl Table.insert Table.empty) : ns.Stores history := by
  have hrecords : ∀ k, (ns.table k).Records (history k) := fun k => by
    rw [h k]
    exact Table.records_foldl (history k)
  exact {
    keyed := fun k => (hrecords k).keyed
    distinct := fun k => (ns.table k).nodup
    order := fun k => (hrecords k).order
    find? := fun k => (hrecords k).find?
    lookup := fun r => by rw [lookup_eq, (hrecords (.types r.kind)).find?]
    entities := fun kind name => by rw [filter_entities, (hrecords (.types kind)).find?]
    listing := by
      rw [entities_eq]
      refine List.flatMap_congr fun kind _ => ?_
      have hfind : (ns.table (.types kind)).find? = latest (history (.types kind)) :=
        funext (hrecords (.types kind)).find?
      rw [← (hrecords (.types kind)).order, ← hfind, Table.filterMap_find?_names] }

/-- What is read starts with the items of its data, and what starts with something holds that and
all that is added, whatever the additions are. To be read as a table, an array must not repeat a
name. -/
theorem stores_of_startsWith :
    (∀ levels node ns, codec.decode levels node = .ok ns →
        ∃ data, NamespaceData.codec.decode levels node = .ok data ∧ ns.StartsWith data.entries)
      ∧ (∀ start given, StartsWith start given → ∀ additions : List Addition,
        (additions.foldl add start).name = start.name
          ∧ (additions.foldl add start).Stores fun k => given k ++ entriesOf k additions)
      ∧ ∀ (α : Type) [Named α] (c : Codec α) levels node as, c.list.decode levels node = .ok as →
        ((∃ t, (Table.codec c).decode levels node = .ok t) ↔ (namesOf as).Nodup) := by
  refine ⟨fun levels node ns hns => ?_, fun start given hstart additions => ⟨?_, ?_⟩, ?_⟩
  · obtain ⟨data, hdata, -⟩ := exists_data_of_decode hns
    exact ⟨data, hdata, .read hns hdata⟩
  · exact name_foldl_add start additions
  · refine stores_of_table_eq fun k => ?_
    rw [table_foldl_add, hstart.table_eq k, List.foldl_append]
  · exact fun α _ c levels node as has => (Table.exists_decode_iff has).1

/-- A constant of 32 bits. -/
def number (name : String) (n : Int64) : Constant := ⟨name, .ofTag .int32, .int n, false⟩

/-- Its entry in data. -/
def numberEntry (name : String) (n : Int) : Node :=
  .object (.cons (.ok "name") (.string (.ok name))
    (.cons (.ok "type") (.object (.cons (.ok "tag") (.string (.ok "int32")) .closed))
      (.cons (.ok "value") (.number (.ok (.integer n))) .closed)))

/-- A namespace that starts with the major version 3. -/
def versionEntry : Node :=
  .object (.cons (.ok "name") (.string (.ok "Gtk"))
    (.cons (.ok "constants") (.array (.cons (numberEntry "MAJOR" 3) .closed)) .closed))

/-- A minor version, and another major one. -/
def laterVersion : List Addition :=
  [⟨.constants, number "MINOR" 8⟩, ⟨.constants, number "MAJOR" 4⟩]

/-- Both major versions in one array. -/
def repeatedVersion : Node :=
  .array (.cons (numberEntry "MAJOR" 3) (.cons (numberEntry "MAJOR" 4) .closed))

/-- The later major version takes the place of the first one, in front of the minor one. The array
with both is no table. -/
theorem stores_of_startsWith_laterVersion :
    (∃ ns, codec.decode maxLevels versionEntry = .ok ns
        ∧ (laterVersion.foldl add ns).constants.names = ["MAJOR", "MINOR"]
        ∧ (laterVersion.foldl add ns).constants.find? "MAJOR" = some (number "MAJOR" 4))
      ∧ ¬∃ t, (Table.codec Constant.codec).decode maxLevels repeatedVersion = .ok t := by
  obtain ⟨hread, hstores, htable⟩ := stores_of_startsWith
  have hok : ∃ ns, codec.decode maxLevels versionEntry = .ok ns := ⟨_, rfl⟩
  obtain ⟨ns, hns⟩ := hok
  obtain ⟨data, hdata, hstarts⟩ := hread maxLevels versionEntry ns hns
  have hgiven : data.entries .constants = [number "MAJOR" 3] := by
    cases hdata
    rfl
  obtain ⟨-, hholds⟩ := hstores ns data.entries hstarts laterVersion
  refine ⟨⟨ns, hns, (hholds.order .constants).trans ?_, (hholds.find? .constants "MAJOR").trans ?_⟩,
    ?_⟩
  · rw [hgiven]
    rfl
  · rw [hgiven]
    rfl
  · have hboth : Constant.codec.list.decode maxLevels repeatedVersion
        = .ok [number "MAJOR" 3, number "MAJOR" 4] := rfl
    rw [htable Constant Constant.codec _ _ _ hboth]
    decide

end Namespace

end Introspection
