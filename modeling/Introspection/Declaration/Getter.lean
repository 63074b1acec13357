import Introspection.Conversion.Basic
import Introspection.Declaration.Basic
import Introspection.Declaration.Fresh

/-!
# `Introspection.Declaration.Getter`: getters of fields

A readable field of a struct or union gets a getter if its value converts without a container:
numbers, truth values, type handles, texts and registered types. A field whose getter would take
a name that the type has already gets none.
-/

set_option autoImplicit false

namespace Introspection

open Introspection.Code

/-- Whether fields of the class can have getters. -/
def TagClass.hasGetter : TagClass → Bool
  | .basic _ => true
  | .boolean => true
  | .typeHandle => true
  | .string => true
  | .named => true
  | _ => false

namespace FieldDecl

/-- Host name of the getter. -/
def getterName (f : FieldDecl) : String := Text.pascalCase f.name

/-- The field as an output that leaves ownership where it is. -/
def output (f : FieldDecl) : Output :=
  ⟨.member (.inner "real_this") (Naming.fieldName f.name), "real_ret", .host "ret", .none, none⟩

/-- The statements that assign the result from the field of a native struct. -/
def reading (scope : Scope) (owner : EntityRef) (f : FieldDecl) : Generated (List Stmt) := do
  let code ← f.output.convert scope f.type
  return .define "real_this"
      (.cast (.pointer (.native owner.nativeName)) (.invoke (.host "this") "Native")) :: code

/-- The getter of a field, if its type allows one. -/
def getter? (scope : Scope) (owner : EntityRef) (f : FieldDecl) : Option FieldGetter :=
  if f.type.view.hasGetter then
    match resolveHost scope f.type false, f.reading scope owner with
    | .ok host, .ok reading => some ⟨owner, ⟨f.getterName, [], [⟨"ret", host⟩]⟩, reading⟩
    | _, _ => none
  else none

/-- The fragment of a field's getter. -/
def getterFragment? (scope : Scope) (owner : EntityRef) (f : FieldDecl) : Option Fragment :=
  (f.getter? scope owner).map fun g => ⟨.member owner f.name, false, .getter g⟩

end FieldDecl

/-- The fields that get getters on a type whose names `taken` are taken. -/
def gettableFields (scope : Scope) (owner : EntityRef) (taken : List String)
    (fields : List FieldDecl) : List FieldDecl :=
  freshBy FieldDecl.getterName taken
    (fields.filter fun f => f.readable && (f.getter? scope owner).isSome)

/-- The fragments of the getters of a type. -/
def getterFragments (scope : Scope) (owner : EntityRef) (taken : List String)
    (fields : List FieldDecl) : List Fragment :=
  (gettableFields scope owner taken fields).filterMap (·.getterFragment? scope owner)

end Introspection
