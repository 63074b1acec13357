import Introspection.Generation.Package
import Introspection.Text.Alphanumeric

/-!
# `Introspection.Source.Import`: packages that generated code imports

A package is imported when its name stands in the code as a qualifier: in front of a point and
not as the end of a longer name. Apart from three packages of the standard library these are the
packages of the namespaces that the data mentions.
-/

set_option autoImplicit false

namespace Introspection

/-- Packages of the standard library that generated code may use. -/
def standardPackages : List String := ["errors", "math", "unsafe"]

/-- Whether a qualifier may begin behind that character; `none` stands for the start. -/
def mayPrecedeQualifier (previous : Option Char) : Bool :=
  previous.all fun c => !(Text.isAlphanumeric c || c == '_' || c == '.')

/-- Whether a text names a package as a qualifier. -/
def usesPackage (text package : String) : Bool :=
  Text.occursAfter (package ++ ".").toList mayPrecedeQualifier none 0 text.toList

/-- The namespace that a dependency `Name-Version` names. -/
def dependencyName (dependency : String) : String :=
  String.ofList (dependency.toList.takeWhile (· != '-'))

namespace Namespace

/-- References in the type descriptors of the namespace. -/
def typeReferences (ns : Namespace) : List EntityRef :=
  ns.occurrences.flatMap fun o => o.type.nodes.filterMap (·.entity)

/-- Namespaces that are mentioned anywhere, in any order. The type handle lives in `GObject`. -/
def mentioned (ns : Namespace) : List String :=
  "GObject" :: ns.dependencies.map dependencyName
    ++ ns.typeReferences.map (·.home)
    ++ ns.entities.flatMap fun e => e.relations.map (·.home)

/-- Import paths of the packages that a text names as qualifiers, each once and in order. -/
def imports (ns : Namespace) (p : Package) (text : String) : List String :=
  let foreign := ns.mentioned.filter fun home => home != ns.name
    && usesPackage text (Naming.packageName home)
  Text.sortedDistinct (standardPackages.filter (usesPackage text) ++ foreign.map p.importPath)

end Namespace

end Introspection
