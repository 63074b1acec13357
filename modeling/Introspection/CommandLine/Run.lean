import Introspection.CommandLine.Files
import Introspection.CommandLine.Invocation
import Introspection.Listing.Basic
import Introspection.Namespace.Validation
import Introspection.Source.Basic

/-!
# `Introspection.CommandLine.Run`: doing what is asked for

`run` reads a command line, loads the namespace, and prints or writes the result. The exit status
is 0 when that succeeds, 1 when the namespace or a file stands in the way, and 2 when the
command line is at fault. Nothing is printed or written unless everything before succeeded.
-/

set_option autoImplicit false

namespace Introspection.CommandLine

/-- Reasons why an invocation fails. -/
inductive Failure
  | unreadable (path : String) (fault : FileFault)
  | unwritable (path : String) (fault : FileFault)
  | model (e : ModelError)
  | generation (e : GenerationError)

/-- What a reason is called in a message. -/
def Failure.message : Failure → String
  | unreadable path fault => "cannot read `" ++ path ++ "`: " ++ fault.message
  | unwritable path fault => "cannot write `" ++ path ++ "`: " ++ fault.message
  | model e => e.message
  | generation e => e.message

namespace Invocation

/-- What the action makes of a namespace. -/
def render (inv : Invocation) (terminal : Bool) (ns : Namespace) : Generated String :=
  match inv.action with
  | .generate => ns.generate inv.options
  | .json => .ok ((if inv.compact then ns.compact else ns.pretty) ++ "\n")
  | .dump => .ok (ns.listing { inv.options with colored := inv.isColored terminal })

/-- What the action makes of the text of a namespace. -/
def produce (inv : Invocation) (terminal : Bool) (text : String) : Except Failure String := do
  let ns ← (Namespace.load text).mapError .model
  (inv.render terminal ns).mapError .generation

/-- The text of the namespace. -/
def fetch {m : Type → Type} [Monad m] (sys : System m) (inv : Invocation) :
    m (Except Failure String) := do
  if inv.path = "-" then
    return (← sys.readInput).mapError (.unreadable "<stdin>")
  else return (← sys.readFile inv.path).mapError (.unreadable inv.path)

/-- Writes a result where it belongs, and returns what is to be printed. -/
def deliver {m : Type → Type} [Monad m] (sys : System m) (inv : Invocation) (result : String) :
    m (Except Failure String) := do
  match inv.output with
  | none => return .ok result
  | some path => return ((← sys.writeFile path result).mapError (.unwritable path)).map fun _ => ""

/-- Does what is asked for, and returns what is to be printed. -/
def perform {m : Type → Type} [Monad m] (sys : System m) (inv : Invocation) :
    m (Except Failure String) := do
  match (← inv.fetch sys) >>= inv.produce sys.isTerminal with
  | .ok result => inv.deliver sys result
  | .error e => return .error e

end Invocation

/-- How the program is called. -/
def usage : String :=
  "Usage: girgen <generate|json|dump> <NAMESPACE> [OPTIONS]\n\n"
    ++ "  --package <NAME>        name of the generated package\n"
    ++ "  --include <HEADER>      C header to include (repeatable)\n"
    ++ "  --pkg-config <PACKAGE>  package to look up compiler flags for (repeatable)\n"
    ++ "  --import-prefix <PATH>  where packages of other namespaces live\n"
    ++ "  --no-field-getters      no getters for fields\n"
    ++ "  --skip-deprecated       leave out deprecated items\n"
    ++ "  --compact               JSON on one line\n"
    ++ "  --color <WHEN>          auto, always or never\n"
    ++ "  -o, --output <FILE>     write to a file\n"
    ++ "  -v, --verbose           say more about what is done\n"
    ++ "  -h, --help              print this text\n"

/-- What the program leaves behind besides files. -/
structure Outcome where
  /-- Exit status. -/
  status : UInt32
  /-- What is printed. -/
  printed : String
  /-- A message about what went wrong. -/
  complaint : Option String

/-- The program, in given surroundings. -/
def run {m : Type → Type} [Monad m] (sys : System m) (args : List String) : m Outcome := do
  match Invocation.ofCommandLine args with
  | .error .help => return ⟨0, usage, none⟩
  | .error (.misuse e) => return ⟨2, "", some ("error: " ++ e.message)⟩
  | .ok inv =>
    match ← inv.perform sys with
    | .ok printed => return ⟨0, printed, none⟩
    | .error e => return ⟨1, "", some ("error: " ++ e.message)⟩

end Introspection.CommandLine
