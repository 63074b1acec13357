import Introspection.Text.Search

/-!
# `Introspection.CommandLine.Files`: reading and writing files

`System` is what an invocation asks of its surroundings: the standard input, files to read and
files to write. Each request may meet a `FileFault`.

`Directory` is a directory that holds texts and folders, as a value. A path is followed part by
part; all parts but the last must name folders. A path may lead above the directory, where there
are folders of which nothing is known. Names and whole paths have a greatest length in bytes.
-/

set_option autoImplicit false

namespace Introspection.CommandLine

/-- Reasons why a file cannot be read or written. -/
inductive FileFault
  | notFound
  | isFolder
  | notFolder
  /-- A name, or the whole path, is longer than the system allows. -/
  | nameTooLong
  /-- What was read is not a text. -/
  | notText
  /-- Any other reason that the system gives. -/
  | other (reason : String)

/-- What a reason is called in a message. -/
def FileFault.message : FileFault → String
  | notFound => "No such file or directory (os error 2)"
  | isFolder => "Is a directory (os error 21)"
  | notFolder => "Not a directory (os error 20)"
  | nameTooLong => "File name too long (os error 36)"
  | notText => "stream did not contain valid UTF-8"
  | other reason => reason

/-- What an invocation asks of its surroundings. -/
structure System (m : Type → Type) where
  readInput : m (Except FileFault String)
  readFile (path : String) : m (Except FileFault String)
  writeFile (path text : String) : m (Except FileFault Unit)
  /-- Whether the standard output is a terminal. -/
  isTerminal : Bool

/-- A place in a directory: the names that lead to it. -/
abbrev Place := List String

/-- A directory with texts in it. -/
structure Directory where
  folders : List Place
  files : List (Place × String)

/-- What a path may lead to. -/
inductive Location
  /-- A place in the directory, whether or not anything is there. -/
  | inside (p : Place)
  /-- A folder that the directory lies in, however far above. -/
  | above
  /-- A name in a folder above the directory, under which nothing is known. -/
  | beyond

/-- Bytes that a name may have. -/
def maxNameBytes : Nat := 255

/-- Bytes that a path may have. -/
def maxPathBytes : Nat := 4095

/-- The parts of a list of characters between slashes. -/
def splitSlashes : List Char → List (List Char)
  | [] => [[]]
  | c :: cs =>
    if c = '/' then [] :: splitSlashes cs
    else
      match splitSlashes cs with
      | [] => [[c]]
      | part :: parts => (c :: part) :: parts

/-- The parts of a path. -/
def pathParts (path : String) : List String := (splitSlashes path.toList).map String.ofList

/-- Where a path starts: a slash in front leads to the top of all folders. -/
def Location.start (path : String) : Location :=
  if path.toList.head? = some '/' then .above else .inside []

/-- What a part leads to. -/
def Location.next (l : Location) (part : String) : Location :=
  if part = "" || part = "." then l
  else
    match l with
    | .inside p =>
      if part ≠ ".." then .inside (p ++ [part])
      else if p.isEmpty then .above
      else .inside p.dropLast
    | .above => if part = ".." then .above else .beyond
    | .beyond => .beyond

namespace Directory

/-- Whether a place is a folder. The directory itself is one. -/
def isFolder (d : Directory) (p : Place) : Bool := p.isEmpty || d.folders.contains p

/-- The text at a place. -/
def text? (d : Directory) (p : Place) : Option String := d.files.lookup p

/-- Refuses what is no folder. -/
def needFolder (d : Directory) : Location → Except FileFault Unit
  | .inside p =>
    if d.isFolder p then .ok ()
    else if (d.text? p).isSome then .error .notFolder
    else .error .notFound
  | .above => .ok ()
  | .beyond => .error .notFound

/-- Follows one part from a folder. -/
def step (d : Directory) (l : Location) (part : String) : Except FileFault Location := do
  d.needFolder l
  if maxNameBytes < part.utf8ByteSize then .error .nameTooLong else .ok (l.next part)

/-- Follows the parts of a path. -/
def walk (d : Directory) (path : String) (parts : List String) : Except FileFault Location :=
  if path.isEmpty then .error .notFound
  else if maxPathBytes < path.utf8ByteSize then .error .nameTooLong
  else parts.foldlM d.step (.start path)

/-- Reads a file. -/
def read (d : Directory) (path : String) : Except FileFault String := do
  match ← d.walk path (pathParts path) with
  | .inside p =>
    if d.isFolder p then .error .isFolder
    else
      match d.text? p with
      | some text => .ok text
      | none => .error .notFound
  | .above => .error .isFolder
  | .beyond => .error .notFound

/-- Puts a text at a place. -/
def put (d : Directory) (p : Place) (text : String) : Directory :=
  { d with files := (p, text) :: d.files.filter (·.1 != p) }

/-- Writes a file, which need not exist. A path that ends in a slash names no file. What is
written beyond the directory leaves no trace in it. -/
def write (d : Directory) (path text : String) : Except FileFault Directory := do
  let parts := pathParts path
  if parts.getLast? = some "" then
    let named := (parts.reverse.dropWhile (· == "")).reverse
    d.needFolder (← d.walk path named.dropLast)
    .error .isFolder
  else
    match ← d.walk path parts with
    | .inside p => if d.isFolder p then .error .isFolder else .ok (d.put p text)
    | .above => .error .isFolder
    | .beyond => .ok d

/-- The files that are new or changed since an earlier state. -/
def changesSince (d old : Directory) : List (String × String) :=
  (d.files.filter fun (p, text) => old.text? p != some text).map fun (p, text) =>
    (Text.joined "/" p, text)

/-- A directory as the surroundings of an invocation. -/
def system (input : Except FileFault String) : System (StateM Directory) where
  readInput := return input
  readFile path := do return (← get).read path
  writeFile path text := do
    match (← get).write path text with
    | .ok d =>
      set d
      return .ok ()
    | .error fault => return .error fault
  isTerminal := false

end Directory

end Introspection.CommandLine
