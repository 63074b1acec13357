/-!
# `Introspection.CommandLine.Word`: the words of a command line

Arguments are taken apart into words: options with and without a value, and plain texts. Options
have long names, some also a letter. Letters may stand together behind one `-`; a value follows
its letter directly, behind `=`, or as the next argument. Behind `--` every argument is plain, and
so is a single `-`.
-/

set_option autoImplicit false

namespace Introspection.CommandLine

/-- Options with a value. -/
inductive Setting
  | package
  | header
  | pkgConfig
  | importPath
  | output
  | color
  deriving DecidableEq

/-- Options without a value. -/
inductive Switch
  | noFieldGetters
  | skipDeprecated
  | compact
  | verbose
  | help
  deriving DecidableEq

/-- Either kind of option. -/
inductive Flag
  | setting (s : Setting)
  | switch (s : Switch)
  deriving DecidableEq

/-- Long names of the options. -/
def longFlags : List (String × Flag) :=
  [("package", .setting .package), ("include", .setting .header),
    ("pkg-config", .setting .pkgConfig), ("import-prefix", .setting .importPath),
    ("output", .setting .output), ("color", .setting .color),
    ("no-field-getters", .switch .noFieldGetters), ("skip-deprecated", .switch .skipDeprecated),
    ("compact", .switch .compact), ("verbose", .switch .verbose), ("help", .switch .help)]

/-- Letters of the options that have one. -/
def shortFlags : List (Char × Flag) :=
  [('o', .setting .output), ('v', .switch .verbose), ('h', .switch .help)]

/-- A part of a command line. -/
inductive Word
  | plain (text : String)
  /-- An option with its value, if that is part of the same argument. -/
  | setting (s : Setting) (value : Option String)
  | switch (s : Switch)
  /-- What follows is plain. -/
  | separator
  /-- A value for an option that takes none. -/
  | unneededValue (s : Switch)
  | unknown (text : String)
  deriving DecidableEq

namespace Word

/-- The word of an argument that starts with `--`, its name and value given. -/
def ofLong (name : String) (value : Option String) : Word :=
  match longFlags.lookup name with
  | some (.setting s) => .setting s value
  | some (.switch s) => if value.isSome then .unneededValue s else .switch s
  | none => .unknown ("--" ++ name)

/-- A value that follows a letter directly. -/
def attachedValue : List Char → Option String
  | [] => none
  | '=' :: cs => some (String.ofList cs)
  | cs => some (String.ofList cs)

/-- The words of letters behind one `-`. -/
def ofShorts : List Char → List Word
  | [] => []
  | c :: cs =>
    match shortFlags.lookup c with
    | some (.setting s) => [.setting s (attachedValue cs)]
    | some (.switch s) => .switch s :: ofShorts cs
    | none => [.unknown (String.ofList ['-', c])]

/-- The words of one argument. -/
def ofArgument (arg : String) : List Word :=
  match arg.toList with
  | '-' :: '-' :: cs =>
    let value := match cs.dropWhile (· != '=') with
      | [] => none
      | _ :: v => some (String.ofList v)
    [ofLong (String.ofList (cs.takeWhile (· != '='))) value]
  | '-' :: c :: cs => ofShorts (c :: cs)
  | _ => [.plain arg]

/-- The words of all arguments. -/
def ofArguments : List String → List Word
  | [] => []
  | arg :: rest =>
    if arg = "--" then .separator :: rest.map .plain else ofArgument arg ++ ofArguments rest

end Word

end Introspection.CommandLine
