import Introspection.CommandLine.Word
import Introspection.Generation.Options

/-!
# `Introspection.CommandLine.Invocation`: what a user asks for

A command line names an action, the file with the namespace, and options. All actions accept the
same options and ignore those that mean nothing to them. An option that is not a list may be given
once. Words are read from the left: the first mistake ends reading, and so does a request for
help.
-/

set_option autoImplicit false

namespace Introspection.CommandLine

/-- What can be done with a namespace. -/
inductive Action
  /-- Writes the generated file. -/
  | generate
  /-- Writes the checked namespace as JSON. -/
  | json
  /-- Lists the namespace. -/
  | dump
  deriving DecidableEq

/-- Actions by their names. -/
def actions : List (String × Action) :=
  [("generate", .generate), ("json", .json), ("dump", .dump)]

/-- When a listing is coloured. -/
inductive ColorChoice
  /-- On a terminal. -/
  | auto
  | always
  | never
  deriving DecidableEq

/-- Choices by their names. -/
def colorChoices : List (String × ColorChoice) :=
  [("auto", .auto), ("always", .always), ("never", .never)]

/-- Mistakes in a command line. -/
inductive UsageError
  | missingAction
  | unknownAction (name : String)
  | missingPath
  /-- A path must not be empty. -/
  | emptyPath
  | unexpectedArgument (text : String)
  | unknownOption (text : String)
  | missingValue (s : Setting)
  | unneededValue (s : Switch)
  | repeatedSetting (s : Setting)
  | repeatedSwitch (s : Switch)
  | unknownColor (text : String)

/-- Why a command line asks for no action. -/
inductive Interruption
  | help
  | misuse (e : UsageError)

/-- Long name of an option. -/
def Flag.name (f : Flag) : String :=
  ((longFlags.find? fun entry => entry.2 = f).map fun entry => "--" ++ entry.1).getD ""

/-- What a mistake is called in a message. -/
def UsageError.message : UsageError → String
  | .missingAction => "an action is required"
  | .unknownAction name => "unknown action `" ++ name ++ "`"
  | .missingPath => "a namespace file is required"
  | .emptyPath => "a path must not be empty"
  | .unexpectedArgument text => "unexpected argument `" ++ text ++ "`"
  | .unknownOption text => "unknown option `" ++ text ++ "`"
  | .missingValue s => "a value is required for `" ++ (Flag.setting s).name ++ "`"
  | .unneededValue s => "no value is allowed for `" ++ (Flag.switch s).name ++ "`"
  | .repeatedSetting s => "`" ++ (Flag.setting s).name ++ "` is given more than once"
  | .repeatedSwitch s => "`" ++ (Flag.switch s).name ++ "` is given more than once"
  | .unknownColor text => "unknown choice of colours `" ++ text ++ "`"

/-- The arguments of an action as far as they are read. -/
structure Arguments where
  path : Option String
  package : Option String
  headers : List String
  pkgConfig : List String
  importPath : Option String
  noFieldGetters : Bool
  skipDeprecated : Bool
  output : Option String
  compact : Bool
  color : Option ColorChoice

/-- Nothing read yet. -/
def Arguments.none : Arguments :=
  ⟨.none, .none, [], [], .none, false, false, .none, false, .none⟩

namespace Arguments

/-- Takes a plain word as the path of the namespace. -/
def setPath (a : Arguments) (text : String) : Except UsageError Arguments :=
  if a.path.isSome then .error (.unexpectedArgument text)
  else if text.isEmpty then .error .emptyPath
  else .ok { a with path := some text }

/-- Refuses an option that is there already. -/
def once {α : Type} (s : Setting) (old : Option α) (a : Arguments) : Except UsageError Arguments :=
  if old.isSome then .error (.repeatedSetting s) else .ok a

/-- Sets an option with a value. -/
def set (a : Arguments) (s : Setting) (value : String) : Except UsageError Arguments :=
  match s with
  | .package => once s a.package { a with package := some value }
  | .header => .ok { a with headers := a.headers ++ [value] }
  | .pkgConfig => .ok { a with pkgConfig := a.pkgConfig ++ [value] }
  | .importPath => once s a.importPath { a with importPath := some value }
  | .output =>
    if value.isEmpty then .error .emptyPath
    else once s a.output { a with output := some value }
  | .color =>
    match colorChoices.lookup value with
    | some choice => once s a.color { a with color := some choice }
    | .none => .error (.unknownColor value)

/-- Sets an option without a value. How much is logged has no influence on what is done. -/
def raise (a : Arguments) (s : Switch) : Except UsageError Arguments :=
  match s with
  | .noFieldGetters =>
    if a.noFieldGetters then .error (.repeatedSwitch s) else .ok { a with noFieldGetters := true }
  | .skipDeprecated =>
    if a.skipDeprecated then .error (.repeatedSwitch s) else .ok { a with skipDeprecated := true }
  | .compact => if a.compact then .error (.repeatedSwitch s) else .ok { a with compact := true }
  | .verbose => .ok a
  | .help => .ok a

/-- Reads the words behind the name of an action. -/
def read (a : Arguments) : List Word → Except Interruption Arguments
  | [] => .ok a
  | .plain text :: words => do
    let a ← (a.setPath text).mapError .misuse
    a.read words
  | .setting s (some value) :: words => do
    let a ← (a.set s value).mapError .misuse
    a.read words
  | .setting s .none :: .plain value :: words => do
    let a ← (a.set s value).mapError .misuse
    a.read words
  | .setting s .none :: _ => .error (.misuse (.missingValue s))
  | .switch .help :: _ => .error .help
  | .switch s :: words => do
    let a ← (a.raise s).mapError .misuse
    a.read words
  | .separator :: words => a.read words
  | .unneededValue s :: _ => .error (.misuse (.unneededValue s))
  | .unknown text :: _ => .error (.misuse (.unknownOption text))

/-- The options for generated files and listings. -/
def options (a : Arguments) : Options :=
  { package := a.package
    includes := a.headers
    pkgConfig := a.pkgConfig
    importPath := a.importPath
    fieldGetters := !a.noFieldGetters
    skipDeprecated := a.skipDeprecated
    colored := false }

end Arguments

/-- An action with all it needs. -/
structure Invocation where
  action : Action
  /-- Path of the namespace; `-` stands for the standard input. -/
  path : String
  /-- Path of the file that is written; the standard output when absent. -/
  output : Option String
  options : Options
  compact : Bool
  color : ColorChoice

namespace Invocation

/-- Puts an action together with its arguments. -/
def ofArguments (action : Action) (a : Arguments) : Except Interruption Invocation :=
  match a.path with
  | some path => .ok ⟨action, path, a.output, a.options, a.compact, a.color.getD .auto⟩
  | none => .error (.misuse .missingPath)

/-- Answers a request for help, about one action at most. -/
def ofHelp : List Word → Except Interruption Invocation
  | [] => .error .help
  | [.plain name] =>
    if name = "help" || (actions.lookup name).isSome then .error .help
    else .error (.misuse (.unknownAction name))
  | _ => .error (.misuse .missingAction)

/-- Reads words up to the name of an action, and those behind it. -/
def ofWords : List Word → Except Interruption Invocation
  | .plain name :: words =>
    match actions.lookup name with
    | some action => do ofArguments action (← Arguments.none.read words)
    | none => if name = "help" then ofHelp words else .error (.misuse (.unknownAction name))
  | .switch .verbose :: words => ofWords words
  | .switch .help :: _ => .error .help
  | .switch s :: _ => .error (.misuse (.unknownOption (Flag.switch s).name))
  | .setting s _ :: _ => .error (.misuse (.unknownOption (Flag.setting s).name))
  | .unneededValue s :: _ => .error (.misuse (.unneededValue s))
  | .unknown text :: _ => .error (.misuse (.unknownOption text))
  | .separator :: .plain text :: _ => .error (.misuse (.unexpectedArgument text))
  | _ => .error (.misuse .missingAction)

/-- Reads a command line, the name of the program left aside. -/
def ofCommandLine (args : List String) : Except Interruption Invocation :=
  ofWords (Word.ofArguments args)

/-- Whether a listing is coloured. Files get colours only when they are asked for. -/
def isColored (inv : Invocation) (terminal : Bool) : Bool :=
  match inv.color with
  | .always => true
  | .never => false
  | .auto => terminal && inv.output.isNone

end Invocation

end Introspection.CommandLine
