import Introspection.CommandLine.Run

/-!
# `Introspection.Main`: the program

Connects `CommandLine.run` with the files and streams of the system.
-/

set_option autoImplicit false

namespace Introspection.Main

open Introspection.CommandLine

/-- The number of an error of the system, which comes with either sign. -/
def errorNumber (code : UInt32) : UInt32 := if UInt32.size / 2 ≤ code.toNat then 0 - code else code

/-- The reason behind an error of the system. -/
def faultOf : IO.Error → FileFault
  | .noFileOrDirectory _ _ _ => .notFound
  | .inappropriateType _ code _ => if errorNumber code = 21 then .isFolder else .notFolder
  | .invalidArgument _ code reason =>
    if errorNumber code = 36 then .nameTooLong else .other reason
  | .permissionDenied _ _ _ => .other "Permission denied (os error 13)"
  | e => .other (toString e)

/-- The text that bytes spell. -/
def textOf (bytes : ByteArray) : Except FileFault String :=
  match String.fromUTF8? bytes with
  | some text => .ok text
  | none => .error .notText

/-- Turns an error of the system into a fault. -/
def attempt {α : Type} (act : IO α) : IO (Except FileFault α) := do
  try
    return .ok (← act)
  catch e => return .error (faultOf e)

/-- The surroundings of the running program. -/
def system (terminal : Bool) : System IO where
  readInput := do
    let bytes ← attempt do (← IO.getStdin).readBinToEnd
    return bytes >>= textOf
  readFile path := do
    let bytes ← attempt (IO.FS.readBinFile path)
    return bytes >>= textOf
  writeFile path text := attempt (IO.FS.writeFile path text)
  isTerminal := terminal

end Introspection.Main

open Introspection

/-- Runs the program on its arguments. -/
def main (args : List String) : IO UInt32 := do
  let stdout ← IO.getStdout
  let outcome ← CommandLine.run (Main.system (← stdout.isTty)) args
  stdout.putStr outcome.printed
  stdout.flush
  match outcome.complaint with
  | some message => IO.eprintln message
  | none => pure ()
  return outcome.status
