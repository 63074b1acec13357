import Introspection.Wrapper.Basic

/-!
# `Introspection.Wrapper.HostFunction`: the host function of a native function

The body of a host function has five phases: conversions of what goes in, in the order of the
arguments; one deferred statement that gives back what they allocated, newest first; the native
call; conversions of what comes out, in reverse order; and the return of the results.
-/

set_option autoImplicit false

namespace Introspection

open Introspection.Code

/-- A host function that calls a native one. -/
structure HostFunction where
  receiver : Option Variable
  signature : Signature
  /-- Code for each argument, in the order of the arguments. -/
  conversions : List Conversion
  call : Stmt
  /-- Names of the results that are returned. -/
  results : List String

namespace HostFunction

/-- The code that gives back what was allocated, newest first; one piece for each argument that
allocated anything. -/
def releases (f : HostFunction) : List (List Stmt) :=
  (f.conversions.reverse.map (·.release)).filter (!·.isEmpty)

/-- The lines of code that stand at no depth of their own, moved to a depth. -/
def reindent (depth : Nat) (texts : List String) : String :=
  Text.joined "" ((texts.flatMap Text.lines).map (lineAt depth))

/-- Defers code until the function returns: one line by itself, more in a function literal. -/
def deferred (releases : List (List Stmt)) : String :=
  let texts := releases.map (Stmt.listText 0)
  let literal := lineAt 1 "defer func() \x7b" ++ reindent 2 texts ++ lineAt 1 "\x7d()"
  match texts with
  | [] => ""
  | [text] => if (Text.lines text).length = 1 then tabs 1 ++ "defer " ++ text else literal
  | _ => literal

/-- The text of the body. -/
def bodyText (f : HostFunction) : String :=
  Stmt.listText 1 (f.conversions.flatMap (·.before))
    ++ deferred f.releases
    ++ f.call.text 1
    ++ Stmt.listText 1 (f.conversions.reverse.flatMap (·.after))
    ++ if f.results.isEmpty then "" else lineAt 1 ("return " ++ Text.joined ", " f.results)

/-- The text of the declaration. -/
def text (f : HostFunction) : String :=
  let receiver := match f.receiver with
    | some v => "(" ++ v.text ++ ") "
    | none => ""
  "func " ++ receiver ++ f.signature.text ++ " \x7b\n" ++ f.bodyText ++ "\x7d\n"

end HostFunction

/-- The host function of a prepared native function. -/
def Wrapper.hostFunction (w : Wrapper) : Generated HostFunction :=
  Generated.within w.path do
    let conversions ← w.args.mapM (·.convert w.scope)
    let signature ← w.bareSignature
    return {
      receiver := w.args.findSome? Argument.receiverDecl
      signature := signature
      conversions := conversions
      call := w.call
      results := w.resultNames }

/-- The host function of a native function, see `Wrapper.ofFunction`. -/
def synthesize (scope : Scope) (f : Function) (owner via : Option EntityRef) :
    Generated HostFunction := do
  (← Wrapper.ofFunction scope f owner via).hostFunction

end Introspection
