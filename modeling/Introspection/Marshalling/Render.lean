import Introspection.Marshalling.Basic
import Introspection.Wrapper.Basic

/-!
# `Introspection.Marshalling.Render`: writing a host function

The declaration of a host function, put together from what is written around the call for each of
its arguments. What has to be given back is deferred: a single line by itself, more lines in a
function literal, which is written into a buffer of its own.
-/

set_option autoImplicit false

namespace Introspection

open Introspection.Code

/-- A function literal that is called when the host function returns. -/
def deferredLiteral (releases : List String) : List Op :=
  [.opening "defer func()"] ++ releases.map .lines ++ [.closing "()"]

/-- Defers the code that gives back what was allocated, newest first. -/
def deferred (marshals : List Marshal) : String :=
  let releases := (marshals.reverse.map Marshal.releaseText).filter (!·.isEmpty)
  match releases with
  | [] => ""
  | [release] =>
    if (Text.lines release).length = 1 then tabs 1 ++ "defer " ++ release
    else Op.written 1 (deferredLiteral releases)
  | _ => Op.written 1 (deferredLiteral releases)

/-- The declaration of the host function of a prepared native function. -/
def Wrapper.render (w : Wrapper) : Generated String :=
  Generated.within w.path do
    let marshals ← w.args.mapM (·.marshal w.scope)
    let receiver := match w.args.findSome? Argument.receiverDecl with
      | some v => "(" ++ v.text ++ ") "
      | none => ""
    let signature ← w.bareSignature
    return "func " ++ receiver ++ signature.text ++ " \x7b\n"
      ++ Text.joined "" (marshals.map Marshal.beforeText)
      ++ deferred marshals
      ++ w.call.text 1
      ++ Text.joined "" (marshals.reverse.map Marshal.afterText)
      ++ (if w.resultNames.isEmpty then ""
        else lineAt 1 ("return " ++ Text.joined ", " w.resultNames))
      ++ "\x7d\n"

end Introspection
