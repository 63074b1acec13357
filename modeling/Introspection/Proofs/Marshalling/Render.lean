import Introspection.Marshalling.Render
import Introspection.Proofs.Generation.Gap
import Introspection.Proofs.Marshalling.Basic
import Introspection.Wrapper.HostFunction

/-!
# `Introspection.Proofs.Marshalling.Render`: the host function that is written

A host function is written as the text of the `HostFunction` of the same wrapper, and is not written
for the same reason (`Wrapper.render_eq`). So what is known of host functions holds of what is
written.
-/

set_option autoImplicit false

namespace Introspection

open Introspection.Code
open Introspection.Code.Stmt

variable (c : Conversion) (cs : List Conversion)

@[simp] theorem Conversion.beforeText_ops : c.ops.beforeText = listText 1 c.before :=
  written_opsOf 1 c.before

@[simp] theorem Conversion.releaseText_ops : c.ops.releaseText = listText 0 c.release :=
  written_opsOf 0 c.release

@[simp] theorem Conversion.afterText_ops : c.ops.afterText = listText 1 c.after :=
  written_opsOf 1 c.after

/-- Lines written elsewhere are moved to the depth of the buffer. -/
theorem Code.Buffer.run_map_lines (b : Buffer) (texts : List String) :
    b.run (texts.map .lines) = ⟨b.text ++ HostFunction.reindent b.depth texts, b.depth⟩ := by
  induction texts generalizing b with
  | nil => simp [run_nil, HostFunction.reindent, Text.joined]
  | cons s texts ih =>
    rw [List.map_cons, run_cons, step, foldl_line, ih]
    simp only [HostFunction.reindent, List.flatMap_cons, List.map_append,
      Text.joined_empty_append, String.append_assoc]

/-- The literal is a block around the lines of all pieces. -/
theorem written_deferredLiteral (texts : List String) :
    Op.written 1 (deferredLiteral texts)
      = lineAt 1 "defer func() \x7b" ++ HostFunction.reindent 2 texts ++ lineAt 1 "\x7d()" := by
  have hhead : (Buffer.new 1).run [.opening "defer func()"]
      = ⟨lineAt 1 "defer func() \x7b", 2⟩ := rfl
  rw [Op.written, deferredLiteral, Buffer.run_append, Buffer.run_append, hhead,
    Buffer.run_map_lines]
  rfl

/-- The literal closes the block that it opens, whatever lines it moves there. -/
theorem closed_deferredLiteral (texts : List String) : Op.Closed (deferredLiteral texts) := by
  have hlines : ∀ depth, Op.depthAfter depth (texts.map .lines) = some depth := by
    intro depth
    induction texts with
    | nil => rfl
    | cons s texts ih =>
      rw [List.map_cons, Op.depthAfter_cons, Op.depthBehind, Option.bind_some, ih]
  rw [Op.Closed, deferredLiteral, Op.depthAfter_append, Op.depthAfter_append]
  show (Op.depthAfter 1 (texts.map .lines)).bind _ = some 0
  rw [hlines]
  rfl

/-- What is deferred are the pieces that give something back. -/
theorem deferred_map_ops :
    deferred (cs.map Conversion.ops)
      = HostFunction.deferred ((cs.reverse.map (·.release)).filter (!·.isEmpty)) := by
  have hreleases : ((cs.map Conversion.ops).reverse.map Marshal.releaseText).filter (!·.isEmpty)
      = ((cs.reverse.map (·.release)).filter (!·.isEmpty)).map (listText 0) := by
    have hempty : ∀ xs : List Stmt, (listText 0 xs).isEmpty = xs.isEmpty := fun xs => by
      rw [← written_opsOf, isEmpty_written_opsOf]
    rw [List.filter_map, List.filter_map, ← List.map_reverse, List.map_map, List.filter_map,
      List.map_map]
    simp [Function.comp_def, hempty]
  unfold deferred HostFunction.deferred
  rw [hreleases]
  -- Both decide by the number of pieces, and by the lines of a single one.
  generalize ((cs.reverse.map (·.release)).filter (!·.isEmpty)).map (listText 0) = texts
  match texts with
  | [] => rfl
  | [_] => simp only [written_deferredLiteral]
  | _ :: _ :: _ => simp only [written_deferredLiteral]

/-- A host function is written as it is printed. -/
theorem Wrapper.render_eq (w : Wrapper) : w.render = w.hostFunction.map HostFunction.text := by
  have hmarshals : (fun a : Argument => a.marshal w.scope)
      = fun a => (a.convert w.scope).map Conversion.ops :=
    funext fun a => a.marshal_eq w.scope
  unfold render hostFunction
  rw [map_within, hmarshals, mapM_map]
  cases w.args.mapM (·.convert w.scope) with
  | error e => rfl
  | ok cs =>
    cases w.bareSignature with
    | error e => rfl
    | ok signature =>
      have hbefore : (cs.map Conversion.ops).map Marshal.beforeText
          = cs.map fun c => listText 1 c.before := by simp
      have hafter : (cs.map Conversion.ops).reverse.map Marshal.afterText
          = cs.reverse.map fun c => listText 1 c.after := by simp [← List.map_reverse]
      cases hreceiver : w.args.findSome? Argument.receiverDecl <;>
        simp only [map_ok, ok_bind, pure_eq_ok, hbefore, hafter, deferred_map_ops, hreceiver,
          HostFunction.text, HostFunction.bodyText, HostFunction.releases, listText_flatMap,
          String.append_assoc]

end Introspection
