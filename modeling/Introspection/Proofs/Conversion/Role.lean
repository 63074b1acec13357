import Introspection.Conversion.Basic
import Introspection.Proofs.Support.Except

/-!
# `Introspection.Proofs.Conversion.Role`: one conversion for each role

The role of an argument decides which code stands around the call for it. `yields_convert` is the
case analysis that laws about this code share: a property of the conversion is proved for each
role, given what the role says of the argument. What comes out of a call as a scalar or as a value
of a registered type is stored by one assignment (`exists_assign_of_scalar`,
`exists_assign_of_named`).
-/

set_option autoImplicit false

namespace Introspection.Argument

open Introspection.Code

variable {a : Argument} {p : ParamRole}

/-- The callee fills buffers only where a value comes back and none goes in. -/
theorem direction_of_fillsBuffer (hrole : a.role = .param p) (h : a.fillsBuffer = true) :
    p.direction = .output := by
  unfold fillsBuffer at h
  rw [hrole] at h
  simp only [Bool.and_eq_true, beq_iff_eq] at h
  exact h.1.2

/-- What holds of the conversion of each role holds of the conversion of an argument. -/
theorem yields_convert {motive : Conversion → Prop} (scope : Scope) (a : Argument)
    (receiver : ∀ via, a.role = .receiver via → Yields motive (a.convertReceiver via))
    (hidden : ∀ p why, a.role = .param p → p.hidden = some why →
      Yields motive (a.convertHidden p.direction why))
    (input : ∀ p, a.role = .param p → p.hidden = none → p.direction = .input →
      Yields (fun passing => motive ⟨passing.code, passing.release, []⟩)
        (Input.convert ⟨a.nativeLocal, a.hostValue, p.transfer⟩ p.nullable a.type))
    (inout : ∀ p, a.role = .param p → p.hidden = none → p.direction = .inout →
      Yields motive (a.convertInout scope p))
    (buffer : ∀ p, a.role = .param p → p.hidden = none → a.fillsBuffer = true →
      Yields motive (a.convertBuffer scope p))
    (struct : ∀ p, a.role = .param p → p.hidden = none → p.direction = .output →
      a.fillsBuffer = false → a.fillsStructure p = true →
      Yields motive (a.convertStructure scope))
    (output : ∀ p, a.role = .param p → p.hidden = none → p.direction = .output →
      a.fillsBuffer = false → a.fillsStructure p = false →
      Yields motive (a.convertOutput scope p.transfer p.length))
    (result : ∀ r, a.role = .result r → a.capturesReturn = true →
      Yields motive (a.convertOutput scope r.transfer r.length))
    (dropped : ∀ r, a.role = .result r → a.capturesReturn = false → motive .nothing) :
    Yields motive (a.convert scope) := by
  unfold convert
  cases hrole : a.role with
  | receiver via => exact receiver via hrole
  | result r =>
    cases hcaptures : a.capturesReturn with
    | true => exact result r hrole hcaptures
    | false => exact yields_ok_iff.mpr (dropped r hrole hcaptures)
  | param p =>
    dsimp only
    unfold convertParam
    cases hhidden : p.hidden with
    | some why => exact hidden p why hrole hhidden
    | none =>
      cases hdirection : p.direction with
      | input =>
        refine yields_bind fun passing hpassing => yields_pure_iff.mpr ?_
        exact input p hrole hhidden hdirection passing hpassing
      | inout => exact inout p hrole hhidden hdirection
      | output =>
        cases hfills : a.fillsBuffer with
        | true => exact buffer p hrole hhidden hfills
        | false =>
          cases hstructure : a.fillsStructure p with
          | true => exact struct p hrole hhidden hdirection hfills hstructure
          | false => exact output p hrole hhidden hdirection hfills hstructure

end Introspection.Argument

namespace Introspection.Output

open Introspection.Code

variable {scope : Scope} {o : Output} {t : TypeDesc}

theorem exists_assign_of_scalar :
    Yields (fun code => ∃ e, code = [.assign o.target e]) (o.scalar scope t) := by
  unfold scalar
  refine yields_bind fun host _ => ?_
  split <;> exact yields_pure_iff.mpr ⟨_, rfl⟩

/-- A handle is only stored where there is one. -/
theorem exists_assign_of_named : Yields
    (fun code => ∃ e, code = [.assign o.target e]
      ∨ code = [.block (.ifTrue (.notNil o.real)) [.assign o.target e]])
    (o.named scope t) := by
  unfold named unsupported
  refine yields_bind fun r _ => ?_
  cases r.kind <;> cases t.pointer
  case enum.true | enum.false =>
    exact yields_bind fun host _ => yields_pure_iff.mpr ⟨_, Or.inl rfl⟩
  case struct.false | union.false =>
    exact yields_bind fun copy _ => yields_pure_iff.mpr ⟨_, Or.inl rfl⟩
  case object.false | interface.false => exact yields_error _ _
  all_goals exact yields_pure_iff.mpr ⟨_, Or.inr rfl⟩

end Introspection.Output
