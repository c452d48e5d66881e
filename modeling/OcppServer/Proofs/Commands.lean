import OcppServer.Commands
import OcppServer.Proofs.Registry

/-!
# Where a command goes and what it returns

The look-up of a reachable registry finds the charge point filed under the identifier, so all five
operations call that one and no other. Without one nothing is sent; two of them then return `false`
and the three triggers `true`, which tells a caller of a delivery that never was.
-/

namespace OcppServer

/-- The request an operation builds. -/
def StationCommand.request : StationCommand → OcppRequest
  | .getBaseReport now => getBaseReportReq now
  | .variables component variableName attributeValue =>
    setVariablesReq component variableName attributeValue
  | .triggerStatusNotification => .triggerMessage none .statusNotification
  | .triggerMeterValues evseId => .triggerMessage (some evseId) .meterValues
  | .triggerHeartbit => .triggerMessage none .heartbeat

/-- The operations of `TriggerMessage`. -/
def StationCommand.IsTrigger : StationCommand → Prop
  | .getBaseReport _ | .variables _ _ _ => False
  | .triggerStatusNotification | .triggerMeterValues _ | .triggerHeartbit => True

instance : (c : StationCommand) → Decidable c.IsTrigger
  | .getBaseReport _ | .variables _ _ _ => .isFalse id
  | .triggerStatusNotification | .triggerMeterValues _ | .triggerHeartbit => .isTrue trivial

namespace Registry

/-- The charge point registered under the identifier. -/
def registered? (r : Registry) (id : Bytes) : Option ChargePoint :=
  (r.handler.chargepoints.find? id).map (·.proxy)

/-- The request goes to the charge point registered under the identifier and to no other, and the
result is true exactly if there is one and its `call()` was. -/
def Commanded (r : Registry) (answers : ChargePoint → OcppRequest → Bool) (id : Bytes)
    (m : OcppManager) (command : StationCommand) : Prop :=
  ∃ sent, m.perform answers id command = some sent
    ∧ sent.calls = ((r.registered? id).map fun cp => (cp, command.request)).toList
    ∧ (sent.result = true
      ↔ ∃ cp, r.registered? id = some cp ∧ answers cp command.request = true)

variable {r : Registry} {m : OcppManager}

theorem Consistent.perform_eq (h : Consistent r) (hm : m.eventHandler = some r.handler)
    (answers : ChargePoint → OcppRequest → Bool) (id : Bytes) (command : StationCommand) :
    m.perform answers id command = some (match r.registered? id with
      | none => ⟨[], command.IsTrigger⟩
      | some cp => ⟨[(cp, command.request)], answers cp command.request⟩) := by
  have hfind := h.getChargePointById hm id
  cases command <;>
    simp only [OcppManager.perform, OcppManager.sendGetBaseReport, OcppManager.sendVariablesReq,
      OcppManager.sendTriggerStatusNotification, OcppManager.sendTriggerMeterValues,
      OcppManager.sendTriggerHeartbit, OcppManager.command, hfind, Option.map_some,
      StationCommand.IsTrigger] <;>
    rfl

theorem Consistent.perform_commanded (h : Consistent r) (hm : m.eventHandler = some r.handler)
    (answers : ChargePoint → OcppRequest → Bool) (id : Bytes) (command : StationCommand) :
    r.Commanded answers id m command
      ↔ ¬command.IsTrigger ∨ r.handler.chargepoints.find? id ≠ none := by
  have hreg : r.registered? id = none ↔ r.handler.chargepoints.find? id = none :=
    Option.map_eq_none_iff
  rw [Commanded, h.perform_eq hm, ne_eq, ← hreg]
  rcases hfound : r.registered? id with _ | cp
  · simp
  · simp

/-- In every reachable registry a command is sent and reported as it should be exactly if it is no
trigger or the identifier is registered. -/
theorem commanded_iff (config : CentralSystemDemoConfig) (setPendingStatus : Bool)
    (events : List StackEvent) {m : OcppManager}
    (hm : m.eventHandler = some ((init config setPendingStatus).run events).handler)
    (answers : ChargePoint → OcppRequest → Bool) (id : Bytes) (command : StationCommand) :
    ((init config setPendingStatus).run events).Commanded answers id m command
      ↔ ¬command.IsTrigger
        ∨ ((init config setPendingStatus).run events).handler.chargepoints.find? id ≠ none :=
  ((consistent_init config setPendingStatus).run events).perform_commanded hm answers id command

theorem commanded_registered :
    let r := (init ⟨0, 0⟩ false).run [.chargePointConnected (lit "CP1")]
    r.Commanded (fun _ _ => true) (lit "CP1") ⟨true, true, some r.handler, none⟩ .triggerHeartbit
      ↔ ¬StationCommand.triggerHeartbit.IsTrigger
        ∨ r.handler.chargepoints.find? (lit "CP1") ≠ none :=
  commanded_iff ⟨0, 0⟩ false [.chargePointConnected (lit "CP1")] rfl _ _ _

/-- A heartbeat for a charge point nobody knows is reported as delivered. -/
theorem trigger_unknown_true :
    ¬((init ⟨0, 0⟩ false).run []).Commanded (fun _ _ => true) (lit "CP1")
      ⟨true, true, some ((init ⟨0, 0⟩ false).run []).handler, none⟩ .triggerHeartbit := by
  rintro ⟨sent, hsent, -, hresult⟩
  have hnone : ((init ⟨0, 0⟩ false).run []).registered? (lit "CP1") = none := rfl
  obtain rfl : (⟨[], true⟩ : Sent) = sent := Option.some.inj hsent
  obtain ⟨cp, hcp, -⟩ := hresult.1 rfl
  rw [hnone] at hcp
  cases hcp

end Registry

end OcppServer
