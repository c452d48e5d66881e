import OcppServer.OcppManager

/-!
# Commands to charge points

Each of the five operations looks its charge point up, builds a request and hands it to `call()`.
What `call()` answers comes from the stack, as a function of the charge point and the request. A
`Sent` is what an operation did: the calls it made and what it returned.
-/

namespace OcppServer

inductive ReportBase where
  | configurationInventory

inductive MessageTrigger where
  | heartbeat
  | meterValues
  | statusNotification

/-- The members the operations set; all others stay unset. -/
structure SetVariableData where
  attributeValue : Bytes
  componentName : Bytes
  variableName : Bytes

/-- `evse` is the id of the EVSE, where that member is set. -/
inductive OcppRequest where
  | getBaseReport (requestId : ℤ) (reportBase : ReportBase)
  | setVariables (setVariableData : List SetVariableData)
  | triggerMessage (evse : Option ℤ) (requestedMessage : MessageTrigger)

structure Sent where
  calls : List (ChargePoint × OcppRequest)
  result : Bool

/-- `CiStringType::assign` at a size limit. -/
def ciString (maxSize : ℕ) (value : Bytes) : Bytes := value.take maxSize

/-- The clock's count goes into an `int`. -/
def getBaseReportReq (now : ℤ) : OcppRequest :=
  .getBaseReport (Int.bmod now (2 ^ 32)) .configurationInventory

def setVariablesReq (component variableName attributeValue : Bytes) : OcppRequest :=
  .setVariables [⟨ciString 1000 attributeValue, ciString 50 component, ciString 50 variableName⟩]

namespace OcppManager

variable (answers : ChargePoint → OcppRequest → Bool)

/-- The shape of the five operations: `missing` is what they return without a charge point. -/
def command (id : Bytes) (missing : Bool) (request : OcppRequest) (m : OcppManager) :
    Option Sent :=
  (m.getChargePointById id).map fun found =>
    match found with
    | none => ⟨[], missing⟩
    | some chargePoint => ⟨[(chargePoint, request)], answers chargePoint request⟩

/-- At `system_clock` time `now`. -/
def sendGetBaseReport (now : ℤ) (id : Bytes) (m : OcppManager) : Option Sent :=
  m.command answers id false (getBaseReportReq now)

def sendVariablesReq (id component variableName attributeValue : Bytes) (m : OcppManager) :
    Option Sent :=
  m.command answers id false (setVariablesReq component variableName attributeValue)

def sendTriggerStatusNotification (id : Bytes) (m : OcppManager) : Option Sent :=
  m.command answers id true (.triggerMessage none .statusNotification)

def sendTriggerMeterValues (id : Bytes) (evseId : ℤ) (m : OcppManager) : Option Sent :=
  m.command answers id true (.triggerMessage (some evseId) .meterValues)

def sendTriggerHeartbit (id : Bytes) (m : OcppManager) : Option Sent :=
  m.command answers id true (.triggerMessage none .heartbeat)

end OcppManager

/-- The operations with their arguments. -/
inductive StationCommand where
  | getBaseReport (now : ℤ)
  | variables (component variableName attributeValue : Bytes)
  | triggerStatusNotification
  | triggerMeterValues (evseId : ℤ)
  | triggerHeartbit

def OcppManager.perform (answers : ChargePoint → OcppRequest → Bool) (id : Bytes)
    (m : OcppManager) : StationCommand → Option Sent
  | .getBaseReport now => m.sendGetBaseReport answers now id
  | .variables component variableName attributeValue =>
    m.sendVariablesReq answers id component variableName attributeValue
  | .triggerStatusNotification => m.sendTriggerStatusNotification answers id
  | .triggerMeterValues evseId => m.sendTriggerMeterValues answers id evseId
  | .triggerHeartbit => m.sendTriggerHeartbit answers id

end OcppServer
