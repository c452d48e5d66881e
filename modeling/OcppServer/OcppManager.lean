import OcppServer.EventsHandler

/-!
# The manager of the OCPP stack

`OcppManager` makes the event handler and the stack and answers who is connected. Its constructor
sets neither flag, so they start as whatever lies in memory. A function has no outcome where the
source would go through a null pointer. What the stack answers to a call is part of the call, and
it answers truthfully. An `OcppHost` is the manager among the sessions of the stack.
-/

namespace OcppServer

/-- `ICentralSystem20`, as far as it is started. -/
structure CentralSystem where
  started : Bool := false

namespace CentralSystem

def start (answer : Bool) (s : CentralSystem) : Bool × CentralSystem :=
  (answer, if answer then { s with started := true } else s)

def stop (answer : Bool) (s : CentralSystem) : Bool × CentralSystem :=
  (answer, if answer then { s with started := false } else s)

def resetData (answer : Bool) (s : CentralSystem) : Bool × CentralSystem := (answer, s)

end CentralSystem

structure OcppManager where
  mInit : Bool
  mStart : Bool
  eventHandler : Option EventsHandler := none
  centralSystem : Option CentralSystem := none

namespace OcppManager

def init (config : CentralSystemDemoConfig) (m : OcppManager) : Bool × OcppManager :=
  if m.mInit then (false, m)
  else (true, { m with
    mInit := true
    eventHandler := some { config := config }
    centralSystem := some {} })

/-- A call of the stack by way of `m_central_system`. -/
def call (f : CentralSystem → Bool × CentralSystem) (m : OcppManager) :
    Option (Bool × OcppManager) :=
  m.centralSystem.map fun s => ((f s).1, { m with centralSystem := some (f s).2 })

def resetData (answer : Bool) (m : OcppManager) : Option (Bool × OcppManager) :=
  if m.mInit then m.call (CentralSystem.resetData answer) else some (false, m)

def start (answer : Bool) (m : OcppManager) : Option (Bool × OcppManager) :=
  if m.mInit then m.call (CentralSystem.start answer) else some (false, m)

def stop (answer : Bool) (m : OcppManager) : Option (Bool × OcppManager) :=
  if m.mInit && !m.mStart then m.call (CentralSystem.stop answer) else some (false, m)

def getChargePointsCount (m : OcppManager) : Option ℕ :=
  if m.mStart then m.eventHandler.map (·.chargePointsCount) else some 0

def getChargePointIds (m : OcppManager) : Option (List Bytes) :=
  if m.mStart then
    m.eventHandler.map fun h => h.chargepoints.entries.map fun e => e.2.proxy.identifier
  else some []

/-- The first charge point with the identifier, where there is a handler to ask. -/
def getChargePointById (id : Bytes) (m : OcppManager) : Option (Option ChargePoint) :=
  m.eventHandler.map fun h =>
    (h.chargepoints.entries.find? fun e => e.2.proxy.identifier = id).map (·.2.proxy)

end OcppManager

/-- `started` is history: a start has succeeded and no stop since. -/
structure OcppHost extends Sessions where
  manager : OcppManager
  started : Bool := false

inductive ManagerCall where
  | init (config : CentralSystemDemoConfig)
  | start (answer : Bool)
  | stop (answer : Bool)
  | resetData (answer : Bool)
  | stack (e : StackEvent)

namespace OcppHost

/-- A manager just constructed, with what it found in its flags. -/
def init (mInit mStart : Bool) : OcppHost where
  manager := { mInit := mInit, mStart := mStart }

/-- The stack tells the event handler, once there is one. -/
def notify (e : StackEvent) (host : OcppHost) : OcppHost :=
  match host.manager.eventHandler with
  | none => host
  | some handler =>
    let r := Registry.step { toSessions := host.toSessions, handler := handler } e
    { toSessions := r.toSessions
      manager := { host.manager with eventHandler := some r.handler }
      started := host.started }

def step (host : OcppHost) : ManagerCall → Option OcppHost
  | .init config => some { host with manager := (host.manager.init config).2 }
  | .start answer => (host.manager.start answer).map fun result =>
      { host with manager := result.2, started := host.started || result.1 }
  | .stop answer => (host.manager.stop answer).map fun result =>
      { host with manager := result.2, started := host.started && !result.1 }
  | .resetData answer => (host.manager.resetData answer).map fun result =>
      { host with manager := result.2 }
  | .stack e => some (host.notify e)

end OcppHost

end OcppServer
