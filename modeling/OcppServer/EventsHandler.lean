import OcppServer.Lib.SortedMap
import OcppServer.Text

/-!
# The charge points connected to the OCPP stack

`DefaultCentralSystemEventsHandler` keeps the connected charge points by their identifier. A
disconnection erases by identifier too, from a detached thread that sleeps first, so a `Registry`
is the handler together with the sessions of the stack and the threads still asleep. The critical
sections of the handler's mutex are the steps; the stack notifies a session once of its
disconnection, and not while one of its requests is handled or before one is. A step that the stack
does not take leaves the registry alone.
-/

namespace OcppServer

/-- `IChargePoint20`: a session of the stack and the identifier it came with. -/
structure ChargePoint where
  session : ℕ
  identifier : Bytes
  deriving DecidableEq

/-- The handler installed on a session. -/
structure ChargePointRequestHandler where
  proxy : ChargePoint

structure CentralSystemDemoConfig where
  heartbeatInterval : ℤ
  bootNotificationRetryInterval : ℤ

inductive RegistrationStatus where
  | accepted
  | pending

structure BootNotificationConf where
  currentTime : ℤ
  interval : ℤ
  status : RegistrationStatus

structure EventsHandler where
  config : CentralSystemDemoConfig
  setPendingStatus : Bool := false
  chargepoints : SortedMap Bytes ChargePointRequestHandler := .empty
  pendingChargepoints : SortedMap Bytes ChargePoint := .empty
  acceptedChargepoints : SortedMap Bytes ChargePoint := .empty

namespace EventsHandler

/-- The handler made for the session, unless its identifier is taken. -/
def chargePointConnected (chargepoint : ChargePoint) (h : EventsHandler) :
    Option ChargePointRequestHandler × EventsHandler :=
  match h.chargepoints.find? chargepoint.identifier with
  | none => (some ⟨chargepoint⟩,
      { h with chargepoints := h.chargepoints.insert chargepoint.identifier ⟨chargepoint⟩ })
  | some _ => (none, h)

/-- What the thread detached by `removeChargePoint` does once it has slept. -/
def eraseChargePoint (identifier : Bytes) (h : EventsHandler) : EventsHandler :=
  { h with
    chargepoints := h.chargepoints.erase identifier
    pendingChargepoints := h.pendingChargepoints.erase identifier
    acceptedChargepoints := h.acceptedChargepoints.erase identifier }

def isAcceptedChargePoint (identifier : Bytes) (h : EventsHandler) : Bool :=
  (h.acceptedChargepoints.find? identifier).isSome

def addPendingChargePoint (chargepoint : ChargePoint) (h : EventsHandler) : EventsHandler :=
  { h with
    pendingChargepoints := h.pendingChargepoints.insert chargepoint.identifier chargepoint }

def addAcceptedChargePoint (chargepoint : ChargePoint) (h : EventsHandler) : EventsHandler :=
  { h with
    acceptedChargepoints := h.acceptedChargepoints.insert chargepoint.identifier chargepoint }

def chargePointsCount (h : EventsHandler) : ℕ := h.chargepoints.entries.length

/-- `onBootNotification` as far as its first critical section: whether the session is made to
wait. -/
def awaitsAcceptance (identifier : Bytes) (h : EventsHandler) : Bool :=
  h.setPendingStatus && !h.isAcceptedChargePoint identifier

/-- `onBootNotification` when nobody else takes the mutex meanwhile. -/
def onBootNotification (now : ℤ) (chargepoint : ChargePoint) (h : EventsHandler) :
    BootNotificationConf × EventsHandler :=
  if h.awaitsAcceptance chargepoint.identifier then
    (⟨now, h.config.bootNotificationRetryInterval, .pending⟩, h.addPendingChargePoint chargepoint)
  else (⟨now, h.config.heartbeatInterval, .accepted⟩, h)

end EventsHandler

/-- The sessions of the stack: all so far, those with a handler, those notified of their
disconnection and those about to be added to the pending ones; and the identifiers the threads
asleep will erase. -/
structure Sessions where
  connected : List ChargePoint := []
  handled : List ChargePoint := []
  disconnected : List ChargePoint := []
  booting : List ChargePoint := []
  threads : List Bytes := []

structure Registry extends Sessions where
  handler : EventsHandler

inductive StackEvent where
  | chargePointConnected (identifier : Bytes)
  | disconnected (chargepoint : ChargePoint)
  | wake (identifier : Bytes)
  | onBootNotification (chargepoint : ChargePoint)
  | addPendingChargePoint (chargepoint : ChargePoint)
  | addAcceptedChargePoint (chargepoint : ChargePoint)

namespace Registry

/-- A handler with no session yet. -/
def init (config : CentralSystemDemoConfig) (setPendingStatus : Bool) : Registry where
  handler := { config := config, setPendingStatus := setPendingStatus }

/-- A new session. -/
def connect (identifier : Bytes) (r : Registry) : Registry :=
  let chargepoint : ChargePoint := ⟨r.connected.length, identifier⟩
  let (made, handler) := r.handler.chargePointConnected chargepoint
  { r with
    handler := handler
    connected := r.connected ++ [chargepoint]
    handled := r.handled ++ (made.map (·.proxy)).toList }

/-- Only a session with a handler passes the notification on. -/
def disconnect (chargepoint : ChargePoint) (r : Registry) : Registry :=
  { r with
    disconnected := r.disconnected ++ [chargepoint]
    threads := if chargepoint ∈ r.handled then r.threads ++ [chargepoint.identifier]
      else r.threads }

def step (r : Registry) : StackEvent → Registry
  | .chargePointConnected identifier => r.connect identifier
  | .disconnected chargepoint =>
    if chargepoint ∈ r.connected ∧ chargepoint ∉ r.disconnected ∧ chargepoint ∉ r.booting then
      r.disconnect chargepoint
    else r
  | .wake identifier =>
    if identifier ∈ r.threads then
      { r with
        handler := r.handler.eraseChargePoint identifier
        threads := r.threads.erase identifier }
    else r
  | .onBootNotification chargepoint =>
    if chargepoint ∈ r.handled ∧ chargepoint ∉ r.disconnected
        ∧ r.handler.awaitsAcceptance chargepoint.identifier = true then
      { r with booting := r.booting ++ [chargepoint] }
    else r
  | .addPendingChargePoint chargepoint =>
    if chargepoint ∈ r.booting then
      { r with
        handler := r.handler.addPendingChargePoint chargepoint
        booting := r.booting.erase chargepoint }
    else r
  | .addAcceptedChargePoint chargepoint =>
    match r.handler.chargepoints.find? chargepoint.identifier with
    | some handler =>
      if handler.proxy = chargepoint then
        { r with handler := r.handler.addAcceptedChargePoint chargepoint }
      else r
    | none => r

/-- The registry after a run. -/
def run (r : Registry) (events : List StackEvent) : Registry := events.foldl step r

end Registry

end OcppServer
