import OcppServer.RpcClient

/-!
# Polling for metrics

The two `MonitoringSystem` classes with the RPC client each sits on and the intervals of its
window. On `connected` the class asks for the values, and with the answer it sets an interval that
asks for the metrics. A callback of the client runs to its end, then the handlers of what it
emitted, then what is left of a `startMonitoring` whose call was settled; one event is all of that.
What the handlers write into the document is left out. Whether `updateValue` throws there, and
whether `send` does, comes with the event.
-/

namespace OcppServer

def Promise.isPending : Promise → Bool
  | pending => true
  | resolved _ | rejected => false

def EventData.truthy : EventData → Bool
  | undefined => false
  | value v => v.truthy
  | flag b => b
  | error => true

/-- Call `i` has its id and is not settled. -/
def RPCClient.waits (i : ℕ) (c : RPCClient) : Bool :=
  match c.calls[i]? with
  | some call => call.promise.isPending
  | none => false

namespace Web

inductive Implementation where
  /-- the class in `web/client/index.html` -/
  | indexHtml
  /-- `web/client/js/monitoring.js` -/
  | monitoringJs

/-- The RPC client below. -/
def Implementation.variant : Implementation → Variant
  | indexHtml => .indexHtml
  | monitoringJs => .clientJs

/-- `connectionState` is whether it is `'connected'`. `metricsInterval` and `rpcEnabled` are fields
of the page's class only, and the debug timeouts are set by the other. `awaiting` are the calls of
`getValues` that are waited for; `intervals` are those set and not cleared. -/
structure MonitoringSystem where
  rpc : RPCClient := {}
  connectionState : Bool := false
  metricsInterval : Option ℕ := none
  rpcEnabled : Bool := true
  awaiting : List ℕ := []
  debugTimeouts : ℕ := 0
  intervals : List ℕ := []
  lastInterval : ℕ := 0

inductive MonitoringEvent where
  | onopen (k : ℕ) (sendFails : Bool)
  | onmessage (k : ℕ) (data : JsString) (sendFails displayed : Bool)
  | onclose (k : ℕ)
  | onerror (k : ℕ)
  /-- The client's reconnect timer. -/
  | reconnect (constructed : Bool)
  /-- A click on the button that pauses and resumes. -/
  | toggleRPC
  /-- A click on a button that sends a command. -/
  | sendCommand (sendFails : Bool)
  | debugTimeout (sendFails : Bool)
  | interval (id : ℕ) (sendFails : Bool)

namespace MonitoringSystem

def setInterval (m : MonitoringSystem) : MonitoringSystem :=
  { m with
    intervals := m.intervals ++ [m.lastInterval + 1]
    lastInterval := m.lastInterval + 1 }

def clearInterval (id : ℕ) (m : MonitoringSystem) : MonitoringSystem :=
  { m with intervals := m.intervals.erase id }

/-! ## Of the page's class -/

def stopMetricsUpdate (m : MonitoringSystem) : MonitoringSystem :=
  match m.metricsInterval with
  | some id => { m.clearInterval id with metricsInterval := none }
  | none => m

def startMetricsUpdate (m : MonitoringSystem) : MonitoringSystem :=
  let m := m.stopMetricsUpdate
  if m.rpcEnabled then
    let m := m.setInterval
    { m with metricsInterval := some m.lastInterval }
  else m

/-- `enabled` is whatever was emitted. -/
def rpcToggle (enabled : EventData) (m : MonitoringSystem) : MonitoringSystem :=
  let m := { m with rpcEnabled := enabled.truthy }
  if enabled.truthy then m.startMetricsUpdate else m.stopMetricsUpdate

/-! ## Of `monitoring.js` -/

/-- The values of the answer; `none` where `JSON.parse` throws. The client resolves no call with a
string, so the branch for one is left out. -/
def valuesOf (parse : JsString → Option JsValue) (valuesResponse : Option JsValue) :
    Option (Option JsValue) :=
  match valuesResponse.bind (JsValue.get? (js "result")) with
  | some (.str result) => (parse result).map some
  | _ => some valuesResponse

/-! ## Of both -/

section

variable (parse : JsString → Option JsValue) (impl : Implementation)

/-- A call, with parameters that `JSON.stringify` takes. -/
def call (sendFails : Bool) (m : MonitoringSystem) : MonitoringSystem :=
  { m with rpc := m.rpc.call impl.variant true sendFails }

/-- Up to the `await`; with a promise that is rejected already, what follows is the `catch`. -/
def startMonitoring (sendFails : Bool) (m : MonitoringSystem) : MonitoringSystem :=
  let i := m.rpc.calls.length
  let m := m.call impl sendFails
  if m.rpc.waits i then { m with awaiting := m.awaiting ++ [i] } else m

/-- From the `await` on. -/
def monitoringStarted (displayed : Bool) (values : Promise) (m : MonitoringSystem) :
    MonitoringSystem :=
  match values with
  | .resolved values =>
    match impl with
    | .indexHtml => if displayed then m.startMetricsUpdate else m
    | .monitoringJs =>
      match valuesOf parse values with
      | some _ => m.setInterval
      | none => m
  | _ => m

/-- What is left of the `startMonitoring` that waits for call `i`. -/
def proceed (displayed : Bool) (m : MonitoringSystem) (i : ℕ) : MonitoringSystem :=
  match m.rpc.calls[i]? with
  | some call => m.monitoringStarted parse impl displayed call.promise
  | none => m

/-- And of each whose call was settled. -/
def resume (displayed : Bool) (m : MonitoringSystem) : MonitoringSystem :=
  let settled := m.awaiting.filter fun i => !m.rpc.waits i
  settled.foldl (proceed parse impl displayed)
    { m with awaiting := m.awaiting.filter fun i => m.rpc.waits i }

/-- The handlers `init` registers, those of them that set or clear an interval or call. -/
def handle (sendFails : Bool) (event : JsValue) (data : EventData) (m : MonitoringSystem) :
    MonitoringSystem :=
  match event with
  | .str name =>
    match impl with
    | .indexHtml =>
      if name = js "connected" then
        startMonitoring impl sendFails { m with connectionState := true }
      else if name = js "disconnected" then stopMetricsUpdate { m with connectionState := false }
      else if name = js "rpcToggle" then m.rpcToggle data
      else m
    | .monitoringJs =>
      if name = js "connected" then
        let m := startMonitoring impl sendFails { m with connectionState := true }
        { m with debugTimeouts := m.debugTimeouts + 1 }
      else if name = js "disconnected" then { m with connectionState := false }
      else m
  | _ => m

def hear (sendFails : Bool) (m : MonitoringSystem) : Mark → MonitoringSystem
  | .emitted event data => m.handle impl sendFails event data
  | _ => m

/-- The client after a callback, and the handlers of what it emitted in it. -/
def follow (sendFails : Bool) (rpc : RPCClient) (m : MonitoringSystem) : MonitoringSystem :=
  (rpc.log.drop m.rpc.log.length).foldl (hear impl sendFails) { m with rpc := rpc }

def toggleRPC (m : MonitoringSystem) : MonitoringSystem :=
  match impl with
  | .indexHtml =>
    let newState := !m.rpcEnabled
    let m := m.follow impl false (m.rpc.setRPCEnabled impl.variant newState)
    let m := { m with rpcEnabled := newState }
    if newState then m.startMetricsUpdate else m.stopMetricsUpdate
  | .monitoringJs => m

def updateMetrics (sendFails : Bool) (m : MonitoringSystem) : MonitoringSystem :=
  match impl with
  | .indexHtml => if m.rpcEnabled then m.call impl sendFails else m
  | .monitoringJs => m.call impl sendFails

/-- `rpcClient.ws.readyState === WebSocket.OPEN` -/
def socketOpen (m : MonitoringSystem) : Bool :=
  match m.rpc.ws with
  | some k => m.rpc.sockets[k]? = some .open
  | none => false

def sendCommand (sendFails : Bool) (m : MonitoringSystem) : MonitoringSystem :=
  match impl with
  | .indexHtml => if m.rpcEnabled ∧ m.connectionState then m.call impl sendFails else m
  | .monitoringJs => if m.connectionState ∧ m.socketOpen then m.call impl sendFails else m

/-- One event; an interval that is cleared and a timeout that is not set do not come. -/
def step (m : MonitoringSystem) : MonitoringEvent → MonitoringSystem
  | .onopen k sendFails => m.follow impl sendFails (m.rpc.step parse impl.variant (.onopen k))
  | .onmessage k data sendFails displayed =>
    (m.follow impl sendFails (m.rpc.step parse impl.variant (.onmessage k data))).resume
      parse impl displayed
  | .onclose k => m.follow impl false (m.rpc.step parse impl.variant (.onclose k))
  | .onerror k => m.follow impl false (m.rpc.step parse impl.variant (.onerror k))
  | .reconnect constructed =>
    m.follow impl false (m.rpc.step parse impl.variant (.timer constructed))
  | .toggleRPC => m.toggleRPC impl
  | .sendCommand sendFails => m.sendCommand impl sendFails
  | .debugTimeout sendFails =>
    if m.debugTimeouts = 0 then m
    else call impl sendFails { m with debugTimeouts := m.debugTimeouts - 1 }
  | .interval id sendFails => if id ∈ m.intervals then m.updateMetrics impl sendFails else m

/-- The constructor, which connects. -/
def init (constructed : Bool) : MonitoringSystem :=
  follow impl false (RPCClient.step parse impl.variant {} (.connect constructed)) {}

def run (constructed : Bool) (events : List MonitoringEvent) : MonitoringSystem :=
  events.foldl (step parse impl) (init parse impl constructed)

end

end MonitoringSystem

end Web

end OcppServer
