import OcppServer.WebServer

/-!
# The RPC commands

Each command takes the request's parameters and the server and returns its result or the text of
the exception it throws, with the server as it then stands. The `const` ones and those that only
refresh the metrics are given the RPC data alone; `commands` lists all of them under the method
names, in the order they are compared.
-/

namespace OcppServer

/-- What a command returns or throws. -/
abbrev Outcome := Except Bytes Bytes

def handleGetStations (rt : Runtime) (amb : Ambient) : Bytes :=
  let chargePoints :=
    if amb.chargePointIds.length = 0 then
      (List.range 3).map fun i => lit "ST000" ++ decimal i
    else amb.chargePointIds
  jsonToString rt (.object [(lit "stations", .array (chargePoints.map .string))])

/-- `float` values as they are widened to `double`: 33.1f and 22.1f. -/
def float33_1 : Double := 8676966 / 262144

def float22_1 : Double := 11586765 / 524288

/-- The type, status, meter and power of the connector at a position from 0. -/
def connectorAt (i : ℤ) : Bytes × Bytes × Double × Double :=
  if i = 1 then (lit "CCS2", lit "alarm", 0, 0)
  else if i = 2 then (lit "GBT", lit "ok", 0, 0)
  else if i = 3 then (lit "TYPE2", lit "off", 0, 0)
  else (lit "CHADEMO", lit "charge", float33_1, float22_1)

def handleGetStationStatus (rt : Runtime) (params : Json) : Outcome :=
  match params.stringMember? (lit "station_id") with
  | none => .error (lit "Invalid parameters: expected object with 'station_id' string")
  | some stationId =>
    let (stationStatus, connectorCount, maxPower) : Bytes × ℕ × ℤ :=
      if stationId = lit "ST0001" then (lit "alarm", 3, 120)
      else if stationId = lit "ST0002" then (lit "off", 4, 180)
      else (lit "ok", 2, 150)
    let connectors := (List.range connectorCount).map fun i =>
      let (type, status, meter, power) := connectorAt i
      Json.object [(lit "id", .int (i + 1)), (lit "type", .string type),
        (lit "status", .string status), (lit "meter", .double meter), (lit "power", .double power)]
    .ok (jsonToString rt (.object [(lit "status", .string stationStatus),
      (lit "connector_count", .int connectorCount), (lit "max_power", .int maxPower),
      (lit "connectors", .array connectors)]))

def handleGetConnectorStatus (rt : Runtime) (params : Json) : Outcome :=
  match params.stringMember? (lit "station_id") with
  | none => .error (lit "Invalid parameters: expected object with 'station_id' string")
  | some _ =>
    match params.intMember? (lit "connector_id") with
    | none => .error (lit "Invalid parameters: expected object with 'connector_id' int")
    | some connectorId =>
      let (type, status, meter, power) : Bytes × Bytes × Double × Double :=
        if connectorId = 2 then (lit "CCS2", lit "alarm", 0, 0)
        else if connectorId = 3 then (lit "GBT", lit "ok", 0, 0)
        else if connectorId = 4 then (lit "TYPE2", lit "off", 0, 0)
        else (lit "CHADEMO", lit "charge", float33_1, float22_1)
      .ok (jsonToString rt (.object [(lit "status", .string status), (lit "type", .string type),
        (lit "meter", .double meter), (lit "power", .double power)]))

def handleGetValue (params : Json) (d : RpcData) : Outcome :=
  match params.stringMember? (lit "key") with
  | none => .error (lit "Invalid parameters: expected object with 'key' string")
  | some key =>
    match d.values.lookup key with
    | none => .error (lit "Key not found: " ++ key)
    | some value => .ok value

/-- `values_[key]` where the source only reads it: a missing key gets an empty value. -/
def subscript (key : Bytes) (values : Dict Bytes Bytes) : Bytes × Dict Bytes Bytes :=
  match values.lookup key with
  | some value => (value, values)
  | none => ([], values.insert key [])

/-- `clients` is the size of `connections`. -/
def updateMetrics (rt : Runtime) (amb : Ambient) (clients : ℕ) (d : RpcData) : RpcData :=
  let (chargingEnabled, values) := subscript (lit "chargingEnabled") d.values
  let metrics : SystemMetrics :=
    if chargingEnabled = lit "true" then
      { currentPower := amb.powerDis
        voltage := amb.voltageDis
        temperature := rt.round (amb.tempDis + rt.round (amb.powerDis * rt.round (1 / 10)))
        connectedClients := clients }
    else ⟨0, 230, 25, clients⟩
  { d with values := values, metrics := metrics }

/-- Whole seconds of the steady clock since the start. -/
def getUptime (amb : Ambient) (d : RpcData) : ℤ := (amb.now - d.startTime).tdiv 1000000000

def handleGetValues (rt : Runtime) (amb : Ambient) (clients : ℕ) (d : RpcData) :
    Bytes × RpcData :=
  let d := updateMetrics rt amb clients d
  (jsonToString rt (.object (d.values.entries.map
      (fun pair => (cstr pair.1, Json.string (cstr pair.2))) ++
    [(lit "currentPower", .double d.metrics.currentPower),
      (lit "voltage", .double d.metrics.voltage),
      (lit "temperature", .double d.metrics.temperature),
      (lit "uptime", .int (getUptime amb d))])), d)

def handleGetMetrics (rt : Runtime) (amb : Ambient) (clients : ℕ) (d : RpcData) :
    Bytes × RpcData :=
  let d := updateMetrics rt amb clients d
  (jsonToString rt (.object [(lit "jsonrpc", .string (lit "2.0")), (lit "id", .int 1),
    (lit "result", .object [(lit "currentPower", .double d.metrics.currentPower),
      (lit "voltage", .double d.metrics.voltage),
      (lit "temperature", .double d.metrics.temperature),
      (lit "connectedClients", .int d.metrics.connectedClients),
      (lit "uptime", .int (getUptime amb d))])]), d)

def RpcData.setValue (key value : Bytes) (d : RpcData) : RpcData :=
  { d with values := d.values.insert key value }

def RpcData.setPower (power : Double) (d : RpcData) : RpcData :=
  { d with metrics := { d.metrics with currentPower := power } }

namespace WebServer

variable (rt : Runtime) (amb : Ambient)

/-- The RPC data rewritten. -/
def onData (f : RpcData → RpcData) (s : WebServer) : WebServer := { s with data := f s.data }

def handleSetValue (params : Json) (s : WebServer) : Outcome × WebServer :=
  match params.stringMember? (lit "key"), params.find? (lit "value") with
  | some key, some value =>
    let value := match value with
      | .string v => cstr v
      | _ => jsonValueToString rt value
    let s := s.onData (.setValue key value)
    (.ok (lit "OK"), s.broadcastValueChange rt key value)
  | _, _ => (.error (lit "Invalid parameters: expected object with 'key' and 'value'"), s)

def handleStartCharging (s : WebServer) : Outcome × WebServer :=
  let s := s.onData (.setValue (lit "chargingEnabled") (lit "true"))
  let s := s.onData (.setValue (lit "systemStatus") (lit "charging"))
  let s := s.onData (.setPower 10)
  let s := s.broadcastValueChange rt (lit "chargingEnabled") (lit "true")
  let s := s.broadcastValueChange rt (lit "systemStatus") (lit "charging")
  (.ok (lit "Charging started"), s)

def handleStopCharging (s : WebServer) : Outcome × WebServer :=
  let s := s.onData (.setValue (lit "chargingEnabled") (lit "false"))
  let s := s.onData (.setValue (lit "systemStatus") (lit "ready"))
  let s := s.onData (.setPower 0)
  let s := s.broadcastValueChange rt (lit "chargingEnabled") (lit "false")
  let s := s.broadcastValueChange rt (lit "systemStatus") (lit "ready")
  (.ok (lit "Charging stopped"), s)

def handleResetSystem (s : WebServer) : Outcome × WebServer :=
  let s := s.onData (initializeValues amb.now)
  let s := s.broadcastValueChange rt (lit "systemStatus") (lit "reset")
  (.ok (lit "System reset completed"), s)

def handleSetMaxPower (params : Json) (s : WebServer) : Outcome × WebServer :=
  match params.intMember? (lit "value") with
  | none => (.error (lit "Invalid parameters: expected object with 'value' as integer"), s)
  | some maxPower =>
    if maxPower < 1 ∨ maxPower > 100 then
      (.error (lit "Max power must be between 1 and 100 kW"), s)
    else
      let s := s.onData (.setValue (lit "maxPower") (decimal maxPower))
      let s := s.broadcastValueChange rt (lit "maxPower") (decimal maxPower)
      (.ok (lit "Max power set to " ++ decimal maxPower ++ lit " kW"), s)

/-- How many connections `connections.size()` counts. -/
def clients (s : WebServer) : ℕ := s.connections.keys.length

/-- The methods in the order the dispatcher compares them. -/
def commands : List (Bytes × (Json → WebServer → Outcome × WebServer)) :=
  [(lit "getValue", fun params s => (handleGetValue params s.data, s)),
    (lit "GetStations", fun _ s => (.ok (handleGetStations rt amb), s)),
    (lit "GetStationStatus", fun params s => (handleGetStationStatus rt params, s)),
    (lit "GetConnectorStatus", fun params s => (handleGetConnectorStatus rt params, s)),
    (lit "setValue", handleSetValue rt),
    (lit "getValues", fun _ s =>
      let (result, d) := handleGetValues rt amb s.clients s.data
      (.ok result, { s with data := d })),
    (lit "getMetrics", fun _ s =>
      let (result, d) := handleGetMetrics rt amb s.clients s.data
      (.ok result, { s with data := d })),
    (lit "ping", fun _ s => (.ok (lit "pong"), s)),
    (lit "startCharging", fun _ s => handleStartCharging rt s),
    (lit "stopCharging", fun _ s => handleStopCharging rt s),
    (lit "resetSystem", fun _ s => handleResetSystem rt amb s),
    (lit "setMaxPower", handleSetMaxPower rt)]

def dispatch (request : RpcRequest) (s : WebServer) : Outcome × WebServer :=
  match (commands rt amb).lookup request.method with
  | some command => command request.params s
  | none => (.error (lit "Unknown method: " ++ request.method), s)

/-- What the outer `try` runs: the text of the exception that leaves it, if one does. -/
def tryRpcMessage (connectionId : ℤ) (message : Bytes) (s : WebServer) :
    Except Bytes Unit × WebServer :=
  match parseRpcRequest rt message with
  | .error what => (.error what, s)
  | .ok request =>
    match dispatch rt amb request s with
    | (.error what, s) => (.error what, s)
    | (.ok result, s) => (.ok (), s.sendRpcResponse rt connectionId request.id result)

/-- The handler parses the message again to learn the id; what that throws is caught too. -/
def handleRpcMessage (connectionId : ℤ) (message : Bytes) (s : WebServer) :
    Except Bytes Unit × WebServer :=
  match tryRpcMessage rt amb connectionId message s with
  | (.ok _, s) => (.ok (), s)
  | (.error what, s) =>
    match parseRpcRequest rt message with
    | .ok request => (.ok (), s.sendRpcError rt connectionId request.id what)
    | .error _ => (.ok (), s.sendRpcError rt connectionId (-1) what)

/-- `wsMessageHandler`, when one is set, may do anything to the server. -/
abbrev MessageHandler := ℤ → Bytes → WebServer → WebServer

/-- `handleWebSocketMessage` once the connection's id is known. -/
def processMessage (wsMessageHandler : Option MessageHandler) (connectionId : ℤ) (message : Bytes)
    (s : WebServer) : WebServer :=
  match handleRpcMessage rt amb connectionId message s with
  | (.ok _, s) => s
  | (.error _, s) =>
    match wsMessageHandler with
    | some handler => handler connectionId message s
    | none => s.sendToConnection rt connectionId
        (.text (lit "[" ++ decimal amb.time ++ lit "] Echo: " ++ message))

end WebServer

end OcppServer
