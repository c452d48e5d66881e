import OcppServer.Callbacks
import OcppServer.Lib.Replica

/-!
# What the server is for

An abstract server: a store that each message changes by one `Effect`, and for each open session
the stream of messages produced for it. A message announces the changes it makes to every session
and answers the one it came from; nothing else is produced but the welcome of a new session.
-/

namespace OcppServer

/-- A command as a change of the store: the data after it, the assignments it announces, and what
it returns or throws. -/
structure Effect where
  data : RpcData
  announced : List (Bytes × Bytes) := []
  result : Outcome

namespace Effect

variable (rt : Runtime) (amb : Ambient)

/-- A command that only answers. -/
def pure (result : Outcome) (d : RpcData) : Effect := { data := d, result := result }

/-- A command that assigns values, announces them in that order and sets the power if told to. -/
def assign (l : List (Bytes × Bytes)) (power : Option Double) (result : Bytes) (d : RpcData) :
    Effect where
  data := let d := { d with values := Replica.replay l d.values }
    match power with
    | some x => d.setPower x
    | none => d
  announced := l
  result := .ok result

def setValue (params : Json) (d : RpcData) : Effect :=
  match params.stringMember? (lit "key"), params.find? (lit "value") with
  | some key, some value => assign [(key, jsonValueToString rt value)] none (lit "OK") d
  | _, _ => pure (.error (lit "Invalid parameters: expected object with 'key' and 'value'")) d

def setMaxPower (params : Json) (d : RpcData) : Effect :=
  match params.intMember? (lit "value") with
  | none => pure (.error (lit "Invalid parameters: expected object with 'value' as integer")) d
  | some maxPower =>
    if maxPower < 1 ∨ maxPower > 100 then
      pure (.error (lit "Max power must be between 1 and 100 kW")) d
    else assign [(lit "maxPower", decimal maxPower)] none
      (lit "Max power set to " ++ decimal maxPower ++ lit " kW") d

/-- The commands' effects on the store; they are told how many sessions are open. -/
def commands : List (Bytes × (ℕ → Json → RpcData → Effect)) :=
  [(lit "getValue", fun _ params d => pure (handleGetValue params d) d),
    (lit "GetStations", fun _ _ => pure (.ok (handleGetStations rt amb))),
    (lit "GetStationStatus", fun _ params => pure (handleGetStationStatus rt params)),
    (lit "GetConnectorStatus", fun _ params => pure (handleGetConnectorStatus rt params)),
    (lit "setValue", fun _ => setValue rt),
    (lit "getValues", fun clients _ d => pure (.ok (handleGetValues rt amb clients d).1)
      (updateMetrics rt amb clients d)),
    (lit "getMetrics", fun clients _ d => pure (.ok (handleGetMetrics rt amb clients d).1)
      (updateMetrics rt amb clients d)),
    (lit "ping", fun _ _ => pure (.ok (lit "pong"))),
    (lit "startCharging", fun _ _ => assign [(lit "chargingEnabled", lit "true"),
      (lit "systemStatus", lit "charging")] (some 10) (lit "Charging started")),
    (lit "stopCharging", fun _ _ => assign [(lit "chargingEnabled", lit "false"),
      (lit "systemStatus", lit "ready")] (some 0) (lit "Charging stopped")),
    (lit "resetSystem", fun _ _ d => ⟨initializeValues amb.now d,
      [(lit "systemStatus", lit "reset")], .ok (lit "System reset completed")⟩),
    (lit "setMaxPower", fun _ => setMaxPower)]

def ofRequest (clients : ℕ) (request : RpcRequest) (d : RpcData) : Effect :=
  match (commands rt amb).lookup request.method with
  | some effect => effect clients request.params d
  | none => pure (.error (lit "Unknown method: " ++ request.method)) d

/-- The effect of a message, and the id its reply carries. -/
def ofMessage (clients : ℕ) (message : Bytes) (d : RpcData) : Effect × ℤ :=
  match parseRpcRequest rt message with
  | .error what => (pure (.error what) d, -1)
  | .ok request => (ofRequest rt amb clients request d, request.id)

end Effect

/-- The notification of one assignment. -/
def valueChanged (kv : Bytes × Bytes) : Message :=
  .json (.object [(lit "jsonrpc", .string (lit "2.0")),
    (lit "method", .string (lit "valueChanged")),
    (lit "params", .object [(lit "key", .string (cstr kv.1)), (lit "value", .string (cstr kv.2))])])

/-- The assignment a notification tells of. -/
def Message.assignment? : Message → Option (Bytes × Bytes)
  | .json doc =>
    if doc.stringMember? (lit "method") = some (lit "valueChanged") then
      match (doc.find? (lit "params")).bind (·.stringMember? (lit "key")),
        (doc.find? (lit "params")).bind (·.stringMember? (lit "value")) with
      | some key, some value => some (key, value)
      | _, _ => none
    else none
  | .text _ => none

def reply (id : ℤ) : Outcome → Message
  | .ok result => serializeRpcResponse { jsonrpc := lit "2.0", result := result, id := id }
  | .error what => serializeRpcResponse { jsonrpc := lit "2.0", error := what, id := id }

/-- What a message produces: announcements for every session, then the reply for its own. -/
def produced (e : Effect × ℤ) (own : Bool) : List Message :=
  e.1.announced.map valueChanged ++ if own then [reply e.2 e.1.result] else []

/-- The messages sent one after another. -/
def WebSocketConnection.sendAll (rt : Runtime) (messages : List Message)
    (conn : WebSocketConnection) : WebSocketConnection :=
  { conn with
    writeBuffer := conn.writeBuffer ++ messages.flatMap (·.bytes rt)
    sent := conn.sent ++ messages }

/-- The abstract server. -/
structure Streams where
  data : RpcData
  nextConnectionId : ℤ
  streams : Dict Wsi (List Message)

namespace Streams

variable (rt : Runtime)

def init (now : ℤ) : Streams := ⟨(WebServer.init now).data, 1, ∅⟩

def step (a : Streams) : Callback → Streams
  | .established wsi =>
    if wsi ∈ a.streams then a else
    { a with
      nextConnectionId := a.nextConnectionId + 1
      streams := a.streams.insert wsi [welcome a.nextConnectionId] }
  | .receive wsi amb message =>
    if wsi ∈ a.streams ∧ message ≠ [] then
      let e := Effect.ofMessage rt amb a.streams.keys.length message a.data
      { a with
        data := e.1.data
        streams := Dict.mapVal (fun w ms => ms ++ produced e (w = wsi)) a.streams }
    else a
  | .closed wsi => { a with streams := a.streams.erase wsi }
  | .broadcast message =>
    { a with streams := Dict.mapVal (fun _ ms => ms ++ [.text message]) a.streams }
  | _ => a

end Streams

end OcppServer
