import OcppServer.Lib.Dict
import OcppServer.Json

/-!
# The web server's connections and replies

`WebSocketConnection` queues bytes for one socket; `WebServer` owns the connections, keyed by id,
and the values and metrics the RPC commands work on. A message handed to `send` is kept with the
document it was written from (`Message`), and `sent` remembers them: history, which nothing reads.

The only `shared_ptr` to a connection that outlives a callback is the one in `connections`, so an
object is released when its entry goes. Addresses are not reused: a pointer to a released object
dangles for good.
-/

namespace OcppServer

abbrev Wsi := ℕ

abbrev Addr := ℕ

inductive Message where
  | text (s : Bytes)
  | json (doc : Json)

def Message.bytes (rt : Runtime) : Message → Bytes
  | text s => s
  | json doc => jsonToString rt doc

structure WebSocketConnection where
  wsi : Wsi
  connectionId : ℤ
  writeBuffer : Bytes := []
  sent : List Message := []

def WebSocketConnection.send (rt : Runtime) (message : Message) (conn : WebSocketConnection) :
    WebSocketConnection :=
  { conn with
    writeBuffer := conn.writeBuffer ++ message.bytes rt
    sent := conn.sent ++ [message] }

def WebSocketConnection.clearWriteBuffer (conn : WebSocketConnection) : WebSocketConnection :=
  { conn with writeBuffer := [] }

/-- A `shared_ptr`: the object and where it lies. -/
structure SharedPtr (α : Type) where
  addr : Addr
  obj : α

def SharedPtr.map {α : Type} (f : α → α) (p : SharedPtr α) : SharedPtr α :=
  { p with obj := f p.obj }

structure SystemMetrics where
  currentPower : Double
  voltage : Double
  temperature : Double
  connectedClients : ℤ

/-- The fields the RPC commands read and write. -/
structure RpcData where
  values : Dict Bytes Bytes
  metrics : SystemMetrics
  startTime : ℤ

structure WebServer where
  connections : Dict ℤ (SharedPtr WebSocketConnection)
  nextConnectionId : ℤ
  data : RpcData

/-- What the surroundings answer during one callback: the charge points of the OCPP manager, the
steady clock in nanoseconds, the wall clock in seconds, and the next random draws. -/
structure Ambient where
  chargePointIds : List Bytes
  now : ℤ
  time : ℤ
  powerDis : Double
  voltageDis : Double
  tempDis : Double

def initializeValues (now : ℤ) (d : RpcData) : RpcData where
  values := ((((((d.values.insert (lit "systemStatus") (lit "running")).insert
    (lit "maxPower") (lit "50")).insert
    (lit "chargingEnabled") (lit "false")).insert
    (lit "currentSession") (lit "0")).insert
    (lit "totalEnergy") (lit "0")).insert
    (lit "firmwareVersion") (lit "1.0.0")).insert
    (lit "operator") (lit "OS System")
  metrics := ⟨0, 230, 25, 0⟩
  startTime := now

/-- The constructor, at steady-clock time `now`. -/
def WebServer.init (now : ℤ) : WebServer where
  connections := ∅
  nextConnectionId := 1
  data := initializeValues now ⟨∅, ⟨0, 0, 0, 0⟩, 0⟩

namespace WebServer

/-- `next_connection_id++` on a 32-bit `int`, which wraps. -/
def generateConnectionId (s : WebServer) : ℤ × WebServer :=
  (s.nextConnectionId, { s with nextConnectionId := Int.bmod (s.nextConnectionId + 1) (2 ^ 32) })

/-- The object at an address, while some entry of `connections` owns it. -/
def object (s : WebServer) (p : Addr) : Option WebSocketConnection :=
  (Dict.findVal (fun q : SharedPtr WebSocketConnection => q.addr = p) s.connections).map
    fun e => e.2.obj

def modifyObject (p : Addr) (f : WebSocketConnection → WebSocketConnection) (s : WebServer) :
    WebServer :=
  { s with
    connections := Dict.mapVal (fun _ q => if q.addr = p then q.map f else q) s.connections }

variable (rt : Runtime)

def broadcast (message : Message) (s : WebServer) : WebServer :=
  { s with connections := Dict.mapVal (fun _ p => p.map (.send rt message)) s.connections }

def sendToConnection (connectionId : ℤ) (message : Message) (s : WebServer) : WebServer :=
  { s with connections := Dict.modify connectionId (.map (.send rt message)) s.connections }

/-- The close reason noted with `lws_close_reason` stays with the socket, which stays open: the
callback goes on to return 0. -/
def closeConnection (connectionId : ℤ) (s : WebServer) : WebServer :=
  { s with connections := s.connections.erase connectionId }

end WebServer

structure RpcRequest where
  jsonrpc : Bytes
  method : Bytes
  params : Json
  id : ℤ
  hasParams : Bool

structure RpcResponse where
  jsonrpc : Bytes
  result : Bytes := []
  error : Bytes := []
  id : ℤ

section Rpc

variable (rt : Runtime)

def parseRpcRequest (json : Bytes) : Except Bytes RpcRequest :=
  match rt.parse (cstr json) with
  | .error e =>
    .error (lit "JSON parse error: " ++ e.text ++ lit " at offset " ++ decimal e.offset)
  | .ok doc =>
    if doc.isObject = false then .error (lit "Expected JSON object") else
    match doc.stringMember? (lit "jsonrpc") with
    | none => .error (lit "Missing or invalid 'jsonrpc' field")
    | some jsonrpc =>
    match doc.stringMember? (lit "method") with
    | none => .error (lit "Missing or invalid 'method' field")
    | some method =>
    match doc.intMember? (lit "id") with
    | none => .error (lit "Missing or invalid 'id' field")
    | some id =>
    match doc.find? (lit "params") with
    | some params => .ok ⟨jsonrpc, method, params, id, true⟩
    | none => .ok ⟨jsonrpc, method, .object [], id, false⟩

def serializeRpcResponse (response : RpcResponse) : Message :=
  .json (.object [(lit "jsonrpc", .string (lit "2.0")), (lit "id", .int response.id),
    if response.error ≠ [] then (lit "error", .string (cstr response.error))
    else (lit "result", .string (cstr response.result))])

namespace WebServer

def sendRpcResponse (connectionId requestId : ℤ) (result : Bytes) (s : WebServer) : WebServer :=
  s.sendToConnection rt connectionId
    (serializeRpcResponse { jsonrpc := lit "2.0", result := result, id := requestId })

def sendRpcError (connectionId requestId : ℤ) (error : Bytes) (s : WebServer) : WebServer :=
  s.sendToConnection rt connectionId
    (serializeRpcResponse { jsonrpc := lit "2.0", error := error, id := requestId })

def sendRpcNotification (method : Bytes) (params : Json) (s : WebServer) : WebServer :=
  s.broadcast rt (.json (.object [(lit "jsonrpc", .string (lit "2.0")),
    (lit "method", .string (cstr method)), (lit "params", params)]))

def broadcastValueChange (key value : Bytes) (s : WebServer) : WebServer :=
  s.sendRpcNotification rt (lit "valueChanged") (.object [(lit "key", .string (cstr key)),
    (lit "value", .string (cstr value))])

end WebServer

end Rpc

end OcppServer
