import OcppServer.RapidJson

/-!
# One charge point's RPC link

The OCPP stack gives each charge point a `RpcServer::Client`, a `RpcBase` over one websocket. Three
kinds of threads work on it: those that call the charge point, one at a time behind `m_call_mutex`;
the websocket's own thread, which reads, writes and closes; and the workers of the pool, which
handle the requests. The state here is what they share, with the websocket's part of it, and each
function is what one of them does between two points where it may wait.

Threads that have seen the link connected wait for the mutex as `callers`; the one inside it waits
for its answer as `pending`. `received`, `sent`, `frames` and `calls` are history.
-/

namespace OcppServer

namespace Rpc

/-- `ocpp::helpers::Queue`, without the threads that wait on it. -/
structure Queue (α : Type) where
  items : List α := []
  enabled : Bool := true

namespace Queue

variable {α : Type}

def push (a : α) (q : Queue α) : Queue α := { q with items := q.items ++ [a] }

/-- What `pop` retrieves when it is woken; nothing while it waits, or once the queue is disabled. -/
def pop? (q : Queue α) : Option (α × Queue α) :=
  match q.enabled, q.items with
  | true, a :: items => some (a, { q with items := items })
  | _, _ => none

def setEnable (enabled : Bool) (q : Queue α) : Queue α := { q with enabled := enabled }

end Queue

structure RpcMessage where
  uniqueId : Bytes
  action : Bytes := []
  payload : Json
  error : Json := .null
  message : Json := .null

/-- What a received text is taken for. -/
inductive RpcFrame where
  | call (m : RpcMessage)
  | result (m : RpcMessage)
  | invalid

def decodeCall (uniqueId : Bytes) (action payload : Json) : RpcFrame :=
  match action, payload with
  | .string action, .object _ =>
    .call { uniqueId := uniqueId, action := cstr action, payload := payload }
  | _, _ => .invalid

def decodeCallResult (uniqueId : Bytes) (payload : Json) : RpcFrame :=
  match payload with
  | .object _ => .result { uniqueId := uniqueId, payload := payload }
  | _ => .invalid

def decodeCallError (uniqueId : Bytes) (error message payload : Json) : RpcFrame :=
  match error, message, payload with
  | .string _, .string _, .object _ =>
    .result { uniqueId := uniqueId, payload := payload, error := error, message := message }
  | _, _, _ => .invalid

/-- `processReceivedData` of a parsed frame: CALL, CALLRESULT and CALLERROR by the type and the
number of their elements. -/
def decodeFrame : Json → RpcFrame
  | .array [.int type, .string uniqueId, action, payload] =>
    if type = 2 then decodeCall (cstr uniqueId) action payload else .invalid
  | .array [.int type, .string uniqueId, payload] =>
    if type = 3 then decodeCallResult (cstr uniqueId) payload else .invalid
  | .array [.int type, .string uniqueId, error, message, payload] =>
    if type = 4 then decodeCallError (cstr uniqueId) error message payload else .invalid
  | _ => .invalid

/-- What the listener made of a request: `rpcCallReceived` with what it returned. -/
structure Handled where
  accepted : Bool
  response : Json
  errorCode : Bytes
  error : Bytes

/-- A text handed to the websocket, by what it is for. -/
inductive Sent where
  | call (id : ℤ) (action : Bytes) (payload : Json)
  | result (uniqueId : Bytes) (response : Json)
  | error (uniqueId code message : Bytes)

section Text

variable (num : RapidJson.Numbers)

/-- The frames that are read of a text. -/
def decode (data : Bytes) : RpcFrame :=
  match RapidJson.parse num data with
  | .ok frame => decodeFrame frame
  | .error _ => .invalid

/-- `GetString()` of the buffer; OCPP decimals have one digit. -/
def payloadText (payload : Json) : Bytes := cstr (RapidJson.write num 1 payload)

def quoted (s : Bytes) : Bytes := lit "\"" ++ s ++ lit "\", "

def Sent.text : Sent → Bytes
  | .call id action payload =>
    lit "[2, " ++ quoted (decimal id) ++ quoted action ++ payloadText num payload ++ lit "]"
  | .result uniqueId response =>
    lit "[3, " ++ quoted uniqueId ++ payloadText num response ++ lit "]"
  | .error uniqueId code message =>
    lit "[4, " ++ quoted uniqueId ++ quoted code ++ quoted message ++ lit "\x7b\x7d]"

end Text

/-- `sendCallError` for a frame that is none. -/
def protocolError : Sent := .error [] (lit "ProtocolError") []

/-- What `processIncomingRequest` sends for a request; nothing for an error without a code. -/
def reply? (m : RpcMessage) (h : Handled) : Option Sent :=
  if h.accepted then some (.result m.uniqueId h.response)
  else if h.errorCode ≠ [] then some (.error m.uniqueId (cstr h.errorCode) h.error)
  else none

/-- A call of the charge point, and the answer it returned with; without one it returned `false`,
if it has returned. -/
structure Call where
  id : ℤ
  action : Bytes
  payload : Json
  answer : Option RpcMessage := none

/-- The websocket is open, its CLOSED callback waits for the lock of the owner, or it is through. -/
inductive Link where
  | open
  | closing
  | closed
  deriving DecidableEq

structure RpcBase where
  link : Link := .open
  /-- `m_connected` of the websocket's client. -/
  connected : Bool := true
  /-- `m_send_msgs` -/
  sendMsgs : List Sent := []
  transactionId : ℤ
  callers : List (Bytes × Json) := []
  pending : Option Call := none
  resultsQueue : Queue RpcMessage := {}
  received : List RpcFrame := []
  sent : List Sent := []
  frames : List Sent := []
  calls : List Call := []

namespace RpcBase

/-- `start()`: the first id is drawn. -/
def start (random : ℤ) : RpcBase := { transactionId := random }

/-- `++` on an `int`, which wraps. -/
def increment (n : ℤ) : ℤ := Int.bmod (n + 1) (2 ^ 32)

def doSend (msg : Sent) (b : RpcBase) : RpcBase :=
  if b.connected then { b with sendMsgs := b.sendMsgs ++ [msg], sent := b.sent ++ [msg] } else b

/-- `call()` as far as the mutex. -/
def call (action : Bytes) (payload : Json) (b : RpcBase) : RpcBase :=
  if b.connected then { b with callers := b.callers ++ [(action, payload)] } else b

/-- The call returns, and with it the mutex. -/
def finish (c : Call) (answer : Option RpcMessage) (b : RpcBase) : RpcBase :=
  { b with
    pending := none
    transactionId := increment b.transactionId
    calls := b.calls ++ [{ c with answer := answer }] }

/-- One of the threads at the mutex enters and sends its request. -/
def enter (i : ℕ) (b : RpcBase) : RpcBase :=
  match b.pending, b.callers[i]? with
  | none, some (action, payload) =>
    let c : Call := { id := b.transactionId, action := action, payload := payload }
    let b := { b with callers := b.callers.eraseIdx i }
    if b.connected then
      { b.doSend (.call c.id action payload) with pending := some c }
    else b.finish c none
  | _, _ => b

/-- The waiting call is woken by a result: it returns with its own, and waits on after another. -/
def popResult (b : RpcBase) : RpcBase :=
  match b.pending, b.resultsQueue.pop? with
  | some c, some (m, queue) =>
    let b := { b with resultsQueue := queue }
    if m.uniqueId = decimal c.id then b.finish c (some m) else b
  | _, _ => b

/-- The time of the waiting call is over, or the queue was disabled. -/
def expire (b : RpcBase) : RpcBase :=
  match b.pending with
  | some c => b.finish c none
  | none => b

/-- `processReceivedData`, but for what it puts into the pool. -/
def receive (frame : RpcFrame) (b : RpcBase) : RpcBase :=
  let b := { b with received := b.received ++ [frame] }
  match frame with
  | .call _ => b
  | .result m => { b with resultsQueue := b.resultsQueue.push m }
  | .invalid => b.doSend protocolError

/-- `Client::disconnect(true)` -/
def disconnect (b : RpcBase) : RpcBase := { b with connected := false, sendMsgs := [] }

/-- SERVER_WRITEABLE: everything is written, but for an error after so many messages. -/
def writeable (written : ℕ) (b : RpcBase) : RpcBase :=
  if b.connected then
    if b.sendMsgs.length ≤ written then
      { b with frames := b.frames ++ b.sendMsgs, sendMsgs := [] }
    else disconnect { b with frames := b.frames ++ b.sendMsgs.take written }
  else b

/-- The CLOSED callback, as far as the owner's lock. -/
def close (b : RpcBase) : RpcBase :=
  { b with link := .closing, connected := false,
           resultsQueue := b.resultsQueue.setEnable false }

end RpcBase

end Rpc

end OcppServer
