import OcppServer.JsValue
import OcppServer.Lib.Dict

/-!
# The browser's RPC client

`RPCClient` comes in three variants: the one of the web application, the one of the monitoring
client, and the one embedded in its page. They differ in a few branches, so each function has the
variant as an argument. The client's surroundings are part of its state: the sockets it has
created, the reconnect timers it has armed, and as history the calls that got an id and a log.

Callbacks run to completion, so a step is one of them. What a handler that `emit` runs does is a
step of its own, after it: `emit` is the last thing a callback does, but for `disconnected`, whose
handlers call nothing of the client. A socket is open from its open event to its close event or
`close()`; a close the other side starts shows in the close event.
-/

namespace OcppServer

inductive Variant where
  /-- `web/js/rpc-client.js` -/
  | webJs
  /-- `web/client/js/rpc-client.js` -/
  | clientJs
  /-- the class in `web/client/index.html` -/
  | indexHtml

namespace Variant

/-- The body of `handleReconnect` is not commented out. -/
def reconnects : Variant → Bool
  | webJs => false
  | clientJs | indexHtml => true

/-- `call` catches what `send` throws. -/
def catchesSend : Variant → Bool
  | clientJs => false
  | webJs | indexHtml => true

/-- The variant with `rpcEnabled`; it also emits its errors, takes a string for a message as it is
and resolves a call with the `result`. -/
def embedded : Variant → Bool
  | indexHtml => true
  | webJs | clientJs => false

end Variant

inductive ReadyState where
  | connecting
  | open
  | closing
  | closed
  deriving DecidableEq

/-- What a promise was settled with; the errors it is rejected with are not told apart. -/
inductive Promise where
  | pending
  | resolved (value : Option JsValue)
  | rejected

/-- A call that got an id, and the socket its request was sent on. -/
structure Call where
  id : ℕ
  carrier : Option ℕ
  promise : Promise

/-- `resolve` and `reject`: the first one counts. -/
def Call.settle (outcome : Promise) (call : Call) : Call :=
  match call.promise with
  | .pending => { call with promise := outcome }
  | _ => call

/-- Who created a socket. -/
inductive Origin where
  | app
  | auto
  deriving DecidableEq

inductive EventData where
  | undefined
  | value (v : JsValue)
  | flag (b : Bool)
  | error

inductive Mark where
  | connectCalled
  | disconnectCalled
  | created (origin : Origin)
  | opened
  | closed
  | emitted (event : JsValue) (data : EventData)

structure RPCClient where
  ws : Option ℕ := none
  connected : Bool := false
  requestId : ℕ := 0
  /-- The call whose `resolve` and `reject` are kept for an id. -/
  pendingRequests : Dict ℕ ℕ := ∅
  reconnectAttempts : ℕ := 0
  rpcEnabled : Bool := true
  sockets : List ReadyState := []
  timers : ℕ := 0
  calls : List Call := []
  log : List Mark := []

inductive ClientEvent where
  /-- The application calls `connect`; the constructor of `WebSocket` may throw. -/
  | connect (constructed : Bool)
  | disconnect
  /-- `JSON.stringify` of the request, and `send`, may throw. -/
  | call (stringified sendFails : Bool)
  | setRPCEnabled (enabled : Bool)
  | onopen (k : ℕ)
  | onmessage (k : ℕ) (data : JsString)
  | onclose (k : ℕ)
  | onerror (k : ℕ)
  | timer (constructed : Bool)

namespace RPCClient

def maxReconnectAttempts : ℕ := 5

def note (m : Mark) (c : RPCClient) : RPCClient := { c with log := c.log ++ [m] }

def emit (event : JsString) (data : EventData) (c : RPCClient) : RPCClient :=
  c.note (.emitted (.str event) data)

/-- The state of socket `k` set. -/
def setSocket (k : ℕ) (r : ReadyState) (c : RPCClient) : RPCClient :=
  { c with sockets := c.sockets.set k r }

def connect (v : Variant) (origin : Origin) (constructed : Bool) (c : RPCClient) : RPCClient :=
  if constructed then
    RPCClient.note (.created origin)
      { c with ws := some c.sockets.length, sockets := c.sockets ++ [.connecting] }
  else if v.embedded then c.emit (js "connectionError") .error else c

/-- `send` on the current socket: what it was sent on, or nothing if it throws. A socket that is
closing or closed drops the request in silence. -/
def send (sendFails : Bool) (c : RPCClient) : Option ℕ :=
  match c.ws with
  | none => none
  | some k => if c.sockets[k]? = some .connecting ∨ sendFails then none else some k

def addCall (carrier : Option ℕ) (promise : Promise) (c : RPCClient) : RPCClient :=
  { c with calls := c.calls ++ [⟨c.requestId, carrier, promise⟩] }

/-- A call that is refused before it gets an id is rejected there and then. -/
def call (v : Variant) (stringified sendFails : Bool) (c : RPCClient) : RPCClient :=
  if v.embedded ∧ c.rpcEnabled = false then c
  else if c.connected = false then c
  else
    let id := increment c.requestId
    let c := { c with
      requestId := id
      pendingRequests := c.pendingRequests.insert id c.calls.length }
    -- What is thrown out of the executor rejects the promise, and leaves the entry.
    if stringified = false then c.addCall none .rejected else
    match c.send sendFails with
    | some k => c.addCall (some k) .pending
    | none =>
      if v.catchesSend then
        RPCClient.addCall none .rejected
          { c with pendingRequests := c.pendingRequests.erase id }
      else c.addCall none .rejected

def settle (i : ℕ) (outcome : Promise) (c : RPCClient) : RPCClient :=
  { c with calls := c.calls.modify i (.settle outcome) }

/-- The id of a message and the call that waits for it: `message.id` is truthy and a key of
`pendingRequests`. -/
def pendingCall? (message : JsValue) (c : RPCClient) : Option (ℕ × ℕ) :=
  match message.get? (js "id") with
  | none => none
  | some value =>
    if value.truthy = false then none else
    value.asId?.bind fun id => (c.pendingRequests.lookup id).map fun i => (id, i)

/-- The value is there and truthy. -/
def truthy? (value : Option JsValue) : Bool := (value.map JsValue.truthy).getD false

/-- `handleMessage` once the message is no string to be parsed again. `error` is an exception that
leaves it, in the state it leaves. -/
def handleParsed (v : Variant) (message : JsValue) (c : RPCClient) : Except RPCClient RPCClient :=
  match message with
  | .null => .error c
  | message =>
    match c.pendingCall? message with
    | some (id, i) =>
      let c := { c with pendingRequests := c.pendingRequests.erase id }
      let error := message.get? (js "error")
      if truthy? error then
        -- `new Error(message.error)` converts the error to a string first.
        if (error.map JsValue.toStringThrows).getD false then .error c
        else .ok (c.settle i .rejected)
      else .ok (c.settle i (.resolved
        (if v.embedded then message.get? (js "result") else some message)))
    | none =>
      match message.get? (js "method") with
      | some method =>
        if method.truthy then
          .ok (c.note (.emitted method (match message.get? (js "params") with
            | some params => .value params
            | none => .undefined)))
        else .ok c
      | none => .ok c

/-! ## With `JSON.parse`

`parse` is `JSON.parse`; it has no value where that throws. -/

section Parse

variable (parse : JsString → Option JsValue) (v : Variant)

def handleMessage (message : JsValue) (c : RPCClient) : Except RPCClient RPCClient :=
  match message with
  | .str s =>
    if v.embedded then c.handleParsed v (.str s) else
    match parse s with
    | none => .ok (c.emit (js "message") (.value (.str s)))
    | some message => c.handleParsed v message
  | message => c.handleParsed v message

/-- What the handler of a socket's messages catches. -/
def caught (c : RPCClient) : RPCClient :=
  if v.embedded then c.emit (js "parseError") .error else c

def onmessage (data : JsString) (c : RPCClient) : RPCClient :=
  if v.embedded ∧ c.rpcEnabled = false then c
  else
    match parse data with
    | none => c.caught v
    | some message =>
      match c.handleMessage parse v message with
      | .ok c => c
      | .error c => c.caught v

def onopen (c : RPCClient) : RPCClient :=
  let c := { c with connected := true, reconnectAttempts := 0 }
  c.emit (js "connected") .undefined

def handleReconnect (c : RPCClient) : RPCClient :=
  if v.reconnects then
    if c.reconnectAttempts < maxReconnectAttempts then
      { c with reconnectAttempts := c.reconnectAttempts + 1, timers := c.timers + 1 }
    else c.emit (js "reconnect_failed") .undefined
  else c

def onclose (c : RPCClient) : RPCClient :=
  let c := { c with connected := false }
  let c := c.emit (js "disconnected") .undefined
  c.handleReconnect v

/-- `close()` on a socket. -/
def close (k : ℕ) (c : RPCClient) : RPCClient :=
  match c.sockets[k]? with
  | some .connecting | some .open => c.setSocket k .closing
  | _ => c

def disconnect (c : RPCClient) : RPCClient :=
  let c := { c with connected := false, reconnectAttempts := maxReconnectAttempts }
  match c.ws with
  | some k => c.close k
  | none => c

def setRPCEnabled (enabled : Bool) (c : RPCClient) : RPCClient :=
  if v.embedded then
    RPCClient.emit (js "rpcToggle") (.flag enabled) { c with rpcEnabled := enabled }
  else c

/-- One event; those that cannot happen to a socket, or without an armed timer, change nothing. -/
def step (c : RPCClient) : ClientEvent → RPCClient
  | .connect constructed => (c.note .connectCalled).connect v .app constructed
  | .disconnect => (c.note .disconnectCalled).disconnect
  | .call stringified sendFails => c.call v stringified sendFails
  | .setRPCEnabled enabled => c.setRPCEnabled v enabled
  | .onopen k =>
    if c.sockets[k]? = some .connecting then ((c.setSocket k .open).note .opened).onopen else c
  | .onmessage k data => if c.sockets[k]? = some .open then c.onmessage parse v data else c
  | .onclose k =>
    match c.sockets[k]? with
    | none | some .closed => c
    | _ => ((c.setSocket k .closed).note .closed).onclose v
  | .onerror k => if k < c.sockets.length then c.emit (js "error") .error else c
  | .timer constructed =>
    if c.timers = 0 then c
    else RPCClient.connect v .auto constructed { c with timers := c.timers - 1 }

/-- The client after a run, from its constructor on. -/
def run (events : List ClientEvent) : RPCClient := events.foldl (step parse v) {}

end Parse

end RPCClient

end OcppServer
