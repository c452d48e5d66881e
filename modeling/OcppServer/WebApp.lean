import OcppServer.Callbacks
import OcppServer.JsonParse
import OcppServer.RpcClient

/-!
# The web application

One browser's RPC client, the web server, and the connections between them, among whatever other
sockets the server has. The client's socket `k` and a socket of the server are the two ends of
link `k`: requests travel up it and frames travel down it, each in order and whole, until an end is
closed. Nothing of the application calls `broadcast`, `sendToConnection` or `closeConnection`, and
no handler is set, so what happens at the server are the callbacks of libwebsockets. The test
functions of `monitoring.js` that send on the socket past the client are left out.

`posted` and `handled` are history.
-/

namespace OcppServer

/-- A request that was sent, with what it asks; the text is what travels. -/
structure Posted where
  call : ℕ
  link : ℕ
  id : ℕ
  method : Bytes
  params : Json
  text : Bytes

/-- The server's end of a link. -/
inductive Peer where
  | awaited
  | connected (wsi : Wsi)
  | gone
  deriving DecidableEq

structure Link where
  peer : Peer := .awaited
  up : List Posted := []
  down : List Bytes := []

/-- A request the server took, and the server it found there. -/
structure HandledRequest where
  posted : Posted
  amb : Ambient
  server : WebServer

structure WebApp where
  server : System
  client : RPCClient := {}
  links : ℕ → Link := fun _ => {}
  posted : List Posted := []
  handled : List HandledRequest := []

inductive WebEvent where
  /-- What happens at the client, but for its calls and messages. -/
  | client (e : ClientEvent)
  | call (method : Bytes) (params : Json) (sendFails : Bool)
  /-- The next frame of a link reaches the client. -/
  | message (k : ℕ)
  | established (k : ℕ) (wsi : Wsi)
  /-- The next request of a link reaches the server. -/
  | receive (k : ℕ) (amb : Ambient)
  | writeable (k : ℕ)
  | closed (k : ℕ)
  /-- A callback for a socket that is not the browser's. -/
  | other (cb : Callback)

/-- The socket of a callback of libwebsockets. -/
def Callback.wsi? : Callback → Option Wsi
  | .established wsi | .receive wsi _ _ | .writeable wsi | .closed wsi => some wsi
  | _ => none

/-- The frames handed to `lws_write` on a socket. -/
def System.framesOf (sys : System) (wsi : Wsi) : List Bytes :=
  ((sys.sessions.lookup wsi).map Session.frames).getD []

namespace WebApp

/-- The application at its start, with the server constructed at steady-clock time `now`. -/
def init (now : ℤ) : WebApp := { server := .init now }

def onLink (k : ℕ) (f : Link → Link) (s : WebApp) : WebApp :=
  { s with links := Function.update s.links k (f (s.links k)) }

/-- The socket is the server's end of a link. -/
def Owns (s : WebApp) (wsi : Wsi) : Prop :=
  ∃ k < s.client.sockets.length, (s.links k).peer = .connected wsi

instance (s : WebApp) (wsi : Wsi) : Decidable (s.Owns wsi) :=
  inferInstanceAs (Decidable (∃ k < _, _))

def post (r : Posted) (s : WebApp) : WebApp :=
  { s.onLink r.link fun l => { l with up := l.up ++ [r] } with posted := s.posted ++ [r] }

variable (rt : Runtime) (parse : JsString → Option JsValue)
  (stringify : Bytes → Json → ℕ → Option Bytes) (v : Variant)

/-- A call, with the text `JSON.stringify` makes of the request unless it throws. What is sent on a
socket that is no longer open is dropped. -/
def call (method : Bytes) (params : Json) (sendFails : Bool) (s : WebApp) : WebApp :=
  let i := s.client.calls.length
  let id := increment s.client.requestId
  let text := stringify method params id
  let client := s.client.step parse v (.call text.isSome sendFails)
  let s := { s with client := client }
  match client.calls[i]?.bind Call.carrier, text with
  | some k, some text =>
    if client.sockets[k]? = some .open then s.post ⟨i, k, id, method, params, text⟩ else s
  | _, _ => s

/-- The browser hands on the text of a frame, or fails the connection if it is none. -/
def message (k : ℕ) (s : WebApp) : WebApp :=
  match (s.links k).down with
  | [] => s
  | frame :: down =>
    match utf16? frame with
    | some text =>
      { s.onLink k fun l => { l with down := down } with
        client := s.client.step parse v (.onmessage k text) }
    | none => s.onLink k fun l => { l with down := [] }

/-- The client's side; a socket opens once the server has taken the connection. -/
def onClient (s : WebApp) : ClientEvent → WebApp
  | .call _ _ | .onmessage _ _ => s
  | .onopen k =>
    if (s.links k).peer = .awaited then s
    else { s with client := s.client.step parse v (.onopen k) }
  | e => { s with client := s.client.step parse v e }

def step (s : WebApp) : WebEvent → Option WebApp
  | .client e => some (s.onClient parse v e)
  | .call method params sendFails => some (s.call parse stringify v method params sendFails)
  | .message k => some (s.message parse v k)
  | .established k wsi =>
    if k < s.client.sockets.length ∧ (s.links k).peer = .awaited ∧ wsi ∉ s.server.sessions then
      (s.server.step rt none (.established wsi)).map fun server =>
        { s.onLink k fun l => { l with peer := .connected wsi } with server := server }
    else some s
  | .receive k amb =>
    match (s.links k).peer, (s.links k).up with
    | .connected wsi, r :: up =>
      (s.server.step rt none (.receive wsi amb r.text)).map fun server =>
        { s.onLink k fun l => { l with up := up } with
          server := server
          handled := s.handled ++ [⟨r, amb, s.server.server⟩] }
    | _, _ => some s
  | .writeable k =>
    match (s.links k).peer with
    | .connected wsi =>
      (s.server.step rt none (.writeable wsi)).map fun server =>
        let frames := (server.framesOf wsi).drop (s.server.framesOf wsi).length
        { s.onLink k fun l => { l with down := l.down ++ frames } with server := server }
    | _ => some s
  | .closed k =>
    match (s.links k).peer with
    | .connected wsi =>
      (s.server.step rt none (.closed wsi)).map fun server =>
        { s.onLink k fun l => { l with peer := .gone } with server := server }
    | _ => some s
  | .other cb =>
    match cb.wsi? with
    | some wsi =>
      if s.Owns wsi then some s
      else (s.server.step rt none cb).map fun server => { s with server := server }
    | none => some s

/-- The application after a run, unless the run follows a dangling pointer. -/
def run (s : WebApp) (events : List WebEvent) : Option WebApp :=
  Runs.run (step rt parse stringify v) s events

end WebApp

end OcppServer
