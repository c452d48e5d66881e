import OcppServer.Handlers
import OcppServer.Lib.Runs

/-!
# The callbacks of libwebsockets

libwebsockets keeps a session for each socket between its ESTABLISHED and its CLOSED callback,
with room for one pointer (`user`), null at first; the callbacks find the connection through it.
A step works on one callback or one call of the public API. It has no outcome where the source
would follow a pointer to a released connection. Callbacks for a socket without a session, or a
second ESTABLISHED for one that has it, do not happen; a step leaves the system alone there.
-/

namespace OcppServer

/-- The per-session data of a socket, and the frames handed to `lws_write` on it. -/
structure Session where
  user : Option Addr := none
  frames : List Bytes := []

structure System where
  server : WebServer
  sessions : Dict Wsi Session
  nextAddr : ℕ

inductive Callback where
  | established (wsi : Wsi)
  | receive (wsi : Wsi) (amb : Ambient) (message : Bytes)
  | writeable (wsi : Wsi)
  | closed (wsi : Wsi)
  | broadcast (message : Bytes)
  | sendToConnection (connectionId : ℤ) (message : Bytes)
  | closeConnection (connectionId : ℤ)

/-- One of the callbacks of libwebsockets, not a call of the API. -/
def Callback.ofSocket : Callback → Bool
  | .established _ | .receive _ _ _ | .writeable _ | .closed _ => true
  | _ => false

/-- No socket yet, and a server constructed at steady-clock time `now`. -/
def System.init (now : ℤ) : System := ⟨.init now, ∅, 0⟩

def welcome (connectionId : ℤ) : Message :=
  .text (lit "\x7b\n        \"jsonrpc\": \"2.0\",\n        \"method\": \"connected\", \n" ++
    lit "        \"params\": \x7b\n            \"connectionId\": " ++ decimal connectionId ++
    lit ",\n            \"message\": \"WebSocket connection established\"\n        \x7d\n    \x7d")

namespace System

variable (rt : Runtime) (wsMessageHandler : Option WebServer.MessageHandler)

def onServer (f : WebServer → WebServer) (sys : System) : System :=
  { sys with server := f sys.server }

def handleWebSocketConnect (wsi : Wsi) (sys : System) : System :=
  let (connId, server) := sys.server.generateConnectionId
  let connection : WebSocketConnection := { wsi := wsi, connectionId := connId }
  let server := { server with
    connections := server.connections.insert connId ⟨sys.nextAddr, connection⟩ }
  { server := server.modifyObject sys.nextAddr (.send rt (welcome connId))
    sessions := sys.sessions.insert wsi { user := some sys.nextAddr }
    nextAddr := sys.nextAddr + 1 }

def handleWebSocketMessage (session : Session) (amb : Ambient) (message : Bytes) (sys : System) :
    Option System :=
  match session.user with
  | none => some sys
  | some p =>
    match sys.server.object p with
    | none => none
    | some conn =>
      some (sys.onServer (.processMessage rt amb wsMessageHandler conn.connectionId message))

def handleServerWriteable (wsi : Wsi) (session : Session) (sys : System) : Option System :=
  match session.user with
  | none => some sys
  | some p =>
    match sys.server.object p with
    | none => none
    | some conn =>
      if conn.writeBuffer.isEmpty then some sys else
      some { sys with
        server := sys.server.modifyObject p .clearWriteBuffer
        sessions := Dict.modify wsi
          (fun s => { s with frames := s.frames ++ [conn.writeBuffer] }) sys.sessions }

/-- No `wsCloseHandler` is installed anywhere. The session goes with the socket. -/
def handleWebSocketClose (wsi : Wsi) (session : Session) (sys : System) : Option System :=
  match session.user with
  | none => some { sys with sessions := sys.sessions.erase wsi }
  | some p =>
    match sys.server.object p with
    | none => none
    | some conn => some { sys with
        server := { sys.server with
          connections := sys.server.connections.erase conn.connectionId }
        sessions := sys.sessions.erase wsi }

def step (sys : System) : Callback → Option System
  | .established wsi =>
    if wsi ∈ sys.sessions then some sys else some (sys.handleWebSocketConnect rt wsi)
  | .receive wsi amb message =>
    match sys.sessions.lookup wsi with
    | none => some sys
    | some session =>
      if message.isEmpty then some sys
      else sys.handleWebSocketMessage rt wsMessageHandler session amb message
  | .writeable wsi =>
    match sys.sessions.lookup wsi with
    | none => some sys
    | some session => sys.handleServerWriteable wsi session
  | .closed wsi =>
    match sys.sessions.lookup wsi with
    | none => some sys
    | some session => sys.handleWebSocketClose wsi session
  | .broadcast message => some (sys.onServer (.broadcast rt (.text message)))
  | .sendToConnection connectionId message =>
    some (sys.onServer (.sendToConnection rt connectionId (.text message)))
  | .closeConnection connectionId => some (sys.onServer (.closeConnection connectionId))

/-- The system after a run, unless the run follows a dangling pointer. -/
def run (sys : System) (cbs : List Callback) : Option System :=
  Runs.run (step rt wsMessageHandler) sys cbs

/-- The states a server comes to, whatever callbacks and API calls it meets. -/
def Reachable (sys : System) : Prop :=
  ∃ now cbs, run rt wsMessageHandler (.init now) cbs = some sys

end System

end OcppServer
