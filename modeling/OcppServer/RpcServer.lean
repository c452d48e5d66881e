import OcppServer.RpcBase
import OcppServer.Lib.Runs

/-!
# The charge points' links and the pool that handles their requests

`RpcServer` with its `RpcPool`: the links in the order of their connection, the queue of requests
and the worker threads. A worker takes a request, then the lock of the link it came on, and keeps
the lock while the listener handles the request; a closed link's requests are dropped. The CLOSED
callback needs the lock too before it tells the listener of the disconnection. A step is one thread
getting to the next point where it may wait; an event no thread is ready for changes nothing.

The answers of the listener come with the events, and so does what the charge points send.
`accepted`, `handled`, `dropped` and `notified` are history.
-/

namespace OcppServer

namespace Rpc

/-- A request in the pool and the link it came on. -/
structure PoolMessage where
  link : ℕ
  message : RpcMessage

inductive Worker where
  | idle
  /-- It has the request and waits for the lock. -/
  | taken (m : PoolMessage)
  /-- It has the lock, and the listener is at work. -/
  | handling (m : PoolMessage)

/-- The link whose lock a worker has. -/
def Worker.locked? : Worker → Option ℕ
  | handling m => some m.link
  | _ => none

def Worker.request? : Worker → Option PoolMessage
  | idle => none
  | taken m | handling m => some m

structure RpcServer where
  clients : List RpcBase := []
  requestsQueue : Queue PoolMessage := {}
  workers : List Worker
  accepted : List PoolMessage := []
  handled : List (PoolMessage × Handled) := []
  dropped : List PoolMessage := []
  notified : List ℕ := []

inductive RpcEvent where
  | connected (random : ℤ)
  /-- A charge point's text arrives. -/
  | received (k : ℕ) (data : Bytes)
  | call (k : ℕ) (action : Bytes) (payload : Json)
  | enter (k i : ℕ)
  | popResult (k : ℕ)
  | expire (k : ℕ)
  | disconnect (k : ℕ)
  | writeable (k written : ℕ)
  /-- The CLOSED callback. -/
  | closed (k : ℕ)
  /-- It gets the lock and tells the listener. -/
  | disconnected (k : ℕ)
  | take (w : ℕ)
  | lock (w : ℕ)
  | handled (w : ℕ) (result : Handled)

namespace RpcServer

/-- A server with a pool of so many threads. -/
def start (threads : ℕ) : RpcServer := { workers := List.replicate threads .idle }

def onClient (k : ℕ) (f : RpcBase → RpcBase) (s : RpcServer) : RpcServer :=
  { s with clients := s.clients.modify k f }

/-- The lock of a link's owner is free. -/
def Free (s : RpcServer) (k : ℕ) : Prop := ∀ w ∈ s.workers, w.locked? ≠ some k

instance (s : RpcServer) (k : ℕ) : Decidable (s.Free k) := inferInstanceAs (Decidable (∀ _ ∈ _, _))

/-- The link is there and has not been told off. -/
def Operational (s : RpcServer) (k : ℕ) : Prop := ∃ b, s.clients[k]? = some b ∧ b.link ≠ .closed

instance (s : RpcServer) (k : ℕ) : Decidable (s.Operational k) :=
  match h : s.clients[k]? with
  | none => .isFalse (by simp [Operational, h])
  | some b => decidable_of_iff (b.link ≠ .closed) (by simp [Operational, h])

def IsOpen (s : RpcServer) (k : ℕ) : Prop := ∃ b, s.clients[k]? = some b ∧ b.link = .open

instance (s : RpcServer) (k : ℕ) : Decidable (s.IsOpen k) :=
  match h : s.clients[k]? with
  | none => .isFalse (by simp [IsOpen, h])
  | some b => decidable_of_iff (b.link = .open) (by simp [IsOpen, h])

def IsClosing (s : RpcServer) (k : ℕ) : Prop := ∃ b, s.clients[k]? = some b ∧ b.link = .closing

instance (s : RpcServer) (k : ℕ) : Decidable (s.IsClosing k) :=
  match h : s.clients[k]? with
  | none => .isFalse (by simp [IsClosing, h])
  | some b => decidable_of_iff (b.link = .closing) (by simp [IsClosing, h])

/-- A frame read on an open link; a request goes into the pool. -/
def receive (k : ℕ) (frame : RpcFrame) (s : RpcServer) : RpcServer :=
  let s := s.onClient k (.receive frame)
  match frame with
  | .call m => { s with
      requestsQueue := s.requestsQueue.push ⟨k, m⟩
      accepted := s.accepted ++ [⟨k, m⟩] }
  | _ => s

/-- `processIncomingRequest` ends: the reply is sent and the lock released. -/
def finishRequest (w : ℕ) (m : PoolMessage) (result : Handled) (s : RpcServer) : RpcServer :=
  let s := { s with workers := s.workers.set w .idle, handled := s.handled ++ [(m, result)] }
  match reply? m.message result with
  | some msg => s.onClient m.link (.doSend msg)
  | none => s

variable (num : RapidJson.Numbers)

def step (s : RpcServer) : RpcEvent → RpcServer
  | .connected random => { s with clients := s.clients ++ [.start random] }
  | .received k data => if s.IsOpen k then s.receive k (decode num data) else s
  | .call k action payload => s.onClient k (.call action payload)
  | .enter k i => s.onClient k (.enter i)
  | .popResult k => s.onClient k .popResult
  | .expire k => s.onClient k .expire
  | .disconnect k => s.onClient k .disconnect
  | .writeable k written => s.onClient k (.writeable written)
  | .closed k => if s.IsOpen k then s.onClient k .close else s
  | .disconnected k =>
    if s.IsClosing k ∧ s.Free k then
      { s.onClient k fun b => { b with link := .closed } with notified := s.notified ++ [k] }
    else s
  | .take w =>
    match s.workers[w]?, s.requestsQueue.pop? with
    | some .idle, some (m, queue) =>
      { s with requestsQueue := queue, workers := s.workers.set w (.taken m) }
    | _, _ => s
  | .lock w =>
    match s.workers[w]? with
    | some (.taken m) =>
      if s.Free m.link then
        if s.Operational m.link then { s with workers := s.workers.set w (.handling m) }
        else { s with workers := s.workers.set w .idle, dropped := s.dropped ++ [m] }
      else s
    | _ => s
  | .handled w result =>
    match s.workers[w]? with
    | some (.handling m) => s.finishRequest w m result
    | _ => s

def run (s : RpcServer) (events : List RpcEvent) : RpcServer := events.foldl (step num) s

end RpcServer

end Rpc

end OcppServer
