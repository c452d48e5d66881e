import OcppServer.Proofs.Changes

/-!
# What is refused changes nothing

A command that throws has written nothing yet and announced nothing (`commands_refuse`), and the
reply has an `error` exactly when the message is no accepted request (`isError_iff`). So such a
message leaves the server as it was but for that reply on the sender's connection.
-/

namespace OcppServer

/-- A document with an `error`. -/
def Message.IsError : Message → Prop
  | .json doc => ∃ j, doc.find? (lit "error") = some j
  | .text _ => False

/-- The message is a request for a method there is, with parameters that pass its check. -/
def IsAccepted (rt : Runtime) (values : Dict Bytes Bytes) (message : Bytes) : Prop :=
  ∃ method i params, IsRequest rt message method i params ∧ Accepted values method params

section Effects

variable (rt : Runtime) (amb : Ambient)

/-- The effect throws only with nothing done. -/
def Refuses (e : Effect) (d : RpcData) : Prop :=
  ∀ what, e.result = .error what → e = .pure (.error what) d

theorem refuses_pure (o : Outcome) (d : RpcData) : Refuses (.pure o d) d := by
  intro what h
  rw [show o = .error what from h]

theorem refuses_of_ok {e : Effect} {result : Bytes} (h : e.result = .ok result) (d : RpcData) :
    Refuses e d := by
  intro what h'
  rw [h] at h'
  cases h'

theorem refuses_assign (l : List (Bytes × Bytes)) (power : Option Double) (result : Bytes)
    (d : RpcData) : Refuses (.assign l power result d) d :=
  refuses_of_ok rfl d

theorem commands_refuse {name : Bytes} {effect : ℕ → Json → RpcData → Effect}
    (he : (name, effect) ∈ Effect.commands rt amb) (clients : ℕ) (params : Json) (d : RpcData) :
    Refuses (effect clients params d) d := by
  simp only [Effect.commands, List.mem_cons, Prod.mk.injEq, List.not_mem_nil, or_false] at he
  rcases he with ⟨-, rfl⟩ | ⟨-, rfl⟩ | ⟨-, rfl⟩ | ⟨-, rfl⟩ | ⟨-, rfl⟩ | ⟨-, rfl⟩ | ⟨-, rfl⟩ |
    ⟨-, rfl⟩ | ⟨-, rfl⟩ | ⟨-, rfl⟩ | ⟨-, rfl⟩ | ⟨-, rfl⟩
  case inr.inr.inr.inr.inl =>
    simp only [Effect.setValue]
    split
    · exact refuses_assign _ _ _ d
    · exact refuses_pure _ d
  case inr.inr.inr.inr.inr.inl => exact refuses_of_ok rfl d
  case inr.inr.inr.inr.inr.inr.inl => exact refuses_of_ok rfl d
  case inr.inr.inr.inr.inr.inr.inr.inr.inl => exact refuses_assign _ _ _ d
  case inr.inr.inr.inr.inr.inr.inr.inr.inr.inl => exact refuses_assign _ _ _ d
  case inr.inr.inr.inr.inr.inr.inr.inr.inr.inr.inl => exact refuses_of_ok rfl d
  case inr.inr.inr.inr.inr.inr.inr.inr.inr.inr.inr =>
    simp only [Effect.setMaxPower]
    split
    · exact refuses_pure _ d
    · split_ifs
      · exact refuses_pure _ d
      · exact refuses_assign _ _ _ d
  all_goals exact refuses_pure _ d

theorem ofMessage_refuses (clients : ℕ) (message : Bytes) (d : RpcData) :
    Refuses (Effect.ofMessage rt amb clients message d).1 d := by
  unfold Effect.ofMessage
  rcases parseRpcRequest rt message with what | request
  · exact refuses_pure _ d
  · simp only [Effect.ofRequest]
    rcases hl : (Effect.commands rt amb).lookup request.method with _ | effect
    · exact refuses_pure _ d
    · exact commands_refuse rt amb (Dict.mem_of_lookup hl) clients request.params d

/-- Of what a message produces only the reply to a failure has an `error`. -/
theorem error_of_mem_produced {e : Effect × ℤ} {own : Bool} {m : Message}
    (hm : m ∈ produced e own) (herr : m.IsError) :
    ∃ what, e.1.result = .error what ∧ m = reply e.2 e.1.result := by
  have hvc : ∀ kv, ¬ (valueChanged kv).IsError := by
    rintro kv ⟨j, hj⟩
    cases hj
  have hok : ∀ result, ¬ (reply e.2 (.ok result)).IsError := by
    rintro result ⟨j, hj⟩
    cases hj
  rcases List.mem_append.1 hm with hm | hm
  · obtain ⟨kv, -, rfl⟩ := List.mem_map.1 hm
    exact absurd herr (hvc kv)
  · split_ifs at hm
    · rw [List.mem_singleton] at hm
      subst hm
      rcases ho : e.1.result with what | result
      · exact ⟨what, rfl, rfl⟩
      · rw [ho] at herr
        exact absurd herr (hok result)
    · simp at hm

/-- The reply a message asks for has an `error` exactly when the message is not accepted. -/
theorem isError_iff {values : Dict Bytes Bytes} {message : Bytes} {m : Message}
    (h : IsReply rt values message m) : m.IsError ↔ ¬ IsAccepted rt values message := by
  obtain ⟨id, name, text, rfl, hname, -, -, herr⟩ := h
  rw [IsAccepted, ← herr]
  rcases hname with rfl | rfl
  · refine iff_of_false ?_ (by decide)
    rintro ⟨j, hj⟩
    cases hj
  · exact iff_of_true ⟨_, rfl⟩ rfl

end Effects

namespace System

variable (rt : Runtime) (handler : Option WebServer.MessageHandler)

/-- Nothing but the reply, queued on the connection the message came from. -/
structure Refused (sys sys' : System) (c : ℤ) (p : SharedPtr WebSocketConnection)
    (reply : Message) : Prop where
  data : sys'.server.data = sys.server.data
  nextConnectionId : sys'.server.nextConnectionId = sys.server.nextConnectionId
  registered : sys'.server.connections.keys = sys.server.connections.keys
  others : ∀ j, j ≠ c → sys'.server.connections.lookup j = sys.server.connections.lookup j
  sender : sys'.server.connections.lookup c = some (p.map (.send rt reply))
  sessions : sys'.sessions = sys.sessions

/-- What fails leaves its reply and nothing else. -/
theorem refused_deliver {sys : System} {c : ℤ} {p : SharedPtr WebSocketConnection}
    (hp : sys.server.connections.lookup c = some p) {e : Effect} {id : ℤ} {what : Bytes}
    (he : Refuses e sys.server.data) (ho : e.result = .error what) :
    Refused rt sys (sys.onServer fun s => WebServer.deliver rt
      (fun j => produced (e, id) (j = c)) { s with data := e.data }) c p (reply id e.result) := by
  obtain rfl : e = .pure (.error what) sys.server.data := he what ho
  refine ⟨rfl, rfl, by simp only [onServer, WebServer.deliver]; exact Dict.keys_mapVal _ _,
    fun j hj => ?_, ?_, rfl⟩
  · simp only [onServer, WebServer.deliver, Dict.lookup_mapVal, hj, decide_false, produced,
      Effect.pure]
    rcases sys.server.connections.lookup j with _ | q
    · rfl
    · simp [SharedPtr.map, WebSocketConnection.sendAll]
  · simp only [onServer, WebServer.deliver, Dict.lookup_mapVal, hp, Option.map_some, decide_true,
      produced, Effect.pure, SharedPtr.map, WebSocketConnection.sendAll, WebSocketConnection.send]
    simp

/-- In every state the server comes to, a message received on a registered connection has an
outcome. If it is no accepted request, an error reply is queued to the sender and nothing else
happened; and whenever an error reply is among what is queued to the sender, that is so. -/
theorem refused_changes_nothing {sys : System} (h : Reachable rt handler sys) {c : ℤ}
    {p : SharedPtr WebSocketConnection} (hp : sys.server.connections.lookup c = some p)
    (amb : Ambient) {message : Bytes} (hm : message ≠ []) :
    ∃ sys' p', sys.step rt handler (.receive p.obj.wsi amb message) = some sys'
      ∧ sys'.server.connections.lookup c = some p'
      ∧ (¬ IsAccepted rt sys.server.data.values message →
        ∃ reply, reply.IsError ∧ IsReply rt sys.server.data.values message reply
          ∧ p'.obj.sent = p.obj.sent ++ [reply] ∧ Refused rt sys sys' c p reply)
      ∧ ∀ reply ∈ p'.obj.sent.drop p.obj.sent.length, reply.IsError →
        ¬ IsAccepted rt sys.server.data.values message ∧ Refused rt sys sys' c p reply := by
  have hstep := h.registered.step_receive rt handler hp amb hm
  rw [onServer, WebServer.processMessage_eq] at hstep
  have hrefuses := ofMessage_refuses rt amb sys.server.clients message sys.server.data
  have hreply := reply_isReply rt amb sys.server.clients message sys.server.data
  generalize Effect.ofMessage rt amb sys.server.clients message sys.server.data = e at *
  obtain ⟨e, id⟩ := e
  have hmine : reply id e.result ∈ produced (e, id) true := by simp [produced]
  refine ⟨_, p.map (.sendAll rt (produced (e, id) true)), hstep, ?_, fun hno => ?_,
    fun m hsent herr => ?_⟩
  · simp only [WebServer.deliver, Dict.lookup_mapVal, hp, Option.map_some, decide_true]
  · have herr := (isError_iff rt hreply).2 hno
    obtain ⟨what, ho, -⟩ := error_of_mem_produced hmine herr
    refine ⟨_, herr, hreply, ?_, refused_deliver rt hp hrefuses ho⟩
    rw [show e = .pure (.error what) sys.server.data from hrefuses what ho]
    simp [SharedPtr.map, WebSocketConnection.sendAll, produced, Effect.pure]
  · simp only [SharedPtr.map, WebSocketConnection.sendAll, List.drop_left] at hsent
    obtain ⟨what, ho, rfl⟩ := error_of_mem_produced hsent herr
    exact ⟨(isError_iff rt hreply).1 herr, refused_deliver rt hp hrefuses ho⟩

/-- A message that is no request is answered with the parser's error. -/
theorem garbage_refused :
    ∃ sys' p' reply, ((System.init 0).handleWebSocketConnect (.ofTable []) 0).step (.ofTable [])
        none (.receive 0 ⟨[], 0, 0, 0, 0, 0⟩ (lit "garbage")) = some sys'
      ∧ sys'.server.connections.lookup 1 = some p'
      ∧ reply.IsError ∧ p'.obj.sent = [welcome 1, reply]
      ∧ Refused (.ofTable []) ((System.init 0).handleWebSocketConnect (.ofTable []) 0) sys' 1
          (newEntry (.ofTable []) 0 (.init 0)) reply := by
  have hreach : Reachable (.ofTable []) none
      ((System.init 0).handleWebSocketConnect (.ofTable []) 0) := ⟨0, [.established 0], rfl⟩
  obtain ⟨sys', p', hstep, hp', hno, -⟩ := refused_changes_nothing (.ofTable []) none hreach
    (c := 1) (p := newEntry (.ofTable []) 0 (.init 0)) rfl ⟨[], 0, 0, 0, 0, 0⟩
    (by decide : lit "garbage" ≠ [])
  obtain ⟨m, herr, -, hsent, hrefused⟩ := hno <| by
    rintro ⟨method, i, params, ⟨members, _, hparse, -⟩, -⟩
    cases hparse
  exact ⟨sys', p', m, hstep, hp', herr, hsent, hrefused⟩

end System

end OcppServer
