import OcppServer.Proofs.Steps
import OcppServer.Lib.Outbox

/-!
# The traffic of a session

A session and its connection are an outbox: the bytes waiting, the frames handed to `lws_write`
and the messages sent. What a callback does to it is decided by the callback alone
(`Move.traffic`): a SERVER_WRITEABLE flushes it, any other callback sends it the messages it
queues.
-/

namespace OcppServer

/-- A SERVER_WRITEABLE for the socket. -/
def Callback.flushes (wsi : Wsi) : Callback → Bool
  | .writeable w => w = wsi
  | _ => false

namespace System

variable (rt : Runtime)

def outbox (session : Session) (conn : WebSocketConnection) : Outbox UInt8 where
  buffer := conn.writeBuffer
  frames := session.frames
  sent := conn.sent.map (·.bytes rt)

/-- What a callback queues to connection `c` of socket `wsi`. -/
def queued (sys : System) (c : ℤ) (wsi : Wsi) : Callback → List Message
  | .receive w amb message =>
    if w ∈ sys.sessions ∧ message ≠ [] then
      produced (Effect.ofMessage rt amb sys.server.clients message sys.server.data) (wsi = w)
    else []
  | .broadcast message => [.text message]
  | .sendToConnection id message => if c = id then [.text message] else []
  | _ => []

/-- What a callback does to the outbox of a session. -/
def acts (sys : System) (c : ℤ) (wsi : Wsi) (cb : Callback) : List (Outbox.Act UInt8) :=
  if cb.flushes wsi then [.flush]
  else ((sys.queued rt c wsi cb).map (·.bytes rt)).map .send

/-- The connection and the session after a callback are those before it, after its acts. -/
structure Traffic (sys sys' : System) (cb : Callback) (c : ℤ)
    (p p' : SharedPtr WebSocketConnection) : Prop where
  entry : sys.server.connections.lookup c = some p
  addr : p'.addr = p.addr
  wsi : p'.obj.wsi = p.obj.wsi
  sent : p'.obj.sent = p.obj.sent ++ sys.queued rt c p.obj.wsi cb
  outbox : ∀ session, sys.sessions.lookup p.obj.wsi = some session →
    ∃ session', sys'.sessions.lookup p.obj.wsi = some session'
      ∧ outbox rt session' p'.obj
        = (sys.acts rt c p.obj.wsi cb).foldl Outbox.step (outbox rt session p.obj)

theorem outbox_sendAll (session : Session) : ∀ (ms : List Message) (conn : WebSocketConnection),
    outbox rt session (conn.sendAll rt ms)
      = ((ms.map (·.bytes rt)).map .send).foldl Outbox.step (outbox rt session conn)
  | [], conn => by simp [outbox, WebSocketConnection.sendAll]
  | m :: ms, conn => by
    have h : conn.sendAll rt (m :: ms) = (conn.sendAll rt [m]).sendAll rt ms := by
      simp [WebSocketConnection.sendAll]
    rw [h, outbox_sendAll session ms]
    simp [outbox, WebSocketConnection.sendAll, Outbox.step]

/-- A connection sent its messages. -/
theorem traffic_deliver {sys : System} {cb : Callback} {messages : ℤ → List Message} {d : RpcData}
    {c : ℤ} {p p' : SharedPtr WebSocketConnection}
    (hp : sys.server.connections.lookup c = some p)
    (hp' : (sys.onServer fun s => WebServer.deliver rt messages
      { s with data := d }).server.connections.lookup c = some p')
    (hcb : ∀ wsi, cb.flushes wsi = false) (hq : sys.queued rt c p.obj.wsi cb = messages c) :
    Traffic rt sys (sys.onServer fun s => WebServer.deliver rt messages { s with data := d })
      cb c p p' := by
  simp only [onServer, WebServer.deliver, Dict.lookup_mapVal, hp, Option.map_some,
    Option.some.injEq] at hp'
  subst hp'
  refine ⟨hp, rfl, rfl, by rw [hq]; rfl, fun session hs => ⟨session, hs, ?_⟩⟩
  rw [acts, if_neg (by rw [hcb]; decide), hq]
  exact outbox_sendAll rt session (messages c) p.obj

theorem traffic_flush {sys : System} (hr : Registered sys) {c c' : ℤ}
    {p q q' : SharedPtr WebSocketConnection} (hp : sys.server.connections.lookup c = some p)
    (hb : p.obj.writeBuffer ≠ []) (hq : sys.server.connections.lookup c' = some q)
    (hq' : (sys.flush c p).server.connections.lookup c' = some q') :
    Traffic rt sys (sys.flush c p) (.writeable p.obj.wsi) c' q q' := by
  simp only [flush, Dict.lookup_modify, hq, Option.map_some, Option.some.injEq] at hq'
  by_cases hc : c' = c
  · subst hc
    obtain rfl := Option.some.inj (hp.symm.trans hq)
    rw [if_pos rfl] at hq'
    subst hq'
    refine ⟨hp, rfl, rfl, by simp [queued, SharedPtr.map, WebSocketConnection.clearWriteBuffer],
      fun session hs => ⟨{ session with frames := session.frames ++ [p.obj.writeBuffer] }, ?_, ?_⟩⟩
    · simp [flush, Dict.lookup_modify, hs]
    · simp [acts, Callback.flushes, outbox, Outbox.step, hb, SharedPtr.map,
        WebSocketConnection.clearWriteBuffer]
  · have hw : ¬ q.obj.wsi = p.obj.wsi := fun hw => hc (hr.unique hq hp hw)
    rw [if_neg hc] at hq'
    subst hq'
    refine ⟨hq, rfl, rfl, by simp [queued], fun session hs => ⟨session, ?_, ?_⟩⟩
    · simp [flush, Dict.lookup_modify, hs, hw]
    · have hcb : (Callback.writeable p.obj.wsi).flushes q.obj.wsi = false := by
        simpa [Callback.flushes] using fun h => hw h.symm
      simp [acts, hcb, queued]

/-- What an idle callback finds there is what it leaves. -/
theorem traffic_idle {sys : System} (hr : Registered sys) {cb : Callback} (h : sys.Idle cb)
    {c : ℤ} {p : SharedPtr WebSocketConnection} (hp : sys.server.connections.lookup c = some p) :
    Traffic rt sys sys cb c p p := by
  have hq : sys.queued rt c p.obj.wsi cb = [] := by
    cases cb with
    | receive w amb message =>
      rw [queued, if_neg]
      rintro ⟨hw, hm⟩
      exact h.elim (fun h => h hw) hm
    | broadcast => exact h.elim
    | sendToConnection => exact h.elim
    | _ => rfl
  refine ⟨hp, rfl, rfl, by simp [hq], fun session hs => ⟨session, hs, ?_⟩⟩
  by_cases hcb : cb.flushes p.obj.wsi = true
  · rw [acts, if_pos hcb]
    cases cb <;> simp only [Callback.flushes, decide_eq_true_eq, Bool.false_eq_true] at hcb
    subst hcb
    rcases h with h | ⟨c', q, hq', hw, hb⟩
    · exact absurd (Dict.mem_iff_exists.2 ⟨session, hs⟩) h
    · obtain rfl := hr.unique hp hq' hw.symm
      obtain rfl := Option.some.inj (hp.symm.trans hq')
      simp [Outbox.step, outbox, hb]
  · rw [acts, if_neg hcb, hq]
    rfl

/-- An entry after a callback is a new one, with its welcome, or one the callback's traffic
reached. -/
theorem Move.traffic {sys sys' : System} (hr : Registered sys) {cb : Callback}
    (h : Move rt sys cb sys') {c : ℤ} {p' : SharedPtr WebSocketConnection}
    (hp' : sys'.server.connections.lookup c = some p') :
    (∃ wsi, cb = .established wsi ∧ wsi ∉ sys.sessions ∧ sys' = sys.handleWebSocketConnect rt wsi
        ∧ p' = newEntry rt wsi sys)
      ∨ ∃ p, Traffic rt sys sys' cb c p p' := by
  cases h with
  | idle h => exact .inr ⟨p', traffic_idle rt hr h hp'⟩
  | @opened wsi hw =>
    rcases hr.of_connect rt hp' with ⟨-, rfl⟩ | hp
    · exact .inl ⟨wsi, rfl, hw, rfl, rfl⟩
    · refine .inr ⟨p', hp, rfl, rfl, by simp [queued], fun session hs => ⟨session, ?_, rfl⟩⟩
      have hses : (sys.handleWebSocketConnect rt wsi).sessions
          = sys.sessions.insert wsi { user := some sys.nextAddr } := rfl
      rw [hses, AList.lookup_insert_ne, hs]
      rintro rfl
      exact hw (Dict.mem_iff_exists.2 ⟨session, hs⟩)
  | @answered c₀ p₀ amb message hp₀ hm =>
    obtain ⟨p, hp, -⟩ := (kept_deliver rt _ _ sys).lookup hp'
    obtain ⟨session, hs, -⟩ := hr.slot c₀ p₀ hp₀
    refine .inr ⟨p, traffic_deliver rt hp hp' (fun _ => rfl) ?_⟩
    have hown : p.obj.wsi = p₀.obj.wsi ↔ c = c₀ := by
      refine ⟨fun hw => hr.unique hp hp₀ hw, ?_⟩
      rintro rfl
      rw [Option.some.inj (hp.symm.trans hp₀)]
    simp [queued, Dict.mem_iff_exists.2 ⟨session, hs⟩, hm, hown]
  | flushed hp hb =>
    obtain ⟨q, hq, -⟩ := (kept_flush _ _ sys).lookup hp'
    exact .inr ⟨q, traffic_flush rt hr hp hb hq hp'⟩
  | @closed c₀ p₀ hp₀ =>
    simp only [System.drop, Dict.lookup_erase_eq] at hp'
    split_ifs at hp' with hc
    refine .inr ⟨p', hp', rfl, rfl, by simp [queued], fun session hs => ⟨session, ?_, rfl⟩⟩
    rw [System.drop, AList.lookup_erase_ne, hs]
    exact fun hw => hc (hr.unique hp' hp₀ hw)
  | broadcast message =>
    obtain ⟨p, hp, -⟩ := (kept_deliver rt _ sys.server.data sys).lookup hp'
    exact .inr ⟨p, traffic_deliver rt hp hp' (fun _ => rfl) rfl⟩
  | sent id message =>
    obtain ⟨p, hp, -⟩ := (kept_deliver rt _ sys.server.data sys).lookup hp'
    exact .inr ⟨p, traffic_deliver rt hp hp' (fun _ => rfl) rfl⟩
  | released id =>
    simp only [onServer, WebServer.closeConnection, Dict.lookup_erase_eq] at hp'
    split_ifs at hp'
    exact .inr ⟨p', hp', rfl, rfl, by simp [queued], fun session hs => ⟨session, hs, rfl⟩⟩

/-- No message is empty but what the API is given. -/
theorem bytes_ne_nil_of_queued {sys : System} {c : ℤ} {wsi : Wsi} {cb : Callback} {m : Message}
    (hm : m ∈ sys.queued rt c wsi cb) (hb : cb ≠ .broadcast [])
    (hs : ∀ id, cb ≠ .sendToConnection id []) : m.bytes rt ≠ [] := by
  cases cb with
  | receive w amb message =>
    simp only [queued] at hm
    split_ifs at hm
    · simp only [produced, List.mem_append, List.mem_map] at hm
      rcases hm with ⟨kv, -, rfl⟩ | hm
      · exact jsonToString_ne_nil rt _
      · split_ifs at hm
        · rw [List.mem_singleton] at hm
          subst hm
          rcases (Effect.ofMessage rt amb sys.server.clients message sys.server.data).1.result with
            what | result <;> exact jsonToString_ne_nil rt _
        · simp at hm
    · simp at hm
  | broadcast message =>
    simp only [queued, List.mem_singleton] at hm
    subst hm
    exact fun h => hb (by rw [show message = [] from h])
  | sendToConnection id message =>
    simp only [queued] at hm
    split_ifs at hm
    · rw [List.mem_singleton] at hm
      subst hm
      exact fun h => hs id (by rw [show message = [] from h])
    · simp at hm
  | _ => simp [queued] at hm

end System

end OcppServer
