import OcppServer.Proofs.Delivery

/-!
# What a callback does

A registered connection is filed under its own id, and the session of its socket points to it
(`Registered`). In such a state a callback that has an outcome makes one of eight moves (`Move`):
it is idle, or it opens, answers, flushes or closes a session, or it is a call of the API. Every
move keeps the state registered, so every state a server comes to is.
-/

namespace OcppServer

namespace System

structure Registered (sys : System) : Prop where
  own : ∀ id p, sys.server.connections.lookup id = some p → p.obj.connectionId = id
  slot : ∀ id p, sys.server.connections.lookup id = some p →
    ∃ session, sys.sessions.lookup p.obj.wsi = some session ∧ session.user = some p.addr
  inj : ∀ id p id' p', sys.server.connections.lookup id = some p →
    sys.server.connections.lookup id' = some p' → p.addr = p'.addr → id = id'
  fresh : ∀ id p, sys.server.connections.lookup id = some p → p.addr < sys.nextAddr
  home : ∀ wsi session, sys.sessions.lookup wsi = some session →
    ∃ a, session.user = some a ∧ a < sys.nextAddr
      ∧ ∀ id p, sys.server.connections.lookup id = some p → p.addr = a → p.obj.wsi = wsi

/-- A connection's place in the table. -/
def SamePlace (p q : SharedPtr WebSocketConnection) : Prop :=
  q.addr = p.addr ∧ q.obj.wsi = p.obj.wsi ∧ q.obj.connectionId = p.obj.connectionId

/-- Connections rewritten in their places, and sessions that keep their pointers. -/
structure Kept (sys sys' : System) : Prop where
  conns : ∃ f : ℤ → SharedPtr WebSocketConnection → SharedPtr WebSocketConnection,
    (∀ id p, SamePlace p (f id p))
      ∧ sys'.server.connections = Dict.mapVal f sys.server.connections
  sessions : ∃ f : Wsi → Session → Session, (∀ wsi session, (f wsi session).user = session.user)
    ∧ ∀ wsi, sys'.sessions.lookup wsi = (sys.sessions.lookup wsi).map (f wsi)
  keys : sys'.sessions.keys.length = sys.sessions.keys.length
  nextAddr : sys'.nextAddr = sys.nextAddr
  nextId : sys'.server.nextConnectionId = sys.server.nextConnectionId

variable (rt : Runtime) (handler : Option WebServer.MessageHandler)

theorem kept_deliver (messages : ℤ → List Message) (d : RpcData) (sys : System) :
    Kept sys (sys.onServer fun s => WebServer.deliver rt messages { s with data := d }) where
  conns := ⟨fun id p => p.map (.sendAll rt (messages id)), fun _ _ => ⟨rfl, rfl, rfl⟩, rfl⟩
  sessions := ⟨fun _ s => s, fun _ _ => rfl, fun wsi => by simp [onServer]⟩
  keys := rfl
  nextAddr := rfl
  nextId := rfl

/-- The bytes waiting on a connection handed to `lws_write`. -/
def flush (c : ℤ) (p : SharedPtr WebSocketConnection) (sys : System) : System :=
  { sys with
    server := { sys.server with
      connections := Dict.modify c (.map .clearWriteBuffer) sys.server.connections }
    sessions := Dict.modify p.obj.wsi
      (fun s => { s with frames := s.frames ++ [p.obj.writeBuffer] }) sys.sessions }

/-- A connection and its session gone. -/
def drop (c : ℤ) (wsi : Wsi) (sys : System) : System :=
  { sys with
    server := { sys.server with connections := sys.server.connections.erase c }
    sessions := sys.sessions.erase wsi }

theorem kept_flush (c : ℤ) (p : SharedPtr WebSocketConnection) (sys : System) :
    Kept sys (sys.flush c p) where
  conns := by
    refine ⟨fun id q => if id = c then q.map .clearWriteBuffer else q, fun id q => ?_, rfl⟩
    dsimp only
    split_ifs <;> exact ⟨rfl, rfl, rfl⟩
  sessions := by
    refine ⟨fun w s => if w = p.obj.wsi then { s with frames := s.frames ++ [p.obj.writeBuffer] }
      else s, fun w s => ?_, fun w => Dict.lookup_mapVal _ _ w⟩
    dsimp only
    split_ifs <;> rfl
  keys := by simp only [flush, Dict.modify, Dict.keys_mapVal]
  nextAddr := rfl
  nextId := rfl

theorem object_eq_some {s : WebServer} {p : Addr} {conn : WebSocketConnection}
    (h : s.object p = some conn) : ∃ id, s.connections.lookup id = some ⟨p, conn⟩ := by
  unfold WebServer.object at h
  rcases hf : Dict.findVal (fun q : SharedPtr WebSocketConnection => q.addr = p) s.connections
    with _ | ⟨id, q⟩
  · simp [hf] at h
  · rw [hf, Option.map_some, Option.some.injEq] at h
    obtain ⟨hq, ha⟩ := Dict.findVal_spec hf
    subst h
    obtain ⟨a, obj⟩ := q
    simp only at ha
    exact ⟨id, by rw [hq, ← ha]⟩

/-- The object at the address of an entry is the entry's. -/
theorem Registered.object {sys : System} (hr : Registered sys) {id : ℤ}
    {p : SharedPtr WebSocketConnection} (h : sys.server.connections.lookup id = some p) :
    sys.server.object p.addr = some p.obj := by
  unfold WebServer.object
  rw [Dict.findVal_eq_some (P := fun q : SharedPtr WebSocketConnection => q.addr = p.addr) h rfl
    fun j q hq hqa => hr.inj j q id p hq h hqa]
  rfl

/-- The object a session points to is the entry of its socket. -/
theorem Registered.entry {sys : System} (hr : Registered sys) {wsi : Wsi} {session : Session}
    {a : Addr} {conn : WebSocketConnection} (hs : sys.sessions.lookup wsi = some session)
    (hu : session.user = some a) (hc : sys.server.object a = some conn) :
    ∃ p, sys.server.connections.lookup conn.connectionId = some p ∧ p = ⟨a, conn⟩
      ∧ conn.wsi = wsi := by
  obtain ⟨id, hid⟩ := object_eq_some hc
  obtain ⟨a', hu', -, hw⟩ := hr.home wsi session hs
  rw [hu, Option.some.injEq] at hu'
  refine ⟨_, ?_, rfl, hw id _ hid hu'⟩
  rw [hr.own id _ hid, hid]

theorem Registered.modifyObject {sys : System} (hr : Registered sys) {c : ℤ}
    {p : SharedPtr WebSocketConnection} (hp : sys.server.connections.lookup c = some p)
    (f : WebSocketConnection → WebSocketConnection) :
    sys.server.modifyObject p.addr f
      = { sys.server with connections := Dict.modify c (.map f) sys.server.connections } := by
  have h : Dict.mapVal (fun _ q => if q.addr = p.addr then q.map f else q) sys.server.connections
      = Dict.mapVal (fun j q => if j = c then q.map f else q) sys.server.connections := by
    refine Dict.mapVal_congr fun e he => ?_
    have hq := Dict.mem_entries_iff.1 he
    by_cases hj : e.1 = c
    · rw [hj, hp, Option.some.injEq] at hq
      simp [hj, ← hq]
    · simp only [hj, if_false]
      rw [if_neg]
      exact fun ha => hj (hr.inj _ _ c p hq hp ha)
  simp only [WebServer.modifyObject, h, Dict.modify]

/-- A callback that changes nothing. -/
def Idle (sys : System) : Callback → Prop
  | .established wsi => wsi ∈ sys.sessions
  | .receive wsi _ message => wsi ∉ sys.sessions ∨ message = []
  | .writeable wsi => wsi ∉ sys.sessions ∨ ∃ c p, sys.server.connections.lookup c = some p
      ∧ p.obj.wsi = wsi ∧ p.obj.writeBuffer = []
  | .closed wsi => wsi ∉ sys.sessions
  | _ => False

inductive Move (sys : System) : Callback → System → Prop
  | idle {cb : Callback} (h : sys.Idle cb) : Move sys cb sys
  | opened {wsi : Wsi} (hw : wsi ∉ sys.sessions) :
      Move sys (.established wsi) (sys.handleWebSocketConnect rt wsi)
  | answered {c : ℤ} {p : SharedPtr WebSocketConnection} {amb : Ambient} {message : Bytes}
      (hp : sys.server.connections.lookup c = some p) (hm : message ≠ []) :
      Move sys (.receive p.obj.wsi amb message) (sys.onServer fun s => WebServer.deliver rt
        (fun j => produced (Effect.ofMessage rt amb s.clients message s.data) (j = c))
        { s with data := (Effect.ofMessage rt amb s.clients message s.data).1.data })
  | flushed {c : ℤ} {p : SharedPtr WebSocketConnection}
      (hp : sys.server.connections.lookup c = some p) (hb : p.obj.writeBuffer ≠ []) :
      Move sys (.writeable p.obj.wsi) (sys.flush c p)
  | closed {c : ℤ} {p : SharedPtr WebSocketConnection}
      (hp : sys.server.connections.lookup c = some p) :
      Move sys (.closed p.obj.wsi) (sys.drop c p.obj.wsi)
  | broadcast (message : Bytes) :
      Move sys (.broadcast message) (sys.onServer (.deliver rt fun _ => [.text message]))
  | sent (c : ℤ) (message : Bytes) :
      Move sys (.sendToConnection c message)
        (sys.onServer (.deliver rt fun j => if j = c then [.text message] else []))
  | released (c : ℤ) : Move sys (.closeConnection c) (sys.onServer (.closeConnection c))

/-- Whatever has an outcome is a move. -/
theorem Registered.move {sys sys' : System} (hr : Registered sys) {cb : Callback}
    (h : sys.step rt handler cb = some sys') : Move rt sys cb sys' := by
  cases cb with
  | established wsi =>
    simp only [step] at h
    split_ifs at h with hw
    · exact Option.some.inj h ▸ .idle hw
    · exact Option.some.inj h ▸ .opened hw
  | receive wsi amb message =>
    simp only [step] at h
    rcases hs : sys.sessions.lookup wsi with _ | session
    · rw [hs] at h
      exact Option.some.inj h ▸ .idle (.inl (AList.lookup_eq_none.1 hs))
    simp only [hs, handleWebSocketMessage, List.isEmpty_iff] at h
    split_ifs at h with hm
    · exact Option.some.inj h ▸ .idle (.inr hm)
    obtain ⟨a, hu, -⟩ := hr.home wsi session hs
    simp only [hu] at h
    rcases hc : sys.server.object a with _ | conn
    · simp [hc] at h
    obtain ⟨p, hp, rfl, rfl⟩ := hr.entry hs hu hc
    simp only [hc, Option.some.injEq] at h
    rw [← h, onServer, WebServer.processMessage_eq]
    exact .answered hp hm
  | writeable wsi =>
    simp only [step] at h
    rcases hs : sys.sessions.lookup wsi with _ | session
    · rw [hs] at h
      exact Option.some.inj h ▸ .idle (.inl (AList.lookup_eq_none.1 hs))
    obtain ⟨a, hu, -⟩ := hr.home wsi session hs
    simp only [hs, handleServerWriteable, hu] at h
    rcases hc : sys.server.object a with _ | conn
    · simp [hc] at h
    obtain ⟨p, hp, rfl, rfl⟩ := hr.entry hs hu hc
    simp only [hc, List.isEmpty_iff] at h
    split_ifs at h with hb
    · exact Option.some.inj h ▸ .idle (.inr ⟨_, _, hp, rfl, hb⟩)
    · rw [Option.some.injEq, hr.modifyObject hp] at h
      exact h ▸ .flushed hp hb
  | closed wsi =>
    simp only [step] at h
    rcases hs : sys.sessions.lookup wsi with _ | session
    · rw [hs] at h
      exact Option.some.inj h ▸ .idle (AList.lookup_eq_none.1 hs)
    obtain ⟨a, hu, -⟩ := hr.home wsi session hs
    simp only [hs, handleWebSocketClose, hu] at h
    rcases hc : sys.server.object a with _ | conn
    · simp [hc] at h
    obtain ⟨p, hp, rfl, rfl⟩ := hr.entry hs hu hc
    simp only [hc, Option.some.injEq] at h
    exact h ▸ .closed hp
  | broadcast message =>
    rw [step, Option.some.injEq] at h
    rw [← h, onServer, WebServer.broadcast_eq_deliver]
    exact .broadcast message
  | sendToConnection c message =>
    rw [step, Option.some.injEq] at h
    rw [← h, onServer, WebServer.sendToConnection_eq_deliver]
    exact .sent c message
  | closeConnection c =>
    rw [step, Option.some.injEq] at h
    exact h ▸ .released c

theorem Kept.lookup {sys sys' : System} (h : Kept sys sys') {id : ℤ}
    {q : SharedPtr WebSocketConnection} (hq : sys'.server.connections.lookup id = some q) :
    ∃ p, sys.server.connections.lookup id = some p ∧ SamePlace p q := by
  obtain ⟨f, hf, hc⟩ := h.conns
  rw [hc, Dict.lookup_mapVal] at hq
  obtain ⟨p, hp, rfl⟩ := Option.map_eq_some_iff.1 hq
  exact ⟨p, hp, hf id p⟩

theorem Kept.registered {sys sys' : System} (h : Kept sys sys') (hr : Registered sys) :
    Registered sys' where
  own id q hq := by
    obtain ⟨p, hp, -, -, he⟩ := h.lookup hq
    rw [he, hr.own id p hp]
  slot id q hq := by
    obtain ⟨p, hp, ha, hw, -⟩ := h.lookup hq
    obtain ⟨session, hs, hu⟩ := hr.slot id p hp
    obtain ⟨f, hf, hl⟩ := h.sessions
    exact ⟨f _ session, by rw [hl, hw, hs]; rfl, by rw [hf, hu, ha]⟩
  inj id q id' q' hq hq' hqq := by
    obtain ⟨p, hp, ha, -⟩ := h.lookup hq
    obtain ⟨p', hp', ha', -⟩ := h.lookup hq'
    exact hr.inj id p id' p' hp hp' (by rw [← ha, ← ha', hqq])
  fresh id q hq := by
    obtain ⟨p, hp, ha, -⟩ := h.lookup hq
    rw [ha, h.nextAddr]
    exact hr.fresh id p hp
  home wsi session' hs' := by
    obtain ⟨g, hg, hl⟩ := h.sessions
    rw [hl] at hs'
    obtain ⟨session, hs, rfl⟩ := Option.map_eq_some_iff.1 hs'
    obtain ⟨a, hu, hlt, hw⟩ := hr.home wsi session hs
    refine ⟨a, by rw [hg, hu], by rw [h.nextAddr]; exact hlt, fun id q hq hqa => ?_⟩
    obtain ⟨p, hp, ha, hpw, -⟩ := h.lookup hq
    rw [hpw]
    exact hw id p hp (by rw [← ha, hqa])

theorem connect_connections (wsi : Wsi) (sys : System) :
    (sys.handleWebSocketConnect rt wsi).server.connections
      = Dict.mapVal (fun _ q => if q.addr = sys.nextAddr then
          q.map (.send rt (welcome sys.server.nextConnectionId)) else q)
        (sys.server.connections.insert sys.server.nextConnectionId
          ⟨sys.nextAddr, { wsi := wsi, connectionId := sys.server.nextConnectionId }⟩) := rfl

/-- The entry an ESTABLISHED makes; it holds the welcome. -/
def newEntry (wsi : Wsi) (sys : System) : SharedPtr WebSocketConnection where
  addr := sys.nextAddr
  obj :=
    { wsi := wsi
      connectionId := sys.server.nextConnectionId
      writeBuffer := (welcome sys.server.nextConnectionId).bytes rt
      sent := [welcome sys.server.nextConnectionId] }

theorem Registered.lookup_connect {sys : System} (hr : Registered sys) (wsi : Wsi) (id : ℤ) :
    (sys.handleWebSocketConnect rt wsi).server.connections.lookup id
      = if id = sys.server.nextConnectionId then some (newEntry rt wsi sys)
        else sys.server.connections.lookup id := by
  rw [connect_connections, Dict.lookup_mapVal, Dict.lookup_insert_eq]
  split_ifs with h
  · simp [SharedPtr.map, WebSocketConnection.send, newEntry]
  · rcases hp : sys.server.connections.lookup id with _ | p
    · rfl
    · rw [Option.map_some, if_neg (hr.fresh id p hp).ne]

/-- An entry after an ESTABLISHED is the new one or an old one. -/
theorem Registered.of_connect {sys : System} (hr : Registered sys) {wsi : Wsi} {id : ℤ}
    {p : SharedPtr WebSocketConnection}
    (h : (sys.handleWebSocketConnect rt wsi).server.connections.lookup id = some p) :
    (id = sys.server.nextConnectionId ∧ p = newEntry rt wsi sys)
      ∨ sys.server.connections.lookup id = some p := by
  rw [hr.lookup_connect] at h
  split_ifs at h with hid
  · exact .inl ⟨hid, (Option.some.inj h).symm⟩
  · exact .inr h

theorem Registered.connect {sys : System} (hr : Registered sys) {wsi : Wsi}
    (hw : wsi ∉ sys.sessions) : Registered (sys.handleWebSocketConnect rt wsi) where
  own id p h := by
    rcases hr.of_connect rt h with ⟨rfl, rfl⟩ | h
    · rfl
    · exact hr.own id p h
  slot id p h := by
    have hses : (sys.handleWebSocketConnect rt wsi).sessions
        = sys.sessions.insert wsi { user := some sys.nextAddr } := rfl
    rw [hses]
    rcases hr.of_connect rt h with ⟨-, rfl⟩ | h
    · exact ⟨_, AList.lookup_insert _, rfl⟩
    · obtain ⟨session, hs, hu⟩ := hr.slot id p h
      refine ⟨session, ?_, hu⟩
      rw [AList.lookup_insert_ne, hs]
      rintro rfl
      exact hw (Dict.mem_iff_exists.2 ⟨session, hs⟩)
  inj id p id' p' h h' hpp := by
    rcases hr.of_connect rt h with ⟨rfl, rfl⟩ | h <;>
      rcases hr.of_connect rt h' with ⟨rfl, rfl⟩ | h'
    · rfl
    · exact absurd hpp.symm (hr.fresh id' p' h').ne
    · exact absurd hpp (hr.fresh id p h).ne
    · exact hr.inj id p id' p' h h' hpp
  fresh id p h := by
    rcases hr.of_connect rt h with ⟨-, rfl⟩ | h
    · exact Nat.lt_succ_self _
    · exact Nat.lt_succ_of_lt (hr.fresh id p h)
  home w session hs := by
    have hses : (sys.handleWebSocketConnect rt wsi).sessions
        = sys.sessions.insert wsi { user := some sys.nextAddr } := rfl
    rw [hses, Dict.lookup_insert_eq] at hs
    split_ifs at hs with hw'
    · refine ⟨sys.nextAddr, by rw [← Option.some.inj hs], Nat.lt_succ_self _, fun id p h hpa => ?_⟩
      rcases hr.of_connect rt h with ⟨-, rfl⟩ | h
      · exact hw'.symm
      · exact absurd hpa (hr.fresh id p h).ne
    · obtain ⟨a, hu, hlt, hown⟩ := hr.home w session hs
      refine ⟨a, hu, Nat.lt_succ_of_lt hlt, fun id p h hpa => ?_⟩
      rcases hr.of_connect rt h with ⟨-, rfl⟩ | h
      · exact absurd hpa.symm hlt.ne
      · exact hown id p h hpa

theorem Registered.erase {sys : System} (hr : Registered sys) (id : ℤ) :
    Registered (sys.onServer (.closeConnection id)) := by
  have hsub : ∀ j p, (sys.onServer (.closeConnection id)).server.connections.lookup j = some p →
      sys.server.connections.lookup j = some p := by
    intro j p h
    simp only [onServer, WebServer.closeConnection, Dict.lookup_erase_eq] at h
    split_ifs at h
    exact h
  exact ⟨fun j p h => hr.own j p (hsub j p h), fun j p h => hr.slot j p (hsub j p h),
    fun j p j' p' h h' => hr.inj j p j' p' (hsub j p h) (hsub j' p' h'),
    fun j p h => hr.fresh j p (hsub j p h), fun wsi session hs =>
      let ⟨a, hu, hlt, hw⟩ := hr.home wsi session hs
      ⟨a, hu, hlt, fun j p h => hw j p (hsub j p h)⟩⟩

theorem Registered.unique {sys : System} (hr : Registered sys) {id id' : ℤ}
    {p p' : SharedPtr WebSocketConnection} (hp : sys.server.connections.lookup id = some p)
    (hp' : sys.server.connections.lookup id' = some p') (hw : p.obj.wsi = p'.obj.wsi) :
    id = id' := by
  obtain ⟨session, hs, hu⟩ := hr.slot id p hp
  obtain ⟨session', hs', hu'⟩ := hr.slot id' p' hp'
  rw [← hw, hs, Option.some.injEq] at hs'
  rw [← hs', hu, Option.some.injEq] at hu'
  exact hr.inj id p id' p' hp hp' hu'

theorem Registered.drop {sys : System} (hr : Registered sys) {c : ℤ}
    {p : SharedPtr WebSocketConnection} (hp : sys.server.connections.lookup c = some p) :
    Registered (sys.drop c p.obj.wsi) where
  own := (hr.erase c).own
  slot id q hq := by
    obtain ⟨session, hs, hu⟩ := (hr.erase c).slot id q hq
    refine ⟨session, ?_, hu⟩
    simp only [System.drop, Dict.lookup_erase_eq] at hq ⊢
    split_ifs at hq with hid
    rw [if_neg, ← hs]
    · rfl
    · exact fun hw => hid (hr.unique hq hp hw)
  inj := (hr.erase c).inj
  fresh := (hr.erase c).fresh
  home wsi session hs := by
    simp only [System.drop, Dict.lookup_erase_eq] at hs
    split_ifs at hs
    exact (hr.erase c).home wsi session hs

theorem Move.registered {sys sys' : System} (hr : Registered sys) {cb : Callback}
    (h : Move rt sys cb sys') : Registered sys' := by
  cases h with
  | idle => exact hr
  | opened hw => exact hr.connect rt hw
  | answered => exact (kept_deliver rt _ _ sys).registered hr
  | flushed => exact (kept_flush _ _ sys).registered hr
  | closed hp => exact hr.drop hp
  | broadcast => exact (kept_deliver rt _ sys.server.data sys).registered hr
  | sent => exact (kept_deliver rt _ sys.server.data sys).registered hr
  | released c => exact hr.erase c

theorem registered_init (now : ℤ) : Registered (.init now) := by
  refine ⟨?_, ?_, ?_, ?_, ?_⟩ <;> intro id p <;> simp [System.init, WebServer.init]

theorem Registered.step {sys sys' : System} (hr : Registered sys) {cb : Callback}
    (h : sys.step rt handler cb = some sys') : Registered sys' :=
  (hr.move rt handler h).registered rt hr

theorem Registered.run {sys sys' : System} (hr : Registered sys) {cbs : List Callback}
    (h : sys.run rt handler cbs = some sys') : Registered sys' :=
  Runs.run_invariant _ (fun _ _ _ hs ht => hs.step rt handler ht) cbs hr h

theorem Reachable.registered {sys : System} (h : Reachable rt handler sys) : Registered sys := by
  obtain ⟨now, cbs, h⟩ := h
  exact (registered_init now).run rt handler h

end System

end OcppServer
