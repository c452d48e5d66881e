import OcppServer.Proofs.Traffic

/-!
# Frames and messages

The bytes waiting on a connection leave as one frame, so a frame is a message only when no second
message has joined it. Along any run the frames of every session are its messages, one each and in
order, exactly when each SERVER_WRITEABLE finds at most the last message waiting; whatever
announces a value and then replies already leaves two.
-/

namespace OcppServer

namespace System

variable (rt : Runtime) (handler : Option WebServer.MessageHandler)

/-- The frames of every open session are the first messages sent on it, one frame a message. -/
def OneFrameEach (sys : System) : Prop :=
  ∀ c p session, sys.server.connections.lookup c = some p →
    sys.sessions.lookup p.obj.wsi = some session →
      session.frames <+: p.obj.sent.map (·.bytes rt)

/-- Nothing waits but the last message sent. -/
def OneWaits (conn : WebSocketConnection) : Prop :=
  conn.writeBuffer = [] ∨ ∃ m, conn.sent.getLast? = some m ∧ conn.writeBuffer = m.bytes rt

def Framed (sys : System) : Prop :=
  ∀ c p session, sys.server.connections.lookup c = some p →
    sys.sessions.lookup p.obj.wsi = some session → ∃ n, (outbox rt session p.obj).Framed n

theorem oneWaits_iff {session : Session} {conn : WebSocketConnection} {n : ℕ}
    (h : (outbox rt session conn).Framed n) : OneWaits rt conn ↔ n ≤ 1 := by
  rw [h.le_one_iff]
  simp only [OneWaits, outbox, List.getLast?_map, Option.map_eq_some_iff]
  simp only [eq_comm]

theorem framed_newEntry (wsi : Wsi) (sys : System) {session : Session}
    (hs : session.frames = []) : (outbox rt session (newEntry rt wsi sys).obj).Framed 1 := by
  have hw : (welcome sys.server.nextConnectionId).bytes rt ≠ [] := by
    simp [welcome, Message.bytes, lit]
  exact ⟨[(welcome sys.server.nextConnectionId).bytes rt], by simp [outbox, newEntry, hs],
    by simp [outbox, newEntry], rfl, by simp [hw]⟩

theorem Framed.move {sys sys' : System} (hr : Registered sys) (hf : Framed rt sys) {cb : Callback}
    (h : Move rt sys cb sys') (hb : cb ≠ .broadcast []) (hs : ∀ id, cb ≠ .sendToConnection id [])
    (hc : ∀ c p, sys.server.connections.lookup c = some p → cb = .writeable p.obj.wsi →
      OneWaits rt p.obj) : Framed rt sys' := by
  intro c p' session' hp' hs'
  rcases h.traffic rt hr hp' with ⟨wsi, rfl, -, rfl, rfl⟩ | ⟨p, ht⟩
  · have hses : (sys.handleWebSocketConnect rt wsi).sessions
        = sys.sessions.insert wsi { user := some sys.nextAddr } := rfl
    have hw : (newEntry rt wsi sys).obj.wsi = wsi := rfl
    rw [hses, hw, AList.lookup_insert, Option.some.injEq] at hs'
    exact ⟨1, framed_newEntry rt wsi sys (by rw [← hs'])⟩
  · obtain ⟨session, hses, -⟩ := hr.slot c p ht.entry
    obtain ⟨n, hn⟩ := hf c p session ht.entry hses
    obtain ⟨session₁, h1, hout⟩ := ht.outbox session hses
    rw [ht.wsi, h1, Option.some.injEq] at hs'
    subst hs'
    rw [hout, acts]
    split_ifs with hfl
    · have hcb : cb = .writeable p.obj.wsi := by
        cases cb <;> simp_all [Callback.flushes]
      exact ⟨0, hn.flush ((oneWaits_iff rt hn).1 (hc c p ht.entry hcb))⟩
    · refine Outbox.Framed.sends _ hn fun m hm => ?_
      obtain ⟨message, hq, rfl⟩ := List.mem_map.1 hm
      exact bytes_ne_nil_of_queued rt hq hb hs

theorem Framed.oneFrameEach {sys : System} (h : Framed rt sys) : OneFrameEach rt sys := by
  intro c p session hp hs
  obtain ⟨n, hn⟩ := h c p session hp hs
  exact hn.frames_isPrefix

theorem Registered.step_writeable {sys : System} (hr : Registered sys) {c : ℤ}
    {p : SharedPtr WebSocketConnection} (hp : sys.server.connections.lookup c = some p)
    (hb : p.obj.writeBuffer ≠ []) :
    sys.step rt handler (.writeable p.obj.wsi) = some (sys.flush c p) := by
  obtain ⟨session, hs, hu⟩ := hr.slot c p hp
  simp only [System.step, hs, handleServerWriteable, hu, hr.object hp, List.isEmpty_iff, hb,
    if_false, hr.modifyObject hp]
  rfl

/-- A SERVER_WRITEABLE that finds two messages waiting puts them into one frame. -/
theorem Framed.flush_not_oneFrameEach {sys : System} (hr : Registered sys) (hf : Framed rt sys)
    {c : ℤ} {p : SharedPtr WebSocketConnection}
    (hp : sys.server.connections.lookup c = some p) (hw : ¬ OneWaits rt p.obj) :
    ¬ OneFrameEach rt (sys.flush c p) := by
  have hb : p.obj.writeBuffer ≠ [] := fun hb => hw (.inl hb)
  obtain ⟨session, hs, -⟩ := hr.slot c p hp
  obtain ⟨n, hn⟩ := hf c p session hp hs
  have hp' : (sys.flush c p).server.connections.lookup c = some (p.map .clearWriteBuffer) := by
    simp [flush, Dict.lookup_modify, hp]
  have ht := traffic_flush rt hr hp hb hp hp'
  obtain ⟨session', hs', hout⟩ := ht.outbox session hs
  intro h
  have hpre := h c _ session' hp' hs'
  have hact : sys.acts rt c p.obj.wsi (.writeable p.obj.wsi) = [.flush] := by
    simp [acts, Callback.flushes]
  rw [hact, List.foldl_cons, List.foldl_nil] at hout
  refine hn.flush_not_isPrefix (Nat.lt_of_not_le fun h1 => hw ((oneWaits_iff rt hn).2 h1)) ?_
  rw [← hout]
  exact hpre

/-- Along a run without empty messages, each frame is one message and in its place exactly when
each SERVER_WRITEABLE finds at most one message waiting. -/
theorem one_frame_each_iff {now : ℤ} {cbs : List Callback}
    (hne : ∀ cb ∈ cbs, cb ≠ .broadcast [] ∧ ∀ id, cb ≠ .sendToConnection id []) :
    (∀ pre, pre <+: cbs → ∀ sys, run rt handler (.init now) pre = some sys →
        OneFrameEach rt sys)
      ↔ Runs.AtEvery (step rt handler)
          (fun sys cb => ∀ c p, sys.server.connections.lookup c = some p →
            cb = .writeable p.obj.wsi → OneWaits rt p.obj) (.init now) cbs := by
  have hinit : Framed rt (.init now) := by
    intro c p session hp
    simp [System.init, WebServer.init] at hp
  refine Runs.forall_run_iff _ (I := fun sys => Registered sys ∧ Framed rt sys)
    (fun sys h => h.2.oneFrameEach rt) ?_ ?_ cbs ⟨registered_init now, hinit⟩ hne
  · rintro sys cb sys' ⟨hr, hf⟩ ⟨hb, hs⟩ hc hstep
    exact ⟨hr.step rt handler hstep, hf.move rt hr (hr.move rt handler hstep) hb hs hc⟩
  · rintro sys cb ⟨hr, hf⟩ hc
    simp only [not_forall] at hc
    obtain ⟨c, p, hp, rfl, hw⟩ := hc
    exact ⟨sys.flush c p, hr.step_writeable rt handler hp fun hb => hw (.inl hb),
      hf.flush_not_oneFrameEach rt hr hp hw⟩

/-- A request that sends three messages, as text and as document. -/
def startCharging : Bytes × Json :=
  (lit "\x7b\"jsonrpc\":\"2.0\",\"method\":\"startCharging\",\"id\":1\x7d",
    .object [(lit "jsonrpc", .string (lit "2.0")), (lit "method", .string (lit "startCharging")),
      (lit "id", .int 1)])

theorem one_frame_each_ping :
    (∀ pre, pre <+: [.established 0, .writeable 0, .sendToConnection 1 [97], .writeable 0] →
        ∀ sys, run (.ofTable []) none (.init 0) pre = some sys → OneFrameEach (.ofTable []) sys)
      ↔ Runs.AtEvery (step (.ofTable []) none)
          (fun sys cb => ∀ c p, sys.server.connections.lookup c = some p →
            cb = .writeable p.obj.wsi → OneWaits (.ofTable []) p.obj) (.init 0)
          [.established 0, .writeable 0, .sendToConnection 1 [97], .writeable 0] :=
  one_frame_each_iff (.ofTable []) none (by simp)

/-- Two notifications and the reply leave as one frame. -/
theorem startCharging_merges :
    ¬ ∀ pre, pre <+: [.established 0, .writeable 0,
          .receive 0 ⟨[], 0, 0, 0, 0, 0⟩ startCharging.1, .writeable 0] →
        ∀ sys, run (.ofTable [startCharging]) none (.init 0) pre = some sys →
          OneFrameEach (.ofTable [startCharging]) sys := by
  intro h
  have hpre := h _ List.prefix_rfl _ rfl 1 _ _ rfl rfl
  exact absurd hpre (by decide +kernel)

end System

end OcppServer
