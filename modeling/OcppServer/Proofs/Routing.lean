import OcppServer.Proofs.Traffic
import OcppServer.Proofs.Sessions

/-!
# Routing

The server simulates the abstract one (`Simulates`): the same data, a stream for each open
session, and on each session's connection the messages of its stream, in order. What has been
handed to a socket and what waits for it are then the bytes of its stream, whatever the order of
establishments, requests, flushes and closes.
-/

namespace OcppServer

namespace System

variable (rt : Runtime) (handler : Option WebServer.MessageHandler)

structure Simulates (a : Streams) (sys : System) : Prop extends Tabled sys where
  data : a.data = sys.server.data
  nextId : a.nextConnectionId = sys.nextAddr + 1
  clients : a.streams.keys.length = sys.sessions.keys.length
  open_iff : ∀ wsi, wsi ∈ a.streams ↔ wsi ∈ sys.sessions
  stream : ∀ c p, sys.server.connections.lookup c = some p →
    a.streams.lookup p.obj.wsi = some p.obj.sent
  bytes : ∀ c p session, sys.server.connections.lookup c = some p →
    sys.sessions.lookup p.obj.wsi = some session →
      (outbox rt session p.obj).frames.flatten ++ (outbox rt session p.obj).buffer
        = (outbox rt session p.obj).sent.flatten

variable {a : Streams} {sys sys' : System} {cb : Callback}

theorem Simulates.clients_eq (h : Simulates rt a sys) :
    a.streams.keys.length = sys.server.clients := by
  rw [h.clients, WebServer.clients, h.count]

/-- A stream grows by what the callback queues to its session. -/
theorem Simulates.lookup_step (h : Simulates rt a sys) (hcb : cb.ofSocket = true) {c : ℤ}
    {w : Wsi} {ms : List Message} (hms : a.streams.lookup w = some ms) (hw : cb ≠ .closed w) :
    (a.step rt cb).streams.lookup w = some (ms ++ sys.queued rt c w cb) := by
  cases cb with
  | established wsi =>
    simp only [Streams.step, queued, List.append_nil]
    split_ifs with hmem
    · exact hms
    · rw [AList.lookup_insert_ne, hms]
      rintro rfl
      exact hmem (Dict.mem_iff_exists.2 ⟨ms, hms⟩)
  | receive wsi amb message =>
    simp only [Streams.step, queued, h.open_iff]
    split_ifs
    · rw [Dict.lookup_mapVal, hms, h.clients_eq, h.data]
      rfl
    · rw [hms, List.append_nil]
  | writeable wsi => simpa [Streams.step, queued] using hms
  | closed wsi =>
    have hne : w ≠ wsi := fun he => hw (by rw [he])
    have hq : sys.queued rt c w (.closed wsi) = [] := rfl
    rw [Streams.step, AList.lookup_erase_ne hne, hms, hq, List.append_nil]
  | broadcast | sendToConnection | closeConnection => simp [Callback.ofSocket] at hcb

theorem Move.closed_notMem {wsi : Wsi} (h : Move rt sys (.closed wsi) sys') :
    wsi ∉ sys'.sessions := by
  cases h with
  | idle h => exact h
  | closed hp =>
    intro hmem
    exact (AList.mem_erase.1 hmem).1 rfl

/-- An idle callback is idle for the abstract server. -/
theorem Simulates.idle (h : Simulates rt a sys) (hidle : sys.Idle cb) : a.step rt cb = a := by
  cases cb with
  | established wsi =>
    rw [Streams.step, if_pos ((h.open_iff wsi).2 hidle)]
  | receive wsi amb message =>
    rw [Streams.step, if_neg]
    rintro ⟨hw, hm⟩
    exact hidle.elim (fun hn => hn ((h.open_iff wsi).1 hw)) hm
  | writeable wsi => rfl
  | closed wsi =>
    rw [Streams.step, Dict.erase_of_notMem fun hw => hidle ((h.open_iff wsi).1 hw)]
  | broadcast | sendToConnection | closeConnection => exact hidle.elim

/-- The abstract server's data, count of ids and open sessions after a callback. -/
theorem Simulates.frame (h : Simulates rt a sys) (hcb : cb.ofSocket = true)
    (hm : Move rt sys cb sys') :
    (a.step rt cb).data = sys'.server.data
      ∧ (a.step rt cb).nextConnectionId = sys'.nextAddr + 1
      ∧ (a.step rt cb).streams.keys.length = sys'.sessions.keys.length
      ∧ ∀ wsi, wsi ∈ (a.step rt cb).streams ↔ wsi ∈ sys'.sessions := by
  cases hm with
  | idle hidle =>
    rw [h.idle rt hidle]
    exact ⟨h.data, h.nextId, h.clients, h.open_iff⟩
  | @opened wsi hw =>
    have hwa : wsi ∉ a.streams := fun hmem => hw ((h.open_iff wsi).1 hmem)
    rw [Streams.step, if_neg hwa]
    refine ⟨h.data, ?_, ?_, fun w => ?_⟩
    · rw [h.nextId]
      simp [handleWebSocketConnect]
    · rw [Dict.length_keys_insert hwa, h.clients]
      exact (Dict.length_keys_insert hw _).symm
    · exact (AList.mem_insert _).trans ((or_congr_right (h.open_iff w)).trans
        (AList.mem_insert _).symm)
  | @answered c p amb message hp hm =>
    obtain ⟨session, hs, -⟩ := h.slot c p hp
    have hopen : p.obj.wsi ∈ a.streams :=
      (h.open_iff _).2 (Dict.mem_iff_exists.2 ⟨session, hs⟩)
    rw [Streams.step, if_pos ⟨hopen, hm⟩, h.clients_eq, h.data]
    refine ⟨rfl, h.nextId, ?_, fun w => ?_⟩
    · rw [Dict.keys_mapVal, h.clients]
      rfl
    · rw [Dict.mem_mapVal, h.open_iff]
      rfl
  | flushed hp hb =>
    refine ⟨h.data, h.nextId, ?_, fun w => ?_⟩
    · simpa only [Streams.step, flush, Dict.modify, Dict.keys_mapVal] using h.clients
    · simpa only [Streams.step, flush, Dict.modify, Dict.mem_mapVal] using h.open_iff w
  | @closed c p hp =>
    obtain ⟨session, hs, -⟩ := h.slot c p hp
    have hmem := Dict.mem_iff_exists.2 ⟨session, hs⟩
    refine ⟨h.data, h.nextId, ?_, fun w => ?_⟩
    · have h1 := Dict.length_keys_erase ((h.open_iff _).2 hmem)
      have h2 := Dict.length_keys_erase hmem
      have := h.clients
      simp only [Streams.step, System.drop]
      omega
    · simp only [Streams.step, System.drop, AList.mem_erase, h.open_iff]
  | broadcast | sent | released => simp [Callback.ofSocket] at hcb

theorem Simulates.step (h : Simulates rt a sys) (hcb : cb.ofSocket = true)
    (ho : Ordinary sys cb) :
    ∃ sys', sys.step rt handler cb = some sys' ∧ Simulates rt (a.step rt cb) sys' := by
  obtain ⟨sys', hstep, ht⟩ := h.toTabled.step rt handler ho
  have hr := h.toRegistered
  have hm := hr.move rt handler hstep
  obtain ⟨hdata, hnext, hclients, hopen⟩ := h.frame rt hcb hm
  refine ⟨sys', hstep, ht, hdata, hnext, hclients, hopen, fun c p' hp' => ?_,
    fun c p' session' hp' hs' => ?_⟩
  · rcases hm.traffic rt hr hp' with ⟨wsi, rfl, hw, -, rfl⟩ | ⟨p, htr⟩
    · have hwa : wsi ∉ a.streams := fun hmem => hw ((h.open_iff wsi).1 hmem)
      rw [Streams.step, if_neg hwa, h.nextId, ← h.toTabled.nextId (ho.1 wsi rfl)]
      exact AList.lookup_insert _
    · rw [htr.wsi, htr.sent]
      refine h.lookup_step rt hcb (h.stream c p htr.entry) ?_
      rintro rfl
      obtain ⟨session, hs, -⟩ := ht.slot c p' hp'
      rw [htr.wsi] at hs
      exact hm.closed_notMem rt (Dict.mem_iff_exists.2 ⟨session, hs⟩)
  · rcases hm.traffic rt hr hp' with ⟨wsi, rfl, hw, rfl, rfl⟩ | ⟨p, htr⟩
    · have hses : (sys.handleWebSocketConnect rt wsi).sessions
          = sys.sessions.insert wsi { user := some sys.nextAddr } := rfl
      have hwsi : (newEntry rt wsi sys).obj.wsi = wsi := rfl
      rw [hses, hwsi, AList.lookup_insert, Option.some.injEq] at hs'
      subst hs'
      simp [outbox, newEntry]
    · obtain ⟨session, hs, -⟩ := hr.slot c p htr.entry
      obtain ⟨session₁, h1, hout⟩ := htr.outbox session hs
      rw [htr.wsi, h1, Option.some.injEq] at hs'
      subst hs'
      rw [hout]
      exact Outbox.flatten_frames _ (h.bytes c p session htr.entry hs)

theorem simulates_init (now : ℤ) : Simulates rt (.init now) (.init now) where
  toTabled := tabled_init now
  data := rfl
  nextId := by simp [Streams.init, System.init]
  clients := by simp [Streams.init, System.init]
  open_iff wsi := by simp [Streams.init, System.init]
  stream c p hp := by simp [System.init, WebServer.init] at hp
  bytes c p session hp := by simp [System.init, WebServer.init] at hp

theorem simulates_run : ∀ (cbs : List Callback) {a : Streams} {sys : System}, Simulates rt a sys →
    (∀ cb ∈ cbs, cb.ofSocket = true) → Runs.AtEvery (System.step rt handler) Ordinary sys cbs →
      ∃ sys', run rt handler sys cbs = some sys' ∧ Simulates rt (cbs.foldl (Streams.step rt) a) sys'
  | [], _, sys, h, _, _ => ⟨sys, rfl, h⟩
  | cb :: cbs, _, sys, h, hcbs, ho => by
    obtain ⟨ho₁, hrest⟩ := (Runs.atEvery_cons _).1 ho
    obtain ⟨sys₁, hstep, h₁⟩ := h.step rt handler (hcbs cb (by simp)) ho₁
    obtain ⟨sys₂, hrun, h₂⟩ := simulates_run cbs h₁
      (fun cb' hcb' => hcbs cb' (List.mem_cons_of_mem _ hcb')) (hrest sys₁ hstep)
    refine ⟨sys₂, ?_, h₂⟩
    rw [run, Runs.run_cons, hstep, Option.bind_some]
    exact hrun

/-- After any run of socket callbacks with fewer than `2 ^ 31` establishments, the sockets with a
session are those between their ESTABLISHED and their CLOSED; each has a stream, and what was handed
to it and what waits for it are the bytes of that stream: its welcome, the replies to its own
requests and every notification since. -/
theorem output_eq_stream {now : ℤ} {cbs : List Callback}
    (hcbs : ∀ cb ∈ cbs, cb.ofSocket = true)
    (hn : cbs.countP (·.isEstablished) < 2 ^ 31) :
    ∃ sys, run rt handler (.init now) cbs = some sys
      ∧ (∀ wsi, wsi ∈ sys.sessions ↔ Callback.IsOpen wsi cbs)
      ∧ ∀ wsi session, sys.sessions.lookup wsi = some session →
        ∃ p ms, sys.server.connections.lookup p.obj.connectionId = some p ∧ p.obj.wsi = wsi
          ∧ session.user = some p.addr
          ∧ (cbs.foldl (Streams.step rt) (.init now)).streams.lookup wsi = some ms
          ∧ session.frames.flatten ++ p.obj.writeBuffer = ms.flatMap (·.bytes rt) := by
  have ho : Runs.AtEvery (System.step rt handler) Ordinary (.init now) cbs := by
    refine atEvery_ordinary rt handler hn fun pre cb post he sys _ id hcb => ?_
    have := hcbs cb (by rw [he]; simp)
    rw [hcb] at this
    simp [Callback.ofSocket] at this
  obtain ⟨sys, hrun, h⟩ := simulates_run rt handler cbs (simulates_init rt now) hcbs ho
  refine ⟨sys, hrun, mem_sessions_iff hrun, fun wsi session hs => ?_⟩
  obtain ⟨p, hp, hu, rfl⟩ := h.live wsi session hs
  have hb := h.bytes _ p session hp hs
  refine ⟨p, p.obj.sent, hp, rfl, hu, h.stream _ p hp, ?_⟩
  rw [List.flatMap_def]
  exact hb

/-- Two sockets, of which the second sends what is no request and stays: it has its welcome and the
error. -/
def twoSockets : List Callback :=
  [.established 0, .established 1, .writeable 1, .receive 1 ⟨[], 0, 0, 0, 0, 0⟩ (lit "a"),
    .closed 0]

theorem output_eq_stream_two :
    ∃ sys session p, run (.ofTable []) none (.init 0) twoSockets = some sys
      ∧ sys.sessions.lookup 1 = some session ∧ sys.sessions.lookup 0 = none
      ∧ sys.server.connections.lookup p.obj.connectionId = some p ∧ p.obj.wsi = 1
      ∧ session.frames.flatten ++ p.obj.writeBuffer
        = (welcome 2).bytes (.ofTable []) ++ (reply (-1)
          (.error (lit "JSON parse error: Invalid value. at offset 0"))).bytes (.ofTable []) := by
  obtain ⟨sys, hrun, hopen, h⟩ := @output_eq_stream (.ofTable []) none 0 twoSockets
    (by simp [twoSockets, Callback.ofSocket]) (by decide)
  have h1 : 1 ∈ sys.sessions := (hopen 1).2 ⟨[.established 0], _, rfl, by simp⟩
  have h0 : 0 ∉ sys.sessions := by
    rw [hopen, show twoSockets = twoSockets.dropLast ++ [.closed 0] from rfl,
      Callback.isOpen_concat]
    simp
  obtain ⟨session, hs⟩ := Dict.mem_iff_exists.1 h1
  obtain ⟨p, ms, hp, hw, -, hms, hb⟩ := h 1 session hs
  refine ⟨sys, session, p, hrun, hs, AList.lookup_eq_none.2 h0, hp, hw, ?_⟩
  have hstream : (twoSockets.foldl (Streams.step (.ofTable [])) (.init 0)).streams.lookup 1
      = some [welcome 2, reply (-1)
        (.error (lit "JSON parse error: Invalid value. at offset 0"))] := rfl
  obtain rfl := Option.some.inj (hstream.symm.trans hms)
  simpa using hb

end System

end OcppServer
