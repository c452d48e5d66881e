import OcppServer.Proofs.Follow

/-!
# Messages in chunks

A message that comes in pieces is answered piece by piece: each RECEIVE queues a reply of its own,
so `n` pieces leave `n` replies on the connection where the whole message leaves one.
-/

namespace OcppServer

/-- Successive RECEIVE callbacks, each with what the surroundings answer during it. -/
def chunked (wsi : Wsi) (env : ℕ → Ambient) (chunks : List Bytes) : List Callback :=
  chunks.mapIdx fun i chunk => .receive wsi (env i) chunk

/-- The messages that announce nothing. -/
def replies (ms : List Message) : ℕ := ms.countP fun m => m.assignment? = none

theorem replies_append (l l' : List Message) : replies (l ++ l') = replies l + replies l' :=
  List.countP_append

theorem replies_produced (e : Effect × ℤ) (own : Bool) :
    replies (produced e own) = if own then 1 else 0 := by
  have hann : replies (e.1.announced.map valueChanged) = 0 := by
    simp [replies, List.countP_eq_zero, assignment?_valueChanged]
  rw [produced, replies_append, hann]
  cases own <;> simp [replies, assignment?_reply]

namespace System

variable (rt : Runtime) (handler : Option WebServer.MessageHandler)

/-- The same values, the same metrics, and the same messages queued to every connection. -/
structure SameOutcome (sys sys' : System) : Prop where
  values : sys.server.data.values = sys'.server.data.values
  metrics : sys.server.data.metrics = sys'.server.data.metrics
  queued : ∀ c, (sys.server.connections.lookup c).map (·.obj.sent)
    = (sys'.server.connections.lookup c).map (·.obj.sent)

/-- A message received leaves one more reply on its connection. -/
theorem Registered.receive_replies {sys : System} (hr : Registered sys) {c : ℤ}
    {p : SharedPtr WebSocketConnection} (hp : sys.server.connections.lookup c = some p)
    (amb : Ambient) {message : Bytes} (hm : message ≠ []) :
    ∃ sys' p', sys.step rt handler (.receive p.obj.wsi amb message) = some sys'
      ∧ Registered sys' ∧ sys'.server.connections.lookup c = some p'
      ∧ p'.obj.wsi = p.obj.wsi ∧ replies p'.obj.sent = replies p.obj.sent + 1 := by
  have hstep := hr.step_receive rt handler hp amb hm
  have hmove := hr.move rt handler hstep
  obtain ⟨p', hp'⟩ : ∃ p', (sys.onServer (.processMessage rt amb handler c message)
      ).server.connections.lookup c = some p' := by
    rw [onServer, WebServer.processMessage_eq]
    simp only [WebServer.deliver, Dict.lookup_mapVal, hp, Option.map_some]
    exact ⟨_, rfl⟩
  refine ⟨_, p', hstep, hr.step rt handler hstep, hp', ?_⟩
  rcases hmove.traffic rt hr hp' with ⟨wsi, hcb, -⟩ | ⟨q, ht⟩
  · cases hcb
  obtain rfl := Option.some.inj (hp.symm.trans ht.entry)
  obtain ⟨session, hs, -⟩ := hr.slot c p hp
  refine ⟨ht.wsi, ?_⟩
  rw [ht.sent, queued, if_pos ⟨Dict.mem_iff_exists.2 ⟨session, hs⟩, hm⟩, replies_append,
    replies_produced]
  simp

/-- Chunks leave as many more replies as there are chunks. -/
theorem run_chunked : ∀ (chunks : List Bytes) (env : ℕ → Ambient) {sys : System} {c : ℤ}
    {p : SharedPtr WebSocketConnection}, Registered sys →
    sys.server.connections.lookup c = some p → (∀ m ∈ chunks, m ≠ []) →
      ∃ sys' p', run rt handler sys (chunked p.obj.wsi env chunks) = some sys'
        ∧ sys'.server.connections.lookup c = some p'
        ∧ replies p'.obj.sent = replies p.obj.sent + chunks.length
  | [], _, sys, _, p, _, hp, _ => ⟨sys, p, rfl, hp, rfl⟩
  | m :: chunks, env, sys, c, p, hr, hp, hne => by
    obtain ⟨sys₁, p₁, hstep, hr₁, hp₁, hw, hn⟩ :=
      hr.receive_replies rt handler hp (env 0) (hne m (by simp))
    obtain ⟨sys₂, p₂, hrun, hp₂, hn₂⟩ := run_chunked chunks (fun i => env (i + 1)) hr₁ hp₁
      fun m' hm' => hne m' (List.mem_cons_of_mem _ hm')
    refine ⟨sys₂, p₂, ?_, hp₂, by rw [hn₂, hn, List.length_cons]; omega⟩
    rw [hw] at hrun
    rw [chunked, List.mapIdx_cons, run, Runs.run_cons, hstep, Option.bind_some]
    exact hrun

/-- A message delivered in chunks does what it does whole exactly when it comes in one. -/
theorem chunks_iff {sys : System} (h : Reachable rt handler sys) {c : ℤ}
    {p : SharedPtr WebSocketConnection} (hp : sys.server.connections.lookup c = some p)
    (env : ℕ → Ambient) {chunks : List Bytes} (hne : ∀ m ∈ chunks, m ≠ []) (h0 : chunks ≠ []) :
    (∃ whole pieces,
        sys.step rt handler (.receive p.obj.wsi (env 0) chunks.flatten) = some whole
        ∧ run rt handler sys (chunked p.obj.wsi env chunks) = some pieces
        ∧ SameOutcome whole pieces)
      ↔ chunks.length = 1 := by
  have hr := h.registered
  have hflat : chunks.flatten ≠ [] := by
    obtain ⟨m, hm⟩ := List.exists_mem_of_ne_nil chunks h0
    intro hf
    exact hne m hm (List.flatten_eq_nil_iff.1 hf m hm)
  obtain ⟨sysW, pW, hW, -, hpW, -, hnW⟩ := hr.receive_replies rt handler hp (env 0) hflat
  obtain ⟨sysC, pC, hC, hpC, hnC⟩ := run_chunked rt handler chunks env hr hp hne
  constructor
  · rintro ⟨whole, pieces, hw, hp, hsame⟩
    obtain rfl := Option.some.inj (hW.symm.trans hw)
    obtain rfl := Option.some.inj (hC.symm.trans hp)
    have hsent := hsame.queued c
    rw [hpW, hpC, Option.map_some, Option.map_some, Option.some.injEq] at hsent
    rw [hsent] at hnW
    omega
  · intro hlen
    obtain ⟨m, rfl⟩ := List.length_eq_one_iff.1 hlen
    have hflat1 : [m].flatten = m := by simp
    refine ⟨sysW, sysW, hW, ?_, rfl, rfl, fun _ => rfl⟩
    rw [hflat1] at hW
    rw [chunked, List.mapIdx_cons, List.mapIdx_nil, run, Runs.run_cons, hW]
    rfl

/-- A `ping` cut in three. -/
def pingPieces : List Bytes := [ping.1.take 9, (ping.1.drop 9).take 9, ping.1.drop 18]

/-- A `ping` delivered whole, and in three pieces. -/
theorem chunks_ping :
    (∃ whole pieces,
        ((System.init 0).handleWebSocketConnect (.ofTable [ping]) 0).step (.ofTable [ping]) none
          (.receive 0 ⟨[], 0, 0, 0, 0, 0⟩ [ping.1].flatten) = some whole
        ∧ run (.ofTable [ping]) none ((System.init 0).handleWebSocketConnect (.ofTable [ping]) 0)
          (chunked 0 (fun _ => ⟨[], 0, 0, 0, 0, 0⟩) [ping.1]) = some pieces
        ∧ SameOutcome whole pieces)
      ∧ ¬ ∃ whole pieces,
        ((System.init 0).handleWebSocketConnect (.ofTable [ping]) 0).step (.ofTable [ping]) none
          (.receive 0 ⟨[], 0, 0, 0, 0, 0⟩ pingPieces.flatten) = some whole
        ∧ run (.ofTable [ping]) none ((System.init 0).handleWebSocketConnect (.ofTable [ping]) 0)
          (chunked 0 (fun _ => ⟨[], 0, 0, 0, 0, 0⟩) pingPieces) = some pieces
        ∧ SameOutcome whole pieces := by
  have hreach : Reachable (.ofTable [ping]) none
      ((System.init 0).handleWebSocketConnect (.ofTable [ping]) 0) := ⟨0, [.established 0], rfl⟩
  have hentry :
      ((System.init 0).handleWebSocketConnect (.ofTable [ping]) 0).server.connections.lookup 1
        = some (newEntry (.ofTable [ping]) 0 (.init 0)) := rfl
  constructor
  · exact (chunks_iff (.ofTable [ping]) none hreach hentry (fun _ => ⟨[], 0, 0, 0, 0, 0⟩)
      (by decide) (by decide)).2 rfl
  · intro h
    have hlen := (chunks_iff (.ofTable [ping]) none hreach hentry (fun _ => ⟨[], 0, 0, 0, 0, 0⟩)
      (by decide) (by decide)).1 h
    exact absurd hlen (by decide)

/-- A `ping` in two pieces is answered by two errors. -/
theorem chunks_split_ping :
    ¬ ∃ whole pieces,
      ((System.init 0).handleWebSocketConnect (.ofTable [ping]) 0).step (.ofTable [ping]) none
          (.receive 0 ⟨[], 0, 0, 0, 0, 0⟩ [ping.1.take 9, ping.1.drop 9].flatten) = some whole
        ∧ run (.ofTable [ping]) none ((System.init 0).handleWebSocketConnect (.ofTable [ping]) 0)
          (chunked 0 (fun _ => ⟨[], 0, 0, 0, 0, 0⟩) [ping.1.take 9, ping.1.drop 9]) = some pieces
        ∧ SameOutcome whole pieces := by
  rintro ⟨whole, pieces, hw, hp, hsame⟩
  obtain rfl := Option.some.inj hw
  obtain rfl := Option.some.inj hp
  have hlen := congrArg (Option.map List.length) (hsame.queued 1)
  exact absurd hlen (by decide +kernel)

end System

end OcppServer
