import OcppServer.Proofs.Steps
import Mathlib.Data.List.Induction
import Mathlib.Tactic.NormNum

/-!
# The session table

The sockets with a session are those between their ESTABLISHED and their CLOSED callback
(`mem_sessions_iff`). Every registered connection's session points to it, in every state a server
comes to. The converse, that every open session's connection is registered, is lost where
`closeConnection` meets a registered id: the entry goes, the session keeps the pointer, and its next
callback follows it. Without such a call the table is one entry for each open socket, after any run
with fewer than `2 ^ 31` establishments.
-/

namespace OcppServer

/-- After the callbacks the socket is between its ESTABLISHED and its CLOSED. -/
def Callback.IsOpen (wsi : Wsi) (cbs : List Callback) : Prop :=
  ∃ pre post, cbs = pre ++ .established wsi :: post ∧ Callback.closed wsi ∉ post

theorem Callback.not_isOpen_nil (wsi : Wsi) : ¬ Callback.IsOpen wsi [] := by
  rintro ⟨pre, post, h, -⟩
  simp at h

theorem Callback.isOpen_concat {wsi : Wsi} {cbs : List Callback} {cb : Callback} :
    Callback.IsOpen wsi (cbs ++ [cb])
      ↔ cb = .established wsi ∨ Callback.IsOpen wsi cbs ∧ cb ≠ .closed wsi := by
  constructor
  · rintro ⟨pre, post, h, hc⟩
    rcases List.eq_nil_or_concat' post with rfl | ⟨post, last, rfl⟩
    · exact .inl (List.head_eq_of_cons_eq (List.append_inj' h rfl).2)
    · rw [← List.cons_append, ← List.append_assoc] at h
      obtain ⟨hcbs, hlast⟩ := List.append_inj' h rfl
      obtain rfl : cb = last := List.head_eq_of_cons_eq hlast
      rw [List.mem_append, not_or] at hc
      refine .inr ⟨⟨pre, post, hcbs, hc.1⟩, fun he => hc.2 ?_⟩
      rw [he]
      exact List.mem_singleton_self _
  · rintro (rfl | ⟨⟨pre, post, rfl, hc⟩, hne⟩)
    · exact ⟨cbs, [], rfl, List.not_mem_nil⟩
    · refine ⟨pre, post ++ [cb], by simp, ?_⟩
      rw [List.mem_append, List.mem_singleton, not_or]
      exact ⟨hc, fun he => hne he.symm⟩

namespace System

section Open

variable {rt : Runtime} {sys sys' : System} {cb : Callback}

/-- Only an ESTABLISHED makes a session, and only a CLOSED of its socket ends it. -/
theorem Move.mem_sessions_iff (h : Move rt sys cb sys') (wsi : Wsi) :
    wsi ∈ sys'.sessions ↔ cb = .established wsi ∨ wsi ∈ sys.sessions ∧ cb ≠ .closed wsi := by
  cases h with
  | idle h =>
    cases cb with
    | established w =>
      have hw : w = wsi → wsi ∈ sys.sessions := fun he => he ▸ h
      simpa using hw
    | closed w =>
      have hw : wsi ∈ sys.sessions → w ≠ wsi := fun hmem he => h (he ▸ hmem)
      simpa using hw
    | _ => simp
  | @opened w hw =>
    change wsi ∈ sys.sessions.insert w { user := some sys.nextAddr } ↔ _
    rw [AList.mem_insert]
    simp [eq_comm]
  | flushed hp hb =>
    simp [flush, Dict.modify, Dict.mem_mapVal]
  | @closed c p hp =>
    change wsi ∈ sys.sessions.erase p.obj.wsi ↔ _
    rw [AList.mem_erase]
    simp [eq_comm, and_comm]
  | answered | broadcast | sent | released => simp [onServer]

/-- The sockets with a session are those established and not closed since. -/
theorem mem_sessions_iff {handler : Option WebServer.MessageHandler} {now : ℤ}
    {cbs : List Callback} (h : run rt handler (.init now) cbs = some sys) (wsi : Wsi) :
    wsi ∈ sys.sessions ↔ Callback.IsOpen wsi cbs := by
  induction cbs using List.reverseRecOn generalizing sys with
  | nil =>
    obtain rfl := Option.some.inj h
    refine iff_of_false ?_ (Callback.not_isOpen_nil wsi)
    simp [System.init]
  | append_singleton cbs cb ih =>
    obtain ⟨t, ht, hstep⟩ := (Runs.run_concat_eq_some _).1 h
    have hm := ((registered_init now).run rt handler ht).move rt handler hstep
    rw [hm.mem_sessions_iff, Callback.isOpen_concat, ih ht]

end Open

/-- Every open session's connection is registered. -/
def SlotsLive (sys : System) : Prop :=
  ∀ wsi session, sys.sessions.lookup wsi = some session →
    ∃ p, sys.server.connections.lookup p.obj.connectionId = some p ∧ session.user = some p.addr
      ∧ p.obj.wsi = wsi

/-- The table the callbacks rely on: for each open socket its own connection, registered under
its own id, and for each entry an open socket; one entry a socket, and no id twice. -/
structure SessionTable (sys : System) : Prop where
  live : SlotsLive sys
  entry : ∀ id p, sys.server.connections.lookup id = some p →
    p.obj.connectionId = id ∧ p.obj.wsi ∈ sys.sessions
  unique : ∀ id p id' p', sys.server.connections.lookup id = some p →
    sys.server.connections.lookup id' = some p' → p.obj.wsi = p'.obj.wsi → id = id'
  count : sys.server.connections.keys.length = sys.sessions.keys.length

variable (rt : Runtime) (handler : Option WebServer.MessageHandler)

/-- The table with what keeps ids apart: as many ids have been given out as addresses, and every
registered one is among them. -/
structure Tabled (sys : System) : Prop extends Registered sys where
  live : SlotsLive sys
  count : sys.server.connections.keys.length = sys.sessions.keys.length
  ids : ∀ id ∈ sys.server.connections, 1 ≤ id ∧ id ≤ sys.nextAddr
  next : sys.server.nextConnectionId = Int.bmod (sys.nextAddr + 1) (2 ^ 32)

/-- A step the table survives. -/
def Ordinary (sys : System) (cb : Callback) : Prop :=
  (∀ wsi, cb = .established wsi → sys.nextAddr + 1 < 2 ^ 31)
    ∧ ∀ id, cb = .closeConnection id → id ∉ sys.server.connections

theorem Tabled.sessionTable {sys : System} (h : Tabled sys) : SessionTable sys where
  live := h.live
  entry id p hp := by
    obtain ⟨session, hs, -⟩ := h.slot id p hp
    exact ⟨h.own id p hp, Dict.mem_iff_exists.2 ⟨session, hs⟩⟩
  unique _ _ _ _ hp hp' hw := h.toRegistered.unique hp hp' hw
  count := h.count

/-- With every open session's connection registered, every step has an outcome. -/
theorem Registered.step_some {sys : System} (hr : Registered sys) (hl : SlotsLive sys)
    (cb : Callback) : ∃ sys', sys.step rt handler cb = some sys' := by
  have hobj : ∀ wsi session, sys.sessions.lookup wsi = some session →
      ∃ p, session.user = some p ∧ ∃ conn, sys.server.object p = some conn := by
    intro wsi session hs
    obtain ⟨p, hp, hu, -⟩ := hl wsi session hs
    exact ⟨p.addr, hu, p.obj, hr.object hp⟩
  cases cb with
  | established wsi =>
    simp only [System.step]
    split_ifs <;> exact ⟨_, rfl⟩
  | receive wsi amb message =>
    simp only [System.step]
    rcases hs : sys.sessions.lookup wsi with _ | session
    · exact ⟨_, rfl⟩
    obtain ⟨p, hu, conn, hc⟩ := hobj wsi session hs
    simp only [handleWebSocketMessage, hu, hc]
    split_ifs <;> exact ⟨_, rfl⟩
  | writeable wsi =>
    simp only [System.step]
    rcases hs : sys.sessions.lookup wsi with _ | session
    · exact ⟨_, rfl⟩
    obtain ⟨p, hu, conn, hc⟩ := hobj wsi session hs
    simp only [handleServerWriteable, hu, hc]
    split_ifs <;> exact ⟨_, rfl⟩
  | closed wsi =>
    simp only [System.step]
    rcases hs : sys.sessions.lookup wsi with _ | session
    · exact ⟨_, rfl⟩
    obtain ⟨p, hu, conn, hc⟩ := hobj wsi session hs
    simp only [handleWebSocketClose, hu, hc]
    exact ⟨_, rfl⟩
  | _ => exact ⟨_, rfl⟩

theorem Kept.tabled {sys sys' : System} (h : Kept sys sys') (ht : Tabled sys) : Tabled sys' where
  toRegistered := h.registered ht.toRegistered
  live wsi session' hs' := by
    obtain ⟨g, hg, hl⟩ := h.sessions
    rw [hl] at hs'
    obtain ⟨session, hs, rfl⟩ := Option.map_eq_some_iff.1 hs'
    obtain ⟨p, hp, hu, hw⟩ := ht.live wsi session hs
    obtain ⟨f, hf, hc⟩ := h.conns
    obtain ⟨ha, hfw, he⟩ := hf p.obj.connectionId p
    refine ⟨f p.obj.connectionId p, ?_, by rw [hg, hu, ha], by rw [hfw, hw]⟩
    rw [hc, Dict.lookup_mapVal, he, hp, Option.map_some]
  count := by
    obtain ⟨f, -, hc⟩ := h.conns
    rw [hc, Dict.keys_mapVal, h.keys, ht.count]
  ids id hid := by
    obtain ⟨f, -, hc⟩ := h.conns
    rw [hc, Dict.mem_mapVal] at hid
    rw [h.nextAddr]
    exact ht.ids id hid
  next := by rw [h.nextId, h.nextAddr, ht.next]

theorem Tabled.nextId {sys : System} (h : Tabled sys) (hb : sys.nextAddr + 1 < 2 ^ 31) :
    sys.server.nextConnectionId = sys.nextAddr + 1 := by
  rw [h.next]
  exact Int.bmod_eq_of_le (by norm_num; omega) (by norm_num; omega)

theorem Tabled.nextId_notMem {sys : System} (h : Tabled sys) (hb : sys.nextAddr + 1 < 2 ^ 31) :
    sys.server.nextConnectionId ∉ sys.server.connections := by
  intro hmem
  have := (h.ids _ hmem).2
  rw [h.nextId hb] at this
  omega

theorem Tabled.connect {sys : System} (h : Tabled sys) {wsi : Wsi} (hw : wsi ∉ sys.sessions)
    (hb : sys.nextAddr + 1 < 2 ^ 31) : Tabled (sys.handleWebSocketConnect rt wsi) where
  toRegistered := h.toRegistered.connect rt hw
  live w session hs := by
    have hses : (sys.handleWebSocketConnect rt wsi).sessions
        = sys.sessions.insert wsi { user := some sys.nextAddr } := rfl
    rw [hses, Dict.lookup_insert_eq] at hs
    simp only [h.toRegistered.lookup_connect]
    split_ifs at hs with hw'
    · rw [Option.some.injEq] at hs
      exact ⟨newEntry rt wsi sys, if_pos rfl, by rw [← hs]; rfl, hw'.symm⟩
    · obtain ⟨p, hp, hu, hpw⟩ := h.live w session hs
      refine ⟨p, ?_, hu, hpw⟩
      rw [if_neg, hp]
      intro he
      exact h.nextId_notMem hb (he ▸ Dict.mem_iff_exists.2 ⟨p, hp⟩)
  count := by
    rw [connect_connections, Dict.keys_mapVal, Dict.length_keys_insert (h.nextId_notMem hb),
      h.count]
    exact (Dict.length_keys_insert hw _).symm
  ids id hid := by
    rw [connect_connections, Dict.mem_mapVal, AList.mem_insert] at hid
    have hlt : (sys.handleWebSocketConnect rt wsi).nextAddr = sys.nextAddr + 1 := rfl
    rw [hlt]
    rcases hid with rfl | hid
    · rw [h.nextId hb]
      push_cast
      omega
    · have := h.ids id hid
      push_cast
      omega
  next := by
    have hn : (sys.handleWebSocketConnect rt wsi).server.nextConnectionId
        = Int.bmod (sys.server.nextConnectionId + 1) (2 ^ 32) := rfl
    have hlt : (sys.handleWebSocketConnect rt wsi).nextAddr = sys.nextAddr + 1 := rfl
    rw [hn, hlt, h.nextId hb]
    push_cast
    rfl

/-- The socket's session and its entry go together. -/
theorem Tabled.drop {sys : System} (h : Tabled sys) {c : ℤ} {p : SharedPtr WebSocketConnection}
    (hp : sys.server.connections.lookup c = some p) : Tabled (sys.drop c p.obj.wsi) where
  toRegistered := h.toRegistered.drop hp
  live w session hs := by
    simp only [System.drop, Dict.lookup_erase_eq] at hs ⊢
    split_ifs at hs with hw
    obtain ⟨q, hq, hu, hqw⟩ := h.live w session hs
    refine ⟨q, ?_, hu, hqw⟩
    rw [if_neg, hq]
    intro he
    rw [he, hp, Option.some.injEq] at hq
    exact hw (by rw [← hqw, ← hq])
  count := by
    obtain ⟨session, hs, -⟩ := h.slot c p hp
    have h1 := Dict.length_keys_erase (Dict.mem_iff_exists.2 ⟨p, hp⟩)
    have h2 := Dict.length_keys_erase (Dict.mem_iff_exists.2 ⟨session, hs⟩)
    have := h.count
    simp only [System.drop]
    omega
  ids id hid := h.ids id (AList.mem_erase.1 hid).2
  next := h.next

theorem closeConnection_of_notMem {sys : System} {id : ℤ} (h : id ∉ sys.server.connections) :
    sys.onServer (.closeConnection id) = sys := by
  simp only [onServer, WebServer.closeConnection, Dict.erase_of_notMem h]

theorem Tabled.step {sys : System} (h : Tabled sys) {cb : Callback} (ho : Ordinary sys cb) :
    ∃ sys', sys.step rt handler cb = some sys' ∧ Tabled sys' := by
  obtain ⟨sys', hstep⟩ := h.toRegistered.step_some rt handler h.live cb
  refine ⟨sys', hstep, ?_⟩
  cases h.toRegistered.move rt handler hstep with
  | idle => exact h
  | opened hw => exact h.connect rt hw (ho.1 _ rfl)
  | answered => exact (kept_deliver rt _ _ sys).tabled h
  | flushed => exact (kept_flush _ _ sys).tabled h
  | closed hp => exact h.drop hp
  | broadcast => exact (kept_deliver rt _ sys.server.data sys).tabled h
  | sent => exact (kept_deliver rt _ sys.server.data sys).tabled h
  | released c => rwa [closeConnection_of_notMem (ho.2 c rfl)]

theorem tabled_init (now : ℤ) : Tabled (.init now) where
  toRegistered := registered_init now
  live wsi session h := by simp [System.init] at h
  count := by simp [System.init, WebServer.init]
  ids id h := by simp [System.init, WebServer.init] at h
  next := by simp [System.init, WebServer.init]

end System

def Callback.isEstablished : Callback → Bool
  | .established _ => true
  | _ => false

namespace System

variable (rt : Runtime) (handler : Option WebServer.MessageHandler)

theorem nextAddr_step {sys sys' : System} (hr : Registered sys) {cb : Callback}
    (h : sys.step rt handler cb = some sys') :
    sys'.nextAddr ≤ sys.nextAddr + if cb.isEstablished then 1 else 0 := by
  cases hr.move rt handler h with
  | opened => exact le_rfl
  | _ => exact Nat.le_add_right _ _

theorem nextAddr_run : ∀ (cbs : List Callback) {sys sys' : System}, Registered sys →
    run rt handler sys cbs = some sys' →
      sys'.nextAddr ≤ sys.nextAddr + cbs.countP (·.isEstablished)
  | [], sys, sys', _, h => by
    rw [run, Runs.run_nil, Option.some.injEq] at h
    rw [h]
    exact Nat.le_add_right _ _
  | cb :: cbs, sys, sys', hr, h => by
    rw [run, Runs.run_cons] at h
    obtain ⟨sys₁, h1, h2⟩ := Option.bind_eq_some_iff.1 h
    have hs := nextAddr_step rt handler hr h1
    have hr := nextAddr_run cbs (hr.step rt handler h1) h2
    rw [List.countP_cons]
    omega

/-- Below `2 ^ 31` establishments, the steps that close no registered id are ordinary. -/
theorem atEvery_ordinary {now : ℤ} {cbs : List Callback}
    (hn : cbs.countP (·.isEstablished) < 2 ^ 31)
    (h : Runs.AtEvery (step rt handler)
      (fun sys cb => ∀ id, cb = .closeConnection id → id ∉ sys.server.connections)
      (.init now) cbs) : Runs.AtEvery (step rt handler) Ordinary (.init now) cbs := by
  intro pre cb post he sys hsys
  refine ⟨fun wsi hcb => ?_, h pre cb post he sys hsys⟩
  have hle := nextAddr_run rt handler pre (registered_init now) hsys
  have h0 : (System.init now).nextAddr = 0 := rfl
  have he1 : Callback.isEstablished cb = true := by rw [hcb]; rfl
  rw [he, List.countP_append, List.countP_cons, if_pos he1] at hn
  omega

/-- The session table holds in every state of a run, for the sockets between their ESTABLISHED and
their CLOSED, exactly when no call of `closeConnection` names a registered id; then no callback
follows a dangling pointer. -/
theorem session_table_iff {now : ℤ} {cbs : List Callback}
    (hn : cbs.countP (·.isEstablished) < 2 ^ 31) :
    (∀ pre, pre <+: cbs →
        ∃ sys, run rt handler (.init now) pre = some sys
          ∧ (∀ wsi, wsi ∈ sys.sessions ↔ Callback.IsOpen wsi pre) ∧ SessionTable sys)
      ↔ Runs.AtEvery (step rt handler)
          (fun sys cb => ∀ id, cb = .closeConnection id → id ∉ sys.server.connections)
          (.init now) cbs := by
  constructor
  · rintro h pre cb post rfl sys hsys id rfl hmem
    -- The entry goes, and its session is left without one.
    obtain ⟨sys₀, h0, -, ht⟩ := h pre (List.prefix_append _ _)
    rw [run, hsys, Option.some.injEq] at h0
    subst h0
    have hr : Registered sys := (registered_init now).run rt handler hsys
    obtain ⟨p, hp⟩ := Dict.mem_iff_exists.1 hmem
    obtain ⟨session, hs, hu⟩ := hr.slot id p hp
    obtain ⟨sys', h', -, ht'⟩ := h (pre ++ [.closeConnection id])
      ((List.prefix_append_right_inj pre).2 ⟨post, rfl⟩)
    rw [run, Runs.run_snoc _ hsys] at h'
    obtain rfl : sys.onServer (.closeConnection id) = sys' := Option.some.inj h'
    obtain ⟨q, hq, hqu, -⟩ := ht'.live _ session hs
    simp only [onServer, WebServer.closeConnection, Dict.lookup_erase_eq] at hq
    split_ifs at hq with hne
    rw [hu, Option.some.injEq] at hqu
    exact hne (hr.inj _ q id p hq hp hqu.symm)
  · intro h pre hpre
    have ho := (atEvery_ordinary rt handler hn h).of_isPrefix _ hpre
    obtain ⟨sys, hsys, ht⟩ := Runs.run_of_atEvery _
      (fun s cb hs hc => hs.step rt handler hc) pre (tabled_init now) ho
    exact ⟨sys, hsys, mem_sessions_iff hsys, ht.sessionTable⟩

/-- A socket that comes back, and another that stays. -/
def reconnect : List Callback := [.established 0, .established 1, .closed 0, .established 0]

theorem session_table_reconnect :
    ∃ sys, run (.ofTable []) none (.init 0) reconnect = some sys
      ∧ (∀ wsi, wsi ∈ sys.sessions ↔ Callback.IsOpen wsi reconnect) ∧ SessionTable sys := by
  refine (session_table_iff (.ofTable []) none (by decide)).2 ?_ reconnect List.prefix_rfl
  rintro pre cb post he sys - id rfl
  have hmem : Callback.closeConnection id ∈ reconnect := by
    rw [he]
    simp
  simp [reconnect] at hmem

/-- A close the server asks for, and then the socket is writeable. -/
theorem closeConnection_dangles :
    ¬ ∀ pre, pre <+: [.established 0, .closeConnection 1, .writeable 0] →
      ∃ sys, run (.ofTable []) none (.init 0) pre = some sys ∧ SessionTable sys := by
  intro h
  obtain ⟨sys, hsys, -⟩ := h _ List.prefix_rfl
  have hnone : run (.ofTable []) none (.init 0)
      [.established 0, .closeConnection 1, .writeable 0] = none := rfl
  rw [hnone] at hsys
  cases hsys

end System

end OcppServer
