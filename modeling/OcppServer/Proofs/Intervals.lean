import OcppServer.Proofs.Polling
import OcppServer.Lib.Runs

/-!
# When the intervals do not pile up

A message is heard on an open socket, so an answer always comes while the client is connected. The
page then replaces its interval, and stops it when the connection closes; only a click that
resumes sets one without asking for a connection. `monitoring.js` sets one with every answer and
never clears any. The property holds along a run exactly when these events stay away
(`calm_iff_guarded`). The server greets each connection with a `connected` of its own, so
`monitoring.js` has two intervals soon after its first.
-/

namespace OcppServer

namespace Web

namespace MonitoringSystem

variable (parse : JsString → Option JsValue)

/-! ## What the callbacks of the client emit -/

section Step

variable (v : Variant) (c : RPCClient)

/-- A callback whose marks are quiet and that does not disconnect. -/
structure Harmless (c c' : RPCClient) : Prop where
  callback : ∃ marks, Callback c c' marks ∧ ∀ mark ∈ marks, Quiet mark
  connected : c.connected = true → c'.connected = true

theorem Callback.refl : Callback c c [] := ⟨(List.append_nil _).symm, rfl, rfl⟩

theorem Harmless.refl : Harmless c c := ⟨⟨[], Callback.refl c, by simp⟩, id⟩

theorem quiet_emitted {name : JsString} (data : EventData) (h : name ≠ js "disconnected")
    (h' : name ≠ js "rpcToggle") : Quiet (.emitted (.str name) data) := by
  intro data'
  simp [h, h']

theorem Quiet.of_mem {mark : Mark} (h : Quiet mark) : ∀ mark' ∈ [mark], Quiet mark' := by
  intro mark' hm
  rw [List.mem_singleton.1 hm]
  exact h

theorem harmless_onopen (k : ℕ) : Harmless c (c.step parse v (.onopen k)) := by
  simp only [RPCClient.step]
  split_ifs
  · refine ⟨⟨[.opened, .emitted (.str (js "connected")) .undefined], ⟨?_, rfl, rfl⟩, ?_⟩,
      fun _ => rfl⟩
    · simp [RPCClient.onopen, RPCClient.emit, RPCClient.note, RPCClient.setSocket]
    · have hq : Quiet (.emitted (.str (js "connected")) .undefined) :=
        quiet_emitted _ (by decide) (by decide)
      intro mark hm
      rcases List.mem_cons.1 hm with rfl | hm
      · intro data
        simp
      · exact hq.of_mem mark hm
  · exact .refl c

theorem harmless_onerror (k : ℕ) : Harmless c (c.step parse v (.onerror k)) := by
  simp only [RPCClient.step]
  split_ifs
  · have hq : Quiet (.emitted (.str (js "error")) .error) :=
      quiet_emitted _ (by decide) (by decide)
    exact ⟨⟨_, ⟨rfl, rfl, rfl⟩, hq.of_mem⟩, id⟩
  · exact .refl c

theorem harmless_connect (origin : Origin) (constructed : Bool) :
    Harmless c (c.connect v origin constructed) := by
  unfold RPCClient.connect
  split_ifs
  · have hq : Quiet (.created origin) := by
      intro data
      simp
    exact ⟨⟨_, ⟨rfl, rfl, rfl⟩, hq.of_mem⟩, id⟩
  · have hq : Quiet (.emitted (.str (js "connectionError")) .error) :=
      quiet_emitted _ (by decide) (by decide)
    exact ⟨⟨_, ⟨rfl, rfl, rfl⟩, hq.of_mem⟩, id⟩
  · exact .refl c

theorem harmless_timer (constructed : Bool) :
    Harmless c (c.step parse v (.timer constructed)) := by
  simp only [RPCClient.step]
  split_ifs
  · exact .refl c
  · obtain ⟨⟨marks, h, hq⟩, hconn⟩ :=
      harmless_connect v { c with timers := c.timers - 1 } .auto constructed
    exact ⟨⟨marks, ⟨h.log, h.book, h.rpcEnabled⟩, hq⟩, hconn⟩

theorem callback_onclose {c : RPCClient} {k : ℕ} (hk : c.Live k) :
    ∃ rest, Callback c (c.step parse v (.onclose k))
        (.closed :: .emitted (.str (js "disconnected")) .undefined :: rest)
      ∧ (∀ mark ∈ rest, Quiet mark) ∧ (c.step parse v (.onclose k)).connected = false := by
  rw [RPCClient.step_onclose_of_live parse v hk]
  unfold RPCClient.onclose RPCClient.handleReconnect
  dsimp only
  split_ifs
  · refine ⟨[], ⟨?_, rfl, rfl⟩, by simp, rfl⟩
    simp [RPCClient.emit, RPCClient.note, RPCClient.setSocket]
  · have hq : Quiet (.emitted (.str (js "reconnect_failed")) .undefined) :=
      quiet_emitted _ (by decide) (by decide)
    refine ⟨[.emitted (.str (js "reconnect_failed")) .undefined], ⟨?_, rfl, rfl⟩, hq.of_mem, rfl⟩
    simp [RPCClient.emit, RPCClient.note, RPCClient.setSocket]
  · refine ⟨[], ⟨?_, rfl, rfl⟩, by simp, rfl⟩
    simp [RPCClient.emit, RPCClient.note, RPCClient.setSocket]

end Step

/-! ## The answer to `getValues` -/

section Answer

variable (displayed : Bool) {impl : Implementation} {m m' : MonitoringSystem}

theorem monitoringStarted_eq (values : Promise) (m : MonitoringSystem) :
    (m.monitoringStarted parse impl displayed values).rpc = m.rpc
      ∧ (m.monitoringStarted parse impl displayed values).awaiting = m.awaiting := by
  unfold monitoringStarted
  split
  · cases impl
    · dsimp only
      split_ifs
      · exact ⟨rpc_startMetricsUpdate m, awaiting_startMetricsUpdate m⟩
      · exact ⟨rfl, rfl⟩
    · dsimp only
      split
      · exact ⟨rfl, rfl⟩
      · exact ⟨rfl, rfl⟩
  · exact ⟨rfl, rfl⟩

theorem Kept.monitoringStarted (h : Kept impl m) (values : Promise) :
    Kept impl (m.monitoringStarted parse impl displayed values) := by
  unfold MonitoringSystem.monitoringStarted
  split
  · cases impl
    · have hown : m.Owned := h.own
      dsimp only
      split_ifs
      · exact ⟨by simpa using h.enabled, hown.single.start⟩
      · exact h
    · dsimp only
      split
      · exact ⟨h.enabled, h.own⟩
      · exact h
  · exact h

theorem proceed_eq (m : MonitoringSystem) (i : ℕ) :
    (m.proceed parse impl displayed i).rpc = m.rpc
      ∧ (m.proceed parse impl displayed i).awaiting = m.awaiting := by
  unfold proceed
  split
  · exact monitoringStarted_eq parse displayed _ m
  · exact ⟨rfl, rfl⟩

theorem Kept.proceed (h : Kept impl m) (i : ℕ) :
    Kept impl (m.proceed parse impl displayed i) := by
  unfold MonitoringSystem.proceed
  split
  · exact h.monitoringStarted parse displayed _
  · exact h

theorem proceeds : ∀ (settled : List ℕ) {m : MonitoringSystem}, Kept impl m →
    (settled.foldl (proceed parse impl displayed) m).rpc = m.rpc
      ∧ (settled.foldl (proceed parse impl displayed) m).awaiting = m.awaiting
      ∧ Kept impl (settled.foldl (proceed parse impl displayed) m)
  | [], _, h => ⟨rfl, rfl, h⟩
  | i :: settled, m, h => by
    obtain ⟨hr, ha⟩ := @proceed_eq parse displayed impl m i
    obtain ⟨hr', ha', hk⟩ := proceeds settled (h.proceed parse displayed i)
    exact ⟨hr'.trans hr, ha'.trans ha, hk⟩

theorem resume_eq (h : Kept impl m) :
    (m.resume parse impl displayed).rpc = m.rpc
      ∧ (m.resume parse impl displayed).awaiting = m.awaiting.filter (fun i => m.rpc.waits i)
      ∧ Kept impl (m.resume parse impl displayed) :=
  proceeds parse displayed _
    (m := { m with awaiting := m.awaiting.filter fun i => m.rpc.waits i })
    (h.congr rfl rfl rfl rfl)

theorem resume_of_waiting (h : ∀ i ∈ m.awaiting, m.rpc.waits i = true) :
    m.resume parse impl displayed = m := by
  have hsettled : (m.awaiting.filter fun i => !m.rpc.waits i) = [] :=
    List.filter_eq_nil_iff.2 fun i hi => by simp [h i hi]
  have hwaiting : (m.awaiting.filter fun i => m.rpc.waits i) = m.awaiting :=
    List.filter_eq_self.2 h
  rw [resume, hsettled, hwaiting]
  rfl

end Answer

/-! ## One event -/

/-- The message is an answer with values to a `startMonitoring` of `monitoring.js`. -/
def BringsValues (k : ℕ) (data : JsString) (m : MonitoringSystem) : Prop :=
  m.rpc.sockets[k]? = some .open ∧ ∃ message n i values,
    RPCClient.parsed? parse .clientJs data = some message
      ∧ m.rpc.pendingCall? message = some (n, i) ∧ i ∈ m.awaiting
      ∧ answer .clientJs message = .resolved values ∧ (valuesOf parse values).isSome

/-- On the page no click resumes while the client is disconnected; with `monitoring.js` no values
come, and no connection closes, while an interval is set. -/
def Guarded (impl : Implementation) (m : MonitoringSystem) (e : MonitoringEvent) : Prop :=
  match impl, e with
  | .indexHtml, .toggleRPC => m.rpcEnabled = false → m.rpc.connected = true
  | .monitoringJs, .onmessage k data _ _ => m.BringsValues parse k data → m.intervals = []
  | .monitoringJs, .onclose k => m.rpc.Live k → m.intervals = []
  | _, _ => True

section Step

variable {impl : Implementation} {m : MonitoringSystem}

theorem calm_of_disconnected (h : m.rpc.connected = false) : Calm m ↔ m.intervals = [] := by
  refine ⟨fun hc => hc.none (.inl h), fun hi => ⟨?_, fun _ => hi⟩⟩
  rw [hi]
  exact Nat.zero_le 1

/-- After an event that only calls. -/
theorem base_calm_of_heard {m' : MonitoringSystem} (hb : Base impl m) (hc : Calm m)
    (h : Heard m m') (he : m'.rpcEnabled = m.rpcEnabled) (hi : m'.intervals = m.intervals)
    (hm : m'.metricsInterval = m.metricsInterval) : Base impl m' ∧ Calm m' := by
  have hk := hb.kept.congr h.enabled he hi hm
  exact ⟨hb.heard h hk, hk.calm_congr hc hi fun h' => (RPCClient.link_eq h.link).2.1.trans h'⟩

/-- After an event that is heard and changes no interval. -/
theorem base_calm_of_harmless (hb : Base impl m) (hc : Calm m) {rpc : RPCClient}
    {sendFails : Bool} (hs : RPCClient.OneSocket rpc) (h : Harmless m.rpc rpc) :
    Base impl (m.follow impl sendFails rpc) ∧ Calm (m.follow impl sendFails rpc) := by
  obtain ⟨⟨marks, hcb, hq⟩, hconn⟩ := h
  have hbase := hb.follow sendFails hcb hs fun data hmem => (hq _ hmem data).2 rfl
  refine ⟨hbase, hbase.kept.calm_congr hc ?_ fun h' => ?_⟩
  · rw [hcb.follow_eq]
    exact intervals_marks sendFails (fun mark hm => .inr (hq mark hm)) _
  · rw [connected_follow]
    exact hconn h'

theorem step_onclose (hb : Base impl m) (hc : Calm m) (k : ℕ) :
    Base impl (m.step parse impl (.onclose k))
      ∧ (Calm (m.step parse impl (.onclose k)) ↔ Guarded parse impl m (.onclose k)) := by
  have hs := hb.socket.step parse impl.variant (e := .onclose k) trivial
  by_cases hk : m.rpc.Live k
  · obtain ⟨rest, hcb, hq, hconn⟩ := callback_onclose parse impl.variant hk
    have hbase := hb.follow false hcb hs fun data hmem => by
      rcases List.mem_cons.1 hmem with hmem | hmem
      · cases hmem
      rcases List.mem_cons.1 hmem with hmem | hmem
      · simp only [Mark.emitted.injEq, JsValue.str.injEq] at hmem
        exact absurd hmem.1 (by decide)
      · exact (hq _ hmem data).2 rfl
    have hfollow : (m.step parse impl (.onclose k)).rpc.connected = false :=
      (connected_follow false _ m).trans hconn
    refine ⟨hbase, (calm_of_disconnected hfollow).trans ?_⟩
    rw [step, hcb.follow_eq]
    cases impl
    · refine iff_of_true ?_ trivial
      rw [List.foldl_cons, List.foldl_cons,
        intervals_marks false fun mark hm => .inr (hq mark hm)]
      have hs : Single { m with
          rpc := m.rpc.step parse Implementation.indexHtml.variant (.onclose k)
          connectionState := false } := hb.kept.own.single
      have hne : js "disconnected" ≠ js "connected" := by decide
      simp only [hear, handle, hne, if_false, if_true]
      exact hs.stopped.1
    · rw [intervals_marks false fun mark _ => .inl rfl, Guarded]
      exact ⟨fun h _ => h, fun h => h hk⟩
  · have hstep : m.step parse impl (.onclose k) = m := by
      simp only [step, RPCClient.step_onclose_of_not_live parse impl.variant hk, follow,
        List.drop_length]
      rfl
    rw [hstep]
    refine ⟨hb, iff_of_true hc ?_⟩
    cases impl
    · trivial
    · exact fun h => absurd h hk

end Step

/-! ## A message -/

section Message

variable {impl : Implementation} {m m' : MonitoringSystem}

theorem onmessage_eq (v : Variant) (k : ℕ) (data : JsString) (c : RPCClient) :
    (c.step parse v (.onmessage k data)).link = c.link
      ∧ (c.step parse v (.onmessage k data)).rpcEnabled = c.rpcEnabled := by
  simp only [RPCClient.step]
  split_ifs
  · exact ⟨RPCClient.link_onmessage parse v data c, RPCClient.rpcEnabled_onmessage parse v data c⟩
  · exact ⟨rfl, rfl⟩

/-- It answers a call, or leaves the calls alone. -/
theorem onmessage_cases (v : Variant) (k : ℕ) (data : JsString) (c : RPCClient) :
    ((c.step parse v (.onmessage k data)).book = c.book
      ∧ (c.sockets[k]? = some .open → ¬ c.Deaf v →
        ∀ message, RPCClient.parsed? parse v data = some message → c.pendingCall? message = none))
    ∨ ∃ message n i, c.sockets[k]? = some .open ∧ RPCClient.parsed? parse v data = some message
      ∧ c.pendingCall? message = some (n, i)
      ∧ (c.step parse v (.onmessage k data)).calls = answered v message i c.calls := by
  obtain ⟨b, hb, hstep⟩ := RPCClient.exists_bookStep parse v c (.onmessage k data)
  generalize c.step parse v (.onmessage k data) = c' at hb ⊢
  cases hstep with
  | replied ho hd hm hp =>
    simp only [RPCClient.book, Prod.mk.injEq] at hb
    exact .inr ⟨_, _, _, ho, hm, hp, hb.2.2⟩
  | passed h => exact .inl ⟨hb, h⟩
  | other hc hm => exact absurd rfl (hm k data)

theorem length_onmessage (v : Variant) (k : ℕ) (data : JsString) (c : RPCClient) :
    (c.step parse v (.onmessage k data)).calls.length = c.calls.length := by
  rcases onmessage_cases parse v k data c with ⟨hb, -⟩ | ⟨message, n, i, -, -, -, hc⟩
  · rw [(RPCClient.book_eq hb).2.2]
  · rw [hc, answered]
    split_ifs
    · rfl
    · exact List.length_modify _ _ _

/-- Nothing is heard of a message while the page is paused. -/
theorem onmessage_deaf {v : Variant} {c : RPCClient} (hd : c.Deaf v) (k : ℕ) (data : JsString) :
    c.step parse v (.onmessage k data) = c := by
  simp only [RPCClient.step]
  split_ifs
  · rw [RPCClient.onmessage, if_pos hd]
  · rfl

theorem follow_self (sendFails : Bool) (m : MonitoringSystem) :
    m.follow impl sendFails m.rpc = m := by
  rw [follow, List.drop_length]
  rfl

theorem Base.kept_message (hb : Base impl m) (k : ℕ) (data : JsString) (sendFails : Bool) :
    Kept impl (m.follow impl sendFails (m.rpc.step parse impl.variant (.onmessage k data))) := by
  by_cases hd : m.rpc.Deaf impl.variant
  · rw [onmessage_deaf parse hd, follow_self]
    exact hb.kept
  · have he := (onmessage_eq parse impl.variant k data m.rpc).2
    have htrue : m.rpc.rpcEnabled = true := by
      have hkept := hb.kept
      cases impl
      · simpa [RPCClient.Deaf, Implementation.variant, Variant.embedded] using hd
      · exact hkept.enabled hkept.own
    have hk : Kept impl { m with
        rpc := m.rpc.step parse impl.variant (.onmessage k data) } :=
      hb.kept.congr he rfl rfl rfl
    exact hk.marks sendFails fun _ _ _ => he.trans htrue

/-- Of the calls waited for, the handlers settle none. -/
theorem Heard.settled (h : Heard m m') (hlt : ∀ i ∈ m.awaiting, i < m.rpc.calls.length) :
    (m'.awaiting.filter fun i => !m'.rpc.waits i) = m.awaiting.filter fun i => !m.rpc.waits i := by
  obtain ⟨more, ha, -, hw⟩ := h.awaiting
  have hmore : (more.filter fun i => !m'.rpc.waits i) = [] :=
    List.filter_eq_nil_iff.2 fun i hi => by simp [(hw i hi).2]
  rw [ha, List.filter_append, hmore, List.append_nil]
  exact List.filter_congr fun i hi => by rw [h.waits (hlt i hi)]

theorem Base.known (hb : Base impl m) (k : ℕ) (data : JsString) :
    ∀ i ∈ m.awaiting, i < (m.rpc.step parse impl.variant (.onmessage k data)).calls.length := by
  intro i hi
  rw [length_onmessage]
  exact RPCClient.waits_lt (hb.waiting i hi)

theorem base_onmessage (hb : Base impl m) (k : ℕ) (data : JsString) (sendFails displayed : Bool) :
    Base impl (m.step parse impl (.onmessage k data sendFails displayed)) := by
  have hk := hb.kept_message parse k data sendFails
  have hh := heard_follow impl sendFails (m.rpc.step parse impl.variant (.onmessage k data)) m
  have hlink := (onmessage_eq parse impl.variant k data m.rpc).1
  obtain ⟨hr, ha, hkept⟩ := resume_eq parse displayed hk
  obtain ⟨more, hma, hmn, hmw⟩ := hh.awaiting
  rw [step]
  refine ⟨?_, ?_, ?_, hkept⟩
  · rw [hr]
    exact (hb.socket.congr hlink).congr hh.link
  · rw [ha, hma]
    refine (List.nodup_append.2 ⟨hb.nodup, hmn, fun i hi j hj heq => ?_⟩).filter _
    have hlt := hb.known parse k data i hi
    have hle := (hmw j hj).1
    simp only at hle
    omega
  · intro i hi
    rw [ha] at hi
    rw [hr]
    exact (List.mem_filter.1 hi).2

/-- A message on a socket that is not open is none. -/
theorem onmessage_of_not_open (hb : Base impl m) {k : ℕ} (ho : m.rpc.sockets[k]? ≠ some .open)
    (data : JsString) (sendFails displayed : Bool) :
    m.step parse impl (.onmessage k data sendFails displayed) = m := by
  have hrpc : m.rpc.step parse impl.variant (.onmessage k data) = m.rpc := by
    simp only [RPCClient.step, if_neg ho]
  rw [step, hrpc, follow_self, resume_of_waiting parse displayed hb.waiting]

theorem intervals_monitoringStarted (displayed : Bool) (values : Promise) (m : MonitoringSystem) :
    (m.monitoringStarted parse .monitoringJs displayed values).intervals
      = m.intervals ++ (match values with
        | .resolved values =>
          if (valuesOf parse values).isSome then [m.lastInterval + 1] else []
        | _ => []) := by
  unfold monitoringStarted
  split
  · dsimp only
    split
    · rename_i h
      rw [h]
      rfl
    · rename_i h
      rw [h]
      simp
  · simp

theorem filter_eq_singleton {l : List ℕ} (hn : l.Nodup) {i : ℕ} (hi : i ∈ l) {p : ℕ → Bool}
    (hp : ∀ j ∈ l, p j = true ↔ j = i) : l.filter p = [i] := by
  have heq : l.filter p = l.filter fun j => j == i :=
    List.filter_congr fun j hj => by rw [Bool.eq_iff_iff, hp j hj, beq_iff_eq]
  rw [heq, List.filter_beq, List.count_eq_one_of_mem hn hi]
  rfl

theorem exists_of_waits {c : RPCClient} {j : ℕ} (h : c.waits j = true) :
    ∃ call, c.calls[j]? = some call ∧ call.promise = .pending := by
  unfold RPCClient.waits at h
  split at h
  · rename_i call hc
    refine ⟨call, hc, ?_⟩
    unfold Promise.isPending at h
    split at h
    · assumption
    · cases h
    · cases h
  · cases h

theorem amend_promise {v : Variant} {message : JsValue} {call : Call}
    (hg : garbled message = false) (hp : call.promise = .pending) :
    (call.amend v message).promise = answer v message := by
  rw [Call.amend, if_neg (by simp [hg]), settle_of_pending hp]

/-- The call the message answers is the one that is no longer waited for. -/
theorem waits_answered {c c' : RPCClient} {v : Variant} {message : JsValue} {i j : ℕ}
    (hc : c'.calls = answered v message i c.calls) (hw : c.waits j = true) :
    c'.waits j = false ↔ j = i ∧ garbled message = false := by
  obtain ⟨call, hcall, hp⟩ := exists_of_waits hw
  unfold RPCClient.waits
  rw [hc, answered_getElem?, hcall, Option.map_some]
  dsimp only
  split_ifs with hij
  · by_cases hg : garbled message = true
    · simp [Call.amend, hg, hp, Promise.isPending]
    · have hne := answer_ne_pending v message
      rw [amend_promise (by simpa using hg) hp]
      refine iff_of_true ?_ ⟨hij.symm, by simpa using hg⟩
      unfold Promise.isPending
      split
      · exact absurd ‹_› hne
      · rfl
      · rfl
  · rw [hp]
    exact iff_of_false (by simp [Promise.isPending]) fun h => hij h.1.symm

variable {k : ℕ} {data : JsString}

/-- If the message settles none of the calls waited for. -/
theorem intervals_of_none (hb : Base .monitoringJs m) (sendFails displayed : Bool)
    (h : ∀ i ∈ m.awaiting, (m.rpc.step parse .clientJs (.onmessage k data)).waits i = true) :
    (m.step parse .monitoringJs (.onmessage k data sendFails displayed)).intervals
      = m.intervals := by
  have hh := heard_follow .monitoringJs sendFails
    (m.rpc.step parse .clientJs (.onmessage k data)) m
  have hnone : (m.awaiting.filter fun i =>
      !(m.rpc.step parse .clientJs (.onmessage k data)).waits i) = [] :=
    List.filter_eq_nil_iff.2 fun i hi => by simp [h i hi]
  have hsettled := (hh.settled (hb.known parse k data)).trans hnone
  simp only [step, resume, Implementation.variant, hsettled, List.foldl_nil]
  rw [follow]
  exact intervals_marks sendFails (fun _ _ => .inl rfl) _

/-- If it answers one of them. -/
theorem intervals_of_answer (hb : Base .monitoringJs m) (sendFails displayed : Bool)
    {message : JsValue} {i : ℕ} (hi : i ∈ m.awaiting) (hg : garbled message = false)
    (hc : (m.rpc.step parse .clientJs (.onmessage k data)).calls
      = answered .clientJs message i m.rpc.calls) :
    ∃ id, (m.step parse .monitoringJs (.onmessage k data sendFails displayed)).intervals
      = m.intervals ++ (match answer .clientJs message with
        | .resolved values => if (valuesOf parse values).isSome then [id] else []
        | _ => []) := by
  have hh := heard_follow .monitoringJs sendFails
    (m.rpc.step parse .clientJs (.onmessage k data)) m
  have hone : (m.awaiting.filter fun j =>
      !(m.rpc.step parse .clientJs (.onmessage k data)).waits j) = [i] :=
    filter_eq_singleton hb.nodup hi fun j hj => by
      simp [waits_answered hc (hb.waiting j hj), hg]
  have hsettled := (hh.settled (hb.known parse k data)).trans hone
  obtain ⟨call, hcall, hp⟩ := exists_of_waits (hb.waiting i hi)
  obtain ⟨new, hnew⟩ := hh.calls
  have hget : (m.follow .monitoringJs sendFails
      (m.rpc.step parse .clientJs (.onmessage k data))).rpc.calls[i]?
        = some (call.amend .clientJs message) := by
    have hlt := hb.known parse k data i hi
    rw [hnew]
    refine (List.getElem?_append_left hlt).trans ?_
    rw [Implementation.variant, hc, answered_getElem?, hcall]
    simp
  simp only [step, resume, Implementation.variant, hsettled, List.foldl_cons, List.foldl_nil,
    proceed, hget, intervals_monitoringStarted, amend_promise hg hp]
  rw [follow, intervals_marks sendFails fun _ _ => .inl rfl]
  exact ⟨_, rfl⟩

theorem intervals_onmessage (hb : Base .monitoringJs m) (sendFails displayed : Bool)
    (ho : m.rpc.sockets[k]? = some .open) :
    (m.BringsValues parse k data → ∃ id,
        (m.step parse .monitoringJs (.onmessage k data sendFails displayed)).intervals
          = m.intervals ++ [id])
      ∧ (¬ m.BringsValues parse k data →
        (m.step parse .monitoringJs (.onmessage k data sendFails displayed)).intervals
          = m.intervals) := by
  have hw : ∀ i ∈ m.awaiting, m.rpc.waits i = true := hb.waiting
  rcases onmessage_cases parse .clientJs k data m.rpc with
    ⟨hbook, hpass⟩ | ⟨message, n, i, -, hm, hp, hc⟩
  · have hnone := hpass ho (by simp [RPCClient.Deaf, Variant.embedded])
    refine ⟨?_, fun _ => intervals_of_none parse hb sendFails displayed fun i hi => ?_⟩
    · rintro ⟨-, message, n, i, -, hm, hp, -⟩
      rw [hnone message hm] at hp
      cases hp
    · rw [RPCClient.waits_congr hbook]
      exact hw i hi
  · have hbrings : m.BringsValues parse k data ↔ i ∈ m.awaiting ∧
        ∃ values, answer .clientJs message = .resolved values ∧ (valuesOf parse values).isSome := by
      constructor
      · rintro ⟨-, message', n', i', values, hm', hp', hi', hv⟩
        obtain rfl := Option.some.inj (hm.symm.trans hm')
        obtain ⟨rfl, rfl⟩ := Prod.mk.inj (Option.some.inj (hp.symm.trans hp'))
        exact ⟨hi', values, hv⟩
      · rintro ⟨hi, values, hv⟩
        exact ⟨ho, message, n, i, values, hm, hp, hi, hv⟩
    by_cases hi : i ∈ m.awaiting ∧ garbled message = false
    · obtain ⟨id, hid⟩ := intervals_of_answer parse hb sendFails displayed hi.1 hi.2 hc
      rw [hid, hbrings]
      cases ha : answer .clientJs message with
      | resolved values =>
        by_cases hv : (valuesOf parse values).isSome
        · exact ⟨fun _ => ⟨id, by simp [hv]⟩, fun h => absurd ⟨hi.1, values, rfl, hv⟩ h⟩
        · refine ⟨fun h => ?_, fun _ => by simp [hv]⟩
          obtain ⟨-, values', ha', hv'⟩ := h
          exact absurd (Promise.resolved.inj ha' ▸ hv') hv
      | pending | rejected =>
        refine ⟨fun h => ?_, fun _ => by simp⟩
        obtain ⟨-, values, ha', -⟩ := h
        cases ha'
    · refine ⟨fun h => ?_, fun _ => intervals_of_none parse hb sendFails displayed fun j hj => ?_⟩
      · obtain ⟨hmem, values, ha, -⟩ := hbrings.1 h
        refine absurd ⟨hmem, ?_⟩ hi
        unfold answer at ha
        split_ifs at ha with ht
        all_goals simp [garbled, ht]
      · have hnot := (waits_answered hc (hw j hj)).not.2 fun h => hi ⟨h.1 ▸ hj, h.2⟩
        simpa using hnot

theorem step_onmessage (hb : Base impl m) (hc : Calm m) (sendFails displayed : Bool) :
    Calm (m.step parse impl (.onmessage k data sendFails displayed))
      ↔ Guarded parse impl m (.onmessage k data sendFails displayed) := by
  by_cases ho : m.rpc.sockets[k]? = some .open
  swap
  · rw [onmessage_of_not_open parse hb ho]
    refine iff_of_true hc ?_
    cases impl
    · trivial
    · exact fun h => absurd h.1 ho
  have hkept := (base_onmessage parse hb k data sendFails displayed).kept
  have hconn : (m.step parse impl (.onmessage k data sendFails displayed)).rpc.connected
      = true := by
    obtain ⟨hr, -, -⟩ := resume_eq parse displayed (hb.kept_message parse k data sendFails)
    have hlink := (onmessage_eq parse impl.variant k data m.rpc).1
    rw [step, hr, connected_follow, (RPCClient.link_eq hlink).2.1]
    exact hb.socket.connected k ho
  rw [hkept.calm_iff, and_iff_left fun _ => hconn]
  cases impl
  · refine iff_of_true ?_ trivial
    rw [hkept.own.single]
    exact Option.length_toList_le
  · obtain ⟨hyes, hno⟩ := intervals_onmessage parse hb sendFails displayed ho
    rw [Guarded]
    by_cases hv : m.BringsValues parse k data
    · obtain ⟨id, hid⟩ := hyes hv
      rw [hid, List.length_append, List.length_singleton]
      simp [hv]
    · rw [hno hv]
      exact iff_of_true hc.one fun h => absurd h hv

end Message

/-! ## A click on the pause button -/

section Toggle

variable {m : MonitoringSystem}

/-- The class hears of it from the client, and then toggles once more itself. -/
theorem toggleRPC_eq (m : MonitoringSystem) :
    m.toggleRPC .indexHtml
      = ({ m with rpc := m.rpc.setRPCEnabled .indexHtml !m.rpcEnabled }.rpcToggle
          (.flag !m.rpcEnabled)).rpcToggle (.flag !m.rpcEnabled) := by
  have hlog : (m.rpc.setRPCEnabled .indexHtml !m.rpcEnabled).log
      = m.rpc.log ++ [.emitted (.str (js "rpcToggle")) (.flag !m.rpcEnabled)] := rfl
  have hne : js "rpcToggle" ≠ js "connected" := by decide
  have hne' : js "rpcToggle" ≠ js "disconnected" := by decide
  simp only [toggleRPC, follow, Implementation.variant, hlog, List.drop_left, List.foldl_cons,
    List.foldl_nil, hear, handle, hne, hne', if_false, if_true]
  rfl

theorem step_toggleRPC {impl : Implementation} (hb : Base impl m) (hc : Calm m) :
    Base impl (m.step parse impl .toggleRPC)
      ∧ (Calm (m.step parse impl .toggleRPC) ↔ Guarded parse impl m .toggleRPC) := by
  cases impl
  swap
  · exact ⟨hb, iff_of_true hc trivial⟩
  have hs : Single { m with rpc := m.rpc.setRPCEnabled .indexHtml !m.rpcEnabled } :=
    hb.kept.own.single
  have howned := (hs.toggle (.flag !m.rpcEnabled)).single.toggle (.flag !m.rpcEnabled)
  have htoggled := (hs.toggle (.flag !m.rpcEnabled)).single.toggled (.flag !m.rpcEnabled)
  rw [step, toggleRPC_eq, Guarded]
  generalize hm : ({ m with rpc := m.rpc.setRPCEnabled .indexHtml !m.rpcEnabled }.rpcToggle
    (.flag !m.rpcEnabled)).rpcToggle (.flag !m.rpcEnabled) = m' at howned htoggled ⊢
  have hrpc : m'.rpc = m.rpc.setRPCEnabled .indexHtml !m.rpcEnabled := by
    simp [← hm]
  have hlink : m'.rpc.link = m.rpc.link := by
    rw [hrpc, RPCClient.link_setRPCEnabled]
  have hkept : Kept .indexHtml m' := by
    refine ⟨fun he => ?_, howned⟩
    rw [← hm, rpcEnabled_rpcToggle] at he
    rw [hrpc]
    exact he
  refine ⟨⟨hb.socket.congr hlink, ?_, fun i hi => ?_, hkept⟩, ?_⟩
  · simpa [← hm] using hb.nodup
  · have hi' : i ∈ m.awaiting := by
      simpa [← hm] using hi
    rw [hrpc, RPCClient.waits_congr (RPCClient.book_setRPCEnabled _ _ _)]
    exact hb.waiting i hi'
  · rw [hkept.calm_iff, htoggled, (RPCClient.link_eq hlink).2.1, howned.single]
    simp [EventData.truthy, Option.length_toList_le]

end Toggle

/-! ## Runs -/

section Run

variable {impl : Implementation} {m : MonitoringSystem}

theorem sendCommand_cases (sendFails : Bool) (m : MonitoringSystem) :
    m.sendCommand impl sendFails = m ∨ m.sendCommand impl sendFails = m.call impl sendFails := by
  unfold sendCommand
  cases impl
  · dsimp only
    split_ifs
    · exact .inr rfl
    · exact .inl rfl
  · dsimp only
    split_ifs
    · exact .inr rfl
    · exact .inl rfl

theorem updateMetrics_cases (sendFails : Bool) (m : MonitoringSystem) :
    m.updateMetrics impl sendFails = m
      ∨ m.updateMetrics impl sendFails = m.call impl sendFails := by
  unfold updateMetrics
  cases impl
  · dsimp only
    split_ifs
    · exact .inr rfl
    · exact .inl rfl
  · exact .inr rfl

theorem base_calm_call (hb : Base impl m) (hc : Calm m) (sendFails : Bool) :
    Base impl (m.call impl sendFails) ∧ Calm (m.call impl sendFails) :=
  base_calm_of_heard hb hc (heard_call impl sendFails m) rfl rfl rfl

/-- What one event does to the invariant and to the property. -/
theorem step_calm_iff (hb : Base impl m) (hc : Calm m) (e : MonitoringEvent) :
    Base impl (m.step parse impl e)
      ∧ (Calm (m.step parse impl e) ↔ Guarded parse impl m e) := by
  have hsocket : ∀ {e'}, RPCClient.Unasked e' →
      RPCClient.OneSocket (m.rpc.step parse impl.variant e') :=
    fun h => hb.socket.step parse impl.variant h
  have hfree : (∀ m', Guarded parse impl m' e) → Base impl (m.step parse impl e)
        ∧ Calm (m.step parse impl e) →
      Base impl (m.step parse impl e)
        ∧ (Calm (m.step parse impl e) ↔ Guarded parse impl m e) :=
    fun hg h => ⟨h.1, iff_of_true h.2 (hg m)⟩
  cases e with
  | onopen k sendFails =>
    refine hfree (fun _ => by cases impl <;> trivial) ?_
    exact base_calm_of_harmless hb hc (hsocket trivial) (harmless_onopen parse _ _ k)
  | onmessage k data sendFails displayed =>
    exact ⟨base_onmessage parse hb k data sendFails displayed,
      step_onmessage parse hb hc sendFails displayed⟩
  | onclose k => exact step_onclose parse hb hc k
  | onerror k =>
    refine hfree (fun _ => by cases impl <;> trivial) ?_
    exact base_calm_of_harmless hb hc (hsocket trivial) (harmless_onerror parse _ _ k)
  | reconnect constructed =>
    refine hfree (fun _ => by cases impl <;> trivial) ?_
    exact base_calm_of_harmless hb hc (hsocket trivial) (harmless_timer parse _ _ constructed)
  | toggleRPC => exact step_toggleRPC parse hb hc
  | sendCommand sendFails =>
    refine hfree (fun _ => by cases impl <;> trivial) ?_
    rw [step]
    rcases sendCommand_cases sendFails m with h | h
    · rw [h]
      exact ⟨hb, hc⟩
    · rw [h]
      exact base_calm_call hb hc sendFails
  | debugTimeout sendFails =>
    refine hfree (fun _ => by cases impl <;> trivial) ?_
    rw [step]
    split_ifs
    · exact ⟨hb, hc⟩
    · have hh : Heard m { m with debugTimeouts := m.debugTimeouts - 1 } := .of_eq rfl rfl
      exact base_calm_of_heard hb hc (hh.trans (heard_call impl sendFails _)) rfl rfl rfl
  | interval id sendFails =>
    refine hfree (fun _ => by cases impl <;> trivial) ?_
    rw [step]
    split_ifs
    · rcases updateMetrics_cases sendFails m with h | h
      · rw [h]
        exact ⟨hb, hc⟩
      · rw [h]
        exact base_calm_call hb hc sendFails
    · exact ⟨hb, hc⟩

theorem base_init (impl : Implementation) (constructed : Bool) :
    Base impl (init parse impl constructed) ∧ Calm (init parse impl constructed) := by
  have hno : ∀ k, ¬ ({} : RPCClient).Live k := by
    rintro k ⟨r, hr, -⟩
    simp at hr
  have hbase : Base impl {} := by
    refine ⟨⟨Nat.zero_le 1, fun hne => absurd rfl hne, fun j _ hj => absurd hj (hno j), ?_⟩,
      .nil, by simp, ⟨fun _ => rfl, ?_⟩⟩
    · intro k hk
      exact absurd ⟨_, hk, by simp⟩ (hno k)
    · cases impl
      · exact ⟨rfl, by simp⟩
      · rfl
  have hcalm : Calm {} := ⟨Nat.zero_le 1, fun _ => rfl⟩
  refine base_calm_of_harmless hbase hcalm
    (RPCClient.oneSocket_connect impl.variant (c := ({} : RPCClient).note .connectCalled)
      hno rfl .app constructed) ?_
  obtain ⟨⟨marks, h, hq⟩, hconn⟩ :=
    harmless_connect impl.variant (({} : RPCClient).note .connectCalled) .app constructed
  refine ⟨⟨.connectCalled :: marks, ⟨h.log, h.book, h.rpcEnabled⟩, ?_⟩, hconn⟩
  intro mark hm
  rcases List.mem_cons.1 hm with rfl | hm
  · intro data
    simp
  · exact hq mark hm

/-- The intervals do not pile up exactly as long as each event is guarded. -/
theorem calm_iff_guarded (impl : Implementation) (constructed : Bool)
    (events : List MonitoringEvent) :
    (∀ pre, pre <+: events → Calm (run parse impl constructed pre))
      ↔ Runs.Throughout (step parse impl) (Guarded parse impl) (init parse impl constructed)
          events := by
  obtain ⟨hb, hc⟩ := base_init parse impl constructed
  simp only [run]
  rw [Runs.forall_foldl_iff, and_iff_right hc]
  refine Runs.throughout_iff (step parse impl) (I := fun m => Base impl m ∧ Calm m)
    (fun m e h => (step_calm_iff parse h.1 h.2 e).2) (fun m e h hg => ?_) ⟨hb, hc⟩ events
  have hstep := step_calm_iff parse h.1 h.2 e
  exact ⟨hstep.1, hstep.2.2 hg⟩

/-- `JSON.parse` of the server's greeting and of its answers to the first two calls. -/
def parseSample (data : JsString) : Option JsValue :=
  if data = js "\x7b\"method\":\"connected\"\x7d" then
    some (.obj [(js "method", .str (js "connected"))])
  else if data = js "\x7b\"id\":1,\"result\":\x7b\x7d\x7d" then
    some (.obj [(js "id", .num 1), (js "result", .obj [])])
  else if data = js "\x7b\"id\":2,\"result\":\x7b\x7d\x7d" then
    some (.obj [(js "id", .num 2), (js "result", .obj [])])
  else none

/-- The page resumed while the connection is lost; `monitoring.js` greeted by the server. -/
theorem intervals_pile_up :
    ¬ Calm (run parseSample .indexHtml true [.onopen 0 false, .onclose 0, .toggleRPC, .toggleRPC])
      ∧ ¬ Calm (run parseSample .monitoringJs true
        [.onopen 0 false,
          .onmessage 0 (js "\x7b\"method\":\"connected\"\x7d") false true,
          .onmessage 0 (js "\x7b\"id\":1,\"result\":\x7b\x7d\x7d") false true,
          .onmessage 0 (js "\x7b\"id\":2,\"result\":\x7b\x7d\x7d") false true]) := by
  constructor
  · intro hc
    have h := hc.none
    revert h
    decide
  · intro hc
    have h := hc.one
    revert h
    decide

end Run

end MonitoringSystem

end Web

end OcppServer
