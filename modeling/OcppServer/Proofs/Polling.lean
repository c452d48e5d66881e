import OcppServer.Polling
import OcppServer.Proofs.Calls
import OcppServer.Proofs.OneSocket

/-!
# What keeps the intervals in hand

Handlers do two things to the state: they call (`Heard`), which leaves the connection and the calls
already made alone, and they set and clear intervals. On the page the interval kept in the class is
the only one (`Single`), and there is none while the class is disabled (`Owned`); `monitoring.js`
keeps nothing. Between events every call waited for is pending and the client has one socket
(`Base`). Given that, the property (`Calm`) is that there is at most one interval, and one only
while the client is connected (`Kept.calm_iff`).
-/

namespace OcppServer

open RPCClient (link_eq link_call OneSocket)

namespace RPCClient

variable (v : Variant) {c c' : RPCClient}

theorem waits_lt {i : ℕ} (h : c.waits i = true) : i < c.calls.length := by
  unfold waits at h
  split at h
  · rename_i hi
    exact (List.getElem?_eq_some_iff.1 hi).1
  · cases h

theorem waits_of_calls {new : List Call} (h : c'.calls = c.calls ++ new) {i : ℕ}
    (hi : i < c.calls.length) : c'.waits i = c.waits i := by
  simp only [waits, h, List.getElem?_append_left hi]

theorem waits_congr (h : c'.book = c.book) (i : ℕ) : c'.waits i = c.waits i := by
  simp only [waits, (book_eq h).2.2]

theorem calls_call (stringified sendFails : Bool) (c : RPCClient) :
    ∃ new, (c.call v stringified sendFails).calls = c.calls ++ new := by
  obtain ⟨b, hb, hstep⟩ := exists_bookStep (fun _ => none) v c (.call stringified sendFails)
  simp only [step] at hb
  cases hstep with
  | refused | other => exact ⟨[], by rw [(book_eq hb).2.2, List.append_nil]⟩
  | sent | failed =>
    simp only [book, Prod.mk.injEq] at hb
    exact ⟨_, hb.2.2⟩

end RPCClient

namespace Web

namespace MonitoringSystem

variable (impl : Implementation) {m m' m'' : MonitoringSystem}

/-! ## Starting and stopping -/

@[simp] theorem rpc_stopMetricsUpdate (m : MonitoringSystem) : m.stopMetricsUpdate.rpc = m.rpc := by
  unfold stopMetricsUpdate
  split <;> rfl

@[simp] theorem awaiting_stopMetricsUpdate (m : MonitoringSystem) :
    m.stopMetricsUpdate.awaiting = m.awaiting := by
  unfold stopMetricsUpdate
  split <;> rfl

@[simp] theorem rpcEnabled_stopMetricsUpdate (m : MonitoringSystem) :
    m.stopMetricsUpdate.rpcEnabled = m.rpcEnabled := by
  unfold stopMetricsUpdate
  split <;> rfl

@[simp] theorem rpc_startMetricsUpdate (m : MonitoringSystem) :
    m.startMetricsUpdate.rpc = m.rpc := by
  unfold startMetricsUpdate
  dsimp only
  split_ifs
  · exact rpc_stopMetricsUpdate m
  · exact rpc_stopMetricsUpdate m

@[simp] theorem awaiting_startMetricsUpdate (m : MonitoringSystem) :
    m.startMetricsUpdate.awaiting = m.awaiting := by
  unfold startMetricsUpdate
  dsimp only
  split_ifs
  · exact awaiting_stopMetricsUpdate m
  · exact awaiting_stopMetricsUpdate m

/-- The interval of the page's class is the only one. -/
def Single (m : MonitoringSystem) : Prop := m.intervals = m.metricsInterval.toList

/-- And there is one only while the class is enabled. -/
structure Owned (m : MonitoringSystem) : Prop where
  single : m.Single
  enabled : m.intervals ≠ [] → m.rpcEnabled = true

theorem Single.stopped (h : m.Single) :
    m.stopMetricsUpdate.intervals = [] ∧ m.stopMetricsUpdate.metricsInterval = none := by
  unfold stopMetricsUpdate
  rw [Single] at h
  rcases hi : m.metricsInterval with _ | id
  · exact ⟨by rw [h, hi]; rfl, hi⟩
  · exact ⟨by simp [clearInterval, h, hi], rfl⟩

theorem Single.stop (h : m.Single) : Owned m.stopMetricsUpdate := by
  obtain ⟨hi, hm⟩ := h.stopped
  exact ⟨by rw [Single, hi, hm]; rfl, fun hne => absurd hi hne⟩

theorem Single.started (h : m.Single) :
    m.startMetricsUpdate.intervals ≠ [] ↔ m.rpcEnabled = true := by
  obtain ⟨hi, -⟩ := h.stopped
  unfold startMetricsUpdate
  simp only [rpcEnabled_stopMetricsUpdate]
  split_ifs with he
  · simp [setInterval, he]
  · simp [hi, he]

theorem Single.start (h : m.Single) : Owned m.startMetricsUpdate := by
  obtain ⟨hi, -⟩ := h.stopped
  unfold startMetricsUpdate
  simp only [rpcEnabled_stopMetricsUpdate]
  split_ifs with he
  · exact ⟨by simp [Single, setInterval, hi], fun _ => by simpa [setInterval] using he⟩
  · exact h.stop

@[simp] theorem rpcEnabled_startMetricsUpdate (m : MonitoringSystem) :
    m.startMetricsUpdate.rpcEnabled = m.rpcEnabled := by
  unfold startMetricsUpdate
  dsimp only
  split_ifs
  · exact rpcEnabled_stopMetricsUpdate m
  · exact rpcEnabled_stopMetricsUpdate m

section Toggle

variable (enabled : EventData)

@[simp] theorem rpc_rpcToggle (m : MonitoringSystem) : (m.rpcToggle enabled).rpc = m.rpc := by
  unfold rpcToggle
  dsimp only
  split_ifs <;> simp

@[simp] theorem awaiting_rpcToggle (m : MonitoringSystem) :
    (m.rpcToggle enabled).awaiting = m.awaiting := by
  unfold rpcToggle
  dsimp only
  split_ifs <;> simp

@[simp] theorem rpcEnabled_rpcToggle (m : MonitoringSystem) :
    (m.rpcToggle enabled).rpcEnabled = enabled.truthy := by
  unfold rpcToggle
  dsimp only
  split_ifs <;> simp

theorem Single.toggle (h : m.Single) : Owned (m.rpcToggle enabled) := by
  have h' : Single { m with rpcEnabled := enabled.truthy } := h
  unfold rpcToggle
  dsimp only
  split_ifs
  · exact h'.start
  · exact h'.stop

theorem Single.toggled (h : m.Single) :
    (m.rpcToggle enabled).intervals ≠ [] ↔ enabled.truthy = true := by
  have h' : Single { m with rpcEnabled := enabled.truthy } := h
  unfold rpcToggle
  dsimp only
  split_ifs with he
  · exact h'.started
  · exact iff_of_false (fun hne => hne h'.stopped.1) he

end Toggle

/-! ## What handlers do to the client -/

/-- They call, and wait for calls they made themselves. -/
structure Heard (m m' : MonitoringSystem) : Prop where
  link : m'.rpc.link = m.rpc.link
  enabled : m'.rpc.rpcEnabled = m.rpc.rpcEnabled
  calls : ∃ new, m'.rpc.calls = m.rpc.calls ++ new
  awaiting : ∃ more, m'.awaiting = m.awaiting ++ more ∧ more.Nodup
    ∧ ∀ i ∈ more, m.rpc.calls.length ≤ i ∧ m'.rpc.waits i = true

theorem Heard.of_eq (hr : m'.rpc = m.rpc) (ha : m'.awaiting = m.awaiting) : Heard m m' :=
  ⟨by rw [hr], by rw [hr], ⟨[], by rw [hr, List.append_nil]⟩,
    ⟨[], by rw [ha, List.append_nil], .nil, by simp⟩⟩

theorem Heard.trans (h : Heard m m') (h' : Heard m' m'') : Heard m m'' := by
  obtain ⟨new, hc⟩ := h.calls
  obtain ⟨new', hc'⟩ := h'.calls
  obtain ⟨more, ha, hn, hw⟩ := h.awaiting
  obtain ⟨more', ha', hn', hw'⟩ := h'.awaiting
  refine ⟨h'.link.trans h.link, h'.enabled.trans h.enabled,
    ⟨new ++ new', by rw [hc', hc, List.append_assoc]⟩,
    ⟨more ++ more', by rw [ha', ha, List.append_assoc], ?_, ?_⟩⟩
  · refine List.nodup_append.2 ⟨hn, hn', fun i hi j hj heq => ?_⟩
    have hlt := RPCClient.waits_lt (hw i hi).2
    have hle := (hw' j hj).1
    omega
  · intro i hi
    rcases List.mem_append.1 hi with hi | hi
    · refine ⟨(hw i hi).1, ?_⟩
      rw [RPCClient.waits_of_calls hc' (RPCClient.waits_lt (hw i hi).2)]
      exact (hw i hi).2
    · have hle := (hw' i hi).1
      rw [hc, List.length_append] at hle
      exact ⟨by omega, (hw' i hi).2⟩

theorem Heard.waits (h : Heard m m') {i : ℕ} (hi : i < m.rpc.calls.length) :
    m'.rpc.waits i = m.rpc.waits i := by
  obtain ⟨new, hc⟩ := h.calls
  exact RPCClient.waits_of_calls hc hi

variable (sendFails : Bool)

theorem heard_call (m : MonitoringSystem) : Heard m (m.call impl sendFails) :=
  ⟨link_call impl.variant true sendFails m.rpc,
    RPCClient.rpcEnabled_call impl.variant true sendFails m.rpc,
    RPCClient.calls_call impl.variant true sendFails m.rpc, ⟨[], by simp [call], .nil, by simp⟩⟩

theorem heard_startMonitoring (m : MonitoringSystem) :
    Heard m (m.startMonitoring impl sendFails) := by
  have h := heard_call impl sendFails m
  unfold startMonitoring
  dsimp only
  split_ifs with hw
  · exact ⟨h.link, h.enabled, h.calls, ⟨[m.rpc.calls.length], rfl, by simp, by simpa using hw⟩⟩
  · exact h

theorem heard_handle (event : JsValue) (data : EventData) (m : MonitoringSystem) :
    Heard m (m.handle impl sendFails event data) := by
  have hstart : ∀ b, Heard m (startMonitoring impl sendFails { m with connectionState := b }) := by
    intro b
    have h : Heard m { m with connectionState := b } := .of_eq rfl rfl
    exact h.trans (heard_startMonitoring impl sendFails _)
  unfold handle
  split
  · cases impl
    · dsimp only
      split_ifs
      · exact hstart true
      · exact .of_eq (by simp) (by simp)
      · exact .of_eq (by simp) (by simp)
      · exact .of_eq rfl rfl
    · dsimp only
      split_ifs
      · exact (hstart true).trans (.of_eq rfl rfl)
      · exact .of_eq rfl rfl
      · exact .of_eq rfl rfl
  · exact .of_eq rfl rfl

theorem heard_hear (m : MonitoringSystem) (mark : Mark) :
    Heard m (hear impl sendFails m mark) := by
  cases mark with
  | emitted event data => exact heard_handle impl sendFails event data m
  | _ => exact .of_eq rfl rfl

theorem heard_marks : ∀ (marks : List Mark) (m : MonitoringSystem),
    Heard m (marks.foldl (hear impl sendFails) m)
  | [], _ => .of_eq rfl rfl
  | mark :: marks, m =>
    (heard_hear impl sendFails m mark).trans (heard_marks marks (hear impl sendFails m mark))

theorem heard_follow (rpc : RPCClient) (m : MonitoringSystem) :
    Heard { m with rpc := rpc } (m.follow impl sendFails rpc) :=
  heard_marks impl sendFails _ _

theorem startMonitoring_eq (m : MonitoringSystem) :
    (m.startMonitoring impl sendFails).rpcEnabled = m.rpcEnabled
      ∧ (m.startMonitoring impl sendFails).intervals = m.intervals
      ∧ (m.startMonitoring impl sendFails).metricsInterval = m.metricsInterval := by
  unfold startMonitoring
  dsimp only
  split_ifs <;> exact ⟨rfl, rfl, rfl⟩

/-! ## The invariant -/

/-- What each class sees to itself; in `monitoring.js` nothing is ever disabled. -/
structure Kept (m : MonitoringSystem) : Prop where
  enabled : m.rpcEnabled = true → m.rpc.rpcEnabled = true
  own : match impl with
    | .indexHtml => m.Owned
    | .monitoringJs => m.rpcEnabled = true

/-- Between events. -/
structure Base (m : MonitoringSystem) : Prop where
  socket : OneSocket m.rpc
  nodup : m.awaiting.Nodup
  waiting : ∀ i ∈ m.awaiting, m.rpc.waits i = true
  kept : Kept impl m

variable {impl}

theorem Kept.congr (h : Kept impl m) (hr : m'.rpc.rpcEnabled = m.rpc.rpcEnabled)
    (he : m'.rpcEnabled = m.rpcEnabled) (hi : m'.intervals = m.intervals)
    (hm : m'.metricsInterval = m.metricsInterval) : Kept impl m' := by
  refine ⟨by rw [hr, he]; exact h.enabled, ?_⟩
  have hown := h.own
  cases impl
  · exact ⟨by rw [Single, hi, hm]; exact hown.single, by rw [hi, he]; exact hown.enabled⟩
  · exact he.trans hown

theorem Kept.startMonitoring (h : Kept impl m) :
    Kept impl (m.startMonitoring impl sendFails) := by
  obtain ⟨he, hi, hm⟩ := startMonitoring_eq impl sendFails m
  exact h.congr (heard_startMonitoring impl sendFails m).enabled he hi hm

/-- What is toggled must be so in the client. -/
theorem Kept.handle (h : Kept impl m) (event : JsValue) {data : EventData}
    (hd : event = .str (js "rpcToggle") → data.truthy = true → m.rpc.rpcEnabled = true) :
    Kept impl (m.handle impl sendFails event data) := by
  have hstart : ∀ b, Kept impl
      (MonitoringSystem.startMonitoring impl sendFails { m with connectionState := b }) :=
    fun b => Kept.startMonitoring sendFails (h.congr rfl rfl rfl rfl)
  unfold MonitoringSystem.handle
  split
  · cases impl
    · have hown : m.Owned := h.own
      dsimp only
      split_ifs with h1 h2 h3
      · exact hstart true
      · have hs : Single { m with connectionState := false } := hown.single
        exact ⟨by simpa using h.enabled, hs.stop⟩
      · refine ⟨fun he => ?_, hown.single.toggle data⟩
        rw [rpcEnabled_rpcToggle] at he
        rw [rpc_rpcToggle]
        exact hd (by rw [h3]) he
      · exact h
    · dsimp only
      split_ifs
      · exact (hstart true).congr rfl rfl rfl rfl
      · exact h.congr rfl rfl rfl rfl
      · exact h
  · exact h

theorem Kept.marks : ∀ {marks : List Mark} {m : MonitoringSystem}, Kept impl m →
    (∀ data, .emitted (.str (js "rpcToggle")) data ∈ marks → data.truthy = true →
      m.rpc.rpcEnabled = true) → Kept impl (marks.foldl (hear impl sendFails) m)
  | [], _, h, _ => h
  | mark :: marks, m, h, hd => by
    rw [List.foldl_cons]
    refine Kept.marks ?_ fun data hmem ht => ?_
    · cases mark with
      | emitted event data =>
        refine h.handle sendFails event fun he ht => hd data ?_ ht
        rw [he]
        exact List.mem_cons_self
      | _ => exact h
    · rw [(heard_hear impl sendFails m mark).enabled]
      exact hd data (List.mem_cons_of_mem _ hmem) ht

theorem Base.heard (h : Base impl m) (hh : Heard m m') (hk : Kept impl m') : Base impl m' := by
  obtain ⟨more, ha, hn, hw⟩ := hh.awaiting
  refine ⟨h.socket.congr hh.link, ?_, ?_, hk⟩
  · rw [ha]
    refine List.nodup_append.2 ⟨h.nodup, hn, fun i hi j hj heq => ?_⟩
    have hlt := RPCClient.waits_lt (h.waiting i hi)
    have hle := (hw j hj).1
    omega
  · intro i hi
    rw [ha, List.mem_append] at hi
    rcases hi with hi | hi
    · rw [hh.waits (RPCClient.waits_lt (h.waiting i hi))]
      exact h.waiting i hi
    · exact (hw i hi).2

/-! ## The property -/

/-- At most one interval, and none while the client is disconnected or paused. -/
structure Calm (m : MonitoringSystem) : Prop where
  one : m.intervals.length ≤ 1
  none : m.rpc.connected = false ∨ m.rpcEnabled = false ∨ m.rpc.rpcEnabled = false →
    m.intervals = []

theorem Kept.rpcEnabled (h : Kept impl m) (hi : m.intervals ≠ []) : m.rpcEnabled = true := by
  have hown := h.own
  cases impl
  · exact hown.enabled hi
  · exact hown

theorem Kept.calm_iff (h : Kept impl m) :
    Calm m ↔ m.intervals.length ≤ 1 ∧ (m.intervals ≠ [] → m.rpc.connected = true) := by
  constructor
  · intro hc
    refine ⟨hc.one, fun hi => ?_⟩
    by_contra hne
    exact hi (hc.none (.inl (by simpa using hne)))
  · rintro ⟨hone, hconn⟩
    refine ⟨hone, fun hor => ?_⟩
    by_contra hi
    have he := h.rpcEnabled hi
    simp [hconn hi, he, h.enabled he] at hor

theorem Kept.calm_congr (h : Kept impl m') (hc : Calm m) (hi : m'.intervals = m.intervals)
    (hconn : m.rpc.connected = true → m'.rpc.connected = true) : Calm m' := by
  refine h.calm_iff.2 ⟨hi ▸ hc.one, fun hne => hconn ?_⟩
  by_contra hf
  rw [hi] at hne
  exact hne (hc.none (.inl (by simpa using hf)))

/-! ## Events without an answer -/

/-- The handlers of the mark set and clear nothing. -/
def Quiet (mark : Mark) : Prop :=
  ∀ data, mark ≠ .emitted (.str (js "disconnected")) data
    ∧ mark ≠ .emitted (.str (js "rpcToggle")) data

theorem intervals_hear {mark : Mark} (hq : impl = .monitoringJs ∨ Quiet mark)
    (m : MonitoringSystem) : (hear impl sendFails m mark).intervals = m.intervals := by
  cases mark with
  | emitted event data =>
    simp only [hear, handle]
    split
    · rename_i name
      have hstart : ∀ b, (startMonitoring impl sendFails
          { m with connectionState := b }).intervals = m.intervals :=
        fun b => (startMonitoring_eq impl sendFails _).2.1
      cases impl
      · have hq := (or_iff_right (by simp)).1 hq
        dsimp only
        split_ifs with h1 h2 h3
        · exact hstart true
        · exact absurd (by rw [h2]) (hq data).1
        · exact absurd (by rw [h3]) (hq data).2
        · rfl
      · dsimp only
        split_ifs
        · exact hstart true
        · rfl
        · rfl
    · rfl
  | _ => rfl

theorem intervals_marks : ∀ {marks : List Mark},
    (∀ mark ∈ marks, impl = .monitoringJs ∨ Quiet mark) → ∀ m : MonitoringSystem,
      (marks.foldl (hear impl sendFails) m).intervals = m.intervals
  | [], _, m => rfl
  | mark :: marks, hq, m => by
    rw [List.foldl_cons, intervals_marks (fun x hx => hq x (List.mem_cons_of_mem _ hx)),
      intervals_hear sendFails (hq mark List.mem_cons_self)]

/-- A callback of the client that leaves the calls alone. -/
structure Callback (c c' : RPCClient) (marks : List Mark) : Prop where
  log : c'.log = c.log ++ marks
  book : c'.book = c.book
  rpcEnabled : c'.rpcEnabled = c.rpcEnabled

section Callback

variable {rpc : RPCClient} {marks : List Mark}

theorem Callback.follow_eq (h : Callback m.rpc rpc marks) :
    m.follow impl sendFails rpc = marks.foldl (hear impl sendFails) { m with rpc := rpc } := by
  rw [follow, h.log, List.drop_left]

theorem Base.follow (hb : Base impl m) (h : Callback m.rpc rpc marks) (hs : OneSocket rpc)
    (hd : ∀ data, .emitted (.str (js "rpcToggle")) data ∉ marks) :
    Base impl (m.follow impl sendFails rpc) := by
  have hk : Kept impl { m with rpc := rpc } := hb.kept.congr h.rpcEnabled rfl rfl rfl
  have hbase : Base impl { m with rpc := rpc } := by
    refine ⟨hs, hb.nodup, fun i hi => ?_, hk⟩
    rw [RPCClient.waits_congr h.book]
    exact hb.waiting i hi
  refine hbase.heard (heard_follow impl sendFails rpc m) ?_
  rw [h.follow_eq]
  exact hk.marks sendFails fun data hmem => absurd hmem (hd data)

theorem connected_follow (rpc : RPCClient) (m : MonitoringSystem) :
    (m.follow impl sendFails rpc).rpc.connected = rpc.connected :=
  (link_eq (heard_follow impl sendFails rpc m).link).2.1

end Callback

end MonitoringSystem

end Web

end OcppServer
