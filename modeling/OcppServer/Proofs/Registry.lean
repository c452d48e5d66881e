import OcppServer.OcppManager
import OcppServer.Lib.Runs

/-!
# The registry of charge points

An entry is filed under its own identifier and belongs to a session with a handler; a session with
a handler that is still connected has its entry, and a thread is asleep for an identifier exactly
while the entry there is of a disconnected session (`Consistent`). Every step keeps this, so an
erasure takes what is gone and nothing else, and what has no entry is not waiting or accepted
either. A charge point that comes back is registered exactly when no erasure of its identifier is
outstanding.
-/

namespace OcppServer

namespace Registry

structure Consistent (r : Registry) : Prop where
  own : ∀ {i handler}, r.handler.chargepoints.find? i = some handler →
    handler.proxy.identifier = i ∧ handler.proxy ∈ r.handled
  live : ∀ {cp}, cp ∈ r.handled → cp ∉ r.disconnected →
    r.handler.chargepoints.find? cp.identifier = some ⟨cp⟩
  asleep : ∀ {i}, i ∈ r.threads →
    ∃ handler, r.handler.chargepoints.find? i = some handler ∧ handler.proxy ∈ r.disconnected
  gone : ∀ {i handler}, r.handler.chargepoints.find? i = some handler →
    handler.proxy ∈ r.disconnected → i ∈ r.threads
  once : r.threads.Nodup
  pending : ∀ {i cp}, r.handler.pendingChargepoints.find? i = some cp →
    r.handler.chargepoints.find? i = some ⟨cp⟩
  accepted : ∀ {i cp}, r.handler.acceptedChargepoints.find? i = some cp →
    r.handler.chargepoints.find? i = some ⟨cp⟩
  booting : ∀ {cp}, cp ∈ r.booting → cp ∈ r.handled ∧ cp ∉ r.disconnected
  known : ∀ {cp}, cp ∈ r.handled ∨ cp ∈ r.disconnected → cp ∈ r.connected
  fresh : ∀ {cp}, cp ∈ r.connected → cp.session < r.connected.length

theorem consistent_init (config : CentralSystemDemoConfig) (setPendingStatus : Bool) :
    Consistent (init config setPendingStatus) := by
  refine ⟨?_, ?_, ?_, ?_, .nil, ?_, ?_, ?_, ?_, ?_⟩ <;> simp [init, SortedMap.find?_empty]

variable {r : Registry}

/-- The new session of a connection. -/
def newChargePoint (identifier : Bytes) (r : Registry) : ChargePoint :=
  ⟨r.connected.length, identifier⟩

theorem Consistent.newChargePoint_notMem (h : Consistent r) (identifier : Bytes) :
    r.newChargePoint identifier ∉ r.connected :=
  fun hmem => (h.fresh hmem).ne rfl

theorem Consistent.fresh_connect (h : Consistent r) (identifier : Bytes) {cp : ChargePoint}
    (hcp : cp ∈ r.connected ++ [r.newChargePoint identifier]) :
    cp.session < (r.connected ++ [r.newChargePoint identifier]).length := by
  rw [List.length_append, List.length_singleton]
  rcases List.mem_append.1 hcp with hcp | hcp
  · have := h.fresh hcp
    omega
  · rw [List.mem_singleton.1 hcp]
    exact Nat.lt_succ_self _

theorem connect_of_none {identifier : Bytes}
    (h : r.handler.chargepoints.find? identifier = none) :
    r.connect identifier = { r with
      handler := { r.handler with chargepoints :=
        r.handler.chargepoints.insert identifier ⟨r.newChargePoint identifier⟩ }
      connected := r.connected ++ [r.newChargePoint identifier]
      handled := r.handled ++ [r.newChargePoint identifier] } := by
  simp only [connect, EventsHandler.chargePointConnected, h]
  rfl

theorem connect_of_some {identifier : Bytes} {handler : ChargePointRequestHandler}
    (h : r.handler.chargepoints.find? identifier = some handler) :
    r.connect identifier
      = { r with connected := r.connected ++ [r.newChargePoint identifier] } := by
  simp only [connect, EventsHandler.chargePointConnected, h, Option.map_none, Option.toList_none,
    List.append_nil]
  rfl

/-- A session whose identifier is free. -/
theorem Consistent.connect_new (h : Consistent r) {identifier : Bytes}
    (hnone : r.handler.chargepoints.find? identifier = none) :
    Consistent (r.connect identifier) := by
  have hnew := h.newChargePoint_notMem identifier
  have hne : ∀ {i handler}, r.handler.chargepoints.find? i = some handler → i ≠ identifier := by
    rintro i handler hi rfl
    rw [hnone] at hi
    cases hi
  have hold : ∀ {i handler}, r.handler.chargepoints.find? i = some handler →
      (r.handler.chargepoints.insert identifier ⟨r.newChargePoint identifier⟩).find? i
        = some handler := by
    intro i handler hi
    exact SortedMap.find?_insert_eq_some.2 (.inr ⟨hne hi, hi⟩)
  rw [connect_of_none hnone]
  refine ⟨fun {i handler} hi => ?_, fun {cp} hcp hd => ?_, fun hi => ?_,
    fun {i handler} hi hd => ?_, h.once, fun hi => hold (h.pending hi),
    fun hi => hold (h.accepted hi), fun hcp => ?_, fun {cp} hcp => ?_,
    fun hcp => h.fresh_connect identifier hcp⟩
  · rcases SortedMap.find?_insert_eq_some.1 hi with ⟨hid, rfl⟩ | ⟨-, hi⟩
    · exact ⟨hid.symm, by simp⟩
    · obtain ⟨hown, hmem⟩ := h.own hi
      exact ⟨hown, List.mem_append_left _ hmem⟩
  · rcases List.mem_append.1 hcp with hcp | hcp
    · exact hold (h.live hcp hd)
    · rw [List.mem_singleton.1 hcp]
      exact SortedMap.find?_insert_self _ _ _
  · obtain ⟨handler, hf, hd⟩ := h.asleep hi
    exact ⟨handler, hold hf, hd⟩
  · rcases SortedMap.find?_insert_eq_some.1 hi with ⟨-, rfl⟩ | ⟨-, hi⟩
    · exact absurd (h.known (.inr hd)) hnew
    · exact h.gone hi hd
  · obtain ⟨hh, hd⟩ := h.booting hcp
    exact ⟨List.mem_append_left _ hh, hd⟩
  · rcases hcp with hcp | hcp
    · rcases List.mem_append.1 hcp with hcp | hcp
      · exact List.mem_append_left _ (h.known (.inl hcp))
      · exact List.mem_append_right _ hcp
    · exact List.mem_append_left _ (h.known (.inr hcp))

theorem Consistent.connect_taken (h : Consistent r) {identifier : Bytes}
    {handler : ChargePointRequestHandler}
    (hsome : r.handler.chargepoints.find? identifier = some handler) :
    Consistent (r.connect identifier) := by
  rw [connect_of_some hsome]
  exact ⟨h.own, h.live, h.asleep, h.gone, h.once, h.pending, h.accepted, h.booting,
    fun hcp => List.mem_append_left _ (h.known hcp), fun hcp => h.fresh_connect identifier hcp⟩

/-- A session that has not been notified is not under an identifier that waits for its erasure. -/
theorem Consistent.ne_of_asleep (h : Consistent r) {i : Bytes} (hi : i ∈ r.threads)
    {cp : ChargePoint} (hh : cp ∈ r.handled) (hd : cp ∉ r.disconnected) : cp.identifier ≠ i := by
  rintro rfl
  obtain ⟨handler, hf, hd'⟩ := h.asleep hi
  rw [h.live hh hd, Option.some.injEq] at hf
  rw [← hf] at hd'
  exact hd hd'

theorem Consistent.disconnect (h : Consistent r) {cp : ChargePoint} (hc : cp ∈ r.connected)
    (hd : cp ∉ r.disconnected) (hb : cp ∉ r.booting) : Consistent (r.disconnect cp) := by
  have hthreads : ∀ {i}, i ∈ (r.disconnect cp).threads →
      i ∈ r.threads ∨ (cp ∈ r.handled ∧ i = cp.identifier) := by
    intro i hi
    simp only [Registry.disconnect] at hi
    split_ifs at hi with hh
    · rcases List.mem_append.1 hi with hi | hi
      · exact .inl hi
      · exact .inr ⟨hh, List.mem_singleton.1 hi⟩
    · exact .inl hi
  have hgrows : ∀ {i}, i ∈ r.threads → i ∈ (r.disconnect cp).threads := by
    intro i hi
    simp only [Registry.disconnect]
    split_ifs
    · exact List.mem_append_left _ hi
    · exact hi
  refine ⟨h.own, fun {cp'} hh hn => ?_, fun {i} hi => ?_, fun {i handler} hi hn => ?_, ?_,
    h.pending, h.accepted, fun {cp'} hcp => ?_, fun {cp'} hcp => ?_, h.fresh⟩
  · exact h.live hh fun hd' => hn (List.mem_append_left _ hd')
  · rcases hthreads hi with hi | ⟨hh, rfl⟩
    · obtain ⟨handler, hf, hd'⟩ := h.asleep hi
      exact ⟨handler, hf, List.mem_append_left _ hd'⟩
    · exact ⟨⟨cp⟩, h.live hh hd, List.mem_append_right _ (List.mem_singleton_self _)⟩
  · rcases List.mem_append.1 hn with hn | hn
    · exact hgrows (h.gone hi hn)
    · obtain ⟨hown, hh⟩ := h.own hi
      rw [List.mem_singleton.1 hn] at hown hh
      simp only [Registry.disconnect, if_pos hh, List.mem_append, List.mem_singleton]
      exact .inr hown.symm
  · simp only [Registry.disconnect]
    split_ifs with hh
    · refine List.nodup_append.2 ⟨h.once, by simp, fun i hi j hj hij => ?_⟩
      rw [hij, List.mem_singleton.1 hj] at hi
      exact h.ne_of_asleep hi hh hd rfl
    · exact h.once
  · obtain ⟨hh, hn⟩ := h.booting hcp
    refine ⟨hh, fun hmem => ?_⟩
    rcases List.mem_append.1 hmem with hmem | hmem
    · exact hn hmem
    · rw [List.mem_singleton.1 hmem] at hcp
      exact hb hcp
  · rcases hcp with hcp | hcp
    · exact h.known (.inl hcp)
    · rcases List.mem_append.1 hcp with hcp | hcp
      · exact h.known (.inr hcp)
      · rw [List.mem_singleton.1 hcp]
        exact hc

theorem Consistent.wake (h : Consistent r) {i : Bytes} (hi : i ∈ r.threads) :
    Consistent { r with
      handler := r.handler.eraseChargePoint i
      threads := r.threads.erase i } := by
  have hkeep : ∀ {j : Bytes} {handler}, j ≠ i →
      r.handler.chargepoints.find? j = some handler →
        (r.handler.chargepoints.erase i).find? j = some handler :=
    fun hj hf => SortedMap.find?_erase_eq_some.2 ⟨hj, hf⟩
  refine ⟨fun hj => h.own (SortedMap.find?_erase_eq_some.1 hj).2, fun hh hd => ?_,
    fun {j} hj => ?_, fun {j handler} hj hd => ?_, h.once.erase _, fun {j cp} hj => ?_,
    fun {j cp} hj => ?_, h.booting, h.known, h.fresh⟩
  · exact hkeep (h.ne_of_asleep hi hh hd) (h.live hh hd)
  · obtain ⟨hji, hj⟩ := h.once.mem_erase_iff.1 hj
    obtain ⟨handler, hf, hd⟩ := h.asleep hj
    exact ⟨handler, hkeep hji hf, hd⟩
  · obtain ⟨hji, hf⟩ := SortedMap.find?_erase_eq_some.1 hj
    exact h.once.mem_erase_iff.2 ⟨hji, h.gone hf hd⟩
  · obtain ⟨hji, hf⟩ := SortedMap.find?_erase_eq_some.1 hj
    exact hkeep hji (h.pending hf)
  · obtain ⟨hji, hf⟩ := SortedMap.find?_erase_eq_some.1 hj
    exact hkeep hji (h.accepted hf)

theorem Consistent.addPending (h : Consistent r) {cp : ChargePoint} (hcp : cp ∈ r.booting) :
    Consistent { r with
      handler := r.handler.addPendingChargePoint cp
      booting := r.booting.erase cp } := by
  obtain ⟨hh, hd⟩ := h.booting hcp
  refine ⟨h.own, h.live, h.asleep, h.gone, h.once, fun {i cp'} hi => ?_, h.accepted,
    fun hb => h.booting (List.mem_of_mem_erase hb), h.known, h.fresh⟩
  rcases SortedMap.find?_insert_eq_some.1 hi with ⟨rfl, rfl⟩ | ⟨-, hi⟩
  · exact h.live hh hd
  · exact h.pending hi

theorem Consistent.addAccepted (h : Consistent r) {cp : ChargePoint}
    (hcp : r.handler.chargepoints.find? cp.identifier = some ⟨cp⟩) :
    Consistent { r with handler := r.handler.addAcceptedChargePoint cp } := by
  refine ⟨h.own, h.live, h.asleep, h.gone, h.once, h.pending, fun {i cp'} hi => ?_, h.booting,
    h.known, h.fresh⟩
  rcases SortedMap.find?_insert_eq_some.1 hi with ⟨rfl, rfl⟩ | ⟨-, hi⟩
  · exact hcp
  · exact h.accepted hi

theorem Consistent.step (h : Consistent r) (e : StackEvent) : Consistent (r.step e) := by
  cases e with
  | chargePointConnected identifier =>
    rcases hf : r.handler.chargepoints.find? identifier with _ | handler
    · exact h.connect_new hf
    · exact h.connect_taken hf
  | disconnected cp =>
    simp only [Registry.step]
    split_ifs with hc
    · exact h.disconnect hc.1 hc.2.1 hc.2.2
    · exact h
  | wake identifier =>
    simp only [Registry.step]
    split_ifs with hi
    · exact h.wake hi
    · exact h
  | onBootNotification cp =>
    simp only [Registry.step]
    split_ifs with hc
    · refine ⟨h.own, h.live, h.asleep, h.gone, h.once, h.pending, h.accepted, fun {cp'} hcp => ?_,
        h.known, h.fresh⟩
      rcases List.mem_append.1 hcp with hcp | hcp
      · exact h.booting hcp
      · rw [List.mem_singleton.1 hcp]
        exact ⟨hc.1, hc.2.1⟩
    · exact h
  | addPendingChargePoint cp =>
    simp only [Registry.step]
    split_ifs with hcp
    · exact h.addPending hcp
    · exact h
  | addAcceptedChargePoint cp =>
    simp only [Registry.step]
    rcases hf : r.handler.chargepoints.find? cp.identifier with _ | ⟨proxy⟩
    · exact h
    · dsimp only
      split_ifs with hp
      · subst hp
        exact h.addAccepted hf
      · exact h

theorem Consistent.run : ∀ {r : Registry} (events : List StackEvent), Consistent r →
    Consistent (r.run events)
  | _, [], h => h
  | _, e :: events, h => Consistent.run events (h.step e)

/-- The two critical sections of a BootNotification, one right after the other. -/
theorem onBootNotification_steps {cp : ChargePoint} (hh : cp ∈ r.handled)
    (hd : cp ∉ r.disconnected) (hb : cp ∉ r.booting) (now : ℤ) :
    ((r.step (.onBootNotification cp)).step (.addPendingChargePoint cp)).handler
      = (r.handler.onBootNotification now cp).2 := by
  rcases hw : r.handler.awaitsAcceptance cp.identifier with _ | _
  · simp [Registry.step, EventsHandler.onBootNotification, hw, hb]
  · simp [Registry.step, EventsHandler.onBootNotification, hw, hh, hd]

/-- Whatever a thread takes out of the three maps was of a session that has disconnected. -/
structure ErasesGone (r : Registry) (identifier : Bytes) : Prop where
  chargepoints : ∀ i handler, r.handler.chargepoints.find? i = some handler →
    (r.step (.wake identifier)).handler.chargepoints.find? i = none →
      handler.proxy ∈ r.disconnected
  pending : ∀ i cp, r.handler.pendingChargepoints.find? i = some cp →
    (r.step (.wake identifier)).handler.pendingChargepoints.find? i = none → cp ∈ r.disconnected
  accepted : ∀ i cp, r.handler.acceptedChargepoints.find? i = some cp →
    (r.step (.wake identifier)).handler.acceptedChargepoints.find? i = none → cp ∈ r.disconnected

theorem Consistent.erasesGone (h : Consistent r) (identifier : Bytes) :
    ErasesGone r identifier := by
  have hgone : identifier ∈ r.threads → ∀ handler,
      r.handler.chargepoints.find? identifier = some handler → handler.proxy ∈ r.disconnected := by
    intro hi handler hf
    obtain ⟨handler', hf', hd⟩ := h.asleep hi
    rw [hf, Option.some.injEq] at hf'
    rwa [hf']
  by_cases hi : identifier ∈ r.threads
  · have hstep : r.step (.wake identifier) = { r with
        handler := r.handler.eraseChargePoint identifier
        threads := r.threads.erase identifier } := if_pos hi
    have hid : ∀ {α : Type} {m : SortedMap Bytes α} {j : Bytes} {a : α}, m.find? j = some a →
        (m.erase identifier).find? j = none → j = identifier := by
      intro α m j a hj hn
      by_contra hne
      rw [SortedMap.find?_erase_eq_some.2 ⟨hne, hj⟩] at hn
      cases hn
    refine ⟨fun i handler hf hn => ?_, fun i cp hf hn => ?_, fun i cp hf hn => ?_⟩ <;>
      rw [hstep] at hn
    · obtain rfl := hid hf hn
      exact hgone hi handler hf
    · obtain rfl := hid hf hn
      exact hgone hi ⟨cp⟩ (h.pending hf)
    · obtain rfl := hid hf hn
      exact hgone hi ⟨cp⟩ (h.accepted hf)
  · have hstep : r.step (.wake identifier) = r := if_neg hi
    refine ⟨fun i handler hf hn => ?_, fun i cp hf hn => ?_, fun i cp hf hn => ?_⟩ <;>
      rw [hstep, hf] at hn <;> cases hn

/-- In every state a registry comes to: a thread that wakes takes nothing of a session that has not
disconnected; who waits or is accepted is registered; and when every session that got a handler has
disconnected and no thread is asleep, nothing is left. -/
theorem registry_safe (config : CentralSystemDemoConfig) (setPendingStatus : Bool)
    (events : List StackEvent) :
    let r := (init config setPendingStatus).run events
    (∀ identifier, ErasesGone r identifier)
      ∧ (∀ i, i ∈ r.handler.pendingChargepoints.keys ∨ i ∈ r.handler.acceptedChargepoints.keys →
          i ∈ r.handler.chargepoints.keys)
      ∧ ((∀ cp ∈ r.handled, cp ∈ r.disconnected) → r.threads = [] →
          r.handler.chargepoints = .empty ∧ r.handler.pendingChargepoints = .empty
            ∧ r.handler.acceptedChargepoints = .empty) := by
  intro r
  have h : Consistent r := (consistent_init config setPendingStatus).run events
  refine ⟨h.erasesGone, fun i hi => ?_, fun hall hnone => ?_⟩
  · simp only [SortedMap.mem_keys] at hi ⊢
    rcases hi with ⟨cp, hf⟩ | ⟨cp, hf⟩
    · exact ⟨_, h.pending hf⟩
    · exact ⟨_, h.accepted hf⟩
  · have hcps : ∀ i, r.handler.chargepoints.find? i = none := by
      intro i
      rcases hf : r.handler.chargepoints.find? i with _ | handler
      · rfl
      · have hi := h.gone hf (hall _ (h.own hf).2)
        rw [hnone] at hi
        cases hi
    refine ⟨SortedMap.eq_empty hcps, SortedMap.eq_empty fun i => ?_, SortedMap.eq_empty fun i => ?_⟩
    · rcases hf : r.handler.pendingChargepoints.find? i with _ | cp
      · rfl
      · have := h.pending hf
        rw [hcps] at this
        cases this
    · rcases hf : r.handler.acceptedChargepoints.find? i with _ | cp
      · rfl
      · have := h.accepted hf
        rw [hcps] at this
        cases this

/-- The entry with an identifier is the one filed under it. -/
theorem Consistent.getChargePointById (h : Consistent r) {m : OcppManager}
    (hm : m.eventHandler = some r.handler) (id : Bytes) :
    m.getChargePointById id = some ((r.handler.chargepoints.find? id).map (·.proxy)) := by
  rw [OcppManager.getChargePointById, hm, Option.map_some]
  congr 1
  rcases he : r.handler.chargepoints.entries.find? (fun e => e.2.proxy.identifier = id) with _ | e
  · rcases hf : r.handler.chargepoints.find? id with _ | handler
    · rw [he]
      rfl
    · have hno := List.find?_eq_none.1 he _ (SortedMap.find?_eq_some.1 hf)
      exact absurd (h.own hf).1 (by simpa using hno)
  · have hid : e.2.proxy.identifier = id := by simpa using List.find?_some he
    have hf := SortedMap.find?_eq_some.2 (List.mem_of_find?_eq_some he)
    rw [(h.own hf).1] at hid
    rw [he, ← hid, hf]
    rfl

/-- The new session is registered: its handler is installed and it is what the manager finds. -/
structure Served (r : Registry) (identifier : Bytes) : Prop where
  installed : r.newChargePoint identifier ∈ (r.connect identifier).handled
  entry : (r.connect identifier).handler.chargepoints.find? identifier
    = some ⟨r.newChargePoint identifier⟩
  found : ∀ m : OcppManager, m.eventHandler = some (r.connect identifier).handler →
    m.getChargePointById identifier = some (some (r.newChargePoint identifier))

/-- Every session so far with this identifier has had its notification. -/
def AllNotified (r : Registry) (identifier : Bytes) : Prop :=
  ∀ cp ∈ r.connected, cp.identifier = identifier → cp ∈ r.disconnected

theorem Consistent.served_iff (h : Consistent r) {identifier : Bytes}
    (hall : AllNotified r identifier) : Served r identifier ↔ identifier ∉ r.threads := by
  constructor
  · intro hs hi
    obtain ⟨handler, hf, -⟩ := h.asleep hi
    have hmem := hs.installed
    rw [connect_of_some hf] at hmem
    exact h.newChargePoint_notMem identifier (h.known (.inl hmem))
  · intro hi
    have hnone : r.handler.chargepoints.find? identifier = none := by
      rcases hf : r.handler.chargepoints.find? identifier with _ | handler
      · rfl
      · obtain ⟨hown, hh⟩ := h.own hf
        exact absurd (h.gone hf (hall _ (h.known (.inl hh)) hown)) hi
    have hentry : (r.connect identifier).handler.chargepoints.find? identifier
        = some ⟨r.newChargePoint identifier⟩ := by
      rw [connect_of_none hnone]
      exact SortedMap.find?_insert_self _ _ _
    refine ⟨?_, hentry, fun m hm => ?_⟩
    · rw [connect_of_none hnone]
      exact List.mem_append_right _ (List.mem_singleton_self _)
    · rw [(h.connect_new hnone).getChargePointById hm, hentry]
      rfl

/-- A session that comes when all before it have disconnected is served. -/
def Serves (r : Registry) (e : StackEvent) : Prop :=
  ∀ identifier, e = .chargePointConnected identifier → AllNotified r identifier →
    Served r identifier

/-- A session that comes when all before it have disconnected finds no erasure outstanding. -/
def FindsErased (r : Registry) (e : StackEvent) : Prop :=
  ∀ identifier, e = .chargePointConnected identifier → AllNotified r identifier →
    identifier ∉ r.threads

/-- Along a run every charge point that comes back is served exactly when each comes after the
erasures of its identifier. -/
theorem serves_iff (config : CentralSystemDemoConfig) (setPendingStatus : Bool)
    (events : List StackEvent) :
    Runs.Throughout step Serves (init config setPendingStatus) events
      ↔ Runs.Throughout step FindsErased (init config setPendingStatus) events := by
  refine Runs.throughout_iff _ (I := Consistent) (fun r e h => ?_) (fun r e h _ => h.step e)
    (consistent_init config setPendingStatus) events
  constructor
  · exact fun hs identifier he hall => (h.served_iff hall).1 (hs identifier he hall)
  · exact fun hf identifier he hall => (h.served_iff hall).2 (hf identifier he hall)

/-- A charge point loses its connection and is back before the erasure. -/
theorem returning_refused :
    ¬ Runs.Throughout step Serves (init ⟨0, 0⟩ false) [.chargePointConnected (lit "CP1"),
      .disconnected ⟨0, lit "CP1"⟩, .chargePointConnected (lit "CP1")] := by
  intro h
  have hs := h [.chargePointConnected (lit "CP1"), .disconnected ⟨0, lit "CP1"⟩] _ [] rfl
    (lit "CP1") rfl (by unfold AllNotified; decide)
  exact absurd hs.installed (by decide)

end Registry

end OcppServer
