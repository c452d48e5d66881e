import OcppServer.Proofs.Client

/-!
# Automatic reconnection

An attempt is spent when a timer is armed, and an open event gives all attempts back. So sockets
created automatically since the last open event and timers still armed never exceed the attempts
spent, as long as no timer is armed when a socket opens; and a `disconnect`, which spends all
attempts, stops the client for good unless a timer is armed already or a socket it does not know
any more can still open (`Orderly`).
-/

namespace OcppServer

namespace Mark

def isAuto : Mark → Bool
  | created .auto => true
  | _ => false

def isCreated : Mark → Bool
  | created _ => true
  | _ => false

def isOpened : Mark → Bool
  | opened => true
  | _ => false

def isConnectCalled : Mark → Bool
  | connectCalled => true
  | _ => false

theorem isCreated_of_isAuto {m : Mark} (h : m.isAuto = true) : m.isCreated = true := by
  cases m <;> simp [isAuto] at h
  rfl

end Mark

/-- A stretch of the log after a `disconnect` and before the application connects again. -/
def Stopped (w log : List Mark) : Prop :=
  .disconnectCalled :: w <:+ log ∧ ∀ m ∈ w, m.isConnectCalled = false

/-- In a stretch without an open event at most `maxReconnectAttempts` sockets are created
automatically, and after `disconnect` none is created until the application connects. -/
structure Respectful (log : List Mark) : Prop where
  few : ∀ w, w <:+: log → (∀ m ∈ w, m.isOpened = false) →
    w.countP (·.isAuto) ≤ RPCClient.maxReconnectAttempts
  quiet : ∀ w, Mark.disconnectCalled :: w <:+: log → (∀ m ∈ w, m.isConnectCalled = false) →
    ∀ m ∈ w, m.isCreated = false

theorem Respectful.mark {log : List Mark} (h : Respectful log) {m : Mark}
    (hfew : m.isAuto = true → ∀ w, w <:+ log → (∀ m ∈ w, m.isOpened = false) →
      w.countP (·.isAuto) < RPCClient.maxReconnectAttempts)
    (hquiet : m.isCreated = true → ∀ w, ¬ Stopped w log) : Respectful (log ++ [m]) where
  few w hw hno := by
    rcases List.infix_concat_iff.1 hw with hw | hw
    · rcases List.suffix_concat_iff.1 hw with rfl | ⟨t, rfl, ht⟩
      · exact Nat.zero_le _
      · have hnot : ∀ m ∈ t, m.isOpened = false := fun m' hm' => hno m' (by simp [hm'])
        rw [List.countP_append, List.countP_singleton]
        split_ifs with hm
        · exact hfew hm t ht hnot
        · exact h.few t ht.isInfix hnot
    · exact h.few w hw hno
  quiet w hw hno m' hm' := by
    rcases List.infix_concat_iff.1 hw with hw | hw
    · rcases List.suffix_concat_iff.1 hw with hw | ⟨t, heq, ht⟩
      · cases hw
      rcases t with _ | ⟨d, t⟩
      · obtain ⟨-, rfl⟩ := List.cons.inj heq
        simp at hm'
      · obtain ⟨rfl, rfl⟩ := List.cons.inj heq
        have hnot : ∀ m ∈ t, m.isConnectCalled = false := fun x hx => hno x (by simp [hx])
        rcases List.mem_append.1 hm' with hm' | hm'
        · exact h.quiet t ht.isInfix hnot m' hm'
        · rw [List.mem_singleton] at hm'
          subst hm'
          by_contra hc
          exact hquiet (by simpa using hc) t ⟨ht, hnot⟩
    · exact h.quiet w hw hno m' hm'

theorem stopped_mark {log w : List Mark} {m : Mark} (h : Stopped w (log ++ [m])) :
    (m = .disconnectCalled ∧ w = []) ∨ ∃ t, w = t ++ [m] ∧ Stopped t log := by
  obtain ⟨hw, hno⟩ := h
  rcases List.suffix_concat_iff.1 hw with hw | ⟨t, heq, ht⟩
  · cases hw
  rcases t with _ | ⟨d, t⟩
  · obtain ⟨rfl, rfl⟩ := List.cons.inj heq
    exact .inl ⟨rfl, rfl⟩
  · obtain ⟨rfl, rfl⟩ := List.cons.inj heq
    exact .inr ⟨t, rfl, ht, fun x hx => hno x (by simp [hx])⟩

namespace RPCClient

/-- Nothing is left that could create a socket by itself. -/
def Idle (c : RPCClient) : Prop :=
  c.timers = 0 ∧ c.reconnectAttempts = maxReconnectAttempts
    ∧ ∀ k : ℕ, c.sockets[k]? ≠ some ReadyState.connecting

structure Governed (c : RPCClient) : Prop where
  log : Respectful c.log
  budget : ∀ w, w <:+ c.log → (∀ m ∈ w, m.isOpened = false) →
    w.countP (·.isAuto) + c.timers ≤ c.reconnectAttempts
  limit : c.reconnectAttempts ≤ maxReconnectAttempts
  stopped : ∀ w, Stopped w c.log → Idle c

/-- The event comes when no timer and no forgotten socket can undo it. -/
def Orderly (c : RPCClient) : ClientEvent → Prop
  | .onopen k => c.sockets[k]? = some .connecting → c.timers = 0
  | .disconnect => c.timers = 0 ∧ ∀ k, c.sockets[k]? = some .connecting → c.ws = some k
  | _ => True

variable {c c' : RPCClient}

theorem Governed.timers_le (h : Governed c) : c.timers ≤ c.reconnectAttempts := by
  simpa using h.budget [] List.nil_suffix (by simp)

/-- A change that logs nothing and arms no timer without spending an attempt. -/
theorem Governed.silent (h : Governed c) (hlog : c'.log = c.log)
    (hb : c'.timers + c.reconnectAttempts ≤ c'.reconnectAttempts + c.timers)
    (hl : c'.reconnectAttempts ≤ maxReconnectAttempts) (hs : Idle c → Idle c') :
    Governed c' where
  log := by
    rw [hlog]
    exact h.log
  budget w hw hno := by
    have := h.budget w (hlog ▸ hw) hno
    omega
  limit := hl
  stopped w hw := hs (h.stopped w (hlog ▸ hw))

/-- A change that logs one mark. -/
theorem Governed.mark (h : Governed c) {m : Mark} (hlog : c'.log = c.log ++ [m])
    (hb : m.isOpened = false → c.reconnectAttempts ≤ c'.reconnectAttempts
      ∧ c'.timers + (if m.isAuto then 1 else 0) ≤ c.timers)
    (ht : c'.timers ≤ c'.reconnectAttempts) (hl : c'.reconnectAttempts ≤ maxReconnectAttempts)
    (hc : m.isCreated = true → ∀ w, ¬ Stopped w c.log)
    (hs : ∀ w, Stopped w c.log → m.isConnectCalled = false → Idle c')
    (hd : m = .disconnectCalled → Idle c') : Governed c' where
  log := by
    rw [hlog]
    refine h.log.mark (fun hm w hw hno => ?_) hc
    have hopen : m.isOpened = false := by cases m <;> first | rfl | simp [Mark.isAuto] at hm
    have := h.budget w hw hno
    have := h.limit
    have := (hb hopen).2
    rw [if_pos hm] at this
    omega
  budget w hw hno := by
    rw [hlog] at hw
    rcases List.suffix_concat_iff.1 hw with rfl | ⟨t, rfl, ht'⟩
    · simpa using ht
    · have := h.budget t ht' fun m' hm' => hno m' (by simp [hm'])
      obtain ⟨h1, h2⟩ := hb (hno m (by simp))
      rw [List.countP_append, List.countP_singleton]
      omega
  limit := hl
  stopped w hw := by
    rw [hlog] at hw
    have hno := hw.2
    rcases stopped_mark hw with ⟨hm, -⟩ | ⟨t, rfl, ht'⟩
    · exact hd hm
    · exact hs t ht' (hno m (by simp))

/-- A mark that is no creation and no `disconnect`. -/
theorem Governed.note (h : Governed c) {m : Mark} (hm : m.isCreated = false)
    (hd : m ≠ .disconnectCalled) : Governed (c.note m) := by
  have ha : m.isAuto = false := by
    by_contra hne
    rw [Mark.isCreated_of_isAuto (by simpa using hne)] at hm
    cases hm
  refine h.mark rfl (fun _ => ⟨le_rfl, by simp [RPCClient.note, ha]⟩) h.timers_le h.limit ?_
    (fun w hw _ => h.stopped w hw) fun he => absurd he hd
  intro hc
  rw [hm] at hc
  cases hc

theorem Governed.emit (h : Governed c) (event : JsString) (data : EventData) :
    Governed (c.emit event data) :=
  h.note rfl (by simp)

/-- A change of nothing the log and the link know. -/
theorem Governed.congr (h : Governed c) (hl : c'.link = c.link) (hlog : c'.log = c.log) :
    Governed c' := by
  obtain ⟨-, -, ha, hs, ht⟩ := link_eq hl
  refine h.silent hlog (by rw [ha, ht]; omega) (by rw [ha]; exact h.limit) fun hi => ?_
  rw [Idle, ha, hs, ht]
  exact hi

variable (parse : JsString → Option JsValue) (v : Variant)

theorem Governed.handleParsed (h : Governed c) (message : JsValue) :
    Governed (outcome (c.handleParsed v message)) := by
  unfold RPCClient.handleParsed
  split
  · exact h
  split
  · dsimp only
    split_ifs <;> exact h.congr rfl rfl
  · split
    · split_ifs
      · exact h.note rfl (by simp)
      · exact h
    · exact h

theorem Governed.handleMessage (h : Governed c) (message : JsValue) :
    Governed (outcome (c.handleMessage parse v message)) := by
  unfold RPCClient.handleMessage
  split
  · split_ifs
    · exact h.handleParsed v _
    · split
      · exact h.emit _ _
      · exact h.handleParsed v _
  · exact h.handleParsed v _

theorem Governed.caught (h : Governed c) : Governed (c.caught v) := by
  unfold RPCClient.caught
  split_ifs
  · exact h.emit _ _
  · exact h

theorem Governed.onmessage (h : Governed c) (data : JsString) :
    Governed (c.onmessage parse v data) := by
  unfold RPCClient.onmessage
  split_ifs
  · exact h
  rcases parse data with _ | message
  · exact h.caught v
  · have hm := h.handleMessage parse v message
    dsimp only
    rcases hr : c.handleMessage parse v message with c' | c' <;> rw [hr] at hm
    · exact Governed.caught v hm
    · exact hm

/-- A socket created while the client is not stopped. A timer that creates one is used up. -/
theorem Governed.connect (h : Governed c) {origin : Origin} (constructed : Bool)
    (ht : c'.timers + (if origin = .auto then 1 else 0) = c.timers)
    (hc : c' = { c with timers := c'.timers }) (hs : ∀ w, ¬ Stopped w c.log) :
    Governed (c'.connect v origin constructed) := by
  have hlog : c'.log = c.log := by rw [hc]
  have ha : c'.reconnectAttempts = c.reconnectAttempts := by rw [hc]
  have h' : Governed c' := by
    refine h.silent hlog (by omega) (ha ▸ h.limit) fun hi => ?_
    rw [hc]
    refine ⟨?_, hi.2.1, hi.2.2⟩
    have : c.timers = 0 := hi.1
    show c'.timers = 0
    omega
  unfold RPCClient.connect
  split_ifs
  · refine h.mark (m := .created origin) (by simp [RPCClient.note, hlog]) (fun _ => ?_)
      h'.timers_le h'.limit (fun _ => hs) (fun w hw => absurd hw (hs w)) (by simp)
    refine ⟨ha.ge, ?_⟩
    cases origin <;> simpa [RPCClient.note, Mark.isAuto] using ht.le
  · exact h'.emit _ _
  · exact h'

theorem Idle.set (h : Idle c) (k : ℕ) {r : ReadyState} (hr : r ≠ .connecting) :
    Idle (c.setSocket k r) := by
  refine ⟨h.1, h.2.1, fun j => ?_⟩
  simp only [setSocket, List.getElem?_set]
  split_ifs
  · simpa using hr
  · simp
  · exact h.2.2 j

theorem Governed.onopen (h : Governed c) {k : ℕ} (hk : c.sockets[k]? = some .connecting)
    (ht : c.timers = 0) : Governed ((c.setSocket k .open).note .opened).onopen := by
  refine Governed.emit (h.mark (m := .opened) rfl (by simp [Mark.isOpened]) ht.le
    (Nat.zero_le _) (by simp [Mark.isCreated]) ?_ (by simp)) _ _
  -- A client that is stopped has no socket left that could open.
  intro w hw
  exact absurd hk ((h.stopped w hw).2.2 k)

theorem Governed.handleReconnect (h : Governed c) : Governed (c.handleReconnect v) := by
  unfold RPCClient.handleReconnect
  split_ifs with hv ha
  · refine h.silent rfl (by simp only; omega) ha fun hi => ?_
    exact absurd ha hi.2.1.not_lt
  · exact h.emit _ _
  · exact h

theorem Governed.onclose (h : Governed c) (k : ℕ) :
    Governed (((c.setSocket k .closed).note .closed).onclose v) := by
  have h1 : Governed { c.setSocket k .closed with connected := false } :=
    h.silent rfl (Nat.add_comm _ _).le h.limit fun hi => hi.set k (by simp)
  exact ((h1.note (m := .closed) rfl (by simp)).emit _ _).handleReconnect v

theorem Governed.disconnect (h : Governed c) (ht : c.timers = 0)
    (hk : ∀ k : ℕ, c.sockets[k]? = some ReadyState.connecting → c.ws = some k) :
    Governed (c.note .disconnectCalled).disconnect := by
  have hmark : ∀ c' : RPCClient, c'.log = c.log ++ [.disconnectCalled] →
      c'.timers = c.timers → c'.reconnectAttempts = maxReconnectAttempts →
      (∀ k : ℕ, c'.sockets[k]? ≠ some ReadyState.connecting) → Governed c' := by
    intro c' hlog htime ha hno
    have hi : Idle c' := ⟨htime.trans ht, ha, hno⟩
    have := h.limit
    exact h.mark hlog (fun _ => ⟨by omega, by simp [Mark.isAuto, htime]⟩) (by omega) ha.le
      (by simp [Mark.isCreated]) (fun _ _ _ => hi) fun _ => hi
  rcases disconnect_eq (c.note .disconnectCalled) with ⟨hw, he⟩ | ⟨j, hw, he⟩
  · rw [he]
    refine hmark _ rfl rfl rfl fun k hc => ?_
    cases hw.symm.trans (hk k hc)
  · rw [he]
    rcases close_eq j (c.note .disconnectCalled).halted with ⟨he', hj, -⟩ | ⟨-, -, he'⟩
    · rw [he']
      refine hmark _ rfl rfl rfl fun k hc => ?_
      obtain rfl := Option.some.inj (hw.symm.trans (hk k hc))
      exact hj hc
    · rw [he']
      refine hmark _ rfl rfl rfl fun k hc => ?_
      simp only [setSocket, List.getElem?_set] at hc
      split_ifs at hc with hjk
      · simp at hc
      · obtain rfl := Option.some.inj (hw.symm.trans (hk k hc))
        exact hjk rfl

/-- An orderly step keeps the attempts within the budget. -/
theorem Governed.step (h : Governed c) (e : ClientEvent) (he : Orderly c e) :
    Governed (RPCClient.step parse v c e) := by
  cases e with
  | connect constructed =>
    have h1 : Governed (c.note .connectCalled) := h.note rfl (by simp)
    refine h1.connect v constructed rfl rfl fun w hw => ?_
    rcases stopped_mark hw with ⟨hm, -⟩ | ⟨t, rfl, -⟩
    · cases hm
    · simpa [Mark.isConnectCalled] using hw.2 .connectCalled (by simp)
  | disconnect => exact h.disconnect he.1 he.2
  | call stringified sendFails => exact h.congr (link_call v _ _ c) (log_call v _ _ c)
  | setRPCEnabled enabled =>
    simp only [RPCClient.step, setRPCEnabled]
    split_ifs
    · have h1 : Governed { c with rpcEnabled := enabled } := h.congr rfl rfl
      exact h1.emit _ _
    · exact h
  | onopen k =>
    simp only [RPCClient.step]
    split_ifs with hk
    · exact h.onopen hk (he hk)
    · exact h
  | onmessage k data =>
    simp only [RPCClient.step]
    split_ifs
    · exact h.onmessage parse v data
    · exact h
  | onclose k =>
    simp only [RPCClient.step]
    split
    · exact h
    · exact h
    · exact h.onclose v k
  | onerror k =>
    simp only [RPCClient.step]
    split_ifs
    · exact h.emit _ _
    · exact h
  | timer constructed =>
    simp only [RPCClient.step]
    split_ifs with ht
    · exact h
    · refine h.connect v constructed ?_ rfl fun w hw => ht (h.stopped w hw).1
      simp only [if_true]
      omega

theorem governed_start : Governed {} where
  log := by
    constructor
    · rintro w hw -
      simp [List.eq_nil_of_infix_nil hw]
    · intro w hw
      simpa using List.eq_nil_of_infix_nil hw
  budget := by
    rintro w hw -
    simp [List.suffix_nil.1 hw]
  limit := Nat.zero_le _
  stopped := by
    rintro w ⟨hw, -⟩
    simpa using List.suffix_nil.1 hw

/-- In an orderly run reconnection keeps to its limit and respects `disconnect`. -/
theorem respectful_run (events : List ClientEvent)
    (h : Runs.Throughout (step parse v) Orderly {} events) :
    ∀ pre, pre <+: events → Respectful (run parse v pre).log := by
  have hstep := Runs.throughout_of (step parse v) (I := Governed)
    (P := fun c e => Governed (c.step parse v e))
    (fun c e hc he => ⟨hc.step parse v e he, hc.step parse v e he⟩) events governed_start h
  have hall := (Runs.forall_foldl_iff (step parse v)).2 ⟨governed_start, hstep⟩
  exact fun pre hpre => (hall pre hpre).log

/-- A reconnection that is then called off. -/
theorem respectful_reconnect :
    Respectful (run (fun _ => none) .clientJs
      [.connect true, .onopen 0, .onclose 0, .timer true, .disconnect]).log := by
  refine respectful_run (fun _ => none) .clientJs _ ?_ _ List.prefix_rfl
  simp only [Runs.throughout_cons]
  refine ⟨trivial, fun _ => rfl, trivial, trivial, ⟨rfl, ?_⟩, Runs.throughout_nil _ _ _⟩
  rintro (_ | _ | k) hk
  · cases hk
  · rfl
  · cases hk

/-- The timer is armed when `disconnect` is called. -/
theorem reconnect_after_disconnect :
    ¬ ∀ pre, pre <+: [.connect true, .onopen 0, .onclose 0, .disconnect, .timer true] →
      Respectful (run (fun _ => none) .clientJs pre).log := by
  intro h
  have hw : [.disconnectCalled, .created .auto] <:+: (run (fun _ => none) .clientJs
      [.connect true, .onopen 0, .onclose 0, .disconnect, .timer true]).log :=
    ⟨[.connectCalled, .created .app, .opened, .emitted (.str (js "connected")) .undefined,
      .closed, .emitted (.str (js "disconnected")) .undefined], [], rfl⟩
  have hquiet := (h _ List.prefix_rfl).quiet [.created .auto] hw (by simp [Mark.isConnectCalled])
  simp [Mark.isCreated] at hquiet

end RPCClient

end OcppServer
