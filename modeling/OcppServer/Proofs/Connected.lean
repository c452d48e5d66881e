import OcppServer.Proofs.Client

/-!
# The connected flag

All sockets the client ever created set one flag: any open event sets it and any close event
clears it. So the flag is true of the current socket along a run exactly when no event of another
socket comes in between, in the sense of `KeepsTruth`: no socket replaces one that is open, another
socket opens only while the current one is open, and closes only while it is not.
-/

namespace OcppServer

namespace RPCClient

/-- The current socket is open; `close()` in `disconnect` ends that. -/
def CurrentOpen (c : RPCClient) : Prop := ∃ k, c.ws = some k ∧ c.sockets[k]? = some .open

def Truthful (c : RPCClient) : Prop := c.connected = true ↔ CurrentOpen c

/-- The event is one of the current socket, or one that changes nothing for it. -/
def KeepsTruth (c : RPCClient) : ClientEvent → Prop
  | .connect constructed => constructed = true → c.connected = false
  | .onopen k => c.sockets[k]? = some .connecting → c.ws = some k ∨ CurrentOpen c
  | .onclose k => (∃ r, c.sockets[k]? = some r ∧ r ≠ .closed) → c.ws = some k ∨ ¬ CurrentOpen c
  | .timer constructed => c.timers ≠ 0 → constructed = true → c.connected = false
  | _ => True

theorem truthful_congr {c c' : RPCClient} (h : c'.link = c.link) : Truthful c' ↔ Truthful c := by
  obtain ⟨hw, hc, -, hs, -⟩ := link_eq h
  simp only [Truthful, CurrentOpen, hw, hc, hs]

variable (parse : JsString → Option JsValue) (v : Variant)

theorem truthful_connect (origin : Origin) {constructed : Bool} {c : RPCClient}
    (h : Truthful c) :
    Truthful (c.connect v origin constructed) ↔ (constructed = true → c.connected = false) := by
  cases constructed
  · have hl : (c.connect v origin false).link = c.link := by
      simp only [connect, Bool.false_eq_true, if_false]
      split_ifs <;> rfl
    simpa using (truthful_congr hl).2 h
  · have hno : ¬ CurrentOpen (c.connect v origin true) := by
      rintro ⟨k, hk, ho⟩
      simp only [connect, note, if_true, Option.some.injEq] at hk ho
      subst hk
      simp at ho
    have hc : (c.connect v origin true).connected = c.connected := rfl
    simp [Truthful, hno, hc]

theorem truthful_disconnect (c : RPCClient) : Truthful c.disconnect := by
  rcases disconnect_eq c with ⟨hw, h⟩ | ⟨j, hw, h⟩
  · rw [h]
    refine iff_of_false (by simp [halted]) ?_
    rintro ⟨k, hk, -⟩
    cases hw.symm.trans hk
  · rw [h]
    rcases close_eq j c.halted with ⟨h', -, ho'⟩ | ⟨hlt, -, h'⟩
    · rw [h']
      refine iff_of_false (by simp [halted]) ?_
      rintro ⟨k, hk, ho⟩
      obtain rfl := Option.some.inj (hw.symm.trans hk)
      exact ho' ho
    · rw [h']
      refine iff_of_false (by simp [halted, setSocket]) ?_
      rintro ⟨k, hk, ho⟩
      obtain rfl := Option.some.inj (hw.symm.trans hk)
      simp [setSocket, hlt] at ho

theorem currentOpen_set {c : RPCClient} {k : ℕ} {r : ReadyState} (hk : c.sockets[k]? = some r) :
    CurrentOpen (c.setSocket k .open) ↔ c.ws = some k ∨ CurrentOpen c := by
  have hlt := (List.getElem?_eq_some_iff.1 hk).1
  simp only [CurrentOpen, setSocket, List.getElem?_set]
  constructor
  · rintro ⟨j, hj, ho⟩
    split_ifs at ho with hkj
    · exact .inl (by rw [hj, hkj])
    · exact .inr ⟨j, hj, ho⟩
  · rintro (hw | ⟨j, hj, ho⟩)
    · exact ⟨k, hw, by simp [hlt]⟩
    · refine ⟨j, hj, ?_⟩
      split_ifs
      · rfl
      · exact ho

theorem currentOpen_close {c : RPCClient} {k : ℕ} {r : ReadyState} (hk : c.sockets[k]? = some r) :
    CurrentOpen (c.setSocket k .closed) ↔ c.ws ≠ some k ∧ CurrentOpen c := by
  have hlt := (List.getElem?_eq_some_iff.1 hk).1
  simp only [CurrentOpen, setSocket, List.getElem?_set]
  constructor
  · rintro ⟨j, hj, ho⟩
    split_ifs at ho with hkj
    · simp at ho
    · exact ⟨by rw [hj, Ne, Option.some.injEq]; exact Ne.symm hkj, j, hj, ho⟩
  · rintro ⟨hw, j, hj, ho⟩
    refine ⟨j, hj, ?_⟩
    rw [if_neg, ho]
    rintro rfl
    exact hw hj

theorem truthful_onopen {c : RPCClient} {k : ℕ} (hk : c.sockets[k]? = some .connecting) :
    Truthful ((c.setSocket k .open).note .opened).onopen ↔ c.ws = some k ∨ CurrentOpen c := by
  rw [← currentOpen_set hk]
  simp [Truthful, onopen, emit, note, CurrentOpen]

theorem truthful_onclose {c : RPCClient} {k : ℕ} {r : ReadyState} (hk : c.sockets[k]? = some r) :
    Truthful (((c.setSocket k .closed).note .closed).onclose v)
      ↔ c.ws = some k ∨ ¬ CurrentOpen c := by
  obtain ⟨hc, hw, hs⟩ := onclose_eq v ((c.setSocket k .closed).note .closed)
  have hopen : CurrentOpen (((c.setSocket k .closed).note .closed).onclose v)
      ↔ CurrentOpen (c.setSocket k .closed) := by
    simp only [CurrentOpen, hw, hs]
    rfl
  rw [Truthful, hc, hopen, currentOpen_close hk]
  by_cases h : c.ws = some k <;> simp [h]

/-- A step keeps the flag true to the socket exactly when it meets the condition. -/
theorem truthful_step {c : RPCClient} (h : Truthful c) (e : ClientEvent) :
    Truthful (c.step parse v e) ↔ KeepsTruth c e := by
  cases e with
  | connect constructed => exact truthful_connect v .app (c := c.note .connectCalled) h
  | disconnect => exact iff_of_true (truthful_disconnect _) trivial
  | call stringified sendFails =>
    exact iff_of_true ((truthful_congr (link_call v stringified sendFails c)).2 h) trivial
  | setRPCEnabled enabled =>
    exact iff_of_true ((truthful_congr (link_setRPCEnabled v enabled c)).2 h) trivial
  | onopen k =>
    simp only [step, KeepsTruth]
    split_ifs with hk
    · simpa [hk] using truthful_onopen hk
    · simpa [hk] using h
  | onmessage k data =>
    simp only [step, KeepsTruth]
    split_ifs
    · exact iff_of_true ((truthful_congr (link_onmessage parse v data c)).2 h) trivial
    · exact iff_of_true h trivial
  | onclose k =>
    simp only [step, KeepsTruth]
    rcases hk : c.sockets[k]? with _ | r
    · simpa using h
    · cases r
      case closed => simpa using h
      all_goals
        rw [truthful_onclose v hk]
        simp
  | onerror k =>
    simp only [step, KeepsTruth]
    split_ifs
    · exact iff_of_true ((truthful_congr rfl).2 h) trivial
    · exact iff_of_true h trivial
  | timer constructed =>
    simp only [step, KeepsTruth]
    split_ifs with ht
    · simpa [ht] using h
    · rw [truthful_connect v .auto (c := { c with timers := c.timers - 1 }) h]
      simp [ht]

/-- The flag is true to the current socket after every event of a run exactly when each event is
one of the current socket, or changes nothing for it. -/
theorem connected_iff (events : List ClientEvent) :
    (∀ pre, pre <+: events → Truthful (run parse v pre))
      ↔ Runs.Throughout (step parse v) KeepsTruth {} events := by
  have h0 : Truthful {} := iff_of_false (by simp) (by rintro ⟨k, hk, -⟩; simp at hk)
  rw [← Runs.throughout_iff (step parse v) (I := Truthful)
    (fun c e h => truthful_step parse v h e) (fun c e h => (truthful_step parse v h e).2) h0]
  exact (Runs.forall_foldl_iff _).trans (and_iff_right h0)

/-- `connect()` called again while the first socket is open. -/
theorem reconnect_lies :
    ¬ ∀ pre, pre <+: [.connect true, .onopen 0, .connect true] →
      Truthful (run (fun _ => none) .webJs pre) := by
  intro h
  obtain ⟨k, hk, ho⟩ := (h _ List.prefix_rfl).1 rfl
  obtain rfl : 1 = k := Option.some.inj hk
  cases ho

end RPCClient

end OcppServer
