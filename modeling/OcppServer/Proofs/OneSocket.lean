import OcppServer.Proofs.Client

/-!
# A client with one socket at a time

A page that connects when it is made, and leaves the rest to the reconnect timer, has one socket
at a time: the timer is armed by a close event and not before. While that socket is open the
connected flag is set.
-/

namespace OcppServer

namespace RPCClient

variable (parse : JsString → Option JsValue) (v : Variant)

/-- The socket was created, and its close event has not come. -/
def Live (k : ℕ) (c : RPCClient) : Prop := ∃ r, c.sockets[k]? = some r ∧ r ≠ .closed

structure OneSocket (c : RPCClient) : Prop where
  timers : c.timers ≤ 1
  armed : c.timers ≠ 0 → ∀ k, ¬ c.Live k
  one : ∀ j k, c.Live j → c.Live k → j = k
  connected : ∀ k : ℕ, c.sockets[k]? = some .open → c.connected = true

/-- An event the page does not make itself, other than by its reconnect timer. -/
def Unasked : ClientEvent → Prop
  | .connect _ | .disconnect => False
  | _ => True

variable {c c' : RPCClient}

theorem OneSocket.congr (h : OneSocket c) (hl : c'.link = c.link) : OneSocket c' := by
  obtain ⟨-, hc, -, hs, ht⟩ := link_eq hl
  refine ⟨ht ▸ h.timers, ?_, ?_, ?_⟩
  · simpa only [ht, Live, hs] using h.armed
  · simpa only [Live, hs] using h.one
  · simpa only [hc, hs] using h.connected

theorem live_set {k j : ℕ} {r : ReadyState} (h : (c.setSocket k r).Live j) :
    c.Live j ∨ (j = k ∧ k < c.sockets.length ∧ r ≠ .closed) := by
  obtain ⟨s, hs, hne⟩ := h
  simp only [setSocket, List.getElem?_set] at hs
  split_ifs at hs with hkj hlt
  · exact .inr ⟨hkj.symm, hlt, fun h => hne (h ▸ (Option.some.inj hs).symm)⟩
  · exact .inl ⟨s, hs, hne⟩

theorem oneSocket_connect (hno : ∀ k, ¬ c.Live k) (ht : c.timers = 0)
    (origin : Origin) (constructed : Bool) : OneSocket (c.connect v origin constructed) := by
  have hc : OneSocket c := by
    refine ⟨by omega, fun hne => absurd ht hne, fun j _ hj => absurd hj (hno j), fun k hk => ?_⟩
    exact absurd ⟨_, hk, by simp⟩ (hno k)
  cases constructed
  · refine hc.congr ?_
    unfold connect
    rw [if_neg (by simp)]
    split_ifs <;> rfl
  have hlive : ∀ k, (c.connect v origin true).Live k → k = c.sockets.length := by
    rintro k ⟨r, hr, hne⟩
    simp only [connect, note, if_true] at hr
    rcases getElem?_concat_cases hr with hr | ⟨hk, -⟩
    · exact absurd ⟨r, hr, hne⟩ (hno k)
    · exact hk
  refine ⟨hc.timers, fun hne => absurd ht hne, ?_, ?_⟩
  · intro j k hj hk
    rw [hlive j hj, hlive k hk]
  · intro k hk
    simp only [connect, note, if_true] at hk
    rcases getElem?_concat_cases hk with hk | ⟨-, hk⟩
    · exact absurd ⟨_, hk, by simp⟩ (hno k)
    · cases hk

theorem oneSocket_onopen (h : OneSocket c) {k : ℕ} (hk : c.sockets[k]? = some .connecting) :
    OneSocket ((c.setSocket k .open).note .opened).onopen := by
  have hkl : c.Live k := ⟨_, hk, by simp⟩
  have hlive : ∀ {j}, (c.setSocket k .open).Live j → j = k := by
    intro j hj
    rcases live_set hj with hj | ⟨hj, -⟩
    · exact h.one j k hj hkl
    · exact hj
  have ht : c.timers = 0 := by
    by_contra hne
    exact h.armed hne k hkl
  refine ⟨h.timers, fun hne => absurd ht hne, ?_, fun _ _ => rfl⟩
  intro i j hi hj
  rw [hlive hi, hlive hj]

theorem oneSocket_onclose (h : OneSocket c) {k : ℕ} (hk : c.Live k) :
    OneSocket (((c.setSocket k .closed).note .closed).onclose v) := by
  obtain ⟨-, -, hs⟩ := onclose_eq v ((c.setSocket k .closed).note .closed)
  have hno : ∀ j, ¬ (((c.setSocket k .closed).note .closed).onclose v).Live j := by
    intro j hj
    rw [Live, hs] at hj
    have hj' : (c.setSocket k .closed).Live j := hj
    rcases live_set hj' with hl | ⟨-, -, hne⟩
    · obtain rfl := h.one j k hl hk
      obtain ⟨r, hr, hne⟩ := hj'
      obtain ⟨s, hs, -⟩ := hl
      have hlt := (List.getElem?_eq_some_iff.1 hs).1
      simp only [setSocket, List.getElem?_set_self hlt, Option.some.injEq] at hr
      exact hne hr.symm
    · exact hne rfl
  have ht : c.timers = 0 := by
    by_contra hne
    exact h.armed hne k hk
  refine ⟨?_, fun _ => hno, fun j _ hj => absurd hj (hno j), fun j hj => ?_⟩
  · unfold onclose handleReconnect
    dsimp only
    split_ifs
    · exact (congrArg (· + 1) ht).le
    · exact h.timers
    · exact h.timers
  · exact absurd ⟨_, hj, by simp⟩ (hno j)

theorem step_onclose_of_live {k : ℕ} (hk : c.Live k) :
    c.step parse v (.onclose k) = ((c.setSocket k .closed).note .closed).onclose v := by
  obtain ⟨r, hr, hne⟩ := hk
  simp only [step, hr]
  split
  · cases ‹some r = none›
  · rename_i h
    exact absurd (Option.some.inj h) hne
  · rfl

theorem step_onclose_of_not_live {k : ℕ} (hk : ¬ c.Live k) : c.step parse v (.onclose k) = c := by
  simp only [step]
  split
  · rfl
  · rfl
  · rename_i hnone hclosed
    rcases hr : c.sockets[k]? with _ | r
    · exact absurd hr hnone
    · exact absurd ⟨r, hr, fun h => hclosed (h ▸ hr)⟩ hk

theorem OneSocket.step (h : OneSocket c) {e : ClientEvent} (he : Unasked e) :
    OneSocket (RPCClient.step parse v c e) := by
  cases e with
  | connect constructed => exact he.elim
  | disconnect => exact he.elim
  | call stringified sendFails => exact h.congr (link_call v stringified sendFails c)
  | setRPCEnabled enabled => exact h.congr (link_setRPCEnabled v enabled c)
  | onopen k =>
    simp only [RPCClient.step]
    split_ifs with hk
    · exact oneSocket_onopen h hk
    · exact h
  | onmessage k data =>
    simp only [RPCClient.step]
    split_ifs
    · exact h.congr (link_onmessage parse v data c)
    · exact h
  | onclose k =>
    by_cases hk : c.Live k
    · rw [step_onclose_of_live parse v hk]
      exact oneSocket_onclose v h hk
    · rw [step_onclose_of_not_live parse v hk]
      exact h
  | onerror k =>
    simp only [RPCClient.step]
    split_ifs
    · exact h.congr rfl
    · exact h
  | timer constructed =>
    simp only [RPCClient.step]
    split_ifs with ht
    · exact h
    · have htimers := h.timers
      exact oneSocket_connect v (c := { c with timers := c.timers - 1 }) (h.armed ht)
        (by simp only; omega) .auto constructed

end RPCClient

end OcppServer
