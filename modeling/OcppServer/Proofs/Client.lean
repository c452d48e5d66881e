import OcppServer.RpcClient
import OcppServer.Lib.Runs

/-!
# What an event leaves alone

The client's state falls into its link to the server (`link`) and its book of calls (`book`).
Calls and messages leave the link alone; whatever happens to the sockets leaves the book alone.
-/

namespace OcppServer

theorem getElem?_concat_cases {α : Type*} {l : List α} {a b : α} {i : ℕ}
    (h : (l ++ [a])[i]? = some b) : l[i]? = some b ∨ (i = l.length ∧ b = a) := by
  rw [List.getElem?_append] at h
  split_ifs at h with hlt
  · exact .inl h
  · obtain ⟨hlt', hb⟩ := List.getElem?_eq_some_iff.1 h
    simp only [List.length_singleton] at hlt'
    exact .inr ⟨by omega, by simpa using hb.symm⟩

namespace RPCClient

/-- The socket, the flag, the reconnect attempts, all sockets and the timers. -/
def link (c : RPCClient) : Option ℕ × Bool × ℕ × List ReadyState × ℕ :=
  (c.ws, c.connected, c.reconnectAttempts, c.sockets, c.timers)

/-- The last id, the pending requests and all calls. -/
def book (c : RPCClient) : ℕ × Dict ℕ ℕ × List Call := (c.requestId, c.pendingRequests, c.calls)

theorem link_eq {c c' : RPCClient} (h : c'.link = c.link) :
    c'.ws = c.ws ∧ c'.connected = c.connected ∧ c'.reconnectAttempts = c.reconnectAttempts
      ∧ c'.sockets = c.sockets ∧ c'.timers = c.timers := by
  simpa [link] using h

theorem book_eq {c c' : RPCClient} (h : c'.book = c.book) :
    c'.requestId = c.requestId ∧ c'.pendingRequests = c.pendingRequests ∧ c'.calls = c.calls := by
  simpa [book] using h

variable (parse : JsString → Option JsValue) (v : Variant)

/-- All that a call changes. -/
theorem exists_call (stringified sendFails : Bool) (c : RPCClient) :
    ∃ requestId pendingRequests calls, c.call v stringified sendFails
      = { c with requestId := requestId, pendingRequests := pendingRequests, calls := calls } := by
  unfold call
  split_ifs
  · exact ⟨_, _, _, rfl⟩
  · exact ⟨_, _, _, rfl⟩
  · exact ⟨_, _, _, rfl⟩
  all_goals
    dsimp only
    split
    · exact ⟨_, _, _, rfl⟩
    · exact ⟨_, _, _, rfl⟩

theorem link_call (stringified sendFails : Bool) (c : RPCClient) :
    (c.call v stringified sendFails).link = c.link := by
  obtain ⟨requestId, pendingRequests, calls, h⟩ := exists_call v stringified sendFails c
  rw [h]
  rfl

theorem log_call (stringified sendFails : Bool) (c : RPCClient) :
    (c.call v stringified sendFails).log = c.log := by
  obtain ⟨requestId, pendingRequests, calls, h⟩ := exists_call v stringified sendFails c
  rw [h]

theorem rpcEnabled_call (stringified sendFails : Bool) (c : RPCClient) :
    (c.call v stringified sendFails).rpcEnabled = c.rpcEnabled := by
  obtain ⟨requestId, pendingRequests, calls, h⟩ := exists_call v stringified sendFails c
  rw [h]

/-- All that a message changes. -/
def Heeded (c c' : RPCClient) : Prop :=
  ∃ pendingRequests calls log,
    c' = { c with pendingRequests := pendingRequests, calls := calls, log := log }

theorem Heeded.trans {c c' c'' : RPCClient} (h : Heeded c c') (h' : Heeded c' c'') :
    Heeded c c'' := by
  obtain ⟨pendingRequests, calls, log, rfl⟩ := h
  obtain ⟨pendingRequests', calls', log', rfl⟩ := h'
  exact ⟨pendingRequests', calls', log', rfl⟩

/-- The state an exception leaves, or the state without one. -/
def outcome : Except RPCClient RPCClient → RPCClient
  | .ok c => c
  | .error c => c

theorem heeded_caught (c : RPCClient) : Heeded c (c.caught v) := by
  unfold caught
  split_ifs
  · exact ⟨_, _, _, rfl⟩
  · exact ⟨_, _, _, rfl⟩

theorem heeded_handleParsed (message : JsValue) (c : RPCClient) :
    Heeded c (outcome (c.handleParsed v message)) := by
  unfold handleParsed
  split
  · exact ⟨_, _, _, rfl⟩
  split
  · dsimp only
    split_ifs <;> exact ⟨_, _, _, rfl⟩
  · split
    · split_ifs <;> exact ⟨_, _, _, rfl⟩
    · exact ⟨_, _, _, rfl⟩

theorem heeded_handleMessage (message : JsValue) (c : RPCClient) :
    Heeded c (outcome (c.handleMessage parse v message)) := by
  unfold handleMessage
  split
  · split_ifs
    · exact heeded_handleParsed v _ c
    · split
      · exact ⟨_, _, _, rfl⟩
      · exact heeded_handleParsed v _ c
  · exact heeded_handleParsed v _ c

theorem heeded_onmessage (data : JsString) (c : RPCClient) :
    Heeded c (c.onmessage parse v data) := by
  unfold onmessage
  split_ifs
  · exact ⟨_, _, _, rfl⟩
  rcases parse data with _ | message
  · exact heeded_caught v c
  · have h := heeded_handleMessage parse v message c
    dsimp only
    rcases hm : c.handleMessage parse v message with c' | c'
    · rw [hm] at h
      exact h.trans (heeded_caught v c')
    · rw [hm] at h
      exact h

theorem link_onmessage (data : JsString) (c : RPCClient) :
    (c.onmessage parse v data).link = c.link := by
  obtain ⟨pendingRequests, calls, log, h⟩ := heeded_onmessage parse v data c
  rw [h]
  rfl

theorem rpcEnabled_onmessage (data : JsString) (c : RPCClient) :
    (c.onmessage parse v data).rpcEnabled = c.rpcEnabled := by
  obtain ⟨pendingRequests, calls, log, h⟩ := heeded_onmessage parse v data c
  rw [h]

theorem link_setRPCEnabled (enabled : Bool) (c : RPCClient) :
    (c.setRPCEnabled v enabled).link = c.link := by
  unfold setRPCEnabled
  split_ifs <;> rfl

/-- Of the link, a close event clears the flag and may arm a timer. -/
theorem onclose_eq (c : RPCClient) :
    (c.onclose v).connected = false ∧ (c.onclose v).ws = c.ws
      ∧ (c.onclose v).sockets = c.sockets := by
  unfold onclose handleReconnect
  dsimp only
  split_ifs <;> exact ⟨rfl, rfl, rfl⟩

theorem book_connect (origin : Origin) (constructed : Bool) (c : RPCClient) :
    (c.connect v origin constructed).book = c.book := by
  unfold connect
  split_ifs <;> rfl

/-- The flag cleared, no attempts left. -/
def halted (c : RPCClient) : RPCClient :=
  { c with connected := false, reconnectAttempts := maxReconnectAttempts }

theorem disconnect_eq (c : RPCClient) :
    (c.ws = none ∧ c.disconnect = c.halted) ∨
      ∃ k, c.ws = some k ∧ c.disconnect = c.halted.close k := by
  unfold disconnect
  rcases hw : c.ws with _ | k
  · exact .inl ⟨rfl, by simp only [halted, hw]⟩
  · exact .inr ⟨k, rfl, by simp only [halted, hw]⟩

/-- `close()` changes at most the socket's own state, and the socket is not open after it. -/
theorem close_eq (k : ℕ) (c : RPCClient) :
    (c.close k = c ∧ c.sockets[k]? ≠ some .connecting ∧ c.sockets[k]? ≠ some .open)
      ∨ (k < c.sockets.length ∧ c.sockets[k]? ≠ some .closed
        ∧ c.close k = c.setSocket k .closing) := by
  unfold close
  rcases hk : c.sockets[k]? with _ | r
  · exact .inl ⟨rfl, by simp, by simp⟩
  · have hlt := (List.getElem?_eq_some_iff.1 hk).1
    cases r
    case connecting | «open» => exact .inr ⟨hlt, by simp, rfl⟩
    case closing | closed => exact .inl ⟨rfl, by simp, by simp⟩

theorem book_disconnect (c : RPCClient) : c.disconnect.book = c.book := by
  rcases disconnect_eq c with ⟨-, h⟩ | ⟨k, -, h⟩
  · rw [h]
    rfl
  · rcases close_eq k c.halted with ⟨h', -⟩ | ⟨-, -, h'⟩ <;> rw [h, h'] <;> rfl

theorem book_onclose (c : RPCClient) : (c.onclose v).book = c.book := by
  unfold onclose handleReconnect
  dsimp only
  split_ifs <;> rfl

theorem book_setRPCEnabled (enabled : Bool) (c : RPCClient) :
    (c.setRPCEnabled v enabled).book = c.book := by
  unfold setRPCEnabled
  split_ifs <;> rfl

end RPCClient

end OcppServer
