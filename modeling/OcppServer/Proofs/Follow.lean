import OcppServer.Proofs.Replies
import OcppServer.Proofs.Traffic

/-!
# Following the values

An observer keeps a copy of the values by the notifications queued to it. Every command announces
the assignments it makes, as it makes them, but `resetSystem` (`commands_announce`): it writes
`running` and six other values back and announces the status `reset`. So a copy taken from the
server follows it along a run exactly when no reset is received while the observer is connected.
-/

namespace OcppServer

/-- The system's values hold `chargingEnabled`, which the metrics read by subscript. -/
def HasFlag (d : RpcData) : Prop := lit "chargingEnabled" ∈ d.values

/-- The effect announces the assignments that it makes. -/
structure Announces (e : Effect) (d : RpcData) : Prop where
  clean : ∀ kv ∈ e.announced, (0 : UInt8) ∉ kv.1 ∧ (0 : UInt8) ∉ kv.2
  agree : Replica.Agree (Replica.replay e.announced d.values) e.data.values
  flag : HasFlag e.data

section Effects

variable (rt : Runtime) (amb : Ambient)

theorem announces_pure (o : Outcome) {d d' : RpcData} (h : HasFlag d)
    (hv : d'.values = d.values) : Announces (.pure o d') d where
  clean kv hkv := by simp [Effect.pure] at hkv
  agree := by
    rw [show (Effect.pure o d').data.values = d.values from hv]
    exact .refl _
  flag := by
    rw [HasFlag, show (Effect.pure o d').data.values = d.values from hv]
    exact h

theorem values_assign (l : List (Bytes × Bytes)) (power : Option Double) (result : Bytes)
    (d : RpcData) : (Effect.assign l power result d).data.values = Replica.replay l d.values := by
  cases power <;> rfl

theorem announces_assign {l : List (Bytes × Bytes)} (power : Option Double) (result : Bytes)
    {d : RpcData} (h : HasFlag d) (hl : ∀ kv ∈ l, (0 : UInt8) ∉ kv.1 ∧ (0 : UInt8) ∉ kv.2) :
    Announces (.assign l power result d) d where
  clean := hl
  agree := by
    rw [values_assign]
    exact .refl _
  flag := by
    rw [HasFlag, values_assign]
    exact Replica.mem_replay l h

theorem values_updateMetrics (clients : ℕ) {d : RpcData} (h : HasFlag d) :
    (updateMetrics rt amb clients d).values = d.values := by
  obtain ⟨value, hv⟩ := Dict.mem_iff_exists.1 h
  simp only [updateMetrics, subscript, hv]

theorem announces_setValue (params : Json) {d : RpcData} (h : HasFlag d) :
    Announces (Effect.setValue rt params d) d := by
  unfold Effect.setValue
  rcases hk : params.stringMember? (lit "key") with _ | key
  · exact announces_pure _ h rfl
  rcases params.find? (lit "value") with _ | value
  · exact announces_pure _ h rfl
  · refine announces_assign none _ h fun kv hkv => ?_
    rw [List.mem_singleton] at hkv
    subst hkv
    obtain ⟨t, -, rfl⟩ := Json.stringMember?_eq_some.1 hk
    exact ⟨zero_notMem_cstr t, zero_notMem_jsonValueToString rt value⟩

theorem announces_setMaxPower (params : Json) {d : RpcData} (h : HasFlag d) :
    Announces (Effect.setMaxPower params d) d := by
  unfold Effect.setMaxPower
  rcases params.intMember? (lit "value") with _ | maxPower
  · exact announces_pure _ h rfl
  simp only []
  split_ifs
  · exact announces_pure _ h rfl
  · refine announces_assign none _ h fun kv hkv => ?_
    rw [List.mem_singleton] at hkv
    subst hkv
    have hk : (0 : UInt8) ∉ lit "maxPower" := by decide
    exact ⟨hk, zero_notMem_decimal maxPower⟩

/-- Every command but the reset announces what it assigns. -/
theorem commands_announce {name : Bytes} {effect : ℕ → Json → RpcData → Effect}
    (he : (name, effect) ∈ Effect.commands rt amb) (hn : name ≠ lit "resetSystem") (clients : ℕ)
    (params : Json) {d : RpcData} (h : HasFlag d) : Announces (effect clients params d) d := by
  simp only [Effect.commands, List.mem_cons, Prod.mk.injEq, List.not_mem_nil, or_false] at he
  rcases he with ⟨-, rfl⟩ | ⟨-, rfl⟩ | ⟨-, rfl⟩ | ⟨-, rfl⟩ | ⟨-, rfl⟩ | ⟨-, rfl⟩ | ⟨-, rfl⟩ |
    ⟨-, rfl⟩ | ⟨-, rfl⟩ | ⟨-, rfl⟩ | ⟨rfl, -⟩ | ⟨-, rfl⟩
  case inr.inr.inr.inr.inl => exact announces_setValue rt params h
  case inr.inr.inr.inr.inr.inl =>
    exact announces_pure _ h (values_updateMetrics rt amb clients h)
  case inr.inr.inr.inr.inr.inr.inl =>
    exact announces_pure _ h (values_updateMetrics rt amb clients h)
  case inr.inr.inr.inr.inr.inr.inr.inr.inl => exact announces_assign _ _ h (by decide)
  case inr.inr.inr.inr.inr.inr.inr.inr.inr.inl => exact announces_assign _ _ h (by decide)
  case inr.inr.inr.inr.inr.inr.inr.inr.inr.inr.inl => exact absurd rfl hn
  case inr.inr.inr.inr.inr.inr.inr.inr.inr.inr.inr => exact announces_setMaxPower params h
  all_goals exact announces_pure _ h rfl

theorem ofRequest_resetSystem (clients : ℕ) {request : RpcRequest}
    (hm : request.method = lit "resetSystem") (d : RpcData) :
    Effect.ofRequest rt amb clients request d = ⟨initializeValues amb.now d,
      [(lit "systemStatus", lit "reset")], .ok (lit "System reset completed")⟩ := by
  unfold Effect.ofRequest
  rw [hm]
  rfl

theorem hasFlag_initializeValues (now : ℤ) (d : RpcData) : HasFlag (initializeValues now d) := by
  simp only [HasFlag, initializeValues, AList.mem_insert]
  exact .inr (.inr (.inr (.inr (.inl trivial))))

theorem ofMessage_announces (clients : ℕ) (message : Bytes) {d : RpcData} (h : HasFlag d)
    (hreset : ∀ id params, ¬ IsRequest rt message (lit "resetSystem") id params) :
    Announces (Effect.ofMessage rt amb clients message d).1 d := by
  unfold Effect.ofMessage
  rcases hp : parseRpcRequest rt message with what | request
  · exact announces_pure _ h rfl
  · have hreq := parseRpcRequest_eq_ok rt hp
    have hn : request.method ≠ lit "resetSystem" := fun hm => hreset _ _ (hm ▸ hreq)
    simp only [Effect.ofRequest]
    rcases hl : (Effect.commands rt amb).lookup request.method with _ | effect
    · exact announces_pure _ h rfl
    · exact commands_announce rt amb (Dict.mem_of_lookup hl) hn clients request.params h

/-- After a message the values still hold the flag. -/
theorem ofMessage_hasFlag (clients : ℕ) (message : Bytes) {d : RpcData} (h : HasFlag d) :
    HasFlag (Effect.ofMessage rt amb clients message d).1.data := by
  by_cases hreset : ∃ id params, IsRequest rt message (lit "resetSystem") id params
  · obtain ⟨id, params, hreq⟩ := hreset
    obtain ⟨request, hp, hm, -⟩ := hreq.parse
    simp only [Effect.ofMessage, hp, ofRequest_resetSystem rt amb clients hm]
    exact hasFlag_initializeValues _ _
  · simp only [not_exists] at hreset
    exact (ofMessage_announces rt amb clients message h hreset).flag

end Effects

section Assignments

theorem assignment?_valueChanged (kv : Bytes × Bytes) :
    (valueChanged kv).assignment? = some (cstr kv.1, cstr kv.2) := by
  have hm : ∀ j j' k : Json, (Json.object [(lit "jsonrpc", j), (lit "method", j'),
      (lit "params", k)]).find? (lit "method") = some j' := fun _ _ _ => rfl
  have hp : ∀ j j' k : Json, (Json.object [(lit "jsonrpc", j), (lit "method", j'),
      (lit "params", k)]).find? (lit "params") = some k := fun _ _ _ => rfl
  have hk : ∀ j j' : Json, (Json.object [(lit "key", j), (lit "value", j')]).find? (lit "key")
      = some j := fun _ _ => rfl
  have hv : ∀ j j' : Json, (Json.object [(lit "key", j), (lit "value", j')]).find? (lit "value")
      = some j' := fun _ _ => rfl
  have hc : cstr (lit "valueChanged") = lit "valueChanged" := by decide
  simp only [valueChanged, Message.assignment?, Json.stringMember?, hm, hp, hk, hv,
    Option.bind_some, Json.getString?, hc, if_true, cstr_cstr]

theorem assignment?_of_no_method {doc : Json} (h : doc.find? (lit "method") = none) :
    (Message.json doc).assignment? = none := by
  have hm : doc.stringMember? (lit "method") = none := by rw [Json.stringMember?, h]; rfl
  rw [Message.assignment?, hm, if_neg (by simp)]

theorem assignment?_reply (id : ℤ) (o : Outcome) : (reply id o).assignment? = none := by
  have hm : ∀ (j j' : Json) (m : Bytes × Json), m.1 ≠ lit "method" →
      (Json.object [(lit "jsonrpc", j), (lit "id", j'), m]).find? (lit "method") = none := by
    rintro j j' ⟨name, k⟩ hne
    have hb : (lit "method" == name) = false := by simpa using Ne.symm hne
    have h1 : (lit "method" == lit "jsonrpc") = false := by decide
    have h2 : (lit "method" == lit "id") = false := by decide
    simp only [Json.find?, List.lookup_cons, hb, h1, h2, List.lookup_nil]
  have h : ∀ response : RpcResponse, (serializeRpcResponse response).assignment? = none := by
    intro response
    refine assignment?_of_no_method (hm _ _ _ ?_)
    have herror : lit "error" ≠ lit "method" := by decide
    have hresult : lit "result" ≠ lit "method" := by decide
    split_ifs
    · exact herror
    · exact hresult
  cases o <;> exact h _

/-- What an observer reads off a message's traffic is what the message announced. -/
theorem filterMap_produced {e : Effect × ℤ} (own : Bool)
    (h : ∀ kv ∈ e.1.announced, (0 : UInt8) ∉ kv.1 ∧ (0 : UInt8) ∉ kv.2) :
    (produced e own).filterMap Message.assignment? = e.1.announced := by
  have hown : (if own = true then [reply e.2 e.1.result] else []).filterMap Message.assignment?
      = [] := by
    cases own
    · rfl
    · simp [assignment?_reply]
  rw [produced, List.filterMap_append, hown, List.append_nil, List.filterMap_map]
  have hid : ∀ kv ∈ e.1.announced, (Message.assignment? ∘ valueChanged) kv = some kv := by
    intro kv hkv
    obtain ⟨h1, h2⟩ := h kv hkv
    rw [Function.comp_apply, assignment?_valueChanged, cstr_of_notMem h1, cstr_of_notMem h2]
  rw [List.filterMap_congr hid, List.filterMap_some]

end Assignments

namespace System

variable (rt : Runtime) (handler : Option WebServer.MessageHandler)

/-- The assignments queued to the observer since it was as `p`. -/
def observed (p q : WebSocketConnection) : List (Bytes × Bytes) :=
  (q.sent.drop p.sent.length).filterMap Message.assignment?

/-- While the observer is connected, its copy is the values of the server, key for key. -/
def Follows (c : ℤ) (p : SharedPtr WebSocketConnection) (copy : Dict Bytes Bytes)
    (sys : System) : Prop :=
  ∀ q, sys.server.connections.lookup c = some q → q.addr = p.addr →
    Replica.Agree (Replica.replay (observed p.obj q.obj) copy) sys.server.data.values

/-- A reset request, received on a registered connection. -/
def ReceivesReset (sys : System) (cb : Callback) : Prop :=
  ∃ c p amb message id params, sys.server.connections.lookup c = some p ∧ message ≠ []
    ∧ cb = .receive p.obj.wsi amb message ∧ IsRequest rt message (lit "resetSystem") id params

/-- What carries an observer through a run. -/
structure Followed (c : ℤ) (p : SharedPtr WebSocketConnection) (copy : Dict Bytes Bytes)
    (sys : System) : Prop extends Registered sys where
  flag : HasFlag sys.server.data
  old : p.addr < sys.nextAddr
  grows : ∀ q, sys.server.connections.lookup c = some q → q.addr = p.addr →
    p.obj.sent.length ≤ q.obj.sent.length
  follows : Follows c p copy sys

variable {c : ℤ} {p : SharedPtr WebSocketConnection} {copy : Dict Bytes Bytes}

theorem observed_append {q q' : WebSocketConnection} {ms : List Message}
    (hl : p.obj.sent.length ≤ q.sent.length) (hs : q'.sent = q.sent ++ ms) :
    observed p.obj q' = observed p.obj q ++ ms.filterMap Message.assignment? := by
  rw [observed, hs, List.drop_append_of_le_length hl, List.filterMap_append]
  rfl

/-- The observer's entry after a callback was its entry before. -/
theorem Followed.entry {sys sys' : System} (h : Followed c p copy sys) {cb : Callback}
    (hm : Move rt sys cb sys') {q' : SharedPtr WebSocketConnection}
    (hq' : sys'.server.connections.lookup c = some q') (ha : q'.addr = p.addr) :
    ∃ q, Traffic rt sys sys' cb c q q' ∧ q.addr = p.addr := by
  rcases hm.traffic rt h.toRegistered hq' with ⟨wsi, -, -, -, rfl⟩ | ⟨q, ht⟩
  · exact absurd ha.symm h.old.ne
  · exact ⟨q, ht, by rw [← ht.addr, ha]⟩

/-- The callback announces to every connection what it assigns. -/
theorem Followed.move {sys sys' : System} (h : Followed c p copy sys) {cb : Callback}
    (hm : Move rt sys cb sys') (hn : sys.nextAddr ≤ sys'.nextAddr)
    (hf : HasFlag sys'.server.data)
    (hd : ∀ wsi, Replica.Agree (Replica.replay
        ((sys.queued rt c wsi cb).filterMap Message.assignment?) sys.server.data.values)
      sys'.server.data.values) : Followed c p copy sys' where
  toRegistered := hm.registered rt h.toRegistered
  flag := hf
  old := h.old.trans_le hn
  grows q' hq' ha := by
    obtain ⟨q, ht, hqa⟩ := h.entry rt hm hq' ha
    have := h.grows q ht.entry hqa
    rw [ht.sent, List.length_append]
    omega
  follows q' hq' ha := by
    obtain ⟨q, ht, hqa⟩ := h.entry rt hm hq' ha
    have hfol := h.follows q ht.entry hqa
    rw [observed_append (h.grows q ht.entry hqa) ht.sent, Replica.replay_append]
    exact (hfol.replay _).trans (hd q.obj.wsi)

theorem Followed.step {sys sys' : System} (h : Followed c p copy sys) {cb : Callback}
    (hcb : cb.ofSocket = true) (hreset : ¬ ReceivesReset rt sys cb)
    (hstep : sys.step rt handler cb = some sys') : Followed c p copy sys' := by
  have hm := h.toRegistered.move rt handler hstep
  have hsame : ∀ d : Dict Bytes Bytes, Replica.Agree (Replica.replay
      (([] : List Message).filterMap Message.assignment?) d) d := fun d => .refl d
  cases hm with
  | idle hidle =>
    refine h.move rt (.idle hidle) le_rfl h.flag fun wsi => ?_
    cases cb with
    | receive w amb message =>
      have hq : sys.queued rt c wsi (.receive w amb message) = [] := by
        rw [queued, if_neg]
        rintro ⟨hw, hm⟩
        exact hidle.elim (fun h => h hw) hm
      rw [hq]
      exact hsame _
    | broadcast | sendToConnection | closeConnection => exact hidle.elim
    | _ => exact hsame _
  | opened hw => exact h.move rt (.opened hw) (Nat.le_succ _) h.flag fun wsi => hsame _
  | @answered c₀ p₀ amb message hp₀ hm₀ =>
    have hno : ∀ id params, ¬ IsRequest rt message (lit "resetSystem") id params :=
      fun id params hreq => hreset ⟨c₀, p₀, amb, message, id, params, hp₀, hm₀, rfl, hreq⟩
    have ha := ofMessage_announces rt amb sys.server.clients message h.flag hno
    obtain ⟨session, hs, -⟩ := h.slot c₀ p₀ hp₀
    refine h.move rt (.answered hp₀ hm₀) le_rfl ha.flag fun wsi => ?_
    rw [queued, if_pos ⟨Dict.mem_iff_exists.2 ⟨session, hs⟩, hm₀⟩, filterMap_produced _ ha.clean]
    exact ha.agree
  | flushed hp hb => exact h.move rt (.flushed hp hb) le_rfl h.flag fun wsi => hsame _
  | closed hp => exact h.move rt (.closed hp) le_rfl h.flag fun wsi => hsame _
  | broadcast | sent | released => simp [Callback.ofSocket] at hcb

/-- A reset after the observer has gone. -/
theorem Followed.unheard {sys sys' : System} (h : Followed c p copy sys) {cb : Callback}
    (hreset : ReceivesReset rt sys cb)
    (hgone : ¬ ∃ q, sys.server.connections.lookup c = some q ∧ q.addr = p.addr)
    (hstep : sys.step rt handler cb = some sys') : Followed c p copy sys' := by
  have hm := h.toRegistered.move rt handler hstep
  have hnone : ∀ q', sys'.server.connections.lookup c = some q' → q'.addr ≠ p.addr := by
    intro q' hq' ha
    obtain ⟨q, ht, hqa⟩ := h.entry rt hm hq' ha
    exact hgone ⟨q, ht.entry, hqa⟩
  obtain ⟨c₀, p₀, amb, message, id, params, hp₀, hm₀, rfl, -⟩ := hreset
  rw [h.toRegistered.step_receive rt handler hp₀ amb hm₀, Option.some.injEq] at hstep
  subst hstep
  refine ⟨hm.registered rt h.toRegistered, ?_, h.old, fun q' hq' ha => absurd ha (hnone q' hq'),
    fun q' hq' ha => absurd ha (hnone q' hq')⟩
  rw [onServer, WebServer.processMessage_eq]
  exact ofMessage_hasFlag rt amb _ message h.flag

/-- A reset leaves the observer with a status the server does not have. -/
theorem Followed.reset {sys : System} (h : Followed c p copy sys)
    {q : SharedPtr WebSocketConnection} (hq : sys.server.connections.lookup c = some q)
    (ha : q.addr = p.addr) {cb : Callback} (hreset : ReceivesReset rt sys cb) :
    ∃ sys', sys.step rt handler cb = some sys' ∧ ¬ Follows c p copy sys' := by
  obtain ⟨c₀, p₀, amb, message, id, params, hp₀, hm₀, rfl, hreq⟩ := hreset
  obtain ⟨request, hparse, hmethod, -⟩ := hreq.parse
  have hstep := h.toRegistered.step_receive rt handler hp₀ amb hm₀
  have hm := h.toRegistered.move rt handler hstep
  refine ⟨_, hstep, fun hfol => ?_⟩
  have he : (Effect.ofMessage rt amb sys.server.clients message sys.server.data).1
      = ⟨initializeValues amb.now sys.server.data, [(lit "systemStatus", lit "reset")],
        .ok (lit "System reset completed")⟩ := by
    simp only [Effect.ofMessage, hparse, ofRequest_resetSystem rt amb _ hmethod]
  obtain ⟨q', hq'⟩ : ∃ q', (sys.onServer (.processMessage rt amb handler c₀ message)
      ).server.connections.lookup c = some q' := by
    rw [onServer, WebServer.processMessage_eq]
    simp only [WebServer.deliver, Dict.lookup_mapVal, hq, Option.map_some]
    exact ⟨_, rfl⟩
  rcases hm.traffic rt h.toRegistered hq' with ⟨wsi, hcb, -⟩ | ⟨q₁, ht⟩
  · cases hcb
  obtain rfl := Option.some.inj (hq.symm.trans ht.entry)
  have hag := hfol q' hq' (ht.addr.trans ha) (lit "systemStatus")
  obtain ⟨session, hs, -⟩ := h.slot c₀ p₀ hp₀
  have hclean : ∀ kv ∈ (Effect.ofMessage rt amb sys.server.clients message
      sys.server.data).1.announced, (0 : UInt8) ∉ kv.1 ∧ (0 : UInt8) ∉ kv.2 := by
    have hl : ∀ kv ∈ [(lit "systemStatus", lit "reset")],
        (0 : UInt8) ∉ kv.1 ∧ (0 : UInt8) ∉ kv.2 := by decide
    rw [he]
    exact hl
  have hv : (sys.onServer (.processMessage rt amb handler c₀ message)).server.data
      = initializeValues amb.now sys.server.data := by
    rw [onServer, WebServer.processMessage_eq]
    exact congrArg Effect.data he
  rw [observed_append (h.grows q hq ha) ht.sent, Replica.replay_append, queued,
    if_pos ⟨Dict.mem_iff_exists.2 ⟨session, hs⟩, hm₀⟩, filterMap_produced _ hclean, he, hv] at hag
  simp only [Replica.replay_cons, Replica.replay_nil, AList.lookup_insert, initializeValues] at hag
  rw [AList.lookup_insert_ne (by decide), AList.lookup_insert_ne (by decide),
    AList.lookup_insert_ne (by decide), AList.lookup_insert_ne (by decide),
    AList.lookup_insert_ne (by decide), AList.lookup_insert_ne (by decide),
    AList.lookup_insert] at hag
  exact absurd hag (by decide)

theorem Reachable.hasFlag {sys : System} (h : Reachable rt handler sys) :
    HasFlag sys.server.data := by
  obtain ⟨now, cbs, h⟩ := h
  refine (Runs.run_invariant (I := fun sys => Registered sys ∧ HasFlag sys.server.data) _ ?_ cbs
    ⟨registered_init now, hasFlag_initializeValues now _⟩ h).2
  rintro sys cb sys' ⟨hr, hf⟩ hstep
  refine ⟨hr.step rt handler hstep, ?_⟩
  cases hr.move rt handler hstep with
  | answered hp hm => exact ofMessage_hasFlag rt _ _ _ hf
  | _ => exact hf

/-- An observer that took its copy from the values and applies the notifications queued to it has
the server's values, after every callback of a run, exactly when no reset is received while it is
connected. -/
theorem follows_iff {sys : System} (h : Reachable rt handler sys)
    (hp : sys.server.connections.lookup c = some p) {cbs : List Callback}
    (hcbs : ∀ cb ∈ cbs, cb.ofSocket = true) :
    (∀ pre, pre <+: cbs → ∀ sys', run rt handler sys pre = some sys' →
        Follows c p sys.server.data.values sys')
      ↔ Runs.AtEvery (System.step rt handler)
          (fun sys cb => ReceivesReset rt sys cb →
            ¬ ∃ q, sys.server.connections.lookup c = some q ∧ q.addr = p.addr) sys cbs := by
  have h0 : Followed c p sys.server.data.values sys := by
    have hr := h.registered
    have hself : ∀ q, sys.server.connections.lookup c = some q → q = p :=
      fun q hq => Option.some.inj (hq.symm.trans hp)
    refine ⟨hr, h.hasFlag, hr.fresh c p hp, fun q hq _ => by rw [hself q hq], fun q hq _ => ?_⟩
    rw [hself q hq, observed, List.drop_length]
    exact .refl _
  refine Runs.forall_run_iff _ (I := Followed c p sys.server.data.values)
    (fun _ h => h.follows) ?_ ?_ cbs h0 hcbs
  · intro sys₁ cb sys₂ hf hcb hc hstep
    by_cases hreset : ReceivesReset rt sys₁ cb
    · exact hf.unheard rt handler hreset (hc hreset) hstep
    · exact hf.step rt handler hcb hreset hstep
  · intro sys₁ cb hf hc
    simp only [Classical.not_imp, not_not] at hc
    obtain ⟨hreset, q, hq, ha⟩ := hc
    exact hf.reset rt handler hq ha hreset

/-- A `startCharging`, as text and as the document it parses to. -/
def startRequest : Bytes × Json :=
  (lit "\x7b\"jsonrpc\":\"2.0\",\"method\":\"startCharging\",\"id\":1\x7d",
    .object [(lit "jsonrpc", .string (lit "2.0")), (lit "method", .string (lit "startCharging")),
      (lit "id", .int 1)])

theorem startRequest_no_reset (id : ℤ) (params : Json) :
    ¬ IsRequest (.ofTable [startRequest]) startRequest.1 (lit "resetSystem") id params := by
  rintro ⟨members, m, hparse, -, hm, hmethod, -⟩
  have hdoc : (Runtime.ofTable [startRequest]).parse (cstr startRequest.1)
      = .ok startRequest.2 := rfl
  obtain rfl := Json.object.inj (Except.ok.inj (hdoc.symm.trans hparse))
  obtain rfl := Json.string.inj (Option.some.inj hm)
  exact absurd hmethod (by decide)

/-- The only client starts charging, and its copy says so as the server does. -/
theorem follows_startCharging :
    (initializeValues 0 ⟨∅, ⟨0, 0, 0, 0⟩, 0⟩).values.lookup (lit "chargingEnabled")
        = some (lit "false")
      ∧ ∃ sys' q, run (.ofTable [startRequest]) none
          ((System.init 0).handleWebSocketConnect (.ofTable [startRequest]) 0)
          [.receive 0 ⟨[], 0, 0, 0, 0, 0⟩ startRequest.1] = some sys'
        ∧ sys'.server.connections.lookup 1 = some q
        ∧ sys'.server.data.values.lookup (lit "chargingEnabled") = some (lit "true")
        ∧ Replica.Agree
            (Replica.replay (observed (newEntry (.ofTable [startRequest]) 0 (.init 0)).obj q.obj)
              (initializeValues 0 ⟨∅, ⟨0, 0, 0, 0⟩, 0⟩).values) sys'.server.data.values := by
  have hreach : Reachable (.ofTable [startRequest]) none
      ((System.init 0).handleWebSocketConnect (.ofTable [startRequest]) 0) :=
    ⟨0, [.established 0], rfl⟩
  have hsocket : ∀ cb ∈ [Callback.receive 0 ⟨[], 0, 0, 0, 0, 0⟩ startRequest.1],
      cb.ofSocket = true := by simp [Callback.ofSocket]
  have hfollows := (follows_iff (.ofTable [startRequest]) none hreach (c := 1)
    (p := newEntry (.ofTable [startRequest]) 0 (.init 0)) rfl hsocket).2 ?_
  · exact ⟨by decide, _, _, rfl, rfl, by decide, hfollows _ List.prefix_rfl _ rfl _ rfl rfl⟩
  · rintro pre cb post he sys - ⟨c, p, amb, message, id, params, -, -, rfl, hreq⟩
    have hmem : Callback.receive p.obj.wsi amb message
        ∈ [Callback.receive 0 ⟨[], 0, 0, 0, 0, 0⟩ startRequest.1] := by
      rw [he]
      simp
    obtain ⟨-, -, rfl⟩ := Callback.receive.inj (List.mem_singleton.1 hmem)
    exact absurd hreq (startRequest_no_reset id params)

/-- A `resetSystem`, as text and as the document it parses to. -/
def resetSystem : Bytes × Json :=
  (lit "\x7b\"jsonrpc\":\"2.0\",\"method\":\"resetSystem\",\"id\":1\x7d",
    .object [(lit "jsonrpc", .string (lit "2.0")), (lit "method", .string (lit "resetSystem")),
      (lit "id", .int 1)])

/-- The only client resets the system and is told a status that is not stored. -/
theorem resetSystem_misleads :
    ¬ ∀ pre, pre <+: [.receive 0 ⟨[], 0, 0, 0, 0, 0⟩ resetSystem.1] → ∀ sys',
      run (.ofTable [resetSystem]) none
          ((System.init 0).handleWebSocketConnect (.ofTable [resetSystem]) 0) pre = some sys' →
        Follows 1 (newEntry (.ofTable [resetSystem]) 0 (.init 0))
          (initializeValues 0 ⟨∅, ⟨0, 0, 0, 0⟩, 0⟩).values sys' := by
  intro h
  have hag := h _ List.prefix_rfl _ rfl _ rfl rfl (lit "systemStatus")
  exact absurd hag (by decide +kernel)

end System

end OcppServer
