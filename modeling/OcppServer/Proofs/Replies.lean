import OcppServer.Protocol
import OcppServer.Proofs.Sessions

/-!
# One reply to each message

A command fails exactly when its parameters fail the method's check, and the text it fails with is
never empty, so a reply carries an `error` exactly for what is refused: an empty text would have
been sent as a `result`. With the effect of a message known, `receive_answeredOnce` is a matter of
finding the connection by its session.
-/

namespace OcppServer

theorem Json.stringMember?_eq_some {j : Json} {name s : Bytes} :
    j.stringMember? name = some s ↔ ∃ t, j.find? name = some (.string t) ∧ s = cstr t := by
  unfold stringMember?
  rcases j.find? name with _ | v
  · simp
  · cases v <;> simp [getString?, eq_comm]

theorem Json.stringMember?_eq_none {j : Json} {name : Bytes} :
    j.stringMember? name = none ↔ ¬ j.HasString name := by
  unfold stringMember? HasString
  rcases j.find? name with _ | v
  · simp
  · cases v <;> simp [getString?]

theorem Json.intMember?_eq_some {j : Json} {name : Bytes} {n : ℤ} :
    j.intMember? name = some n ↔ j.find? name = some (.int n) ∧ IsInt32 n := by
  unfold intMember?
  rcases j.find? name with _ | v
  · simp
  · cases v with
    | int m =>
      simp only [Option.bind_some, getInt?]
      split_ifs with h
      · simp only [Option.some.injEq, Json.int.injEq]
        exact ⟨fun hm => ⟨hm, hm ▸ h⟩, fun hm => hm.1⟩
      · simp only [Option.some.injEq, Json.int.injEq, false_iff, not_and]
        rintro rfl
        exact h
    | _ => simp [getInt?]

theorem Json.intMember?_eq_none {j : Json} {name : Bytes} :
    j.intMember? name = none ↔ ¬ j.HasInt name := by
  rw [Option.eq_none_iff_forall_not_mem]
  simp only [Option.mem_def, intMember?_eq_some, HasInt, not_exists]

/-- The outcome is a result when the condition holds and a text that is not empty otherwise. -/
def Settles (o : Outcome) (P : Prop) : Prop :=
  (P ∧ ∃ result, o = .ok result) ∨ (¬ P ∧ ∃ what, o = .error what ∧ what ≠ [])

theorem settles_ok (result : Bytes) {P : Prop} (h : P) : Settles (.ok result) P :=
  .inl ⟨h, result, rfl⟩

theorem settles_error {what : Bytes} (hw : what ≠ []) {P : Prop} (h : ¬ P) :
    Settles (.error what) P :=
  .inr ⟨h, what, rfl, hw⟩

theorem lit_append_ne_nil {l : Bytes} (h : l ≠ []) (s : Bytes) : l ++ s ≠ [] :=
  List.append_ne_nil_of_left_ne_nil h s

/-- The effect is settled by the check. -/
def Checked (e : ℕ → Json → RpcData → Effect) (c : Dict Bytes Bytes → Json → Prop) : Prop :=
  ∀ clients params d, Settles (e clients params d).result (c d.values params)

section Commands

variable (rt : Runtime) (amb : Ambient)

theorem handleGetValue_settles (params : Json) (d : RpcData) :
    Settles (handleGetValue params d)
      (∃ key, params.find? (lit "key") = some (.string key) ∧ cstr key ∈ d.values) := by
  unfold handleGetValue
  rcases hk : params.stringMember? (lit "key") with _ | key
  · refine settles_error (by decide) ?_
    rintro ⟨key, hkey, -⟩
    exact Json.stringMember?_eq_none.1 hk ⟨key, hkey⟩
  · obtain ⟨t, ht, rfl⟩ := Json.stringMember?_eq_some.1 hk
    rcases hv : d.values.lookup (cstr t) with _ | value
    · simp only [hv]
      refine settles_error (lit_append_ne_nil (by decide) _) ?_
      rintro ⟨key, hkey, hmem⟩
      rw [ht, Option.some.injEq, Json.string.injEq] at hkey
      subst hkey
      exact AList.lookup_eq_none.1 hv hmem
    · simp only [hv]
      exact settles_ok value ⟨t, ht, Dict.mem_iff_exists.2 ⟨value, hv⟩⟩

theorem handleGetStationStatus_settles (params : Json) :
    Settles (handleGetStationStatus rt params) (params.HasString (lit "station_id")) := by
  unfold handleGetStationStatus
  rcases hs : params.stringMember? (lit "station_id") with _ | stationId
  · exact settles_error (by decide) (Json.stringMember?_eq_none.1 hs)
  · obtain ⟨t, ht, -⟩ := Json.stringMember?_eq_some.1 hs
    exact settles_ok _ ⟨t, ht⟩

theorem handleGetConnectorStatus_settles (params : Json) :
    Settles (handleGetConnectorStatus rt params)
      (params.HasString (lit "station_id") ∧ params.HasInt (lit "connector_id")) := by
  unfold handleGetConnectorStatus
  rcases hs : params.stringMember? (lit "station_id") with _ | stationId
  · exact settles_error (by decide) fun h => Json.stringMember?_eq_none.1 hs h.1
  · obtain ⟨t, ht, -⟩ := Json.stringMember?_eq_some.1 hs
    rcases hc : params.intMember? (lit "connector_id") with _ | connectorId
    · exact settles_error (by decide) fun h => Json.intMember?_eq_none.1 hc h.2
    · exact settles_ok _ ⟨⟨t, ht⟩, connectorId, Json.intMember?_eq_some.1 hc⟩

theorem setValue_settles (params : Json) (d : RpcData) :
    Settles (Effect.setValue rt params d).result
      (params.HasString (lit "key") ∧ ∃ value, params.find? (lit "value") = some value) := by
  unfold Effect.setValue
  rcases hk : params.stringMember? (lit "key") with _ | key
  · exact settles_error (by decide) fun h => Json.stringMember?_eq_none.1 hk h.1
  obtain ⟨t, ht, -⟩ := Json.stringMember?_eq_some.1 hk
  rcases hv : params.find? (lit "value") with _ | value
  · refine settles_error (by decide) ?_
    rintro ⟨-, v, hv'⟩
    cases hv'
  · exact settles_ok _ ⟨⟨t, ht⟩, value, rfl⟩

theorem setMaxPower_settles (params : Json) (d : RpcData) :
    Settles (Effect.setMaxPower params d).result
      (∃ n, params.find? (lit "value") = some (.int n) ∧ 1 ≤ n ∧ n ≤ 100) := by
  unfold Effect.setMaxPower
  rcases hn : params.intMember? (lit "value") with _ | maxPower
  · refine settles_error (by decide) ?_
    rintro ⟨n, hv, h1, h2⟩
    exact Json.intMember?_eq_none.1 hn ⟨n, hv, by constructor <;> omega⟩
  · obtain ⟨hv, -⟩ := Json.intMember?_eq_some.1 hn
    simp only []
    split_ifs with hr
    · refine settles_error (by decide) ?_
      rintro ⟨n, hv', h1, h2⟩
      rw [hv, Option.some.injEq, Json.int.injEq] at hv'
      omega
    · exact settles_ok _ ⟨maxPower, hv, by omega, by omega⟩

/-- The effects are those of the methods with a check, and settled by it. -/
theorem commands_checked :
    List.Forall₂ (fun e c => e.1 = c.1 ∧ Checked e.2 c.2) (Effect.commands rt amb) checks := by
  simp only [Effect.commands, checks, List.forall₂_cons, List.Forall₂.nil, and_true, true_and]
  refine ⟨?_, ?_, ?_, ?_, ?_, ?_, ?_, ?_, ?_, ?_, ?_, ?_⟩ <;> intro clients params d
  case refine_1 => exact handleGetValue_settles params d
  case refine_3 => exact handleGetStationStatus_settles rt params
  case refine_4 => exact handleGetConnectorStatus_settles rt params
  case refine_5 => exact setValue_settles rt params d
  case refine_12 => exact setMaxPower_settles params d
  all_goals exact settles_ok _ trivial

theorem ofRequest_settles (clients : ℕ) (request : RpcRequest) (d : RpcData) :
    Settles (Effect.ofRequest rt amb clients request d).result
      (Accepted d.values request.method request.params) := by
  unfold Effect.ofRequest Accepted
  rcases Dict.lookup_forall₂ (k := request.method) (commands_checked rt amb) with
    ⟨h, h'⟩ | ⟨e, c, h, h', hR⟩
  · rw [h, h']
    refine settles_error (lit_append_ne_nil (by decide) _) ?_
    rintro ⟨check, hc, -⟩
    cases hc
  · rw [h, h']
    simpa using hR clients request.params d

end Commands

section Requests

variable (rt : Runtime)

/-- The parser takes requests, and what it takes is the request. -/
theorem parseRpcRequest_eq_ok {message : Bytes} {request : RpcRequest}
    (h : parseRpcRequest rt message = .ok request) :
    IsRequest rt message request.method request.id request.params := by
  unfold parseRpcRequest at h
  split at h
  · cases h
  rename_i doc hdoc
  split_ifs at h with hobj
  cases doc with
  | object members =>
    split at h
    · cases h
    rename_i jsonrpc hj
    split at h
    · cases h
    rename_i method hm
    split at h
    · cases h
    rename_i id hi
    obtain ⟨j, hj', -⟩ := Json.stringMember?_eq_some.1 hj
    obtain ⟨m, hm', hmeq⟩ := Json.stringMember?_eq_some.1 hm
    obtain ⟨hi', h32⟩ := Json.intMember?_eq_some.1 hi
    split at h <;> rename_i hp <;> rw [Except.ok.injEq] at h <;> subst h
    all_goals
      have hp : members.lookup (lit "params") = _ := hp
      exact ⟨members, m, hdoc, ⟨j, hj'⟩, hm', hmeq, hi', h32, by rw [hp]; rfl⟩
  | _ => simp [Json.isObject] at hobj

theorem IsRequest.parse {message method : Bytes} {id : ℤ} {params : Json}
    (h : IsRequest rt message method id params) :
    ∃ request, parseRpcRequest rt message = .ok request ∧ request.method = method
      ∧ request.id = id ∧ request.params = params := by
  obtain ⟨members, m, hdoc, ⟨j, hj⟩, hm, rfl, hi, h32, rfl⟩ := h
  have hj' : (Json.object members).stringMember? (lit "jsonrpc") = some (cstr j) :=
    Json.stringMember?_eq_some.2 ⟨j, hj, rfl⟩
  have hm' : (Json.object members).stringMember? (lit "method") = some (cstr m) :=
    Json.stringMember?_eq_some.2 ⟨m, hm, rfl⟩
  have hi' : (Json.object members).intMember? (lit "id") = some id :=
    Json.intMember?_eq_some.2 ⟨hi, h32⟩
  unfold parseRpcRequest
  simp only [hdoc, Json.isObject, hj', hm', hi', Json.find?]
  rcases hp : members.lookup (lit "params") with _ | params
  · exact ⟨_, rfl, rfl, rfl, rfl⟩
  · exact ⟨_, rfl, rfl, rfl, rfl⟩

theorem parseRpcRequest_error_ne_nil {message what : Bytes}
    (h : parseRpcRequest rt message = .error what) : what ≠ [] := by
  unfold parseRpcRequest at h
  split at h
  · cases h
    simp only [List.append_assoc]
    exact lit_append_ne_nil (by decide) _
  split_ifs at h
  · cases h
    decide
  repeat' split at h
  all_goals
    cases h
  all_goals decide

/-- The reply to a message's effect is the reply the message asks for. -/
theorem reply_isReply (amb : Ambient) (clients : ℕ) (message : Bytes) (d : RpcData) :
    IsReply rt d.values message
      (reply (Effect.ofMessage rt amb clients message d).2
        (Effect.ofMessage rt amb clients message d).1.result) := by
  unfold Effect.ofMessage
  rcases hp : parseRpcRequest rt message with what | request
  · have hno : ¬ ∃ method i params, IsRequest rt message method i params := by
      rintro ⟨method, i, params, h⟩
      obtain ⟨request, hr, -⟩ := h.parse
      rw [hp] at hr
      cases hr
    refine ⟨-1, lit "error", cstr what, ?_, .inr rfl, fun method i params h => ?_, fun _ => rfl, ?_⟩
    · simp [reply, Effect.pure, serializeRpcResponse, parseRpcRequest_error_ne_nil rt hp]
    · exact absurd ⟨method, i, params, h⟩ hno
    · refine iff_of_true rfl ?_
      rintro ⟨method, i, params, h, -⟩
      exact hno ⟨method, i, params, h⟩
  · have hreq := parseRpcRequest_eq_ok rt hp
    have huniq : ∀ method i params, IsRequest rt message method i params →
        request.method = method ∧ request.id = i ∧ request.params = params := by
      intro method i params h
      obtain ⟨request', hr, hm⟩ := h.parse
      rw [hp, Except.ok.injEq] at hr
      rwa [hr]
    have hno : (¬ ∃ method i params, IsRequest rt message method i params) → request.id = -1 :=
      fun h => absurd ⟨_, _, _, hreq⟩ h
    have hacc : (∃ method i params, IsRequest rt message method i params
        ∧ Accepted d.values method params) ↔ Accepted d.values request.method request.params := by
      refine ⟨?_, fun h => ⟨_, _, _, hreq, h⟩⟩
      rintro ⟨method, i, params, h, ha⟩
      obtain ⟨rfl, -, rfl⟩ := huniq method i params h
      exact ha
    rcases ofRequest_settles rt amb clients request d with ⟨ha, result, ho⟩ | ⟨ha, what, ho, hw⟩
    · refine ⟨request.id, lit "result", cstr result, ?_, .inl rfl,
        fun method i params h => (huniq method i params h).2.1, hno, ?_⟩
      · simp [reply, ho, serializeRpcResponse]
      · exact iff_of_false (by decide) fun h => h (hacc.2 ha)
    · refine ⟨request.id, lit "error", cstr what, ?_, .inr rfl,
        fun method i params h => (huniq method i params h).2.1, hno, ?_⟩
      · simp [reply, ho, serializeRpcResponse, hw]
      · exact iff_of_true rfl fun h => ha (hacc.1 h)

end Requests

namespace System

variable (rt : Runtime) (handler : Option WebServer.MessageHandler)

/-- A message on an open socket whose connection is registered: its effect, delivered. -/
theorem Registered.step_receive {sys : System} (hr : Registered sys) {c : ℤ}
    {p : SharedPtr WebSocketConnection} (hp : sys.server.connections.lookup c = some p)
    (amb : Ambient) {message : Bytes} (hm : message ≠ []) :
    sys.step rt handler (.receive p.obj.wsi amb message)
      = some (sys.onServer (.processMessage rt amb handler c message)) := by
  obtain ⟨session, hs, hu⟩ := hr.slot c p hp
  simp only [System.step, hs, List.isEmpty_iff, hm, if_false, handleWebSocketMessage, hu,
    hr.object hp, hr.own c p hp]

/-- In every state the server comes to, a message delivered whole on a registered connection is
answered there once, and reaches no other connection but by notifications. -/
theorem receive_answeredOnce {sys : System} (h : Reachable rt handler sys) {c : ℤ}
    (hc : c ∈ sys.server.connections) (amb : Ambient) {message : Bytes} (hm : message ≠ []) :
    AnsweredOnce rt handler sys c amb message := by
  have hr := h.registered
  obtain ⟨p, hp⟩ := Dict.mem_iff_exists.1 hc
  refine ⟨p, _, (Effect.ofMessage rt amb sys.server.clients message sys.server.data).1.announced, _,
    hp, hr.step_receive rt handler hp amb hm, ?_, fun j => ?_,
    reply_isReply rt amb sys.server.clients message sys.server.data⟩
  · rw [onServer, WebServer.processMessage_eq, WebServer.handleRpcMessage_eq]
  · rw [onServer, WebServer.processMessage_eq]
    simp only [WebServer.deliver, Dict.lookup_mapVal, produced, decide_eq_true_eq]

/-- A `ping`, as text and as the document it parses to. -/
def ping : Bytes × Json :=
  (lit "\x7b\"jsonrpc\":\"2.0\",\"method\":\"ping\",\"id\":7\x7d",
    .object [(lit "jsonrpc", .string (lit "2.0")), (lit "method", .string (lit "ping")),
      (lit "id", .int 7)])

theorem ping_answeredOnce :
    AnsweredOnce (.ofTable [ping]) none ((System.init 0).handleWebSocketConnect (.ofTable [ping]) 0)
      1 ⟨[], 0, 0, 0, 0, 0⟩ ping.1 :=
  receive_answeredOnce (.ofTable [ping]) none ⟨0, [.established 0], rfl⟩ (by decide) _ (by decide)

end System

end OcppServer
