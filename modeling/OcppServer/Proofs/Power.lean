import Mathlib.Algebra.Order.Field.Rat
import OcppServer.Proofs.Changes
import OcppServer.Proofs.Framing

/-!
# The power reported and its limit

The power is 10 after a start, 0 after a stop or a reset, and a refresh of the metrics sets it to
the draw while charging and to 0 otherwise; nobody compares it with the maximum power. So it stays
between 0 and 45, the range of the draws, and within a limit of at least 45. It stays within the
limit last set all along a run exactly when each start, each refresh and each new limit happens to
respect it (`KeepsLimit`).
-/

namespace OcppServer

/-- The limit a request leaves, when it was `limit`. -/
def limitOf (method : Bytes) (params : Json) (limit : ℤ) : ℤ :=
  if method = lit "resetSystem" then 50
  else if method = lit "setMaxPower" then
    match params.intMember? (lit "value") with
    | some n => if n < 1 ∨ n > 100 then limit else n
    | none => limit
  else limit

/-- The draw of the power is within its declared range. -/
def Callback.DrawsInRange : Callback → Prop
  | .receive _ amb _ => 0 ≤ amb.powerDis ∧ amb.powerDis ≤ 45
  | _ => True

/-- The last member `currentPower` of the document, or of its `result`. -/
def ReportsPower (doc : Json) (x : Double) : Prop :=
  ∃ members, (doc = .object members ∨ doc.find? (lit "result") = some (.object members))
    ∧ members.reverse.lookup (lit "currentPower") = some (.double x)

section Change

variable {rt : Runtime} {amb : Ambient} {clients : ℕ} {d d' : RpcData}

theorem currentPower_updateMetrics (h : HasFlag d) :
    (updateMetrics rt amb clients d).metrics.currentPower
      = if d.values.lookup (lit "chargingEnabled") = some (lit "true") then amb.powerDis
        else 0 := by
  obtain ⟨value, hv⟩ := Dict.mem_iff_exists.1 h
  simp only [updateMetrics, subscript, hv, Option.some.injEq]
  split_ifs <;> rfl

theorem Change.hasFlag {method : Bytes} {params : Json}
    (hc : Change rt amb clients d method params d') (h : HasFlag d) : HasFlag d' := by
  cases hc with
  | resetSystem => exact hasFlag_initializeValues _ _
  | refresh =>
    rw [HasFlag, values_updateMetrics rt amb clients h]
    exact h
  | none => exact h
  | _ => exact Replica.mem_replay _ h

/-- What a request would have to check for the power to stay within the limit. -/
structure RespectsLimit (amb : Ambient) (d : RpcData) (limit : ℤ) (method : Bytes) (params : Json) :
    Prop where
  start : method = lit "startCharging" → 10 ≤ limit
  refresh : method = lit "getValues" ∨ method = lit "getMetrics" →
    d.values.lookup (lit "chargingEnabled") = some (lit "true") → amb.powerDis ≤ limit
  setMaxPower : method = lit "setMaxPower" → ∀ n : ℤ, params.find? (lit "value") = some (.int n) →
    1 ≤ n → n ≤ 100 → d.metrics.currentPower ≤ n

theorem limitOf_of_ne {method : Bytes} (params : Json) (limit : ℤ)
    (hm : method ≠ lit "setMaxPower") (hr : method ≠ lit "resetSystem") :
    limitOf method params limit = limit := by
  rw [limitOf, if_neg hr, if_neg hm]

/-- `setMaxPower` leaves the limit it is given, if that is in range. -/
theorem limitOf_setMaxPower (params : Json) (limit : ℤ) :
    limitOf (lit "setMaxPower") params limit = match params.intMember? (lit "value") with
      | some n => if n < 1 ∨ n > 100 then limit else n
      | none => limit := by
  have hr : lit "setMaxPower" ≠ lit "resetSystem" := by decide
  rw [limitOf, if_neg hr, if_pos rfl]

theorem limitOf_refused {params : Json} (limit : ℤ)
    (h : ∀ n : ℤ, params.find? (lit "value") = some (.int n) → 1 ≤ n → ¬ n ≤ 100) :
    limitOf (lit "setMaxPower") params limit = limit := by
  rw [limitOf_setMaxPower]
  rcases hn : params.intMember? (lit "value") with _ | n
  · rfl
  · have hout := h n (Json.intMember?_eq_some.1 hn).1
    exact if_pos (by omega)

section Respects

variable {limit : ℤ} {method : Bytes} {params : Json}

/-- Any other request leaves the power and the limit, or sets the power to 0. -/
theorem respectsLimit_of_notMem (h : method ∉ [lit "startCharging", lit "getValues",
    lit "getMetrics", lit "setMaxPower"]) : RespectsLimit amb d limit method params := by
  simp only [List.mem_cons, List.not_mem_nil, or_false, not_or] at h
  obtain ⟨hs, hv, hg, hm⟩ := h
  exact ⟨fun h => absurd h hs, fun h => (h.elim hv hg).elim, fun h => absurd h hm⟩

theorem respectsLimit_startCharging :
    RespectsLimit amb d limit (lit "startCharging") params ↔ 10 ≤ limit := by
  have hv : lit "startCharging" ≠ lit "getValues" := by decide
  have hg : lit "startCharging" ≠ lit "getMetrics" := by decide
  have hm : lit "startCharging" ≠ lit "setMaxPower" := by decide
  constructor
  · exact fun h => h.start rfl
  · exact fun h => ⟨fun _ => h, fun h => (h.elim hv hg).elim, fun h => absurd h hm⟩

theorem respectsLimit_refresh (hm : method = lit "getValues" ∨ method = lit "getMetrics") :
    RespectsLimit amb d limit method params
      ↔ (d.values.lookup (lit "chargingEnabled") = some (lit "true") → amb.powerDis ≤ limit) := by
  have hs : method ≠ lit "startCharging" := by rcases hm with rfl | rfl <;> decide
  have hp : method ≠ lit "setMaxPower" := by rcases hm with rfl | rfl <;> decide
  constructor
  · exact fun h => h.refresh hm
  · exact fun h => ⟨fun h => absurd h hs, fun _ => h, fun h => absurd h hp⟩

theorem respectsLimit_setMaxPower :
    RespectsLimit amb d limit (lit "setMaxPower") params
      ↔ ∀ n : ℤ, params.find? (lit "value") = some (.int n) → 1 ≤ n → n ≤ 100 →
        d.metrics.currentPower ≤ n := by
  have hs : lit "setMaxPower" ≠ lit "startCharging" := by decide
  have hv : lit "setMaxPower" ≠ lit "getValues" := by decide
  have hg : lit "setMaxPower" ≠ lit "getMetrics" := by decide
  constructor
  · exact fun h => h.setMaxPower rfl
  · exact fun h => ⟨fun h => absurd h hs, fun h => (h.elim hv hg).elim, fun _ => h⟩

end Respects

/-- A request keeps the power within the limit exactly when it respects it. -/
theorem Change.within_iff {method : Bytes} {params : Json} {limit : ℤ}
    (hc : Change rt amb clients d method params d') (hf : HasFlag d)
    (h0 : 0 ≤ d.metrics.currentPower) (hl : d.metrics.currentPower ≤ limit) :
    d'.metrics.currentPower ≤ limitOf method params limit
      ↔ RespectsLimit amb d limit method params := by
  cases hc with
  | setValue hm hk hv =>
    subst hm
    rw [limitOf_of_ne _ _ (by decide) (by decide)]
    exact iff_of_true hl (respectsLimit_of_notMem (by decide))
  | @setMaxPower n hm hv h1 h100 =>
    subst hm
    have hn : params.intMember? (lit "value") = some n :=
      Json.intMember?_eq_some.2 ⟨hv, by constructor <;> omega⟩
    have hr : ¬ (n < 1 ∨ n > 100) := by omega
    simp only [limitOf_setMaxPower, hn, if_neg hr, respectsLimit_setMaxPower]
    constructor
    · intro hP n' hv' _ _
      rw [hv, Option.some.injEq, Json.int.injEq] at hv'
      exact hv' ▸ hP
    · exact fun h => h n hv h1 h100
  | startCharging hm =>
    subst hm
    have hpow : (RpcData.setPower 10 (d.assign [(lit "chargingEnabled", lit "true"),
      (lit "systemStatus", lit "charging")])).metrics.currentPower = 10 := rfl
    rw [limitOf_of_ne _ _ (by decide) (by decide), hpow, respectsLimit_startCharging]
    norm_cast
  | stopCharging hm =>
    subst hm
    rw [limitOf_of_ne _ _ (by decide) (by decide)]
    exact iff_of_true (h0.trans hl) (respectsLimit_of_notMem (by decide))
  | resetSystem hm =>
    subst hm
    have h50 : (0 : ℚ) ≤ ((50 : ℤ) : ℚ) := by decide
    rw [limitOf, if_pos rfl]
    exact iff_of_true h50 (respectsLimit_of_notMem (by decide))
  | refresh hm =>
    have hp : method ≠ lit "setMaxPower" := by rcases hm with rfl | rfl <;> decide
    have hr : method ≠ lit "resetSystem" := by rcases hm with rfl | rfl <;> decide
    rw [limitOf_of_ne _ _ hp hr, currentPower_updateMetrics hf, respectsLimit_refresh hm]
    split_ifs with hon
    · exact ⟨fun hP _ => hP, fun h => h hon⟩
    · exact iff_of_true (h0.trans hl) fun h => absurd h hon
  | none hno =>
    have hno' : ∀ m ∈ writers, checks.lookup m = some (fun _ _ => True) → method ≠ m :=
      fun m hw hck hm => not_check hno hm hw hck trivial
    by_cases hm : method = lit "setMaxPower"
    · subst hm
      have hrefused : ∀ n : ℤ, params.find? (lit "value") = some (.int n) → 1 ≤ n → ¬ n ≤ 100 :=
        fun n hv h1 h100 => not_check hno rfl (by decide) rfl ⟨n, hv, h1, h100⟩
      rw [limitOf_refused _ hrefused, respectsLimit_setMaxPower]
      exact iff_of_true hl fun n hv h1 h100 => absurd h100 (hrefused n hv h1)
    · rw [limitOf_of_ne _ _ hm (hno' _ (by decide) rfl)]
      refine iff_of_true hl (respectsLimit_of_notMem ?_)
      simp only [List.mem_cons, List.not_mem_nil, or_false, not_or]
      exact ⟨hno' _ (by decide) rfl, hno' _ (by decide) rfl, hno' _ (by decide) rfl, hm⟩

/-- Whatever the request, the power is within the range of the draws. -/
theorem Change.power_mem {method : Bytes} {params : Json}
    (hc : Change rt amb clients d method params d') (hf : HasFlag d)
    (hdraw : 0 ≤ amb.powerDis ∧ amb.powerDis ≤ 45)
    (h : 0 ≤ d.metrics.currentPower ∧ d.metrics.currentPower ≤ 45) :
    0 ≤ d'.metrics.currentPower ∧ d'.metrics.currentPower ≤ 45 := by
  have h0 : (0 : ℚ) ≤ 0 ∧ (0 : ℚ) ≤ 45 := by decide
  have h10 : (0 : ℚ) ≤ 10 ∧ (10 : ℚ) ≤ 45 := by decide
  cases hc with
  | startCharging => exact h10
  | stopCharging => exact h0
  | resetSystem => exact h0
  | refresh =>
    rw [currentPower_updateMetrics hf]
    split_ifs
    · exact hdraw
    · exact h0
  | _ => exact h

end Change

section Reports

variable (rt : Runtime) (amb : Ambient)

theorem handleGetValues_reports (clients : ℕ) (d : RpcData) :
    ∃ doc, (handleGetValues rt amb clients d).1 = jsonToString rt doc
      ∧ ReportsPower doc (handleGetValues rt amb clients d).2.metrics.currentPower := by
  refine ⟨_, rfl, _, .inl rfl, ?_⟩
  rw [List.reverse_append, List.lookup_append]
  rfl

theorem handleGetMetrics_reports (clients : ℕ) (d : RpcData) :
    ∃ doc, (handleGetMetrics rt amb clients d).1 = jsonToString rt doc
      ∧ ReportsPower doc (handleGetMetrics rt amb clients d).2.metrics.currentPower :=
  ⟨_, rfl, _, .inr rfl, rfl⟩

end Reports

namespace System

variable (rt : Runtime) (handler : Option WebServer.MessageHandler)

/-- The limit after a callback, when it was `limit`. -/
def limitAfter (sys : System) (limit : ℤ) : Callback → ℤ
  | .receive wsi _ message =>
    if wsi ∈ sys.sessions ∧ message ≠ [] then
      match parseRpcRequest rt message with
      | .ok request => limitOf request.method request.params limit
      | .error _ => limit
    else limit
  | _ => limit

/-- The system beside the limit: the maximum power last set through `setMaxPower`, 50 before that
and after a reset. -/
def limitedStep (st : System × ℤ) (cb : Callback) : Option (System × ℤ) :=
  (st.1.step rt handler cb).map fun sys => (sys, st.1.limitAfter rt st.2 cb)

theorem Registered.limitAfter_eq {sys : System} (hr : Registered sys) {cb : Callback}
    {amb : Ambient} {method : Bytes} {params : Json} (h : Receives rt sys cb amb method params)
    (limit : ℤ) : sys.limitAfter rt limit cb = limitOf method params limit := by
  obtain ⟨c, p, message, id, hp, hm, rfl, hreq⟩ := h
  obtain ⟨request, hparse, rfl, -, rfl⟩ := hreq.parse
  obtain ⟨session, hs, -⟩ := hr.slot c p hp
  rw [limitAfter, if_pos ⟨Dict.mem_iff_exists.2 ⟨session, hs⟩, hm⟩, hparse]

theorem Registered.limitAfter_of_idle {sys sys' : System} (hr : Registered sys) {cb : Callback}
    (h : sys.step rt handler cb = some sys')
    (hno : ∀ amb method params, ¬ Receives rt sys cb amb method params) (limit : ℤ) :
    sys.limitAfter rt limit cb = limit := by
  cases hr.move rt handler h with
  | @idle cb hidle =>
    cases cb with
    | receive wsi amb message =>
      rw [limitAfter, if_neg]
      rintro ⟨hw, hm⟩
      exact hidle.elim (fun h => h hw) hm
    | _ => rfl
  | @answered c p amb message hp hm =>
    obtain ⟨session, hs, -⟩ := hr.slot c p hp
    rw [limitAfter, if_pos ⟨Dict.mem_iff_exists.2 ⟨session, hs⟩, hm⟩]
    rcases hparse : parseRpcRequest rt message with what | request
    · rfl
    · exact absurd ⟨c, p, message, _, hp, hm, rfl, parseRpcRequest_eq_ok rt hparse⟩
        (hno amb request.method request.params)
  | _ => rfl

/-- A request that is received respects the limit. -/
def KeepsLimit (st : System × ℤ) (cb : Callback) : Prop :=
  ∀ amb method params, Receives rt st.1 cb amb method params →
    RespectsLimit amb st.1.server.data st.2 method params

/-- What holds of the power whatever the limit. -/
structure Powered (sys : System) : Prop extends Registered sys where
  flag : HasFlag sys.server.data
  power : 0 ≤ sys.server.data.metrics.currentPower ∧ sys.server.data.metrics.currentPower ≤ 45

theorem Powered.step {sys sys' : System} (h : Powered sys) {cb : Callback} (hd : cb.DrawsInRange)
    (hstep : sys.step rt handler cb = some sys') : Powered sys' := by
  have hdata : HasFlag sys'.server.data ∧ 0 ≤ sys'.server.data.metrics.currentPower
      ∧ sys'.server.data.metrics.currentPower ≤ 45 := by
    refine h.toRegistered.step_data (P := fun d => HasFlag d ∧ 0 ≤ d.metrics.currentPower
      ∧ d.metrics.currentPower ≤ 45) rt handler hstep ⟨h.flag, h.power⟩ ?_
    intro amb method params d' hrec hc
    obtain ⟨c, p, message, id, -, -, rfl, -⟩ := hrec
    exact ⟨hc.hasFlag h.flag, hc.power_mem h.flag hd h.power⟩
  exact ⟨h.toRegistered.step rt handler hstep, hdata.1, hdata.2⟩

theorem powered_init (now : ℤ) : Powered (.init now) := by
  have h0 : (0 : ℚ) ≤ 0 ∧ (0 : ℚ) ≤ 45 := by decide
  exact ⟨registered_init now, hasFlag_initializeValues now _, h0⟩

/-- A refresh that is received reports the power there is after it, which is 0 when it was not
charging. -/
def RefreshReports (sys : System) (cb : Callback) : Prop :=
  ∀ c p amb message method id params, sys.server.connections.lookup c = some p → message ≠ [] →
    cb = .receive p.obj.wsi amb message → IsRequest rt message method id params →
    method = lit "getValues" ∨ method = lit "getMetrics" →
      ∃ sys' p' doc, sys.step rt handler cb = some sys'
        ∧ sys'.server.connections.lookup c = some p'
        ∧ p'.obj.sent.getLast? = some (reply id (.ok (jsonToString rt doc)))
        ∧ ReportsPower doc sys'.server.data.metrics.currentPower
        ∧ (sys.server.data.values.lookup (lit "chargingEnabled") ≠ some (lit "true") →
          sys'.server.data.metrics.currentPower = 0)

theorem ofRequest_refresh (amb : Ambient) (clients : ℕ) {request : RpcRequest} (d : RpcData)
    (hm : request.method = lit "getValues" ∨ request.method = lit "getMetrics") :
    ∃ doc, Effect.ofRequest rt amb clients request d
        = .pure (.ok (jsonToString rt doc)) (updateMetrics rt amb clients d)
      ∧ ReportsPower doc (updateMetrics rt amb clients d).metrics.currentPower := by
  unfold Effect.ofRequest
  rcases hm with hm | hm <;> rw [hm]
  · obtain ⟨doc, hdoc, hreports⟩ := handleGetValues_reports rt amb clients d
    exact ⟨doc, by rw [← hdoc]; rfl, hreports⟩
  · obtain ⟨doc, hdoc, hreports⟩ := handleGetMetrics_reports rt amb clients d
    exact ⟨doc, by rw [← hdoc]; rfl, hreports⟩

theorem Powered.refreshReports {sys : System} (h : Powered sys) (cb : Callback) :
    RefreshReports rt handler sys cb := by
  rintro c p amb message method id params hp hm rfl hreq hmethod
  obtain ⟨request, hparse, rfl, rfl, -⟩ := hreq.parse
  obtain ⟨doc, he, hreports⟩ :=
    ofRequest_refresh rt amb sys.server.clients sys.server.data hmethod
  have hstep := h.toRegistered.step_receive rt handler hp amb hm
  rw [onServer, WebServer.processMessage_eq] at hstep
  simp only [Effect.ofMessage, hparse, he] at hstep
  refine ⟨_, p.map (.sendAll rt [reply request.id (.ok (jsonToString rt doc))]), doc, hstep, ?_,
    ?_, hreports, fun hoff => ?_⟩
  · simp only [WebServer.deliver, Dict.lookup_mapVal, hp, Option.map_some, decide_true]
    rfl
  · simp only [SharedPtr.map, WebSocketConnection.sendAll, List.getLast?_concat]
  · exact (currentPower_updateMetrics h.flag).trans (if_neg hoff)

/-- What carries a run along which the power stays within the limit. -/
def WithinLimit (st : System × ℤ) : Prop :=
  Powered st.1 ∧ st.1.server.data.metrics.currentPower ≤ st.2

theorem WithinLimit.step_iff {st : System × ℤ} (h : WithinLimit st) {cb : Callback}
    {st' : System × ℤ} (hstep : limitedStep rt handler st cb = some st') :
    st'.1.server.data.metrics.currentPower ≤ st'.2 ↔ KeepsLimit rt st cb := by
  obtain ⟨sys, limit⟩ := st
  obtain ⟨hpow, hl⟩ := h
  obtain ⟨sys', hsys, rfl⟩ := Option.map_eq_some_iff.1 hstep
  dsimp only at hsys hpow hl ⊢
  by_cases hrec : ∃ amb method params, Receives rt sys cb amb method params
  · obtain ⟨amb, method, params, hrec⟩ := hrec
    obtain ⟨sys₁, hstep₁, hc⟩ := hpow.toRegistered.step_change rt handler hrec
    obtain rfl := Option.some.inj (hstep₁.symm.trans hsys)
    rw [hpow.toRegistered.limitAfter_eq rt hrec, hc.within_iff hpow.flag hpow.power.1 hl]
    refine ⟨fun hres amb' method' params' hrec' => ?_, fun hk => hk amb method params hrec⟩
    obtain ⟨rfl, rfl, rfl⟩ := hrec.unique rt hrec'
    exact hres
  · simp only [not_exists] at hrec
    rw [hpow.toRegistered.data_eq rt handler hsys hrec,
      hpow.toRegistered.limitAfter_of_idle rt handler hsys hrec]
    exact iff_of_true hl fun amb method params h => absurd h (hrec amb method params)

/-- A request that breaks the limit is answered all the same. -/
theorem WithinLimit.exceeds {st : System × ℤ} (h : WithinLimit st) {cb : Callback}
    (hk : ¬ KeepsLimit rt st cb) : ∃ st', limitedStep rt handler st cb = some st'
      ∧ ¬ st'.1.server.data.metrics.currentPower ≤ st'.2 := by
  have hrec : ∃ amb method params, Receives rt st.1 cb amb method params := by
    by_contra hno
    simp only [not_exists] at hno
    exact hk fun amb method params h => absurd h (hno amb method params)
  obtain ⟨amb, method, params, hrec⟩ := hrec
  obtain ⟨sys', hsys, -⟩ := h.1.toRegistered.step_change rt handler hrec
  have hstep : limitedStep rt handler st cb = some (sys', st.1.limitAfter rt st.2 cb) := by
    rw [limitedStep, hsys, Option.map_some]
  exact ⟨_, hstep, fun hle => hk ((h.step_iff rt handler hstep).1 hle)⟩

/-- Along a run whose draws are in range the power is between 0 and 45 and each refresh reports it,
as 0 when it was not charging; and it is within the limit after every callback exactly when each
request that is received respects the limit. -/
theorem power_within_limit_iff (now : ℤ) {cbs : List Callback}
    (hd : ∀ cb ∈ cbs, cb.DrawsInRange) :
    (∀ pre, pre <+: cbs → ∀ st, Runs.run (limitedStep rt handler) (.init now, 50) pre = some st →
        0 ≤ st.1.server.data.metrics.currentPower ∧ st.1.server.data.metrics.currentPower ≤ 45)
      ∧ Runs.AtEvery (limitedStep rt handler) (fun st cb => RefreshReports rt handler st.1 cb)
          (.init now, 50) cbs
      ∧ ((∀ pre, pre <+: cbs → ∀ st,
            Runs.run (limitedStep rt handler) (.init now, 50) pre = some st →
            st.1.server.data.metrics.currentPower ≤ st.2)
          ↔ Runs.AtEvery (limitedStep rt handler) (KeepsLimit rt) (.init now, 50) cbs) := by
  have h0 : (0 : ℚ) ≤ ((50 : ℤ) : ℚ) := by decide
  have hpow : ∀ pre, pre <+: cbs → ∀ st,
      Runs.run (limitedStep rt handler) (.init now, 50) pre = some st → Powered st.1 := by
    intro pre hpre st hst
    refine Runs.run_invariant_of _ (I := fun st : System × ℤ => Powered st.1)
      (D := Callback.DrawsInRange) ?_ pre (powered_init now) (fun cb hcb => hd cb (hpre.subset hcb))
      hst
    intro st cb st' h hdraw hstep
    obtain ⟨sys', hsys, rfl⟩ := Option.map_eq_some_iff.1 hstep
    exact h.step rt handler hdraw hsys
  refine ⟨fun pre hpre st hst => (hpow pre hpre st hst).power, ?_, ?_⟩
  · rintro pre cb post rfl st hst
    exact (hpow pre (List.prefix_append _ _) st hst).refreshReports rt handler cb
  · refine Runs.forall_run_iff _ (I := WithinLimit) (fun _ h => h.2) ?_ ?_ cbs
      ⟨powered_init now, h0⟩ hd
    · intro st cb st' h hdraw hk hstep
      refine ⟨?_, (h.step_iff rt handler hstep).2 hk⟩
      obtain ⟨sys', hsys, rfl⟩ := Option.map_eq_some_iff.1 hstep
      exact h.1.step rt handler hdraw hsys
    · exact fun st cb h hk => h.exceeds rt handler hk

/-- A `setMaxPower`, as text and as the document it parses to. -/
def setMaxPower5 : Bytes × Json :=
  (lit "\x7b\"jsonrpc\":\"2.0\",\"method\":\"setMaxPower\",\"id\":1,\"params\":" ++
      lit "\x7b\"value\":5\x7d\x7d",
    .object [(lit "jsonrpc", .string (lit "2.0")), (lit "method", .string (lit "setMaxPower")),
      (lit "id", .int 1), (lit "params", .object [(lit "value", .int 5)])])

/-- One client limits the power to 5 and starts charging. -/
def startAt5 : List Callback :=
  [.established 0, .receive 0 ⟨[], 0, 0, 0, 0, 0⟩ setMaxPower5.1,
    .receive 0 ⟨[], 0, 0, 0, 0, 0⟩ startCharging.1]

theorem power_within_limit_startAt5 :
    (∀ pre, pre <+: startAt5 → ∀ st, Runs.run
        (limitedStep (.ofTable [setMaxPower5, startCharging]) none) (.init 0, 50) pre = some st →
        0 ≤ st.1.server.data.metrics.currentPower ∧ st.1.server.data.metrics.currentPower ≤ 45)
      ∧ Runs.AtEvery (limitedStep (.ofTable [setMaxPower5, startCharging]) none)
          (fun st cb => RefreshReports (.ofTable [setMaxPower5, startCharging]) none st.1 cb)
          (.init 0, 50) startAt5
      ∧ ((∀ pre, pre <+: startAt5 → ∀ st, Runs.run
            (limitedStep (.ofTable [setMaxPower5, startCharging]) none) (.init 0, 50) pre
              = some st →
            st.1.server.data.metrics.currentPower ≤ st.2)
          ↔ Runs.AtEvery (limitedStep (.ofTable [setMaxPower5, startCharging]) none)
            (KeepsLimit (.ofTable [setMaxPower5, startCharging])) (.init 0, 50) startAt5) :=
  power_within_limit_iff (.ofTable [setMaxPower5, startCharging]) none 0 (by
    have h0 : (0 : ℚ) ≤ 0 ∧ (0 : ℚ) ≤ 45 := by decide
    simp only [startAt5, List.mem_cons, List.not_mem_nil, or_false]
    rintro cb (rfl | rfl | rfl)
    · trivial
    · exact h0
    · exact h0)

/-- A start does not ask for the limit. -/
theorem start_exceeds_limit :
    ¬ ∀ st, Runs.run (limitedStep (.ofTable [setMaxPower5, startCharging]) none) (.init 0, 50)
        startAt5 = some st → st.1.server.data.metrics.currentPower ≤ st.2 := by
  intro h
  exact absurd (h _ rfl) (by decide +kernel)

end System

end OcppServer
