import OcppServer.Proofs.Decoding
import OcppServer.Proofs.Store

/-!
# The object `getValues` returns

Its members are the values followed by four metrics, and nothing keeps a value from having a
metric's name. The initial values have none, and no command but `setValue` brings in a key of its
own, so the object is a proper one all along a run exactly when no `setValue` that is received has
such a key, read up to its first NUL (`properValues_iff`).
-/

namespace OcppServer

def metricNames : List Bytes :=
  [lit "currentPower", lit "voltage", lit "temperature", lit "uptime"]

/-- The members have different names, and they have the values and the metrics among them. -/
structure ProperObject (amb : Ambient) (d : RpcData) (members : List (Bytes × Json)) : Prop where
  distinct : (members.map Prod.fst).Nodup
  values : ∀ k v, d.values.lookup k = some v → (k, .string v) ∈ members
  currentPower : (lit "currentPower", .double d.metrics.currentPower) ∈ members
  voltage : (lit "voltage", .double d.metrics.voltage) ∈ members
  temperature : (lit "temperature", .double d.metrics.temperature) ∈ members
  uptime : (lit "uptime", .int (getUptime amb d)) ∈ members

/-- What `getValues` returns, whenever it is asked, is the text of a proper object for the data as
it then is. -/
def ProperValues (rt : Runtime) (s : WebServer) : Prop :=
  ∀ amb, (handleGetValues rt amb s.clients s.data).1
      = jsonToString rt (.object (Web.valuesMembers (updateMetrics rt amb s.clients s.data)
          ++ Web.metricMembers amb (updateMetrics rt amb s.clients s.data)))
    ∧ ProperObject amb (updateMetrics rt amb s.clients s.data)
        (Web.valuesMembers (updateMetrics rt amb s.clients s.data)
          ++ Web.metricMembers amb (updateMetrics rt amb s.clients s.data))

/-- No value has a metric's name. -/
def NoMetricKeys (d : RpcData) : Prop := ∀ k v, d.values.lookup k = some v → k ∉ metricNames

theorem initialValues_noMetric : ∀ k ∈ initialValues.map Prod.fst, k ∉ metricNames := by
  have h : ((initialValues.map Prod.fst).all fun k => k ∉ metricNames) = true := by decide
  intro k hk
  simpa using List.all_eq_true.1 h k hk

section Object

variable {amb : Ambient} {d : RpcData}

theorem metricMembers_names : (Web.metricMembers amb d).map Prod.fst = metricNames := rfl

/-- In a store without NULs the members are the entries. -/
theorem NulFree.valuesMembers_eq (h : NulFree d) :
    Web.valuesMembers d = d.values.entries.map fun e => (e.1, .string e.2) := by
  refine List.map_congr_left fun e he => ?_
  obtain ⟨hk, hv⟩ := h e.1 e.2 (Dict.mem_entries_iff.1 he)
  rw [cstr_of_notMem hk, cstr_of_notMem hv]

theorem NulFree.valuesMembers_names (h : NulFree d) :
    (Web.valuesMembers d).map Prod.fst = d.values.keys := by
  rw [h.valuesMembers_eq, List.map_map]
  rfl

/-- The members of a store without NULs are a proper object if no value has a metric's name, and
no object with different names if one has. -/
theorem NulFree.properObject_iff (h : NulFree d) :
    ProperObject amb d (Web.valuesMembers d ++ Web.metricMembers amb d) ↔ NoMetricKeys d := by
  constructor
  · intro hobj k v hk hmetric
    have hdistinct := hobj.distinct
    rw [List.map_append, h.valuesMembers_names, metricMembers_names, List.nodup_append] at hdistinct
    exact hdistinct.2.2 k (AList.mem_keys.1 (Dict.mem_iff_exists.2 ⟨v, hk⟩)) k hmetric rfl
  · intro hno
    have hmetric : ∀ {m : Bytes × Json}, m ∈ Web.metricMembers amb d →
        m ∈ Web.valuesMembers d ++ Web.metricMembers amb d :=
      fun hm => List.mem_append_right _ hm
    refine ⟨?_, fun k v hk => ?_, hmetric (by simp [Web.metricMembers]),
      hmetric (by simp [Web.metricMembers]), hmetric (by simp [Web.metricMembers]),
      hmetric (by simp [Web.metricMembers])⟩
    · rw [List.map_append, h.valuesMembers_names, metricMembers_names, List.nodup_append]
      refine ⟨d.values.keys_nodup, by decide, ?_⟩
      rintro k hk m hm rfl
      obtain ⟨v, hv⟩ := Dict.mem_iff_exists.1 (AList.mem_keys.2 hk)
      exact hno k v hv hm
    · rw [h.valuesMembers_eq]
      exact List.mem_append_left _ (List.mem_map.2 ⟨⟨k, v⟩, Dict.mem_entries_iff.2 hk, rfl⟩)

end Object

section Change

variable {rt : Runtime} {amb : Ambient} {clients : ℕ} {d d' : RpcData} {method : Bytes}
  {params : Json}

theorem Change.noMetricKeys (hc : Change rt amb clients d method params d')
    (h : NoMetricKeys d)
    (hset : ∀ k v, SetBy rt method params k v → k ∉ metricNames) : NoMetricKeys d' := by
  intro k v hk
  rcases hc.entry hk with hold | hassigned | ⟨hinitial, -⟩
  · exact h k v hold
  · exact hset k v hassigned
  · exact initialValues_noMetric k hinitial

/-- Refreshing the metrics leaves the values that are there. -/
theorem lookup_updateMetrics {k v : Bytes} (h : d.values.lookup k = some v) :
    (updateMetrics rt amb clients d).values.lookup k = some v := by
  simp only [updateMetrics, subscript]
  rcases hflag : d.values.lookup (lit "chargingEnabled") with _ | value
  · have hne : k ≠ lit "chargingEnabled" := by
      rintro rfl
      rw [hflag] at h
      cases h
    exact (AList.lookup_insert_ne hne).trans h
  · exact h

end Change

namespace System

variable (rt : Runtime) (handler : Option WebServer.MessageHandler)

/-- A `setValue` that is received has no key that counts as a metric's name. -/
def SetsNoMetric (sys : System) (cb : Callback) : Prop :=
  ∀ amb params key value, Receives rt sys cb amb (lit "setValue") params →
    params.find? (lit "key") = some (.string key) → params.find? (lit "value") = some value →
      cstr key ∉ metricNames

theorem properValues_of {s : WebServer} (hn : NulFree s.data) (h : NoMetricKeys s.data) :
    ProperValues rt s := by
  intro amb
  have hc : Change rt amb s.clients s.data (lit "getValues") (.object [])
      (updateMetrics rt amb s.clients s.data) := .refresh (.inl rfl)
  refine ⟨rfl, (hc.nulFree hn).properObject_iff.2 (hc.noMetricKeys h ?_)⟩
  rintro k v ⟨hm, -⟩
  exact absurd hm (by decide)

/-- In every run of a fresh server `getValues` returns a proper object after each callback exactly
when no `setValue` received has a metric's name for its key. -/
theorem properValues_iff (now : ℤ) (cbs : List Callback) :
    (∀ pre, pre <+: cbs → ∀ sys, run rt handler (.init now) pre = some sys →
        ProperValues rt sys.server)
      ↔ Runs.AtEvery (System.step rt handler) (SetsNoMetric rt) (.init now) cbs := by
  refine Runs.forall_run_iff _ (D := fun _ => True)
    (I := fun sys => Registered sys ∧ NulFree sys.server.data ∧ NoMetricKeys sys.server.data)
    (fun _ h => properValues_of rt h.2.1 h.2.2) ?_ ?_ cbs
    ⟨registered_init now, nulFree_init now, ?_⟩ (by simp)
  · rintro sys cb sys' ⟨hr, hn, hm⟩ - hset hstep
    refine ⟨hr.step rt handler hstep,
      hr.step_data rt handler hstep hn fun _ _ _ _ _ hc => hc.nulFree hn,
      hr.step_data rt handler hstep hm fun amb method params d' hrec hc => ?_⟩
    refine hc.noMetricKeys hm ?_
    rintro k v ⟨rfl, key, value, hk, hv, rfl, -⟩
    exact hset amb params key value hrec hk hv
  · rintro sys cb ⟨hr, hn, hm⟩ hset
    simp only [SetsNoMetric, not_forall, not_not] at hset
    obtain ⟨amb, params, key, value, hrec, hk, hv, hmetric⟩ := hset
    obtain ⟨sys', hstep, hc⟩ := hr.step_change rt handler hrec
    have hd := hc.unique rt amb (.setValue rfl hk hv)
    refine ⟨sys', hstep, fun hproper => ?_⟩
    have hn' : NulFree sys'.server.data := hc.nulFree hn
    have hrefresh : Change rt amb sys'.server.clients sys'.server.data (lit "getValues")
        (.object []) (updateMetrics rt amb sys'.server.clients sys'.server.data) :=
      .refresh (.inl rfl)
    have hstored : sys'.server.data.values.lookup (cstr key)
        = some (jsonValueToString rt value) := by
      rw [hd]
      exact AList.lookup_insert _
    exact (hrefresh.nulFree hn').properObject_iff.1 (hproper amb).2 _ _
      (lookup_updateMetrics hstored) hmetric
  · intro k v hk
    rw [show (System.init now).server.data = initializeValues now ⟨∅, ⟨0, 0, 0, 0⟩, 0⟩ from rfl,
      initializeValues_values] at hk
    exact initialValues_noMetric k
      (List.mem_map_of_mem (f := Prod.fst) (Replica.mem_of_lookup_replay hk))

/-- A `setValue` of a metric's name, as text and as the document it parses to. -/
def setValueVoltage : Bytes × Json :=
  (lit "\x7b\"jsonrpc\":\"2.0\",\"method\":\"setValue\",\"id\":1,\"params\":" ++
      lit "\x7b\"key\":\"voltage\",\"value\":\"9\"\x7d\x7d",
    .object [(lit "jsonrpc", .string (lit "2.0")), (lit "method", .string (lit "setValue")),
      (lit "id", .int 1), (lit "params", .object [(lit "key", .string (lit "voltage")),
        (lit "value", .string (lit "9"))])])

/-- A client sets a voltage of its own, and the object has two. -/
theorem getValues_two_voltages :
    ¬ ∀ sys, run (.ofTable [setValueVoltage]) none (.init 0)
        [.established 0, .receive 0 ⟨[], 0, 0, 0, 0, 0⟩ setValueVoltage.1] = some sys →
      ProperValues (.ofTable [setValueVoltage]) sys.server := by
  intro h
  have hdistinct := (h _ rfl ⟨[], 0, 0, 0, 0, 0⟩).2.distinct
  exact absurd hdistinct (by decide +kernel)

end System

end OcppServer
