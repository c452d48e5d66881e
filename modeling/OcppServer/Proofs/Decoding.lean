import OcppServer.JsonParse
import OcppServer.Monitoring
import OcppServer.Proofs.Calls
import OcppServer.Spec

/-!
# What the monitoring clients show

A reply is a document whose `result` is the text of another; that of `getMetrics` is wrapped once
more. A client shows the values and metrics if it takes off as many layers as there are. The page
takes off too few for `getValues` and `monitoring.js` too few for `getMetrics`, so both show their
defaults; the admin panel takes off none and shows the reply's own members. Where the layers are
right, what is lost is a value whose name is one of the metrics'.
-/

namespace OcppServer

namespace Web

/-- The members of the document whose text `getValues` returns. -/
def valuesMembers (d : RpcData) : List (Bytes × Json) :=
  d.values.entries.map fun pair => (cstr pair.1, Json.string (cstr pair.2))

def metricMembers (amb : Ambient) (d : RpcData) : List (Bytes × Json) :=
  [(lit "currentPower", .double d.metrics.currentPower),
    (lit "voltage", .double d.metrics.voltage),
    (lit "temperature", .double d.metrics.temperature),
    (lit "uptime", .int (getUptime amb d))]

def valuesDoc (amb : Ambient) (d : RpcData) : Json :=
  .object (valuesMembers d ++ metricMembers amb d)

/-- The document whose text `getMetrics` returns. -/
def metricsDoc (amb : Ambient) (d : RpcData) : Json :=
  .object [(lit "jsonrpc", .string (lit "2.0")), (lit "id", .int 1),
    (lit "result", .object [(lit "currentPower", .double d.metrics.currentPower),
      (lit "voltage", .double d.metrics.voltage),
      (lit "temperature", .double d.metrics.temperature),
      (lit "connectedClients", .int d.metrics.connectedClients),
      (lit "uptime", .int (getUptime amb d))])]

/-- The document of a reply whose result is the text of a document. -/
def replyDoc (rt : Runtime) (id : ℤ) (doc : Json) : Json :=
  .object [(lit "jsonrpc", .string (lit "2.0")), (lit "id", .int id),
    (lit "result", .string (jsonToString rt doc))]

theorem reply_eq (rt : Runtime) (id : ℤ) (doc : Json) :
    reply id (.ok (jsonToString rt doc)) = .json (replyDoc rt id doc) := by
  simp [reply, serializeRpcResponse, replyDoc, jsonToString]

/-- A client and what it asks for. -/
inductive Screen where
  | indexValues
  | indexMetrics
  | monitoringValues
  | monitoringMetrics
  | adminValues

namespace Screen

def variant : Screen → Variant
  | indexValues | indexMetrics => .indexHtml
  | monitoringValues | monitoringMetrics | adminValues => .clientJs

/-- The document the answer brings. -/
def doc (amb : Ambient) (d : RpcData) : Screen → Json
  | indexValues | monitoringValues | adminValues => valuesDoc amb d
  | indexMetrics | monitoringMetrics => metricsDoc amb d

/-- What the server returns, and its data after that. -/
def result (rt : Runtime) (amb : Ambient) (clients : ℕ) (d : RpcData) : Screen → Bytes × RpcData
  | indexValues | monitoringValues | adminValues => handleGetValues rt amb clients d
  | indexMetrics | monitoringMetrics => handleGetMetrics rt amb clients d

theorem result_eq (rt : Runtime) (amb : Ambient) (clients : ℕ) (d : RpcData) (screen : Screen) :
    screen.result rt amb clients d = (jsonToString rt (screen.doc amb
      (updateMetrics rt amb clients d)), updateMetrics rt amb clients d) := by
  cases screen <;> rfl

/-- What the screen shows once the call is settled. -/
def shows (lang : Js) : Screen → Promise → Shows
  | indexValues => IndexHtml.startMonitoring
  | indexMetrics => IndexHtml.updateMetrics lang
  | monitoringValues => MonitoringJs.startMonitoring lang
  | monitoringMetrics => MonitoringJs.updateMetrics lang
  | adminValues => AdminPanel.loadSystemInfo

end Screen

/-- What a call is settled with by the bytes of its reply. -/
def settledBy (lang : Js) (v : Variant) (bytes : Bytes) : Promise :=
  match (utf16? bytes).bind (RPCClient.parsed? lang.parse v) with
  | some message => answer v message
  | none => .pending

/-- The metrics `getValues` adds to the values. -/
def valueMetrics (amb : Ambient) (d : RpcData) : List (JsString × ℚ) :=
  [(js "currentPower", d.metrics.currentPower), (js "voltage", d.metrics.voltage),
    (js "temperature", d.metrics.temperature), (js "uptime", getUptime amb d)]

def allMetrics (amb : Ambient) (d : RpcData) : List (JsString × ℚ) :=
  [(js "currentPower", d.metrics.currentPower), (js "voltage", d.metrics.voltage),
    (js "temperature", d.metrics.temperature),
    (js "connectedClients", d.metrics.connectedClients), (js "uptime", getUptime amb d)]

/-- A number is shown, rounded or not. -/
def Shown.Reads (x : ℚ) : Shown → Prop
  | .value v => v = .num x
  | .fixed _ v => v = .num x

/-- Shown are the values and metrics, each under its name, and nothing else. -/
structure ShowsValues (amb : Ambient) (d : RpcData) (shown : Shows) : Prop where
  values : ∀ k v, d.values.lookup k = some v → ∃ name text,
    utf16? k = some name ∧ utf16? v = some text ∧ (name, .value (.str text)) ∈ shown
  metrics : ∀ m ∈ valueMetrics amb d, (m.1, .value (.num m.2)) ∈ shown
  only : ∀ e ∈ shown, (∃ k v text, d.values.lookup k = some v ∧ utf16? k = some e.1
      ∧ utf16? v = some text ∧ e.2 = .value (.str text))
    ∨ ∃ m ∈ valueMetrics amb d, e = (m.1, .value (.num m.2))

/-- Shown are the metrics, each under its name, and nothing else. -/
structure ShowsMetrics (amb : Ambient) (d : RpcData) (shown : Shows) : Prop where
  metrics : ∀ m ∈ allMetrics amb d, ∃ s, (m.1, s) ∈ shown ∧ s.Reads m.2
  only : ∀ e ∈ shown, ∃ m ∈ allMetrics amb d, e.1 = m.1 ∧ e.2.Reads m.2

def Screen.Shows (amb : Ambient) (d : RpcData) (shown : Shows) : Screen → Prop
  | indexValues | monitoringValues | adminValues => ShowsValues amb d shown
  | indexMetrics | monitoringMetrics => ShowsMetrics amb d shown

/-- The value is text without NULs, as its name is, and the name is none of a metric's. -/
def Plain (k v : Bytes) : Prop :=
  ((0 : UInt8) ∉ k ∧ (0 : UInt8) ∉ v) ∧ ((utf16? k).isSome ∧ (utf16? v).isSome)
    ∧ k ∉ [lit "currentPower", lit "voltage", lit "temperature", lit "uptime"]

/-- The client takes the reply apart as it was put together, and no name occurs in it twice. -/
def Screen.Agrees (d : RpcData) : Screen → Prop
  | indexMetrics => True
  | monitoringValues => ∀ k v, d.values.lookup k = some v → Plain k v
  | _ => False

/-! ## The reply -/

section Reply

variable {lang : Js} {rt : Runtime}

theorem toJs?_replyDoc (rt : Runtime) (id : ℤ) (doc : Json) :
    (replyDoc rt id doc).toJs? = (utf16? (jsonToString rt doc)).map fun text =>
      .obj (Replica.replay [(js "jsonrpc", .str (js "2.0")), (js "id", .num id),
        (js "result", .str text)] ∅).toPairs :=
  toJs?_reply id (jsonToString rt doc) "result" (by decide)

/-- The reply's value, once the result is a text. -/
def replyValue (id : ℤ) (text : JsString) : JsValue :=
  .obj (Replica.replay [(js "jsonrpc", .str (js "2.0")), (js "id", .num id),
    (js "result", .str text)] ∅).toPairs

theorem replyValue_get? (id : ℤ) (text : JsString) :
    (replyValue id text).get? (js "result") = some (.str text)
      ∧ (replyValue id text).get? (js "error") = none := ⟨rfl, rfl⟩

theorem answer_replyValue (v : Variant) (id : ℤ) (text : JsString) :
    answer v (replyValue id text)
      = .resolved (if v.embedded then some (.str text) else some (replyValue id text)) := by
  obtain ⟨hr, he⟩ := replyValue_get? id text
  rw [answer, he, hr]
  rfl

/-- The call is settled by the reply if the result is a text, and stays pending otherwise. -/
theorem settledBy_reply {id : ℤ} {doc : Json} (v : Variant)
    (h : ReadsBack lang.parse rt (replyDoc rt id doc)) :
    settledBy lang v (jsonToString rt (replyDoc rt id doc))
      = match utf16? (jsonToString rt doc) with
        | some text => .resolved (if v.embedded then some (.str text)
            else some (replyValue id text))
        | none => .pending := by
  have hread : (utf16? (jsonToString rt (replyDoc rt id doc))).bind
      (RPCClient.parsed? lang.parse v) = (replyDoc rt id doc).toJs?.bind
        (RPCClient.reading lang.parse v) := by
    rw [← h, Option.bind_assoc]
    rfl
  unfold settledBy
  rw [hread, toJs?_replyDoc]
  rcases utf16? (jsonToString rt doc) with _ | text
  · rfl
  · exact answer_replyValue v id text

end Reply

/-! ## The values, unwrapped too little -/

section Values

variable {amb : Ambient} {d : RpcData}

theorem ShowsValues.currentPower_mem {shown : Shows} (h : ShowsValues amb d shown) :
    js "currentPower" ∈ shown.map Prod.fst :=
  List.mem_map_of_mem
    (h.metrics (js "currentPower", d.metrics.currentPower) (by simp [valueMetrics]))

theorem not_showsValues_nil : ¬ ShowsValues amb d [] := by
  intro h
  simpa using h.currentPower_mem

/-- The page's defaults are more than `getValues` brings. -/
theorem not_showsValues_defaults : ¬ ShowsValues amb d IndexHtml.defaultValues := by
  intro h
  rcases h.only (js "connectedClients", .value (.num 0)) (by simp [IndexHtml.defaultValues])
    with ⟨k, v, text, -, -, -, he⟩ | ⟨m, hm, he⟩
  · simp at he
  · have hname : js "connectedClients" ∈ (valueMetrics amb d).map Prod.fst :=
      List.mem_map.2 ⟨m, hm, (congrArg Prod.fst he).symm⟩
    exact absurd hname (by simp only [valueMetrics, List.map_cons, List.map_nil]; decide)

/-- The admin panel shows the members of the reply. -/
theorem not_showsValues_reply (id : ℤ) (text : JsString) :
    ¬ ShowsValues amb d (AdminPanel.displaySystemInfo (replyValue id text)) := by
  intro h
  have hshown : (AdminPanel.displaySystemInfo (replyValue id text)).map Prod.fst
      = [js "result", js "id", js "jsonrpc"] := rfl
  have := h.currentPower_mem
  rw [hshown] at this
  exact absurd this (by decide)

end Values

/-! ## The metrics -/

section Metrics

variable (amb : Ambient) (d : RpcData)

/-- The metrics as `JSON.parse` makes them, and the document around them. -/
def metricsObject : JsValue :=
  .obj (Replica.replay ((allMetrics amb d).map fun m => (m.1, .num m.2)) ∅).toPairs

def metricsValue : JsValue :=
  .obj (Replica.replay [(js "jsonrpc", .str (js "2.0")), (js "id", .num 1),
    (js "result", metricsObject amb d)] ∅).toPairs

theorem toJs?_metricsDoc : (metricsDoc amb d).toJs? = some (metricsValue amb d) := by
  simp (disch := decide) only [metricsDoc, Json.toJs?, Json.membersToJs?, utf16?_lit,
    Option.map_some, Option.bind_some]
  rfl

variable {amb d} in
theorem showsMetrics_of_forall₂ {shown : Shows}
    (h : List.Forall₂ (fun e m => e.1 = m.1 ∧ e.2.Reads m.2) shown (allMetrics amb d)) :
    ShowsMetrics amb d shown where
  metrics := by
    intro m hm
    obtain ⟨e, he, hname, hreads⟩ := Dict.exists_of_forall₂ (List.Forall₂.flip h) hm
    exact ⟨e.2, hname ▸ he, hreads⟩
  only := fun _ => Dict.exists_of_forall₂ h

/-- The page takes both layers off the metrics. -/
theorem index_shows_metrics {lang : Js} {text : JsString}
    (h : lang.parse text = some (metricsValue amb d)) :
    ShowsMetrics amb d (IndexHtml.updateMetrics lang (.resolved (some (.str text)))) := by
  have hshown : IndexHtml.updateMetrics lang (.resolved (some (.str text)))
      = [(js "currentPower", .fixed 2 (.num d.metrics.currentPower)),
        (js "voltage", .fixed 1 (.num d.metrics.voltage)),
        (js "temperature", .fixed 1 (.num d.metrics.temperature)),
        (js "connectedClients", .value (.num d.metrics.connectedClients)),
        (js "uptime", .value (.num (getUptime amb d)))] := by
    simp only [IndexHtml.updateMetrics, IndexHtml.processMetricsResponse, h, Option.getD_some]
    rfl
  rw [hshown]
  exact showsMetrics_of_forall₂ (by simp [allMetrics, Shown.Reads])

/-- `monitoring.js` takes one off, and finds no metric there. -/
theorem monitoring_shows_defaults {lang : Js} {id : ℤ} {text : JsString} (hne : text ≠ [])
    (h : lang.parse text = some (metricsValue amb d)) :
    MonitoringJs.updateMetrics lang (.resolved (some (replyValue id text)))
      = MonitoringJs.defaults := by
  have hdata : MonitoringJs.metricsData lang (replyValue id text) = metricsValue amb d := by
    unfold MonitoringJs.metricsData
    rw [(replyValue_get? id text).1]
    simp only [if_neg hne, h, Option.getD_some]
  have hentries : (entries (replyValue id text)).isNone = false := rfl
  simp only [MonitoringJs.updateMetrics, hdata, hentries]
  rfl

theorem not_showsMetrics_defaults : ¬ ShowsMetrics amb d MonitoringJs.defaults := by
  intro h
  obtain ⟨m, -, -, hr⟩ := h.only (js "currentPower", .value (.str (js "0.00")))
    (by simp [MonitoringJs.defaults, MonitoringJs.fields])
  simp [Shown.Reads] at hr

end Metrics

/-! ## The values, unwrapped -/

section Unwrapped

variable {amb : Ambient} {d : RpcData} {ms : List (JsString × JsValue)}

theorem toJs?_metricMembers (amb : Ambient) (d : RpcData) :
    List.Forall₂ (fun e m => utf16? e.1 = some m.1 ∧ e.2.toJs? = some (.num m.2))
      (metricMembers amb d) (valueMetrics amb d) := by
  simp (disch := decide) [metricMembers, valueMetrics, Json.toJs?, utf16?_lit]

/-- What is read of the members is the values, up to their first NULs, and the metrics. -/
theorem mem_read (h : Json.membersToJs? (valuesMembers d ++ metricMembers amb d) = some ms)
    {name : JsString} {v : JsValue} : (name, v) ∈ ms ↔
      (∃ k val text, d.values.lookup k = some val ∧ utf16? (cstr k) = some name
        ∧ utf16? (cstr val) = some text ∧ v = .str text)
      ∨ ∃ m ∈ valueMetrics amb d, name = m.1 ∧ v = .num m.2 := by
  have hread := toJs?_metricMembers amb d
  rw [mem_membersToJs? h]
  constructor
  · rintro ⟨key, j, hmem, hkey, hj⟩
    rcases List.mem_append.1 hmem with hmem | hmem
    · obtain ⟨⟨k, val⟩, hk, he⟩ := List.mem_map.1 hmem
      obtain ⟨rfl, rfl⟩ := Prod.mk.inj he
      obtain ⟨text, htext, hv⟩ := toJs?_string.1 hj
      exact .inl ⟨k, val, text, Dict.mem_entries_iff.1 hk, hkey, htext, hv⟩
    · obtain ⟨m, hm, hname, hnum⟩ := Dict.exists_of_forall₂ hread hmem
      rw [hkey] at hname
      rw [hj] at hnum
      exact .inr ⟨m, hm, Option.some.inj hname, Option.some.inj hnum⟩
  · rintro (⟨k, val, text, hk, hkey, htext, rfl⟩ | ⟨m, hm, rfl, rfl⟩)
    · refine ⟨cstr k, .string (cstr val), List.mem_append_left _ ?_, hkey, ?_⟩
      · exact List.mem_map.2 ⟨⟨k, val⟩, Dict.mem_entries_iff.2 hk, rfl⟩
      · exact toJs?_string.2 ⟨text, htext, rfl⟩
    · obtain ⟨e, he, hkey, hj⟩ := Dict.exists_of_forall₂ (List.Forall₂.flip hread) hm
      exact ⟨e.1, e.2, List.mem_append_right _ he, hkey, hj⟩

theorem mem_metricNames_iff (amb : Ambient) (d : RpcData) {k : Bytes} :
    k ∈ [lit "currentPower", lit "voltage", lit "temperature", lit "uptime"]
      ↔ ∃ m ∈ valueMetrics amb d, utf16? k = some m.1 := by
  have hread := toJs?_metricMembers amb d
  have hnames : [lit "currentPower", lit "voltage", lit "temperature", lit "uptime"]
      = (metricMembers amb d).map Prod.fst := rfl
  rw [hnames, List.mem_map]
  constructor
  · rintro ⟨e, he, rfl⟩
    obtain ⟨m, hm, hname, -⟩ := Dict.exists_of_forall₂ hread he
    exact ⟨m, hm, hname⟩
  · rintro ⟨m, hm, hk⟩
    obtain ⟨e, he, hname, -⟩ := Dict.exists_of_forall₂ (List.Forall₂.flip hread) hm
    exact ⟨e, he, utf16?_inj hname hk⟩

theorem valueMetrics_inj {m m' : JsString × ℚ} (hm : m ∈ valueMetrics amb d)
    (hm' : m' ∈ valueMetrics amb d) (h : m.1 = m'.1) : m = m' := by
  refine List.inj_on_of_nodup_map (f := Prod.fst) ?_ hm hm' h
  simp only [valueMetrics, List.map_cons, List.map_nil]
  decide

/-- What `monitoring.js` shows of an object. -/
def shownOf (ms : List (JsString × JsValue)) : Shows :=
  (Replica.replay ms ∅).toPairs.map fun e => (e.1, MonitoringJs.kept e.2)

/-- Nothing read is `null`, so it is shown as it is. -/
theorem mem_shownOf (h : Json.membersToJs? (valuesMembers d ++ metricMembers amb d) = some ms)
    {name : JsString} {s : Shown} : (name, s) ∈ shownOf ms ↔
      ∃ v, (Replica.replay ms ∅).lookup name = some v ∧ s = .value v := by
  have hkept : ∀ {v}, (Replica.replay ms ∅).lookup name = some v →
      MonitoringJs.kept v = .value v := by
    intro v hv
    rcases (mem_read h).1 (Replica.mem_of_lookup_replay hv) with
      ⟨-, -, text, -, -, -, rfl⟩ | ⟨m, -, -, rfl⟩
    · rfl
    · rfl
  rw [shownOf, List.mem_map]
  constructor
  · rintro ⟨⟨n, v⟩, hmem, he⟩
    obtain ⟨rfl, rfl⟩ := Prod.mk.inj he
    have hv := Dict.mem_toPairs.1 hmem
    exact ⟨v, hv, hkept hv⟩
  · rintro ⟨v, hv, rfl⟩
    exact ⟨(name, v), Dict.mem_toPairs.2 hv, by rw [hkept hv]⟩

theorem plain_of_shows (h : Json.membersToJs? (valuesMembers d ++ metricMembers amb d) = some ms)
    (hs : ShowsValues amb d (shownOf ms)) {k v : Bytes} (hk : d.values.lookup k = some v) :
    Plain k v := by
  obtain ⟨name, text, hname, htext, hmem⟩ := hs.values k v hk
  obtain ⟨w, hw, he⟩ := (mem_shownOf h).1 hmem
  obtain rfl : .str text = w := Shown.value.inj he
  rcases (mem_read h).1 (Replica.mem_of_lookup_replay hw) with
    ⟨k', v', text', -, hk', hv', ht⟩ | ⟨m, -, -, ht⟩
  · obtain rfl := JsValue.str.inj ht
    refine ⟨⟨?_, ?_⟩, ⟨by rw [hname]; rfl, by rw [htext]; rfl⟩, fun hmetric => ?_⟩
    · rw [utf16?_inj hname hk']
      exact zero_notMem_cstr k'
    · rw [utf16?_inj htext hv']
      exact zero_notMem_cstr v'
    · -- The metric of that name is shown too, and it is a number.
      obtain ⟨m, hm, hkm⟩ := (mem_metricNames_iff amb d).1 hmetric
      obtain ⟨w, hnum, he⟩ := (mem_shownOf h).1 (hs.metrics m hm)
      obtain rfl := Option.some.inj (hname.symm.trans hkm)
      rw [hw] at hnum
      obtain rfl := Option.some.inj hnum
      cases he
  · cases ht

theorem read_unique (h : Json.membersToJs? (valuesMembers d ++ metricMembers amb d) = some ms)
    (hp : ∀ k v, d.values.lookup k = some v → Plain k v) {name : JsString} {a b : JsValue}
    (ha : (name, a) ∈ ms) (hb : (name, b) ∈ ms) : b = a := by
  have hmixed : ∀ {k val : Bytes} {m : JsString × ℚ}, d.values.lookup k = some val →
      utf16? (cstr k) = some name → m ∈ valueMetrics amb d → name ≠ m.1 := by
    intro k val m hk hkey hm hname
    obtain ⟨⟨hz, -⟩, -, hnot⟩ := hp k val hk
    rw [cstr_of_notMem hz, hname] at hkey
    exact hnot ((mem_metricNames_iff amb d).2 ⟨m, hm, hkey⟩)
  rcases (mem_read h).1 ha with ⟨k, val, text, hk, hkey, ht, rfl⟩ | ⟨m, hm, hname, rfl⟩ <;>
    rcases (mem_read h).1 hb with ⟨k', val', text', hk', hkey', ht', rfl⟩ | ⟨m', hm', hname', rfl⟩
  · have hkk := utf16?_inj hkey hkey'
    rw [cstr_of_notMem (hp k val hk).1.1, cstr_of_notMem (hp k' val' hk').1.1] at hkk
    subst hkk
    obtain rfl := Option.some.inj (hk.symm.trans hk')
    rw [Option.some.inj (ht.symm.trans ht')]
  · exact absurd hname' (hmixed hk hkey hm')
  · exact absurd hname (hmixed hk' hkey' hm)
  · rw [valueMetrics_inj hm hm' (hname.symm.trans hname')]

theorem shows_of_plain (h : Json.membersToJs? (valuesMembers d ++ metricMembers amb d) = some ms)
    (hp : ∀ k v, d.values.lookup k = some v → Plain k v) : ShowsValues amb d (shownOf ms) where
  values := by
    intro k v hk
    obtain ⟨⟨hkz, hvz⟩, ⟨hkt, hvt⟩, -⟩ := hp k v hk
    obtain ⟨name, hname⟩ := Option.isSome_iff_exists.1 hkt
    obtain ⟨text, htext⟩ := Option.isSome_iff_exists.1 hvt
    refine ⟨name, text, hname, htext, (mem_shownOf h).2 ⟨_, ?_, rfl⟩⟩
    have hmem : (name, JsValue.str text) ∈ ms := (mem_read h).2 (.inl ⟨k, v, text, hk, by
      rwa [cstr_of_notMem hkz], by rwa [cstr_of_notMem hvz], rfl⟩)
    exact Replica.lookup_replay_of_unique hmem fun b hb => read_unique h hp hmem hb
  metrics := by
    intro m hm
    have hmem : (m.1, JsValue.num m.2) ∈ ms := (mem_read h).2 (.inr ⟨m, hm, rfl, rfl⟩)
    exact (mem_shownOf h).2 ⟨_, Replica.lookup_replay_of_unique hmem fun b hb =>
      read_unique h hp hmem hb, rfl⟩
  only := by
    rintro ⟨name, s⟩ hmem
    obtain ⟨w, hw, rfl⟩ := (mem_shownOf h).1 hmem
    rcases (mem_read h).1 (Replica.mem_of_lookup_replay hw) with
      ⟨k, val, text, hk, hkey, ht, rfl⟩ | ⟨m, hm, rfl, rfl⟩
    · obtain ⟨⟨hkz, hvz⟩, -, -⟩ := hp k val hk
      rw [cstr_of_notMem hkz] at hkey
      rw [cstr_of_notMem hvz] at ht
      exact .inl ⟨k, val, text, hk, hkey, ht, rfl⟩
    · exact .inr ⟨m, hm, rfl⟩

/-- Values that are read are plain already. -/
theorem isSome_of_plain (amb : Ambient) (hp : ∀ k v, d.values.lookup k = some v → Plain k v) :
    (Json.membersToJs? (valuesMembers d ++ metricMembers amb d)).isSome := by
  rw [membersToJs?_isSome]
  intro e he
  rcases List.mem_append.1 he with he | he
  · obtain ⟨⟨k, val⟩, hk, rfl⟩ := List.mem_map.1 he
    obtain ⟨⟨hkz, hvz⟩, ⟨hkt, hvt⟩, -⟩ := hp k val (Dict.mem_entries_iff.1 hk)
    refine ⟨?_, ?_⟩
    · rwa [cstr_of_notMem hkz]
    · rwa [cstr_of_notMem hvz, Json.toJs?, Option.isSome_map]
  · obtain ⟨m, -, hname, hnum⟩ := Dict.exists_of_forall₂ (toJs?_metricMembers amb d) he
    rw [hname, hnum]
    exact ⟨rfl, rfl⟩

/-- `monitoring.js` takes off one layer, as `getValues` puts on one. -/
theorem monitoring_values (lang : Js) (id : ℤ) (text : JsString) :
    MonitoringJs.startMonitoring lang (.resolved (some (replyValue id text)))
      = ((lang.parse text).bind entries).elim [] fun members =>
        members.map fun e => (e.1, MonitoringJs.kept e.2) := by
  simp only [MonitoringJs.startMonitoring, (replyValue_get? id text).1]
  rcases (lang.parse text).bind entries with _ | members <;> rfl

theorem monitoring_values_iff {lang : Js} {rt : Runtime} {id : ℤ}
    (hdoc : ReadsBack lang.parse rt (valuesDoc amb d))
    (hreply : ReadsBack lang.parse rt (replyDoc rt id (valuesDoc amb d))) :
    ShowsValues amb d (MonitoringJs.startMonitoring lang
      (settledBy lang .clientJs (jsonToString rt (replyDoc rt id (valuesDoc amb d)))))
      ↔ ∀ k v, d.values.lookup k = some v → Plain k v := by
  have hread : (valuesDoc amb d).toJs? = (Json.membersToJs? (valuesMembers d
      ++ metricMembers amb d)).map fun ms => .obj (Replica.replay ms ∅).toPairs := rfl
  -- Where the values are no texts nothing is shown.
  have hnone : (valuesDoc amb d).toJs? = none →
      ¬ ∀ k v, d.values.lookup k = some v → Plain k v := by
    intro hn hp
    rw [hread, Option.map_eq_none_iff] at hn
    simpa [hn] using isSome_of_plain amb hp
  rw [settledBy_reply .clientJs hreply]
  rcases ht : utf16? (jsonToString rt (valuesDoc amb d)) with _ | text
  · exact iff_of_false not_showsValues_nil (hnone (hdoc.eq_none ht))
  simp only [Variant.embedded, Bool.false_eq_true, if_false, monitoring_values, hdoc.eq_of_text ht]
  rcases hms : Json.membersToJs? (valuesMembers d ++ metricMembers amb d) with _ | ms
  · rw [hms, Option.map_none] at hread
    rw [hread]
    exact iff_of_false not_showsValues_nil (hnone hread)
  · rw [hread, hms]
    exact ⟨fun h k v hk => plain_of_shows hms h hk, shows_of_plain hms⟩

end Unwrapped

/-! ## Every screen -/

/-- Refreshing the metrics adds no value that is not plain. -/
theorem plain_updateMetrics (rt : Runtime) (amb : Ambient) (clients : ℕ) (d : RpcData) :
    (∀ k v, (updateMetrics rt amb clients d).values.lookup k = some v → Plain k v)
      ↔ ∀ k v, d.values.lookup k = some v → Plain k v := by
  have hflag : Plain (lit "chargingEnabled") [] := by
    refine ⟨by decide, ⟨?_, by decide⟩, by decide⟩
    rw [utf16?_lit _ (by decide)]
    rfl
  simp only [updateMetrics, subscript]
  rcases hl : d.values.lookup (lit "chargingEnabled") with _ | value
  · simp only [Dict.lookup_insert_eq]
    constructor
    · intro h k v hk
      refine h k v ?_
      rw [if_neg, hk]
      rintro rfl
      rw [hl] at hk
      cases hk
    · intro h k v hk
      split_ifs at hk with hkey
      · obtain rfl := Option.some.inj hk
        exact hkey ▸ hflag
      · exact h k v hk
  · exact Iff.rfl

/-- The page does not unwrap the values, so it shows its defaults, if anything. -/
theorem not_shows_index {lang : Js} {rt : Runtime} {amb : Ambient} {d : RpcData} {id : ℤ}
    {doc : Json} (hreply : ReadsBack lang.parse rt (replyDoc rt id doc)) :
    ¬ ShowsValues amb d (IndexHtml.startMonitoring
      (settledBy lang .indexHtml (jsonToString rt (replyDoc rt id doc)))) := by
  rw [settledBy_reply _ hreply]
  rcases utf16? (jsonToString rt doc) with _ | text
  · exact not_showsValues_nil
  · exact not_showsValues_defaults

/-- The admin panel shows the reply itself, if anything. -/
theorem not_shows_admin {lang : Js} {rt : Runtime} {amb : Ambient} {d : RpcData} {id : ℤ}
    {doc : Json} (hreply : ReadsBack lang.parse rt (replyDoc rt id doc)) :
    ¬ ShowsValues amb d (AdminPanel.loadSystemInfo
      (settledBy lang .clientJs (jsonToString rt (replyDoc rt id doc)))) := by
  rw [settledBy_reply _ hreply]
  rcases utf16? (jsonToString rt doc) with _ | text
  · exact not_showsValues_nil
  · exact not_showsValues_reply id text

/-- The metrics are a text, whatever they are. -/
theorem text_metricsDoc {lang : Js} {rt : Runtime} {amb : Ambient} {d : RpcData}
    (hdoc : ReadsBack lang.parse rt (metricsDoc amb d)) :
    ∃ text, utf16? (jsonToString rt (metricsDoc amb d)) = some text ∧ text ≠ []
      ∧ lang.parse text = some (metricsValue amb d) := by
  rcases ht : utf16? (jsonToString rt (metricsDoc amb d)) with _ | text
  · have hnone := hdoc.eq_none ht
    rw [toJs?_metricsDoc] at hnone
    cases hnone
  · exact ⟨text, rfl, text_ne_nil ht, by rw [hdoc.eq_of_text ht, toJs?_metricsDoc]⟩

/-- A client shows what the server returns exactly if it takes the reply apart as it was put
together and no name occurs in it twice. -/
theorem shows_iff (lang : Js) (rt : Runtime) (amb : Ambient) (clients : ℕ) (d : RpcData) (id : ℤ)
    (screen : Screen)
    (hdoc : ReadsBack lang.parse rt (screen.doc amb (updateMetrics rt amb clients d)))
    (hreply : ReadsBack lang.parse rt
      (replyDoc rt id (screen.doc amb (updateMetrics rt amb clients d)))) :
    screen.Shows amb (screen.result rt amb clients d).2 (screen.shows lang
        (settledBy lang screen.variant
          ((reply id (.ok (screen.result rt amb clients d).1)).bytes rt)))
      ↔ screen.Agrees d := by
  rw [Screen.result_eq, reply_eq, Message.bytes]
  generalize hd : updateMetrics rt amb clients d = d' at hdoc hreply
  cases screen with
  | indexValues => exact iff_of_false (not_shows_index hreply) fun h => h
  | indexMetrics =>
    obtain ⟨text, ht, -, hp⟩ := text_metricsDoc hdoc
    refine iff_of_true ?_ trivial
    simp only [Screen.Shows, Screen.shows, Screen.variant, settledBy_reply _ hreply]
    simp only [Screen.doc, ht]
    exact index_shows_metrics amb d' hp
  | monitoringValues =>
    rw [Screen.Agrees, ← plain_updateMetrics rt amb clients d, hd]
    exact monitoring_values_iff hdoc hreply
  | monitoringMetrics =>
    obtain ⟨text, ht, hne, hp⟩ := text_metricsDoc hdoc
    refine iff_of_false ?_ fun h => h
    simp only [Screen.Shows, Screen.shows, Screen.variant, settledBy_reply _ hreply]
    simp only [Screen.doc, ht, Variant.embedded, Bool.false_eq_true, if_false,
      monitoring_shows_defaults amb d' hne hp]
    exact not_showsMetrics_defaults amb d'
  | adminValues => exact iff_of_false (not_shows_admin hreply) fun h => h

/-! ## A server that holds one value -/

/-- `JSON.parse`, as far as two documents go. -/
def parseBoth (rt : Runtime) (a b : Json) (s : JsString) : Option JsValue :=
  if utf16? (jsonToString rt a) = some s then a.toJs?
  else if utf16? (jsonToString rt b) = some s then b.toJs? else none

theorem readsBack_parseBoth {rt : Runtime} {a b : Json} (ha : (utf16? (jsonToString rt a)).isSome)
    (hb : (utf16? (jsonToString rt b)).isSome) (hne : jsonToString rt a ≠ jsonToString rt b) :
    ReadsBack (parseBoth rt a b) rt a ∧ ReadsBack (parseBoth rt a b) rt b := by
  obtain ⟨s, hs⟩ := Option.isSome_iff_exists.1 ha
  obtain ⟨t, ht⟩ := Option.isSome_iff_exists.1 hb
  have hst : ¬ some s = some t := fun h => hne (utf16?_inj hs (ht.trans h.symm))
  constructor
  · rw [ReadsBack, hs, Option.bind_some, parseBoth, if_pos hs]
  · rw [ReadsBack, ht, Option.bind_some, parseBoth, hs, if_neg hst, if_pos ht]

def oneValue : RpcData := ⟨(∅ : Dict Bytes Bytes).insert (lit "chargingEnabled") (lit "false"),
  ⟨0, 230, 25, 0⟩, 0⟩

def atRest : Ambient := ⟨[], 0, 0, 0, 0, 0⟩

def oneValueDoc : Json := valuesDoc atRest (updateMetrics (.ofTable []) atRest 1 oneValue)

/-- The browser, for the reply to a request with id 1. -/
def browser : Js where
  parse := parseBoth (.ofTable []) oneValueDoc (replyDoc (.ofTable []) 1 oneValueDoc)
  parseText _ := none
  extract _ := .null

theorem readsBack_oneValue : ReadsBack browser.parse (.ofTable []) oneValueDoc
    ∧ ReadsBack browser.parse (.ofTable []) (replyDoc (.ofTable []) 1 oneValueDoc) :=
  readsBack_parseBoth (by decide +kernel) (by decide +kernel) (by decide +kernel)

/-- `monitoring.js` shows the one value and the metrics. -/
theorem monitoring_shows_oneValue :
    Screen.monitoringValues.Shows atRest
      (Screen.monitoringValues.result (.ofTable []) atRest 1 oneValue).2
      (Screen.monitoringValues.shows browser (settledBy browser .clientJs
        ((reply 1 (.ok (Screen.monitoringValues.result (.ofTable []) atRest 1 oneValue).1)).bytes
          (.ofTable [])))) := by
  refine (shows_iff browser (.ofTable []) atRest 1 oneValue 1 .monitoringValues
    readsBack_oneValue.1 readsBack_oneValue.2).2 ?_
  intro k v hk
  rw [oneValue, Dict.lookup_insert_eq] at hk
  split_ifs at hk with h
  · obtain rfl := Option.some.inj hk
    subst h
    refine ⟨by decide, ⟨?_, ?_⟩, by decide⟩
    · rw [utf16?_lit _ (by decide)]
      rfl
    · rw [utf16?_lit _ (by decide)]
      rfl
  · cases hk

/-- The page shows its defaults in place of the values. -/
theorem index_shows_defaults :
    ¬ Screen.indexValues.Shows atRest
      (Screen.indexValues.result (.ofTable []) atRest 1 oneValue).2
      (Screen.indexValues.shows browser (settledBy browser .indexHtml
        ((reply 1 (.ok (Screen.indexValues.result (.ofTable []) atRest 1 oneValue).1)).bytes
          (.ofTable [])))) := by
  have hdoc : Screen.indexValues.doc atRest (updateMetrics (.ofTable []) atRest 1 oneValue)
      = oneValueDoc := rfl
  rw [Screen.result_eq, reply_eq, Message.bytes, hdoc]
  simp only [Screen.Shows, Screen.shows]
  exact not_shows_index readsBack_oneValue.2

end Web

end OcppServer
