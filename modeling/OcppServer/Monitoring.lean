import OcppServer.RpcClient

/-!
# The monitoring clients

Three clients show the server's values and metrics: the page `web/client/index.html`, with a client
class and a `MonitoringSystem` of its own, `monitoring.js`, and the admin panel; the last two use
`client/js/rpc-client.js`. Each takes what the promise of its call was settled with and unwraps it
in its own way. Modelled is what `updateValue` is called with, name by name, or what the panel puts
into its table; a promise that is not settled shows nothing.
-/

namespace OcppServer

namespace Web

/-- What is shown under a name: a value, or a number with a fixed number of digits. -/
inductive Shown where
  | value (v : JsValue)
  | fixed (digits : ℕ) (x : JsValue)

abbrev Shows := List (JsString × Shown)

/-- What the clients call of the language. -/
structure Js where
  /-- `JSON.parse`; it has no value where that throws. -/
  parse : JsString → Option JsValue
  /-- `parseFloat` of what is no number; no value is `NaN`. -/
  parseText : JsValue → Option JsValue
  /-- `extractMetricsFromString`, for a text that `JSON.parse` rejects. -/
  extract : JsString → JsValue

def Js.parseFloat (lang : Js) : JsValue → Option JsValue
  | .num x => some (.num x)
  | .infinity negative => some (.infinity negative)
  | v => lang.parseText v

/-- `Object.entries` of an object or an array; nothing else shown has any. -/
def entries : JsValue → Option (List (JsString × JsValue))
  | .obj members => some members
  | .arr elems => some (elems.zipIdx.map fun e => (js (toString e.2), e.1))
  | _ => none

/-- A number of fields shown in turn, until one throws. -/
def showFields {φ : Type} (field : φ → Option (JsString × Shown)) (caught rest : Shows) :
    List φ → Shows
  | [] => rest
  | f :: fs => match field f with
    | none => caught
    | some s => s :: showFields field caught rest fs

/-! ## The page -/

namespace IndexHtml

def defaultValues : Shows :=
  [(js "currentPower", .value (.num 0)), (js "voltage", .value (.num 0)),
    (js "temperature", .value (.num 0)), (js "connectedClients", .value (.num 0)),
    (js "uptime", .value (.num 0)), (js "systemStatus", .value (.str (js "disconnected")))]

/-- With the answer to `getValues`. -/
def startMonitoring : Promise → Shows
  | .pending => []
  | .resolved (some values) => match entries values with
    | some members => members.map fun e => (e.1, .value e.2)
    | none => defaultValues
  | .resolved none | .rejected => defaultValues

variable (lang : Js)

/-- A digit, a point or a minus sign. -/
def isNumeric (u : UInt16) : Bool := 48 ≤ u ∧ u ≤ 57 ∨ u = 46 ∨ u = 45

/-- The default is zero; without a value it throws. -/
def getSafeNumber : Option JsValue → Option JsValue
  | none | some .null => some (.num 0)
  | some (.str s) =>
    let numericString := s.filter isNumeric
    if numericString = [] then some (.num 0)
    else some ((lang.parseFloat (.str numericString)).getD (.num 0))
  | some v => if v.toStringThrows then none else some ((lang.parseFloat v).getD (.num 0))

def processMetricsResponse : Option JsValue → JsValue
  | some (.str s) => (lang.parse s).getD (lang.extract s)
  | some (.arr elems) => .arr elems
  | some (.obj members) => .obj members
  | some .null | none => .obj []
  | some metrics => .obj [(js "value", metrics)]

/-- The metrics and their digits, where they have any. -/
def fields : List (JsString × Option ℕ) :=
  [(js "currentPower", some 2), (js "voltage", some 1), (js "temperature", some 1),
    (js "connectedClients", none), (js "uptime", none)]

def processMetrics (metrics : JsValue) : Shows :=
  match metrics.get? (js "result") with
  | none | some .null => defaultValues
  | some result =>
    let status := match metrics.get? (js "systemStatus") with
      | some status => if status.truthy then [(js "systemStatus", .value status)] else []
      | none => []
    showFields (fun f => (getSafeNumber lang (result.get? f.1)).map fun x => (f.1, match f.2 with
      | some digits => .fixed digits x
      | none => .value x)) defaultValues status fields

/-- With the answer to `getMetrics`. -/
def updateMetrics : Promise → Shows
  | .pending => []
  | .resolved metrics => processMetrics lang (processMetricsResponse lang metrics)
  | .rejected => processMetrics lang (.obj [])

end IndexHtml

/-! ## `monitoring.js` -/

namespace MonitoringJs

variable (lang : Js)

/-- What `updateValue` keeps. -/
def kept : JsValue → Shown
  | .null => .value (.str (js "N/A"))
  | v => .value v

/-- With the answer to `getValues`. The RPC client resolves no call with a string, so the branch
for one is left out. -/
def startMonitoring : Promise → Shows
  | .resolved (some response) =>
    let values := match response.get? (js "result") with
      | some (.str s) => lang.parse s
      | _ => some response
    match values.bind entries with
    | some members => members.map fun e => (e.1, kept e.2)
    | none => []
  | _ => []

/-- A metric, its default, and whether it goes through `parseFloat`. -/
structure Field where
  name : JsString
  default : JsString
  parsed : Bool

def fields : List Field :=
  [⟨js "currentPower", js "0.00", true⟩, ⟨js "voltage", js "0.0", true⟩,
    ⟨js "temperature", js "0.0", true⟩, ⟨js "connectedClients", js "0", false⟩,
    ⟨js "uptime", js "0", false⟩]

def defaults : Shows := fields.map fun f => (f.name, .value (.str f.default))

/-- A field, or its default; `parseFloat` may throw. -/
def showField (metricsData : JsValue) (f : Field) : Option (JsString × Shown) :=
  match metricsData.get? f.name with
  | none | some .null => some (f.name, .value (.str f.default))
  | some v =>
    if f.parsed = false then some (f.name, .value v)
    else if v.toStringThrows then none
    else some (f.name, .value ((lang.parseFloat v).getD (.str f.default)))

/-- The `result`, parsed if that works, or else the response. -/
def metricsData (response : JsValue) : JsValue :=
  match response.get? (js "result") with
  | some (.str s) => if s = [] then response else (lang.parse s).getD (.str s)
  | some result => if result.truthy then result else response
  | none => response

/-- With the answer to `getMetrics`. -/
def updateMetrics : Promise → Shows
  | .pending | .resolved none => []
  | .rejected => defaults
  | .resolved (some response) =>
    if (entries response).isNone then [] else
    let data := metricsData lang response
    if (entries data).isNone then defaults
    else showFields (showField lang data) defaults [] fields

end MonitoringJs

/-! ## The admin panel -/

namespace AdminPanel

/-- The rows `displaySystemInfo` makes; a value that does not convert to a string leaves none. -/
def displaySystemInfo (values : JsValue) : Shows :=
  match entries values with
  | none => []
  | some members =>
    if members.any fun e => e.2.toStringThrows then []
    else members.map fun e => (e.1, .value e.2)

/-- With the answer to `getValues`. -/
def loadSystemInfo : Promise → Shows
  | .resolved (some values) => displaySystemInfo values
  | _ => []

end AdminPanel

end Web

end OcppServer
