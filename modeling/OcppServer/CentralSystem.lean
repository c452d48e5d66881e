import OcppServer.RpcClient

/-!
# The page of the central system

`CentralSystem` of the web application, the class behind its page: two selection lists, a panel for
the station and one for a connector, and buttons that send commands. Its handlers are asynchronous,
so each comes in two parts: the request it makes, and what it does with the answer. Of a request
that fails a line in the log remains. The panels hold the values shown, not the texts made of them.
-/

namespace OcppServer

/-- `data[name]`, for data that was parsed. -/
def EventData.member? (name : JsString) : EventData → Option JsValue
  | .value v => v.get? name
  | _ => none

namespace Web

/-- A call of the page whose answer it makes use of. -/
inductive Request where
  | getStations
  | getStationStatus (stationId : JsString)
  | getConnectorStatus (stationId : Option JsString) (connectorId : ℤ)
  deriving DecidableEq

structure ConnectorData where
  type : JsString
  status : JsString
  meter : Option ℚ
  power : Option ℚ

/-- The connectors come with their ids. -/
structure StationData where
  status : JsString
  connectors : Option (List (ℤ × ConnectorData))
  maxPower : Option ℚ

/-- What the server answers to a request of either kind; an error is no answer. -/
structure Answers where
  stations : Option (List JsString) := none
  station : Option StationData := none
  connector : Option ConnectorData := none

structure StationPanel where
  status : JsString := []
  connectorsCount : ℕ := 0
  maxPower : Option ℚ := none

/-- `shown` is history: the station and the connector whose data was shown last; `statusWrites`
counts the times the status was written. -/
structure ConnectorPanel where
  type : JsString := []
  status : Option JsValue := none
  meter : Option ℚ := none
  power : Option ℚ := none
  shown : Option (Option JsString × ℤ) := none
  statusWrites : ℕ := 0

/-- `requests` is history, `outstanding` what of it was not answered yet. -/
structure CentralSystem where
  currentStation : Option JsString := none
  currentConnector : Option ℤ := none
  connectionStatus : Bool := false
  stationOptions : List JsString := []
  connectorOptions : List ℤ := []
  selectedConnector : Option ℤ := none
  station : StationPanel := {}
  connector : ConnectorPanel := {}
  requests : List Request := []
  outstanding : List Request := []

/-- A call made by a button of the connector panel. -/
structure Command where
  method : JsString
  stationId : JsString
  connectorId : Option ℤ
  deriving DecidableEq

inductive PageEvent where
  /-- The user picks an option of a selection list. -/
  | selectStation (value : JsString)
  | selectConnector (value : ℤ)
  /-- The first outstanding request is answered. -/
  | reply (answers : Answers)
  /-- The RPC client emits an event. -/
  | emitted (event : JsValue) (data : EventData)

namespace CentralSystem

def request (r : Request) (page : CentralSystem) : CentralSystem :=
  { page with requests := page.requests ++ [r], outstanding := page.outstanding ++ [r] }

/-! ## What is shown -/

def updateStationDropdown (stations : List JsString) (page : CentralSystem) : CentralSystem :=
  { page with stationOptions := stations }

/-- Whatever is no string has no `toUpperCase`, and throws. -/
def updateStationStatus (status : Option JsValue) (page : CentralSystem) :
    Except CentralSystem CentralSystem :=
  match status with
  | some (.str s) => .ok { page with station := { page.station with status := s } }
  | _ => .error page

/-- Throws if the status does not convert to a string. -/
def updateConnectorStatus (status : Option JsValue) (page : CentralSystem) : CentralSystem :=
  if (status.map JsValue.toStringThrows).getD false then page
  else { page with connector := { page.connector with
    status := status
    statusWrites := page.connector.statusWrites + 1 } }

/-- A maximal power of zero counts as none. -/
def updateStationInfo (data : StationData) (page : CentralSystem) : CentralSystem :=
  { page with station := {
    status := data.status
    connectorsCount := (data.connectors.map List.length).getD page.station.connectorsCount
    maxPower := if data.maxPower = none ∨ data.maxPower = some 0 then page.station.maxPower
      else data.maxPower } }

def updateConnectorsDropdown (connectors : Option (List (ℤ × ConnectorData)))
    (page : CentralSystem) : CentralSystem :=
  { page with connectorOptions := (connectors.getD []).map Prod.fst, selectedConnector := none }

/-- `of` is whose data it is. -/
def updateConnectorInfo (of : Option JsString × ℤ) (data : ConnectorData) (page : CentralSystem) :
    CentralSystem :=
  let page := { page with connector := { page.connector with type := data.type, shown := some of } }
  let page := page.updateConnectorStatus (some (.str data.status))
  { page with connector := { page.connector with
    meter := data.meter.orElse fun _ => page.connector.meter
    power := data.power.orElse fun _ => page.connector.power } }

/-! ## The selections -/

def loadStationsList (page : CentralSystem) : CentralSystem := page.request .getStations

/-- What a reply wraps: of a text that `JSON.parse` rejects it is the text, and a reply without a
result wraps itself. -/
def parseResponse (parse : JsString → Option JsValue) (response : JsValue) : JsValue :=
  match response.get? (js "result") with
  | some result =>
    if result.truthy then
      match result with
      | .str s => (parse s).getD (.str s)
      | _ => result
    else response
  | none => response

/-- The member `loadStationsList` reads of the answer to its request. -/
def stationsOf (parse : JsString → Option JsValue) (response : JsValue) : Option JsValue :=
  (parseResponse parse response).get? (js "stations")

/-- `connected` is that of the RPC client. -/
def loadInitialData (connected : Bool) (page : CentralSystem) : CentralSystem :=
  if connected then page.loadStationsList else page

/-- The page as it is constructed. -/
def init (connected : Bool) : CentralSystem := CentralSystem.loadInitialData connected {}

def handleStationChange (stationId : JsString) (page : CentralSystem) : CentralSystem :=
  page.request (.getStationStatus stationId)

/-- The rest of `handleStationChange`, which shows the first connector. -/
def stationChanged (stationId : JsString) (data : StationData) (page : CentralSystem) :
    CentralSystem :=
  let page := { page with currentStation := some stationId }
  let page := (page.updateStationInfo data).updateConnectorsDropdown data.connectors
  match data.connectors with
  | some (first :: _) =>
    CentralSystem.updateConnectorInfo (some stationId, first.1) first.2
      { page with selectedConnector := some first.1 }
  | _ => page

def handleConnectorChange (connectorId : ℤ) (page : CentralSystem) : CentralSystem :=
  page.request (.getConnectorStatus page.currentStation connectorId)

/-- The rest of `handleConnectorChange`; the station is that of the request. -/
def connectorChanged (stationId : Option JsString) (connectorId : ℤ) (data : ConnectorData)
    (page : CentralSystem) : CentralSystem :=
  CentralSystem.updateConnectorInfo (stationId, connectorId) data
    { page with currentConnector := some connectorId }

/-- What a request's handler does with the answer. -/
def answered (r : Request) (answers : Answers) (page : CentralSystem) : CentralSystem :=
  match r with
  | .getStations => match answers.stations with
    | some stations => page.updateStationDropdown stations
    | none => page
  | .getStationStatus stationId => match answers.station with
    | some data => page.stationChanged stationId data
    | none => page
  | .getConnectorStatus stationId connectorId => match answers.connector with
    | some data => page.connectorChanged stationId connectorId data
    | none => page

/-! ## The commands -/

/-- A command for the current connector, unless `validateCurrentStation` refuses it. -/
def connectorCommand (method : JsString) (page : CentralSystem) : Option Command :=
  match page.currentStation with
  | some stationId =>
    if stationId = [] then none else some ⟨method, stationId, page.currentConnector⟩
  | none => none

def requestStartTransaction (page : CentralSystem) : Option Command :=
  page.connectorCommand (js "RequestStartTransaction")

def requestStopTransaction (page : CentralSystem) : Option Command :=
  page.connectorCommand (js "RequestStopTransaction")

def unlockConnector (page : CentralSystem) : Option Command :=
  page.connectorCommand (js "UnlockConnector")

/-! ## The events of the RPC client -/

/-- `data.station_id === this.current_station` -/
def isCurrentStation (stationId : Option JsValue) (page : CentralSystem) : Bool :=
  match stationId, page.currentStation with
  | some .null, none => true
  | some (.str s), some t => s = t
  | _, _ => false

/-- There is no `this.connector_id`, so only a notification without a `connector_id` compares
equal to it. -/
def handleStatusNotification (data : EventData) (page : CentralSystem) : CentralSystem :=
  if page.isCurrentStation (data.member? (js "station_id")) then
    match page.updateStationStatus (data.member? (js "status")) with
    | .error page => page
    | .ok page =>
      if (data.member? (js "connector_id")).isNone then
        page.updateConnectorStatus (data.member? (js "connectorStatus"))
      else page
  else page

/-- The handlers `setupRpcHandlers` registers; an exception in one is caught. Those of `MeterValues`
and `Heartbeat` select nothing and show no status. -/
def handle (event : JsValue) (data : EventData) (page : CentralSystem) : CentralSystem :=
  match event with
  | .str name =>
    if name = js "connected" then
      CentralSystem.loadStationsList { page with connectionStatus := true }
    else if name = js "disconnected" then { page with connectionStatus := false }
    else if name = js "StatusNotification" then page.handleStatusNotification data
    else page
  | _ => page

/-- One event. An option can be picked if it is there, and the empty one is ignored. -/
def step (page : CentralSystem) : PageEvent → CentralSystem
  | .selectStation value =>
    if value ∈ page.stationOptions ∧ value ≠ [] then page.handleStationChange value else page
  | .selectConnector value =>
    if value ∈ page.connectorOptions then
      CentralSystem.handleConnectorChange value { page with selectedConnector := some value }
    else page
  | .reply answers =>
    match page.outstanding with
    | [] => page
    | r :: rest => CentralSystem.answered r answers { page with outstanding := rest }
  | .emitted event data => page.handle event data

end CentralSystem

end Web

end OcppServer
