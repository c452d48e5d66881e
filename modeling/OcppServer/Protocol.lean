import OcppServer.Spec

/-!
# Requests and replies

What a message has to be to count as a request, what each method asks of its parameters, and what
every reply looks like. The text of a message and its JSON strings are read up to the first NUL,
and the first of duplicate members is taken.
-/

namespace OcppServer

namespace Json

def HasString (j : Json) (name : Bytes) : Prop := ∃ s, j.find? name = some (.string s)

def HasInt (j : Json) (name : Bytes) : Prop := ∃ n, j.find? name = some (.int n) ∧ IsInt32 n

end Json

/-- The message is a JSON object with a string `jsonrpc`, a string `method` and a 32-bit integer
`id`. Without `params` the parameters are an empty object. -/
def IsRequest (rt : Runtime) (message method : Bytes) (id : ℤ) (params : Json) : Prop :=
  ∃ members m, rt.parse (cstr message) = .ok (.object members)
    ∧ (Json.object members).HasString (lit "jsonrpc")
    ∧ members.lookup (lit "method") = some (.string m) ∧ method = cstr m
    ∧ members.lookup (lit "id") = some (.int id) ∧ Json.IsInt32 id
    ∧ params = (members.lookup (lit "params")).getD (.object [])

/-- The methods there are, and what each asks of its parameters. -/
def checks : List (Bytes × (Dict Bytes Bytes → Json → Prop)) :=
  [(lit "getValue", fun values params =>
      ∃ key, params.find? (lit "key") = some (.string key) ∧ cstr key ∈ values),
    (lit "GetStations", fun _ _ => True),
    (lit "GetStationStatus", fun _ params => params.HasString (lit "station_id")),
    (lit "GetConnectorStatus", fun _ params =>
      params.HasString (lit "station_id") ∧ params.HasInt (lit "connector_id")),
    (lit "setValue", fun _ params =>
      params.HasString (lit "key") ∧ ∃ value, params.find? (lit "value") = some value),
    (lit "getValues", fun _ _ => True),
    (lit "getMetrics", fun _ _ => True),
    (lit "ping", fun _ _ => True),
    (lit "startCharging", fun _ _ => True),
    (lit "stopCharging", fun _ _ => True),
    (lit "resetSystem", fun _ _ => True),
    (lit "setMaxPower", fun _ params =>
      ∃ n, params.find? (lit "value") = some (.int n) ∧ 1 ≤ n ∧ n ≤ 100)]

/-- A method there is, with parameters that pass its check. -/
def Accepted (values : Dict Bytes Bytes) (method : Bytes) (params : Json) : Prop :=
  ∃ check, checks.lookup method = some check ∧ check values params

/-- The reply to a message: JSON-RPC 2.0 with the request's id, or -1 without one, and an `error`
exactly when there is no request that is accepted, otherwise a `result`. -/
def IsReply (rt : Runtime) (values : Dict Bytes Bytes) (message : Bytes) (reply : Message) :
    Prop :=
  ∃ id name text,
    reply = .json (.object [(lit "jsonrpc", .string (lit "2.0")), (lit "id", .int id),
      (name, .string text)])
    ∧ (name = lit "result" ∨ name = lit "error")
    ∧ (∀ method i params, IsRequest rt message method i params → id = i)
    ∧ ((¬ ∃ method i params, IsRequest rt message method i params) → id = -1)
    ∧ (name = lit "error" ↔ ¬ ∃ method i params, IsRequest rt message method i params
        ∧ Accepted values method params)

/-- A message delivered whole on connection `c` leaves by no exception, so the fallback is not
run, and queues some notifications to every connection and then one reply to `c`. -/
def AnsweredOnce (rt : Runtime) (handler : Option WebServer.MessageHandler) (sys : System) (c : ℤ)
    (amb : Ambient) (message : Bytes) : Prop :=
  ∃ (p : SharedPtr WebSocketConnection) (sys' : System) (changes : List (Bytes × Bytes))
    (reply : Message), sys.server.connections.lookup c = some p
    ∧ sys.step rt handler (.receive p.obj.wsi amb message) = some sys'
    ∧ sys.server.handleRpcMessage rt amb c message = (.ok (), sys'.server)
    ∧ (∀ j, sys'.server.connections.lookup j = (sys.server.connections.lookup j).map
        (.map (.sendAll rt (changes.map valueChanged ++ if j = c then [reply] else []))))
    ∧ IsReply rt sys.server.data.values message reply

end OcppServer
