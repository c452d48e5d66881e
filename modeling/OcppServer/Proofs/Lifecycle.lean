import OcppServer.Callbacks
import OcppServer.JsonParse
import OcppServer.Proofs.Calls
import OcppServer.Proofs.Page
import OcppServer.Proofs.Reconnect
import OcppServer.Spec

/-!
# Life-cycle events and notifications

The client emits `connected` and `disconnected` for its sockets, and for a notification whatever
method it names, under one set of names. An event adds to the log what it emits of its own and, if
a notification comes, one event more (`news`). So the counts agree exactly as long as no
notification bears one of the two names, and the welcome of every session does.
-/

namespace OcppServer

/-- `value === name` -/
def JsValue.isStr (name : JsString) : JsValue → Bool
  | .str s => s = name
  | _ => false

theorem JsValue.isStr_iff (name : JsString) (value : JsValue) :
    value.isStr name = true ↔ value = .str name := by
  cases value <;> simp [JsValue.isStr]

namespace Mark

def emission? : Mark → Option (JsValue × EventData)
  | emitted event data => some (event, data)
  | _ => none

/-- The event of that name is emitted. -/
def emits (name : JsString) : Mark → Bool
  | emitted event _ => event.isStr name
  | _ => false

def isClosed : Mark → Bool
  | closed => true
  | _ => false

end Mark

def Web.PageEvent.emission? : Web.PageEvent → Option (JsValue × EventData)
  | .emitted event data => some (event, data)
  | _ => none

namespace RPCClient

variable (parse : JsString → Option JsValue)

/-- A notification of that name comes on an open socket. -/
def Notified (name : JsString) (c : RPCClient) : ClientEvent → Prop
  | .onmessage k data => c.sockets[k]? = some .open ∧ ∃ message,
    parsed? parse .webJs data = some message ∧ c.pendingCall? message = none
      ∧ message.get? (js "method") = some (.str name)
  | _ => False

/-- The life-cycle events are those of the sockets, and the page that is constructed with the client
and hears them all asks for the stations once for each connection. -/
structure OwnLifecycle (c : RPCClient) : Prop where
  connected : c.log.countP (·.emits (js "connected")) = c.log.countP Mark.isOpened
  disconnected : c.log.countP (·.emits (js "disconnected")) = c.log.countP Mark.isClosed
  requested : ∀ events : List Web.PageEvent,
    events.filterMap Web.PageEvent.emission? = c.log.filterMap Mark.emission? →
    (events.foldl Web.CentralSystem.step (.init ({} : RPCClient).connected)).requests.count
      .getStations = c.log.countP Mark.isOpened

/-! ## What an event adds to the log -/

/-- What a parsed message adds. -/
def heard (message : JsValue) (c : RPCClient) : List Mark :=
  if (c.pendingCall? message).isSome then [] else
  match message.get? (js "method") with
  | some method =>
    if method.truthy then
      [.emitted method (match message.get? (js "params") with
        | some params => .value params
        | none => .undefined)]
    else []
  | none => []

/-- What the data of a message add. -/
def delivered (data : JsString) (c : RPCClient) : List Mark :=
  match parse data with
  | none => []
  | some message => match reading parse .webJs message with
    | none => [.emitted (.str (js "message")) (.value message)]
    | some message => c.heard message

def news (c : RPCClient) : ClientEvent → List Mark
  | .connect constructed => .connectCalled :: if constructed then [.created .app] else []
  | .disconnect => [.disconnectCalled]
  | .onopen k =>
    if c.sockets[k]? = some .connecting then
      [.opened, .emitted (.str (js "connected")) .undefined]
    else []
  | .onmessage k data => if c.sockets[k]? = some .open then c.delivered parse data else []
  | .onclose k =>
    if c.sockets[k]? = none ∨ c.sockets[k]? = some .closed then []
    else [.closed, .emitted (.str (js "disconnected")) .undefined]
  | .onerror k => if k < c.sockets.length then [.emitted (.str (js "error")) .error] else []
  | .timer constructed => if c.timers = 0 ∨ constructed = false then [] else [.created .auto]
  | _ => []

theorem log_handleParsed (message : JsValue) (c : RPCClient) :
    (outcome (c.handleParsed .webJs message)).log = c.log ++ c.heard message := by
  unfold handleParsed heard
  split
  · simp [outcome, pendingCall?, JsValue.get?]
  rcases hp : c.pendingCall? _ with _ | ⟨id, i⟩
  · simp only [Option.isSome_none, Bool.false_eq_true, if_false]
    rcases JsValue.get? (js "method") _ with _ | method
    · simp [outcome]
    · dsimp only
      split_ifs
      · rfl
      · simp [outcome]
  · simp only [Option.isSome_some, if_true, List.append_nil]
    split_ifs <;> rfl

theorem log_onmessage (data : JsString) (c : RPCClient) :
    (c.onmessage parse .webJs data).log = c.log ++ c.delivered parse data := by
  unfold onmessage delivered
  rw [if_neg (by simp [Variant.embedded])]
  rcases parse data with _ | message
  · simp [caught, Variant.embedded]
  have hlog : (outcome (c.handleMessage parse .webJs message)).log
      = c.log ++ match reading parse .webJs message with
        | none => [.emitted (.str (js "message")) (.value message)]
        | some message => c.heard message := by
    rcases handleMessage_cases parse .webJs message c with ⟨m, hr, h⟩ | ⟨hr, h⟩
    · rw [h, hr]
      exact log_handleParsed m c
    · rw [h, hr]
      rfl
  dsimp only
  rcases hm : c.handleMessage parse .webJs message with c' | c'
  · rw [hm] at hlog
    exact hlog
  · rw [hm] at hlog
    exact hlog

theorem log_step (c : RPCClient) (e : ClientEvent) :
    (c.step parse .webJs e).log = c.log ++ c.news parse e := by
  cases e with
  | connect constructed =>
    cases constructed <;> simp [step, connect, news, note, Variant.embedded]
  | disconnect =>
    simp only [step, news]
    rcases disconnect_eq (c.note .disconnectCalled) with ⟨-, h⟩ | ⟨k, -, h⟩
    · rw [h]
      rfl
    · rcases close_eq k (c.note .disconnectCalled).halted with ⟨h', -⟩ | ⟨-, -, h'⟩ <;>
        rw [h, h'] <;> rfl
  | call stringified sendFails =>
    simp only [step, news, List.append_nil]
    exact log_call .webJs stringified sendFails c
  | setRPCEnabled enabled => simp [step, setRPCEnabled, news, Variant.embedded]
  | onopen k =>
    simp only [step, news]
    split_ifs
    · simp [onopen, emit, note, setSocket]
    · simp
  | onmessage k data =>
    simp only [step, news]
    split_ifs
    · exact log_onmessage parse data c
    · simp
  | onclose k =>
    simp only [step, news]
    split
    · rename_i hk
      simp [hk]
    · rename_i hk
      simp [hk]
    · rename_i hnone hclosed
      rw [if_neg (not_or.2 ⟨hnone, hclosed⟩)]
      simp [onclose, handleReconnect, Variant.reconnects, emit, note, setSocket]
  | onerror k =>
    simp only [step, news]
    split_ifs
    · simp [emit, note]
    · simp
  | timer constructed =>
    simp only [step, news]
    by_cases ht : c.timers = 0
    · simp [ht]
    · cases constructed <;> simp [ht, connect, note, Variant.embedded]

/-! ## Counting -/

/-- A notification adds one event under its name, and nothing else a message does adds one. -/
theorem countP_heard (name : JsString) (hname : name ≠ []) (message : JsValue) (c : RPCClient) :
    ∃ n, (c.heard message).countP (·.emits name) = n
      ∧ (n = 0 ↔ ¬ (c.pendingCall? message = none
        ∧ message.get? (js "method") = some (.str name)))
      ∧ (c.heard message).countP Mark.isOpened = 0
      ∧ (c.heard message).countP Mark.isClosed = 0 := by
  refine ⟨_, rfl, ?_⟩
  unfold heard
  rcases c.pendingCall? message with _ | p
  · simp only [Option.isSome_none, Bool.false_eq_true, if_false, true_and]
    rcases message.get? (js "method") with _ | method
    · simp
    · dsimp only
      split_ifs with ht
      · simp [Mark.emits, Mark.isOpened, Mark.isClosed, JsValue.isStr_iff]
      · -- The method that is not truthy is not the name.
        have hne : method ≠ .str name := by
          rintro rfl
          exact ht (by simp [JsValue.truthy, hname])
        simp [hne]
  · simp

/-- What the client emits of its own accord tells of a socket. -/
theorem countP_own (c : RPCClient) {e : ClientEvent} (he : ∀ k data, e ≠ .onmessage k data) :
    (c.news parse e).countP (·.emits (js "connected")) = (c.news parse e).countP Mark.isOpened
      ∧ (c.news parse e).countP (·.emits (js "disconnected"))
        = (c.news parse e).countP Mark.isClosed := by
  cases e with
  | onmessage k data => exact absurd rfl (he k data)
  | connect constructed => cases constructed <;> exact ⟨rfl, rfl⟩
  | onopen k =>
    simp only [news]
    split_ifs <;> decide
  | onclose k =>
    simp only [news]
    split_ifs <;> decide
  | onerror k =>
    simp only [news]
    split_ifs <;> decide
  | timer constructed =>
    simp only [news]
    split_ifs <;> exact ⟨rfl, rfl⟩
  | _ => exact ⟨rfl, rfl⟩

theorem onmessage_of_notified {name : JsString} {c : RPCClient} {e : ClientEvent}
    (h : Notified parse name c e) : ∃ k data, e = .onmessage k data := by
  cases e with
  | onmessage k data => exact ⟨k, data, rfl⟩
  | _ => exact h.elim

/-- So does an event of the client: it emits a life-cycle event for what happens to a socket, and
one more for a notification. -/
theorem countP_news (c : RPCClient) (e : ClientEvent) :
    (∃ n, (c.news parse e).countP (·.emits (js "connected"))
        = (c.news parse e).countP Mark.isOpened + n
      ∧ (n = 0 ↔ ¬ Notified parse (js "connected") c e))
    ∧ ∃ n, (c.news parse e).countP (·.emits (js "disconnected"))
        = (c.news parse e).countP Mark.isClosed + n
      ∧ (n = 0 ↔ ¬ Notified parse (js "disconnected") c e) := by
  by_cases he : ∃ k data, e = .onmessage k data
  · obtain ⟨k, data, rfl⟩ := he
    simp only [news, Notified]
    split_ifs with hk
    · simp only [delivered, parsed?, hk, true_and]
      rcases parse data with _ | message
      · simp
      dsimp only
      rw [Option.bind_some]
      rcases reading parse .webJs message with _ | message
      · refine ⟨⟨0, ?_, ?_⟩, 0, ?_, ?_⟩ <;>
          simp [Mark.emits, Mark.isOpened, Mark.isClosed, JsValue.isStr] <;> decide
      · obtain ⟨m, hm, hm0, ho, -⟩ := countP_heard (js "connected") (by decide) message c
        obtain ⟨n, hn, hn0, -, hc⟩ := countP_heard (js "disconnected") (by decide) message c
        refine ⟨⟨m, by rw [hm, ho, Nat.zero_add], ?_⟩, n, by rw [hn, hc, Nat.zero_add], ?_⟩
        · simpa using hm0
        · simpa using hn0
    · simp [hk]
  · have hquiet : ∀ name, ¬ Notified parse name c e := fun _ h => he (onmessage_of_notified parse h)
    obtain ⟨hc, hd⟩ := countP_own parse c fun k data h => he ⟨k, data, h⟩
    exact ⟨⟨0, hc, iff_of_true rfl (hquiet _)⟩, 0, hd, iff_of_true rfl (hquiet _)⟩

/-- Every socket's events are emitted. -/
structure Emitted (c : RPCClient) : Prop where
  connected : c.log.countP Mark.isOpened ≤ c.log.countP (·.emits (js "connected"))
  disconnected : c.log.countP Mark.isClosed ≤ c.log.countP (·.emits (js "disconnected"))

/-- The counts agree. -/
def Balanced (c : RPCClient) : Prop :=
  c.log.countP (·.emits (js "connected")) = c.log.countP Mark.isOpened
    ∧ c.log.countP (·.emits (js "disconnected")) = c.log.countP Mark.isClosed

/-- No notification of a life-cycle event comes. -/
def Unnotified (c : RPCClient) (e : ClientEvent) : Prop :=
  ¬ Notified parse (js "connected") c e ∧ ¬ Notified parse (js "disconnected") c e

theorem Emitted.step {c : RPCClient} (h : Emitted c) (e : ClientEvent) :
    Emitted (c.step parse .webJs e) := by
  obtain ⟨⟨m, hm, -⟩, n, hn, -⟩ := countP_news parse c e
  have := h.connected
  have := h.disconnected
  refine ⟨?_, ?_⟩ <;> rw [log_step, List.countP_append, List.countP_append] <;> omega

theorem emitted_init : Emitted {} := ⟨le_refl 0, le_refl 0⟩

theorem balanced_step {c : RPCClient} (h : Emitted c) (e : ClientEvent) :
    Balanced (c.step parse .webJs e) ↔ Balanced c ∧ Unnotified parse c e := by
  obtain ⟨⟨m, hm, hm0⟩, n, hn, hn0⟩ := countP_news parse c e
  have := h.connected
  have := h.disconnected
  unfold Unnotified Balanced
  rw [← hm0, ← hn0, log_step, List.countP_append, List.countP_append, List.countP_append,
    List.countP_append]
  omega

/-! ## The page -/

theorem connects_iff (e : Web.PageEvent) : Web.CentralSystem.Connects e
    ↔ e.emission?.toList.countP (fun d => d.1.isStr (js "connected")) = 1 := by
  unfold Web.CentralSystem.Connects
  cases e with
  | emitted event data =>
    rw [Web.PageEvent.emission?, Option.toList_some, List.countP_singleton]
    split_ifs with h
    · obtain rfl : event = .str (js "connected") := (JsValue.isStr_iff _ _).1 h
      exact iff_of_true ⟨data, rfl⟩ rfl
    · refine iff_of_false ?_ (by decide)
      rintro ⟨_, he⟩
      exact h ((JsValue.isStr_iff _ _).2 (Web.PageEvent.emitted.inj he).1)
  | _ => simp [Web.PageEvent.emission?]

/-- The page asks for the stations on `connected`, and on nothing else. -/
theorem getStations_step (page : Web.CentralSystem) (e : Web.PageEvent) :
    (page.step e).requests.count .getStations = page.requests.count .getStations
      + e.emission?.toList.countP fun d => d.1.isStr (js "connected") := by
  have hone : e.emission?.toList.countP (fun d => d.1.isStr (js "connected")) ≤ 1 :=
    List.countP_le_length.trans (by cases e.emission? <;> simp)
  have hconnects := connects_iff e
  have hturn := page.turn e
  generalize page.step e = page' at hturn ⊢
  cases hturn with
  | kept he _ _ hc =>
    rw [hconnects] at he
    rw [(Web.CentralSystem.calls_eq hc).1]
    omega
  | @asked _ _ r he _ _ _ hc =>
    rw [hconnects] at he
    rw [(Web.CentralSystem.calls_eq hc).1, Web.CentralSystem.request, List.count_append,
      List.count_singleton]
    split_ifs with hr
    · rw [he.1 (by simpa using hr)]
    · have : ¬ r = .getStations := by simpa using hr
      rw [he] at this
      omega
  | answered ho =>
    rw [(Web.CentralSystem.calls_eq (Web.CentralSystem.calls_answered _ _ _)).1]
    rfl

theorem getStations_run (events : List Web.PageEvent) (page : Web.CentralSystem) :
    (events.foldl Web.CentralSystem.step page).requests.count .getStations
      = page.requests.count .getStations
        + (events.filterMap Web.PageEvent.emission?).countP
          fun d => d.1.isStr (js "connected") := by
  induction events generalizing page with
  | nil => simp
  | cons e events ih =>
    rw [List.foldl_cons, ih, getStations_step]
    rcases he : e.emission? with _ | d
    · simp [he]
    · rw [List.filterMap_cons_some he, List.countP_cons, Option.toList_some, List.countP_singleton]
      omega

theorem countP_emission (log : List Mark) (name : JsString) :
    (log.filterMap Mark.emission?).countP (fun d => d.1.isStr name)
      = log.countP (·.emits name) := by
  rw [List.countP_filterMap]
  refine List.countP_congr fun m _ => ?_
  cases m <;> simp [Mark.emission?, Mark.emits]

/-- The page that hears the client asks for the stations as often as `connected` is emitted. -/
theorem getStations_heard {log : List Mark} {events : List Web.PageEvent}
    (h : events.filterMap Web.PageEvent.emission? = log.filterMap Mark.emission?) :
    (events.foldl Web.CentralSystem.step (.init ({} : RPCClient).connected)).requests.count
      .getStations = log.countP (·.emits (js "connected")) := by
  rw [getStations_run, h, countP_emission]
  exact Nat.zero_add _

theorem ownLifecycle_iff (c : RPCClient) : OwnLifecycle c ↔ Balanced c := by
  constructor
  · exact fun h => ⟨h.connected, h.disconnected⟩
  · rintro ⟨hc, hd⟩
    exact ⟨hc, hd, fun events h => (getStations_heard h).trans hc⟩

/-- In every run of the client the life-cycle events are its sockets' own, and the page asks for
the stations once for each connection, exactly if no notification of a life-cycle event comes. -/
theorem lifecycle_iff (events : List ClientEvent) :
    OwnLifecycle (run parse .webJs events)
      ↔ Runs.Throughout (step parse .webJs) (Unnotified parse) {} events := by
  rw [ownLifecycle_iff, run, Runs.foldl_iff (step parse .webJs) (I := Emitted) (P := Balanced)
    (fun _ e h => balanced_step parse h e) (fun _ e h => h.step parse e) events emitted_init]
  exact and_iff_right ⟨rfl, rfl⟩

/-! ## What the server sends -/

theorem method_response (response : RpcResponse) :
    ∃ doc, serializeRpcResponse response = .json doc
      ∧ ∀ value, doc.toJs? = some value → (∃ members, value = .obj members)
        ∧ value.get? (js "method") = none := by
  refine ⟨_, rfl, fun value hv => ?_⟩
  split_ifs at hv
  · rw [toJs?_reply _ _ "error" (by decide)] at hv
    obtain ⟨text, -, rfl⟩ := Option.map_eq_some_iff.1 hv
    exact ⟨⟨_, rfl⟩, rfl⟩
  · rw [toJs?_reply _ _ "result" (by decide)] at hv
    obtain ⟨text, -, rfl⟩ := Option.map_eq_some_iff.1 hv
    exact ⟨⟨_, rfl⟩, rfl⟩

/-- Of what the server makes of a message, a notification is `valueChanged`. -/
theorem method_produced {e : Effect × ℤ} {own : Bool} {message : Message}
    (hm : message ∈ produced e own) : ∃ doc, message = .json doc
      ∧ ∀ value, doc.toJs? = some value → (∃ members, value = .obj members)
        ∧ ∀ name, value.get? (js "method") = some (.str name) → name = js "valueChanged" := by
  rcases List.mem_append.1 hm with hm | hm
  · obtain ⟨⟨key, val⟩, -, rfl⟩ := List.mem_map.1 hm
    refine ⟨_, rfl, fun value hv => ?_⟩
    simp (disch := decide) only [Json.toJs?, Json.membersToJs?, utf16?_lit, Option.map_some,
      Option.bind_some] at hv
    rcases hk : utf16? (cstr key) with _ | k <;> rw [hk] at hv
    · cases hv
    rcases ht : utf16? (cstr val) with _ | t <;> rw [ht] at hv
    · cases hv
    obtain rfl := Option.some.inj hv
    exact ⟨⟨_, rfl⟩, fun name hn => (JsValue.str.inj (Option.some.inj hn)).symm⟩
  · have hreply : ∃ response, message = serializeRpcResponse response := by
      split_ifs at hm
      · obtain rfl := List.mem_singleton.1 hm
        rcases e.1.result with what | result <;> exact ⟨_, rfl⟩
      · cases hm
    obtain ⟨response, rfl⟩ := hreply
    obtain ⟨doc, hdoc, h⟩ := method_response response
    refine ⟨doc, hdoc, fun value hv => ?_⟩
    obtain ⟨hobj, hnone⟩ := h value hv
    refine ⟨hobj, fun name hn => ?_⟩
    rw [hnone] at hn
    cases hn

/-- So nothing the server makes of the messages it receives passes for a life-cycle event. -/
theorem unnotified_produced {rt : Runtime} {e : Effect × ℤ} {own : Bool} {message : Message}
    (hm : message ∈ produced e own)
    (hread : ∀ doc, message = .json doc → ReadsBack parse rt doc) {data : JsString}
    (hdata : utf16? (message.bytes rt) = some data) (c : RPCClient) (k : ℕ) :
    Unnotified parse c (.onmessage k data) := by
  obtain ⟨doc, rfl, h⟩ := method_produced hm
  have hname : ∀ name, Notified parse name c (.onmessage k data) → name = js "valueChanged" := by
    rintro name ⟨-, value, hv, -, hmethod⟩
    rw [parsed?, (hread doc rfl).eq_of_text hdata] at hv
    obtain ⟨read, hread, hv⟩ := Option.bind_eq_some_iff.1 hv
    obtain ⟨⟨members, rfl⟩, hn⟩ := h read hread
    obtain rfl := Option.some.inj hv
    exact hn name hmethod
  exact ⟨fun hn => absurd (hname _ hn) (by decide), fun hn => absurd (hname _ hn) (by decide)⟩

/-! ## The welcome -/

/-- What `JSON.parse` makes of the welcome of a session. -/
def welcomeValue (connectionId : ℤ) : JsValue :=
  .obj [(js "jsonrpc", .str (js "2.0")), (js "method", .str (js "connected")),
    (js "params", .obj [(js "connectionId", .num connectionId),
      (js "message", .str (js "WebSocket connection established"))])]

/-- The welcome of a session is a notification of `connected`. -/
theorem notified_welcome {c : RPCClient} {k : ℕ} {data : JsString} {connectionId : ℤ}
    (ho : c.sockets[k]? = some .open) (hp : parse data = some (welcomeValue connectionId)) :
    Notified parse (js "connected") c (.onmessage k data) := by
  refine ⟨ho, welcomeValue connectionId, by rw [parsed?, hp]; rfl, ?_, rfl⟩
  simp only [pendingCall?, welcomeValue, JsValue.get?]
  rfl

/-- The text of the first welcome, as a frame brings it. -/
def firstWelcome : JsString :=
  (utf16? ((welcome 1).bytes (.ofTable []))).getD []

/-- `JSON.parse`, as far as the first welcome goes. -/
def parseWelcome (s : JsString) : Option JsValue :=
  if s = firstWelcome then some (welcomeValue 1) else none

theorem run_concat (v : Variant) (events : List ClientEvent) (e : ClientEvent) :
    run parse v (events ++ [e]) = (run parse v events).step parse v e := by
  rw [run, List.foldl_append]
  rfl

/-- A session's welcome counts as another connection. -/
theorem welcome_connects_again :
    ¬ OwnLifecycle (run parseWelcome .webJs
      [.connect true, .onopen 0, .onmessage 0 firstWelcome]) := by
  intro h
  have hopen : Emitted (run parseWelcome .webJs [.connect true, .onopen 0]) :=
    (emitted_init.step parseWelcome (.connect true)).step parseWelcome (.onopen 0)
  have hcount : Balanced (run parseWelcome .webJs
      ([.connect true, .onopen 0] ++ [.onmessage 0 firstWelcome])) := (ownLifecycle_iff _).1 h
  rw [run_concat, balanced_step parseWelcome hopen] at hcount
  have hparse : parseWelcome firstWelcome = some (welcomeValue 1) := by
    rw [parseWelcome, if_pos rfl]
  exact hcount.2.1 (notified_welcome parseWelcome rfl hparse)

end RPCClient

end OcppServer
