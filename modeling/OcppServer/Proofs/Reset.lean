import OcppServer.Proofs.Changes

/-!
# What a reset restores

`resetSystem` writes the seven initial values back and leaves every other key. Two servers whose
values agree answer the requests about values alike, whoever sends them (`conversation_eq`), so a
reset makes the server like a fresh one exactly when its values had no other key before.
-/

namespace OcppServer

/-- The requests that read or write values and nothing else that is random or timed. -/
def valueMethods : List Bytes :=
  [lit "getValue", lit "setValue", lit "setMaxPower", lit "startCharging", lit "stopCharging"]

/-- A message that is one of these requests. -/
def AsksValues (rt : Runtime) (message : Bytes) : Prop :=
  message ≠ [] ∧ ∃ method id params, IsRequest rt message method id params ∧ method ∈ valueMethods

section Effects

variable (rt : Runtime)

/-- The same answer, the same announcements, and values that still agree. -/
structure Alike (e e' : Effect) : Prop where
  result : e.result = e'.result
  announced : e.announced = e'.announced
  agree : Replica.Agree e.data.values e'.data.values

theorem alike_pure (o : Outcome) {d d' : RpcData} (h : Replica.Agree d.values d'.values) :
    Alike (.pure o d) (.pure o d') := ⟨rfl, rfl, h⟩

theorem alike_assign (l : List (Bytes × Bytes)) (power : Option Double) (result : Bytes)
    {d d' : RpcData} (h : Replica.Agree d.values d'.values) :
    Alike (.assign l power result d) (.assign l power result d') where
  result := rfl
  announced := rfl
  agree := by
    rw [values_assign, values_assign]
    exact h.replay l

theorem ofRequest_alike {amb amb' : Ambient} {clients clients' : ℕ} {request request' : RpcRequest}
    (hm : request.method = request'.method) (hp : request.params = request'.params)
    (hv : request.method ∈ valueMethods) {d d' : RpcData}
    (h : Replica.Agree d.values d'.values) :
    Alike (Effect.ofRequest rt amb clients request d)
      (Effect.ofRequest rt amb' clients' request' d') := by
  obtain ⟨_, method, params, _, _⟩ := request
  obtain ⟨_, method', params', _, _⟩ := request'
  obtain rfl : method = method' := hm
  obtain rfl : params = params' := hp
  simp only [valueMethods, List.mem_cons, List.not_mem_nil, or_false] at hv
  rcases hv with rfl | rfl | rfl | rfl | rfl
  · have hg : handleGetValue params d = handleGetValue params d' := by
      unfold handleGetValue
      split
      · rfl
      · rw [h]
    have ha : Alike (.pure (handleGetValue params d) d) (.pure (handleGetValue params d') d') := by
      rw [hg]
      exact alike_pure _ h
    exact ha
  · have ha : Alike (Effect.setValue rt params d) (Effect.setValue rt params d') := by
      unfold Effect.setValue
      split
      · exact alike_assign _ _ _ h
      · exact alike_pure _ h
    exact ha
  · have ha : Alike (Effect.setMaxPower params d) (Effect.setMaxPower params d') := by
      unfold Effect.setMaxPower
      split
      · exact alike_pure _ h
      · split_ifs
        · exact alike_pure _ h
        · exact alike_assign _ _ _ h
    exact ha
  · exact alike_assign [(lit "chargingEnabled", lit "true"), (lit "systemStatus", lit "charging")]
      (some 10) (lit "Charging started") h
  · exact alike_assign [(lit "chargingEnabled", lit "false"), (lit "systemStatus", lit "ready")]
      (some 0) (lit "Charging stopped") h

/-- Servers whose values agree take a request about values alike. -/
theorem ofMessage_alike (amb amb' : Ambient) (clients clients' : ℕ) {message : Bytes}
    (hv : AsksValues rt message) {d d' : RpcData} (h : Replica.Agree d.values d'.values) :
    Alike (Effect.ofMessage rt amb clients message d).1
        (Effect.ofMessage rt amb' clients' message d').1
      ∧ (Effect.ofMessage rt amb clients message d).2
        = (Effect.ofMessage rt amb' clients' message d').2 := by
  obtain ⟨-, method, id, params, hreq, hmem⟩ := hv
  obtain ⟨request, hparse, rfl, -, -⟩ := hreq.parse
  simp only [Effect.ofMessage, hparse, and_true]
  exact ofRequest_alike rt rfl rfl hmem h

end Effects

namespace System

variable (rt : Runtime) (handler : Option WebServer.MessageHandler)

/-- All that is queued to the senders, announcements and replies, while messages are received one
after another, each on the connection it is given with. -/
def conversation : List (ℤ × Ambient × Bytes) → System → Option (List Message)
  | [], _ => some []
  | (c, amb, message) :: rest, sys => do
    let p ← sys.server.connections.lookup c
    let sys' ← sys.step rt handler (.receive p.obj.wsi amb message)
    let p' ← sys'.server.connections.lookup c
    let messages ← conversation rest sys'
    return p'.obj.sent.drop p.obj.sent.length ++ messages

/-- The same requests about values to two servers, from connections that each of them has. -/
def SameRequests (sys sys' : System) : List (ℤ × Ambient × Bytes) → List (ℤ × Ambient × Bytes) →
    Prop :=
  List.Forall₂ fun x y => x.1 ∈ sys.server.connections ∧ y.1 ∈ sys'.server.connections
    ∧ x.2.2 = y.2.2 ∧ AsksValues rt x.2.2

/-- The values of a freshly constructed server, and from now on its answers, whatever clients
connect to it. -/
def Restored (sys : System) : Prop :=
  ∀ (now : ℤ) (wsis : List Wsi) (fresh : System),
    run rt handler (.init now) (wsis.map .established) = some fresh →
    Replica.Agree sys.server.data.values fresh.server.data.values
      ∧ ∀ l l', SameRequests rt sys fresh l l' → ∃ messages,
        conversation rt handler l sys = some messages
          ∧ conversation rt handler l' fresh = some messages

/-- The system after a message that has effect `e`. -/
def received (c : ℤ) (e : Effect × ℤ) (sys : System) : System :=
  sys.onServer fun s =>
    WebServer.deliver rt (fun j => produced e (j = c)) { s with data := e.1.data }

theorem mem_received {c j : ℤ} {e : Effect × ℤ} {sys : System} (h : j ∈ sys.server.connections) :
    j ∈ (received rt c e sys).server.connections := by
  simp only [received, onServer, WebServer.deliver, Dict.mem_mapVal]
  exact h

/-- The first message of a conversation, and what is left of it. -/
theorem Registered.conversation_cons {sys : System} (hr : Registered sys) {c : ℤ}
    (hc : c ∈ sys.server.connections) (amb : Ambient) {message : Bytes} (hm : message ≠ [])
    (rest : List (ℤ × Ambient × Bytes)) :
    let e := Effect.ofMessage rt amb sys.server.clients message sys.server.data
    Registered (received rt c e sys)
      ∧ conversation rt handler ((c, amb, message) :: rest) sys
        = (conversation rt handler rest (received rt c e sys)).map (produced e true ++ ·) := by
  obtain ⟨p, hp⟩ := Dict.mem_iff_exists.1 hc
  have hstep := hr.step_receive rt handler hp amb hm
  have hr' := hr.step rt handler hstep
  rw [onServer, WebServer.processMessage_eq] at hstep hr'
  intro e
  refine ⟨hr', ?_⟩
  have hp' : (received rt c e sys).server.connections.lookup c
      = some (p.map (.sendAll rt (produced e true))) := by
    simp only [received, onServer, WebServer.deliver, Dict.lookup_mapVal, hp, Option.map_some,
      decide_true]
  have hdrop : (p.map (.sendAll rt (produced e true))).obj.sent.drop p.obj.sent.length
      = produced e true := List.drop_left
  simp only [conversation, hp, Option.bind_eq_bind, Option.bind_some, hstep]
  change ((received rt c e sys).server.connections.lookup c).bind _ = _
  rw [hp', Option.bind_some, hdrop]
  change (conversation rt handler rest (received rt c e sys)).bind _ = _
  rcases conversation rt handler rest (received rt c e sys) with _ | messages <;> rfl

/-- Servers whose values agree answer the same requests about values alike. -/
theorem conversation_eq {l l' : List (ℤ × Ambient × Bytes)} {sys sys' : System}
    (hr : Registered sys) (hr' : Registered sys')
    (ha : Replica.Agree sys.server.data.values sys'.server.data.values)
    (hsame : SameRequests rt sys sys' l l') :
    ∃ messages, conversation rt handler l sys = some messages
      ∧ conversation rt handler l' sys' = some messages := by
  induction l generalizing l' sys sys' with
  | nil =>
    cases hsame
    exact ⟨[], rfl, rfl⟩
  | cons x l ih =>
    obtain ⟨c, amb, message⟩ := x
    rcases hsame with _ | ⟨⟨hc, hc', hmsg, hasks⟩, hrest⟩
    rename_i y l'
    obtain ⟨c', amb', message'⟩ := y
    obtain rfl : message = message' := hmsg
    obtain ⟨halike, hid⟩ := ofMessage_alike rt amb amb' sys.server.clients
      sys'.server.clients hasks ha
    obtain ⟨hr₁, h₁⟩ := hr.conversation_cons rt handler hc amb hasks.1 l
    obtain ⟨hr₂, h₂⟩ := hr'.conversation_cons rt handler hc' amb' hasks.1 l'
    have hprod : produced (Effect.ofMessage rt amb sys.server.clients message sys.server.data) true
        = produced (Effect.ofMessage rt amb' sys'.server.clients message sys'.server.data)
          true := by
      simp only [produced, halike.result, halike.announced, hid]
    obtain ⟨messages, hl, hl'⟩ := ih hr₁ hr₂ halike.agree
      (hrest.imp fun x y h => ⟨mem_received rt h.1, mem_received rt h.2.1, h.2.2⟩)
    refine ⟨produced (Effect.ofMessage rt amb sys.server.clients message sys.server.data) true
      ++ messages, ?_, ?_⟩
    · rw [h₁, hl, Option.map_some]
    · rw [h₂, hl', hprod, Option.map_some]

theorem fresh_data {now : ℤ} {wsis : List Wsi} {fresh : System}
    (h : run rt handler (.init now) (wsis.map .established) = some fresh) :
    Registered fresh ∧ fresh.server.data = (WebServer.init now).data := by
  have hC : Runs.AtEvery (System.step rt handler) (fun _ cb => ∃ wsi, cb = .established wsi)
      (.init now) (wsis.map .established) := by
    intro pre cb post he t _
    have hmem : cb ∈ wsis.map Callback.established := by rw [he]; simp
    obtain ⟨wsi, -, rfl⟩ := List.mem_map.1 hmem
    exact ⟨wsi, rfl⟩
  have hkeep : ∀ (sys : System) (cb : Callback),
      Registered sys ∧ sys.server.data = (WebServer.init now).data →
      (∃ wsi, cb = .established wsi) → ∃ sys', sys.step rt handler cb = some sys'
        ∧ Registered sys' ∧ sys'.server.data = (WebServer.init now).data := by
    rintro sys cb ⟨hr, hd⟩ ⟨wsi, rfl⟩
    by_cases hw : wsi ∈ sys.sessions
    · exact ⟨sys, if_pos hw, hr, hd⟩
    · exact ⟨_, if_neg hw, hr.connect rt hw, hd⟩
  obtain ⟨t, ht, hI⟩ := Runs.run_of_atEvery (System.step rt handler) hkeep _
    ⟨registered_init now, rfl⟩ hC
  obtain rfl := Option.some.inj (ht.symm.trans h)
  exact hI

theorem lookup_initialValues_isSome {k : Bytes} (h : k ∈ initialValues.map Prod.fst) :
    ∃ v, initialValues.reverse.lookup k = some v := by
  have hall : ∀ k ∈ initialValues.map Prod.fst,
      (initialValues.reverse.lookup k).isSome = true := by decide
  exact Option.isSome_iff_exists.1 (hall k h)

/-- Writing the initial values back gives the values of a fresh server exactly when there was no
other key. -/
theorem agree_initializeValues_iff (now now' : ℤ) (d : RpcData) :
    Replica.Agree (initializeValues now d).values (WebServer.init now').data.values
      ↔ ∀ k ∈ d.values, k ∈ initialValues.map Prod.fst := by
  have hfresh : ∀ k, (WebServer.init now').data.values.lookup k
      = initialValues.reverse.lookup k := by
    intro k
    rw [show (WebServer.init now').data = initializeValues now' ⟨∅, ⟨0, 0, 0, 0⟩, 0⟩ from rfl,
      lookup_initializeValues, AList.lookup_empty, Option.or_none]
  constructor
  · intro h k hk
    obtain ⟨v, hv⟩ := Dict.mem_iff_exists.1 hk
    have hag := h k
    rw [lookup_initializeValues, hfresh, hv] at hag
    rcases hl : initialValues.reverse.lookup k with _ | w
    · rw [hl] at hag
      cases hag
    · have hmem := List.mem_map_of_mem (f := Prod.fst) (Dict.mem_of_lookup hl)
      simpa using hmem
  · intro h k
    rw [lookup_initializeValues, hfresh]
    rcases hd : d.values.lookup k with _ | v
    · rw [Option.or_none]
    · obtain ⟨w, hw⟩ := lookup_initialValues_isSome (h k (Dict.mem_iff_exists.2 ⟨v, hd⟩))
      rw [hw, Option.some_or]

/-- A reset that is received restores the initial system exactly when the values had no key but
the initial ones. -/
theorem reset_restores_iff {sys : System} (h : Reachable rt handler sys) {cb : Callback}
    {amb : Ambient} {params : Json}
    (hrec : Receives rt sys cb amb (lit "resetSystem") params) :
    ∃ sys', sys.step rt handler cb = some sys'
      ∧ (Restored rt handler sys'
        ↔ ∀ k ∈ sys.server.data.values, k ∈ initialValues.map Prod.fst) := by
  obtain ⟨sys', hstep, hc⟩ := h.registered.step_change rt handler hrec
  have hr' := h.registered.step rt handler hstep
  have hd := hc.unique rt amb (.resetSystem rfl)
  refine ⟨sys', hstep, fun hrestored => ?_, fun hkeys now wsis fresh hfresh => ?_⟩
  · have hag := (hrestored 0 [] (.init 0) rfl).1
    rw [hd] at hag
    exact (agree_initializeValues_iff _ _ _).1 hag
  · obtain ⟨hrf, hdf⟩ := fresh_data rt handler hfresh
    have hag : Replica.Agree sys'.server.data.values fresh.server.data.values := by
      rw [hd, hdf]
      exact (agree_initializeValues_iff _ _ _).2 hkeys
    exact ⟨hag, fun l l' hsame => conversation_eq rt handler hr' hrf hag hsame⟩

/-- The server constructed, one client connected, and nothing set. -/
theorem reset_restores_fresh :
    ∃ sys', ((System.init 0).handleWebSocketConnect (.ofTable [resetSystem]) 0).step
        (.ofTable [resetSystem]) none (.receive 0 ⟨[], 0, 0, 0, 0, 0⟩ resetSystem.1) = some sys'
      ∧ (Restored (.ofTable [resetSystem]) none sys'
        ↔ ∀ k ∈ ((System.init 0).handleWebSocketConnect (.ofTable [resetSystem]) 0
            ).server.data.values, k ∈ initialValues.map Prod.fst) := by
  have hreceives : Receives (.ofTable [resetSystem])
      ((System.init 0).handleWebSocketConnect (.ofTable [resetSystem]) 0)
      (.receive 0 ⟨[], 0, 0, 0, 0, 0⟩ resetSystem.1) ⟨[], 0, 0, 0, 0, 0⟩ (lit "resetSystem")
      (.object []) :=
    ⟨1, newEntry (.ofTable [resetSystem]) 0 (.init 0), resetSystem.1, 1, rfl, by decide, rfl,
      _, _, rfl, ⟨_, rfl⟩, rfl, by decide, rfl, by decide, rfl⟩
  exact reset_restores_iff (.ofTable [resetSystem]) none ⟨0, [.established 0], rfl⟩ hreceives

/-- A `setValue` of a key the server has not, as text and as the document it parses to. -/
def setValueMode : Bytes × Json :=
  (lit "\x7b\"jsonrpc\":\"2.0\",\"method\":\"setValue\",\"id\":1,\"params\":" ++
      lit "\x7b\"key\":\"mode\",\"value\":\"eco\"\x7d\x7d",
    .object [(lit "jsonrpc", .string (lit "2.0")), (lit "method", .string (lit "setValue")),
      (lit "id", .int 1), (lit "params", .object [(lit "key", .string (lit "mode")),
        (lit "value", .string (lit "eco"))])])

/-- What a client added is still there after a reset. -/
theorem reset_leaves_mode :
    ¬ ∀ sys, run (.ofTable [setValueMode, resetSystem]) none (.init 0)
        [.established 0, .receive 0 ⟨[], 0, 0, 0, 0, 0⟩ setValueMode.1,
          .receive 0 ⟨[], 0, 0, 0, 0, 0⟩ resetSystem.1] = some sys →
      Restored (.ofTable [setValueMode, resetSystem]) none sys := by
  intro h
  have hag := (h _ rfl 0 [] (.init 0) rfl).1 (lit "mode")
  exact absurd hag (by decide +kernel)

end System

end OcppServer
