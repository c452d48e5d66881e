import OcppServer.Proofs.Lifecycle
import OcppServer.Proofs.WebLinks

/-!
# The calls over the links

The ids a client gives out are distinct as long as the server accepts them, and a frame that is
read as a message with an id is one whole reply (`reply_of_frame`). So whatever the schedule, and
whatever other clients do, a call that was sent is pending or settled by the reply to its own
request (`Answered`), which the server handled once (`Sound.nodup`).
-/

namespace OcppServer

namespace RPCClient

variable (parse : JsString → Option JsValue) (v : Variant)

/-- Ids are given out once, as long as they are numbers that can be counted on. -/
def Distinct (c : RPCClient) : Prop :=
  ∀ (i j : ℕ) (a b : Call), c.calls[i]? = some a → c.calls[j]? = some b → a.id = b.id →
    a.id < 2 ^ 53 → i = j

variable {c c' : RPCClient}

theorem Distinct.congr (h : Distinct c) (hc : c'.calls.map Call.id = c.calls.map Call.id) :
    Distinct c' := by
  have hmap : ∀ {i : ℕ} {a : Call}, c'.calls[i]? = some a →
      ∃ b, c.calls[i]? = some b ∧ b.id = a.id := by
    intro i a ha
    have := congrArg (·[i]?) hc
    simp only [List.getElem?_map, ha, Option.map_some] at this
    obtain ⟨b, hb, hid⟩ := Option.map_eq_some_iff.1 this.symm
    exact ⟨b, hb, hid⟩
  intro i j a b ha hb hid hlt
  obtain ⟨a', ha', hida⟩ := hmap ha
  obtain ⟨b', hb', hidb⟩ := hmap hb
  exact h i j a' b' ha' hb' (by rw [hida, hidb, hid]) (by rw [hida]; exact hlt)

theorem Distinct.enter (h : Distinct c) (hb : Booked c) {call : Call}
    (hid : call.id = increment c.requestId) (hc : c'.calls = c.calls ++ [call]) : Distinct c' := by
  have hnew : ∀ {i : ℕ} {a : Call}, c.calls[i]? = some a → a.id = call.id → ¬ a.id < 2 ^ 53 := by
    intro i a ha heq hlt
    have := hb.numbered a (List.mem_of_getElem? ha)
    rw [hid, increment] at heq
    split_ifs at heq <;> omega
  intro i j a b ha hb' heq hlt
  rw [hc] at ha hb'
  rcases getElem?_concat_cases ha with hi | ⟨hi, rfl⟩ <;>
    rcases getElem?_concat_cases hb' with hj | ⟨hj, rfl⟩
  · exact h i j a b hi hj heq hlt
  · exact absurd hlt (hnew hi heq)
  · exact absurd (heq ▸ hlt) (hnew hj heq.symm)
  · rw [hi, hj]

theorem map_id_answered (message : JsValue) (i : ℕ) (calls : List Call) :
    (answered v message i calls).map Call.id = calls.map Call.id := by
  refine List.ext_getElem? fun j => ?_
  rw [List.getElem?_map, answered_getElem?, List.getElem?_map, Option.map_map]
  congr 1
  funext call
  simp only [Function.comp_apply]
  split_ifs <;> simp

theorem Distinct.step (h : Distinct c) (hb : Booked c) (e : ClientEvent) :
    Distinct (RPCClient.step parse v c e) := by
  obtain ⟨b, hbook, hstep⟩ := exists_bookStep parse v c e
  cases hstep with
  | refused | passed | other => exact h.congr (by rw [(book_eq hbook).2.2])
  | sent | failed =>
    simp only [book, Prod.mk.injEq] at hbook
    exact h.enter hb rfl hbook.2.2
  | replied =>
    simp only [book, Prod.mk.injEq] at hbook
    exact h.congr (by rw [hbook.2.2, map_id_answered])

/-- A call keeps its id and its socket. -/
theorem calls_of_step {i : ℕ} {call : Call} (h : c.calls[i]? = some call) (e : ClientEvent) :
    ∃ call', (c.step parse v e).calls[i]? = some call' ∧ call'.id = call.id
      ∧ call'.carrier = call.carrier := by
  obtain ⟨b, hbook, hstep⟩ := exists_bookStep parse v c e
  cases hstep with
  | refused | passed | other => exact ⟨call, by rw [(book_eq hbook).2.2, h], rfl, rfl⟩
  | sent | failed =>
    simp only [book, Prod.mk.injEq] at hbook
    rw [hbook.2.2, List.getElem?_append_left (List.getElem?_eq_some_iff.1 h).1]
    exact ⟨call, h, rfl, rfl⟩
  | replied =>
    simp only [book, Prod.mk.injEq] at hbook
    rw [hbook.2.2, answered_getElem?, h]
    refine ⟨_, rfl, ?_, ?_⟩ <;> split_ifs <;> simp

/-- A call enters with the next id, sent and pending or not sent, or it is refused. -/
theorem calls_of_call (stringified sendFails : Bool) (c : RPCClient) :
    (c.step parse v (.call stringified sendFails)).calls = c.calls
      ∨ ∃ call : Call, (c.step parse v (.call stringified sendFails)).calls = c.calls ++ [call]
        ∧ call.id = increment c.requestId ∧ (call.carrier = none ∨ call.promise = .pending) := by
  obtain ⟨b, hbook, hstep⟩ := exists_bookStep parse v c (.call stringified sendFails)
  cases hstep with
  | refused | other => exact .inl (book_eq hbook).2.2
  | sent =>
    simp only [book, Prod.mk.injEq] at hbook
    exact .inr ⟨_, hbook.2.2, rfl, .inr rfl⟩
  | failed =>
    simp only [book, Prod.mk.injEq] at hbook
    exact .inr ⟨_, hbook.2.2, rfl, .inl rfl⟩

/-- What a message leaves of a call: the call, or the call answered by a message with its id. -/
theorem calls_of_message (hb : Booked c) {k : ℕ} {data : JsString} {i : ℕ} {call' : Call}
    (h : (c.step parse v (.onmessage k data)).calls[i]? = some call') :
    c.calls[i]? = some call' ∨ ∃ call message, c.calls[i]? = some call ∧ call.promise = .pending
      ∧ parsed? parse v data = some message ∧ replyId? message = some call.id
      ∧ call' = { call with promise := answer v message } := by
  obtain ⟨b, hbook, hstep⟩ := exists_bookStep parse v c (.onmessage k data)
  cases hstep with
  | passed | other =>
    rw [(book_eq hbook).2.2] at h
    exact .inl h
  | @replied _ n j _ message ho hd hm hp =>
    simp only [book, Prod.mk.injEq] at hbook
    rw [hbook.2.2] at h
    obtain ⟨call, hi, -, -, rfl⟩ := answered_of_getElem? h
    split_ifs with hj
    · subst hj
      obtain ⟨hid, hl⟩ := pendingCall?_eq_some.1 hp
      obtain ⟨d, hd, rfl⟩ := hb.index n j hl
      obtain rfl := Option.some.inj (hi.symm.trans hd)
      unfold Call.amend
      split_ifs
      · exact .inl hi
      by_cases hpend : call.promise = .pending
      · exact .inr ⟨call, message, hi, hpend, hm, hid, settle_of_pending hpend⟩
      · rw [settle_of_settled hpend]
        exact .inl hi
    · exact .inl hi

end RPCClient

namespace HandledRequest

variable (rt : Runtime)

/-- Call `i` is settled by the reply to the request. -/
def Settles (v : Variant) (x : HandledRequest) (i : ℕ) (call : Call) : Prop :=
  x.posted.call = i ∧ call.carrier = some x.posted.link ∧ ∃ doc value, x.reply rt = .json doc
    ∧ doc.toJs? = some value ∧ replyId? value = some call.id ∧ call.promise = answer v value

end HandledRequest

namespace WebApp

variable {rt : Runtime} {s s' : WebApp} {k : ℕ} {parse : JsString → Option JsValue}
  {stringify : Bytes → Json → ℕ → Option Bytes} {v : Variant} {e : WebEvent}

/-! ## What is read of a frame -/

/-- What `JSON.parse` makes of the frames: of a document its value, of a welcome an object without
an id, and of several messages one after another nothing. -/
structure ReadsFrames (parse : JsString → Option JsValue) (rt : Runtime) : Prop where
  document : ∀ doc text, Served (.json doc) → utf16? (jsonToString rt doc) = some text →
    parse text = doc.toJs?
  welcome : ∀ c text, utf16? ((OcppServer.welcome c).bytes rt) = some text →
    ∃ members, parse text = some (.obj members) ∧ replyId? (.obj members) = none
  merged : ∀ (ms : List Message) text, 2 ≤ ms.length → (∀ m ∈ ms, Served m) →
    utf16? (ms.flatMap (·.bytes rt)) = some text → parse text = none

/-- What the server takes for a request is what the client asked. -/
def Asks (stringify : Bytes → Json → ℕ → Option Bytes) (rt : Runtime) : Prop :=
  ∀ method params id text, stringify method params id = some text →
    ∀ request, parseRpcRequest rt text = .ok request →
      request = ⟨lit "2.0", cstr method, params, id, true⟩

/-- What a message that is a document is read as. -/
theorem ReadsFrames.of_message (hread : ReadsFrames parse rt) {m : Message} {doc : Json}
    (hm : Served m) (hdoc : m = .json doc) {text : JsString}
    (ht : utf16? (m.bytes rt) = some text) : parse text = doc.toJs? := by
  subst hdoc
  exact hread.document doc text hm ht

theorem exists_reply (id : ℤ) (outcome : Outcome) : ∃ doc, reply id outcome = .json doc := by
  cases outcome <;> exact ⟨_, rfl⟩

/-- The value of a notification has no id. -/
theorem replyId?_valueChanged {kv : Bytes × Bytes} {doc : Json} {value : JsValue}
    (hdoc : valueChanged kv = .json doc) (hv : doc.toJs? = some value) :
    (∃ members, value = .obj members) ∧ replyId? value = none := by
  obtain rfl := Message.json.inj hdoc
  simp (disch := decide) only [Json.toJs?, Json.membersToJs?, utf16?_lit, Option.map_some,
    Option.bind_some] at hv
  rcases hk : utf16? (cstr kv.1) with _ | key <;> rw [hk] at hv
  · cases hv
  rcases ht : utf16? (cstr kv.2) with _ | text <;> rw [ht] at hv
  · cases hv
  obtain rfl := Option.some.inj hv
  exact ⟨⟨_, rfl⟩, rfl⟩

/-- The value of a reply has the reply's id. -/
theorem replyId?_reply {id : ℤ} {outcome : Outcome} {doc : Json} {value : JsValue}
    (hdoc : reply id outcome = .json doc) (hv : doc.toJs? = some value) :
    (∃ members, value = .obj members) ∧ ∀ n : ℕ, replyId? value = some n → id = n := by
  have hid : ∀ (s : Bytes) (field : String), field ∈ ["error", "result"] →
      (Json.object [(lit "jsonrpc", .string (lit "2.0")), (lit "id", .int id),
        (lit field, .string s)]).toJs? = some value →
      (∃ members, value = .obj members) ∧ value.get? (js "id") = some (.num id) := by
    intro s field hf hv
    simp only [List.mem_cons, List.not_mem_nil, or_false] at hf
    rcases hf with rfl | rfl
    · rw [toJs?_reply _ _ "error" (by decide)] at hv
      obtain ⟨text, -, rfl⟩ := Option.map_eq_some_iff.1 hv
      exact ⟨⟨_, rfl⟩, rfl⟩
    · rw [toJs?_reply _ _ "result" (by decide)] at hv
      obtain ⟨text, -, rfl⟩ := Option.map_eq_some_iff.1 hv
      exact ⟨⟨_, rfl⟩, rfl⟩
  have hget : (∃ members, value = .obj members) ∧ value.get? (js "id") = some (.num id) := by
    cases outcome <;> obtain rfl := Message.json.inj hdoc <;> split_ifs at hv
    · exact hid _ "error" (by simp) hv
    · exact hid _ "result" (by simp) hv
    · exact hid _ "error" (by simp) hv
    · exact hid _ "result" (by simp) hv
  refine ⟨hget.1, fun n hn => ?_⟩
  rw [replyId?, hget.2] at hn
  obtain ⟨x, hx, hn⟩ := Option.bind_eq_some_iff.1 hn
  obtain ⟨hx, -⟩ := Option.filter_eq_some_iff.1 hx
  obtain rfl := Option.some.inj hx
  rw [JsValue.asId?] at hn
  split_ifs at hn with hpos
  obtain rfl := Option.some.inj hn
  simpa using (Int.toNat_of_nonneg hpos.2).symm

/-- The message with an id that a frame brings is one whole reply of the link. -/
theorem reply_of_frame (hread : ReadsFrames parse rt) {frame : Bytes} (hf : frame ≠ [])
    (hc : s.Carries rt k frame) {text : JsString} (ht : utf16? frame = some text) {value : JsValue}
    (hv : RPCClient.parsed? parse v text = some value) {n : ℕ} (hn : replyId? value = some n) :
    ∃ x ∈ s.handled, x.posted.link = k
      ∧ ∃ doc, x.reply rt = .json doc ∧ doc.toJs? = some value := by
  obtain ⟨ms, rfl, hms⟩ := hc
  obtain ⟨read, hparse, hread'⟩ := Option.bind_eq_some_iff.1 hv
  have hobj : (∃ members, read = .obj members) → read = value := by
    rintro ⟨members, rfl⟩
    exact Option.some.inj hread'
  match ms, hf, hms with
  | [m], _, hms =>
    rw [List.flatMap_singleton] at ht
    rcases hms m List.mem_cons_self with ⟨c, rfl⟩ | ⟨kv, rfl⟩ | ⟨x, hx, hk, rfl⟩
    · obtain ⟨members, hmembers, hnone⟩ := hread.welcome c text ht
      rw [hmembers] at hparse
      obtain rfl := Option.some.inj hparse
      rw [← hobj ⟨_, rfl⟩, hnone] at hn
      cases hn
    · obtain ⟨doc, hdoc⟩ : ∃ doc, valueChanged kv = .json doc := ⟨_, rfl⟩
      have htoJs := hread.of_message (.inr (.inl ⟨kv, rfl⟩)) hdoc ht
      rw [hparse] at htoJs
      obtain ⟨hmembers, hnone⟩ := replyId?_valueChanged hdoc htoJs.symm
      rw [← hobj hmembers, hnone] at hn
      cases hn
    · obtain ⟨doc, hdoc⟩ := exists_reply (x.outcome rt).1 (x.outcome rt).2
      have htoJs := hread.of_message (.inr (.inr ⟨_, _, x.isInt32_outcome rt, rfl⟩)) hdoc ht
      rw [hparse] at htoJs
      obtain ⟨hmembers, -⟩ := replyId?_reply hdoc htoJs.symm
      exact ⟨x, hx, hk, doc, hdoc, by rw [← htoJs, hobj hmembers]⟩
  | m :: m' :: ms, _, hms =>
    have hmerged := hread.merged (m :: m' :: ms) text (by simp) (fun m hm => (hms m hm).served) ht
    rw [hparse] at hmerged
    cases hmerged

/-! ## The calls -/

variable (rt stringify v)

/-- A request belongs to a call, in the order of the calls, and a call that was sent is pending or
settled by the reply to its request. -/
structure Answered (s : WebApp) : Prop where
  booked : s.client.Booked
  distinct : s.client.Distinct
  order : (s.posted.map Posted.call).Pairwise (· < ·)
  posted : ∀ r ∈ s.posted, stringify r.method r.params r.id = some r.text
    ∧ ∃ call, s.client.calls[r.call]? = some call ∧ call.id = r.id ∧ call.carrier = some r.link
  settled : ∀ (i : ℕ) (call : Call), s.client.calls[i]? = some call → call.carrier = none
    ∨ call.promise = .pending ∨ ∃ x ∈ s.handled, x.Settles rt v i call

variable {rt stringify v}

theorem Answered.mono (h : Answered rt stringify v s) (hclient : s'.client.book = s.client.book)
    (hposted : s'.posted = s.posted) (hh : s.handled ⊆ s'.handled) :
    Answered rt stringify v s' := by
  obtain ⟨-, -, hcalls⟩ := RPCClient.book_eq hclient
  refine ⟨h.booked.congr hclient, h.distinct.congr (by rw [hcalls]), hposted ▸ h.order, ?_, ?_⟩
  · rw [hposted, hcalls]
    exact h.posted
  · intro i call hi
    rw [hcalls] at hi
    rcases h.settled i call hi with hc | hp | ⟨x, hx, hset⟩
    · exact .inl hc
    · exact .inr (.inl hp)
    · exact .inr (.inr ⟨x, hh hx, hset⟩)

variable (s parse stringify v) in
/-- What is posted of a call: nothing, or its request if it was sent. -/
theorem call_posted (method : Bytes) (params : Json) (sendFails : Bool) :
    let s' := s.call parse stringify v method params sendFails
    s'.posted = s.posted
      ∨ ∃ k text, stringify method params (increment s.client.requestId) = some text
      ∧ s'.client.calls[s.client.calls.length]?.bind Call.carrier = some k
      ∧ s'.posted = s.posted
        ++ [⟨s.client.calls.length, k, increment s.client.requestId, method, params, text⟩] := by
  intro s'
  have hclient : s'.client = _ := call_client s parse stringify v method params sendFails
  rw [hclient]
  simp only [s', call]
  split
  · rename_i k text hk ht
    split_ifs
    · exact .inr ⟨k, text, ht, hk, rfl⟩
    · exact .inl rfl
  · exact .inl rfl

theorem Answered.call (h : Answered rt stringify v s) (method : Bytes) (params : Json)
    (sendFails : Bool) :
    Answered rt stringify v (s.call parse stringify v method params sendFails) := by
  have hposted := call_posted s parse stringify v method params sendFails
  have hhandled := (call_server s parse stringify v method params sendFails).2.1
  have hclient := call_client s parse stringify v method params sendFails
  generalize s.call parse stringify v method params sendFails = s' at hposted hhandled hclient ⊢
  dsimp only at hposted
  have hcalls := RPCClient.calls_of_call parse v
    (stringify method params (increment s.client.requestId)).isSome sendFails s.client
  rw [← hclient] at hcalls
  have hold (r : Posted) (hr : r ∈ s.posted) : r.call < s.client.calls.length
      ∧ stringify r.method r.params r.id = some r.text
      ∧ ∃ call, s'.client.calls[r.call]? = some call ∧ call.id = r.id
        ∧ call.carrier = some r.link := by
    obtain ⟨ht, call, hi, hid, hc⟩ := h.posted r hr
    obtain ⟨call', hi', hid', hc'⟩ := RPCClient.calls_of_step parse v hi
      (.call (stringify method params (increment s.client.requestId)).isSome sendFails)
    rw [hclient]
    exact ⟨(List.getElem?_eq_some_iff.1 hi).1, ht, call', hi', hid'.trans hid, hc'.trans hc⟩
  refine ⟨hclient ▸ h.booked.step parse v _, hclient ▸ h.distinct.step parse v h.booked _,
    ?_, ?_, ?_⟩
  · rcases hposted with hp | ⟨k, text, -, -, hp⟩ <;> rw [hp]
    · exact h.order
    · rw [List.map_append, List.pairwise_append]
      refine ⟨h.order, by simp, fun a ha b hb => ?_⟩
      obtain ⟨r, hr, rfl⟩ := List.mem_map.1 ha
      obtain rfl : b = s.client.calls.length := by simpa using hb
      exact (hold r hr).1
  · intro r hr
    rcases hposted with hp | ⟨k, text, ht, hk, hp⟩ <;> rw [hp] at hr
    · exact (hold r hr).2
    rcases List.mem_append.1 hr with hr | hr
    · exact (hold r hr).2
    · obtain rfl := List.mem_singleton.1 hr
      obtain ⟨call, hi, hc⟩ := Option.bind_eq_some_iff.1 hk
      refine ⟨ht, call, hi, ?_, hc⟩
      rcases hcalls with hcalls | ⟨call', hcalls, hid, -⟩
      · rw [hcalls, List.getElem?_eq_none le_rfl] at hi
        cases hi
      · rw [hcalls, List.getElem?_concat_length] at hi
        exact Option.some.inj hi ▸ hid
  · intro i call hi
    have hprev (hi : s.client.calls[i]? = some call) : call.carrier = none
        ∨ call.promise = .pending ∨ ∃ x ∈ s'.handled, x.Settles rt v i call := by
      rw [hhandled]
      exact h.settled i call hi
    rcases hcalls with hcalls | ⟨call', hcalls, -, hc⟩ <;> rw [hcalls] at hi
    · exact hprev hi
    · rcases getElem?_concat_cases hi with hi | ⟨-, rfl⟩
      · exact hprev hi
      · exact hc.imp_right .inl

/-- A reply with a call's id is that of the call's own request. -/
theorem Answered.own (h : Answered rt stringify v s) (hq : s.InTurn) (hask : Asks stringify rt)
    {x : HandledRequest} (hx : x ∈ s.handled) {i : ℕ} {call : Call}
    (hi : s.client.calls[i]? = some call) (hid : (x.outcome rt).1 = call.id) :
    x.posted.call = i ∧ call.carrier = some x.posted.link
      ∧ parseRpcRequest rt x.posted.text
        = .ok ⟨lit "2.0", cstr x.posted.method, x.posted.params, call.id, true⟩ := by
  obtain ⟨ht, call', hi', hid', hc'⟩ := h.posted x.posted (hq.mem_posted hx)
  have h32 := x.isInt32_outcome rt
  rw [HandledRequest.outcome] at hid h32
  rcases hparse : parseRpcRequest rt x.posted.text with what | request <;>
    simp only [hparse] at hid h32
  · omega
  · obtain rfl := hask _ _ _ _ ht request hparse
    dsimp only at hid h32
    have heq : x.posted.id = call.id := Int.ofNat.inj hid
    have hlt : call'.id < 2 ^ 53 := by
      have := h32.2
      rw [hid']
      omega
    obtain rfl := h.distinct x.posted.call i call' call hi' hi (by rw [hid', heq]) hlt
    obtain rfl := Option.some.inj (hi.symm.trans hi')
    exact ⟨rfl, hc', by rw [heq]⟩

theorem Answered.read (h : Answered rt stringify v s) (hl : Linked rt s) (hq : s.InTurn)
    (hask : Asks stringify rt) (hread : ReadsFrames parse rt) {frame : Bytes} {down : List Bytes}
    {text : JsString} (hd : (s.links k).down = frame :: down) (ht : utf16? frame = some text)
    (f : Link → Link) :
    Answered rt stringify v { s.onLink k f with
      client := s.client.step parse v (.onmessage k text) } := by
  refine ⟨h.booked.step parse v (.onmessage k text),
    h.distinct.step parse v h.booked (.onmessage k text), h.order, fun r hr => ?_,
    fun i call' hi' => ?_⟩
  · obtain ⟨hs, call, hi, hid, hc⟩ := h.posted r hr
    obtain ⟨call', hi', hid', hc'⟩ := RPCClient.calls_of_step parse v hi (.onmessage k text)
    exact ⟨hs, call', hi', hid'.trans hid, hc'.trans hc⟩
  · rcases RPCClient.calls_of_message parse v h.booked hi' with
      hi | ⟨call, value, hi, -, hm, hn, rfl⟩
    · exact h.settled i call' hi
    obtain ⟨hne, hcar⟩ := hl.frames k frame (by rw [hd]; exact List.mem_cons_self)
    obtain ⟨x, hx, -, doc, hdoc, hv⟩ := reply_of_frame hread hne hcar ht hm hn
    obtain ⟨hcall, hlink, -⟩ := h.own hq hask hx hi ((replyId?_reply hdoc hv).2 _ hn)
    exact .inr (.inr ⟨x, hx, hcall, hlink, doc, value, hdoc, hv, hn, rfl⟩)

theorem Answered.change (h : Answered rt stringify v s) (hl : Linked rt s) (hq : s.InTurn)
    (hask : Asks stringify rt) (hread : ReadsFrames parse rt)
    (hc : Change rt parse stringify v s e s') : Answered rt stringify v s' := by
  cases hc with
  | idle => exact h
  | client e hc hm =>
    refine h.mono ?_ rfl (List.Subset.refl _)
    obtain ⟨b, hbook, hstep⟩ := RPCClient.exists_bookStep parse v s.client e
    cases hstep with
    | other => exact hbook
    | refused | sent | failed => exact absurd rfl (hc _ _)
    | replied | passed => exact absurd rfl (hm _ _)
  | call method params sendFails => exact h.call method params sendFails
  | read hd ht => exact h.read hl hq hask hread hd ht _
  | received => exact h.mono rfl rfl (List.subset_append_left _ _)
  | failed | established | written | closed | other => exact h.mono rfl rfl (List.Subset.refl _)

/-! ## Runs -/

structure Sound (rt : Runtime) (stringify : Bytes → Json → ℕ → Option Bytes) (v : Variant)
    (s : WebApp) : Prop where
  inTurn : s.InTurn
  linked : Linked rt s
  answered : Answered rt stringify v s

theorem sound_init (now : ℤ) : Sound rt stringify v (init now) where
  inTurn k := rfl
  linked :=
    { registered := System.registered_init now
      live := by simp [init]
      apart := by simp [init]
      waiting := by simp [init, System.init, WebServer.init]
      frames := by simp [init] }
  answered :=
    { booked := ⟨by simp [init], by simp [init]⟩
      distinct := by simp [RPCClient.Distinct, init]
      order := List.Pairwise.nil
      posted := by simp [init]
      settled := by simp [init] }

theorem sound_run (hask : Asks stringify rt) (hread : ReadsFrames parse rt) {now : ℤ}
    {events : List WebEvent} (h : run rt parse stringify v (init now) events = some s) :
    Sound rt stringify v s := by
  refine Runs.run_invariant _ (fun s e s' hs hstep => ?_) events (sound_init now) h
  have hc := change_of_step hstep
  exact ⟨hs.inTurn.change hc, hs.linked.change hs.inTurn hc,
    hs.answered.change hs.linked hs.inTurn hask hread hc⟩

/-- No request is handled twice. -/
theorem Sound.nodup (h : Sound rt stringify v s) :
    (s.handled.map fun x => x.posted.call).Nodup := by
  classical
  have hcalls : (s.posted.map Posted.call).Nodup := h.answered.order.imp ne_of_lt
  have hposted : (s.handled.map HandledRequest.posted).Nodup := by
    refine List.nodup_iff_count_le_one.2 fun r => ?_
    have hfilter := congrArg (List.count r) (h.inTurn r.link)
    rw [List.count_append, List.count_filter (by simp), List.count_filter (by simp)] at hfilter
    have hone := List.nodup_iff_count_le_one.1 hcalls.of_map r
    omega
  rw [show (fun x : HandledRequest => x.posted.call) = Posted.call ∘ HandledRequest.posted from rfl,
    ← List.map_map]
  refine List.Nodup.map_on (fun r hr r' hr' heq => ?_) hposted
  obtain ⟨x, hx, rfl⟩ := List.mem_map.1 hr
  obtain ⟨x', hx', rfl⟩ := List.mem_map.1 hr'
  exact List.inj_on_of_nodup_map hcalls (h.inTurn.mem_posted hx) (h.inTurn.mem_posted hx') heq

/-- The requests of a link are handled in the order of their calls. -/
theorem Sound.ordered (h : Sound rt stringify v s) (k : ℕ) :
    (((s.handled.map HandledRequest.posted).filter (·.link = k)).map Posted.call).Pairwise
      (· < ·) := by
  have hposted : ((s.posted.filter (·.link = k)).map Posted.call).Pairwise (· < ·) :=
    h.answered.order.sublist (List.filter_sublist.map _)
  rw [← h.inTurn k, List.map_append] at hposted
  exact (List.pairwise_append.1 hposted).1

end WebApp

end OcppServer
