import OcppServer.WebApp
import OcppServer.Proofs.Client
import OcppServer.Proofs.Replies
import OcppServer.Proofs.Traffic

/-!
# What is on the links

Whatever happens to the application is one of ten changes (`Change`). In every run the requests
that were posted over a link were handled in their turn or are on their way (`InTurn`); and what
waits at the server for a link, and what travels down it, are messages for that link, the replies
among them to requests that came over it (`Linked`).
-/

namespace OcppServer

namespace System

variable {rt : Runtime} {sys sys' : System} {cb : Callback}

/-- The bytes waiting on a connection after a callback: a new connection's welcome, or those that
waited before and what the callback queued, or none. -/
theorem Move.writeBuffer (h : Move rt sys cb sys') (hr : Registered sys) {c : ℤ}
    {p' : SharedPtr WebSocketConnection} (hp' : sys'.server.connections.lookup c = some p') :
    (∃ wsi, cb = .established wsi ∧ wsi ∉ sys.sessions ∧ p'.obj.wsi = wsi
        ∧ p'.obj.writeBuffer = (welcome sys.server.nextConnectionId).bytes rt)
      ∨ ∃ p, sys.server.connections.lookup c = some p ∧ p'.obj.wsi = p.obj.wsi
        ∧ (p'.obj.writeBuffer = [] ∨ p'.obj.writeBuffer
          = p.obj.writeBuffer ++ (sys.queued rt c p.obj.wsi cb).flatMap (·.bytes rt)) := by
  rcases h.traffic rt hr hp' with ⟨wsi, rfl, hw, -, rfl⟩ | ⟨p, ht⟩
  · exact .inl ⟨wsi, rfl, hw, rfl, rfl⟩
  · obtain ⟨session, hs, -⟩ := hr.slot c p ht.entry
    obtain ⟨session', -, hout⟩ := ht.outbox session hs
    have hbuf : p'.obj.writeBuffer = (outbox rt session' p'.obj).buffer := rfl
    refine .inr ⟨p, ht.entry, ht.wsi, ?_⟩
    rw [hbuf, hout, acts]
    split_ifs
    · rw [List.foldl_cons, List.foldl_nil, Outbox.step]
      split_ifs with he
      · exact .inl (List.isEmpty_iff.1 he)
      · exact .inl rfl
    · rw [Outbox.foldl_send]
      exact .inr (by simp [outbox, List.flatMap_def])

/-- A SERVER_WRITEABLE hands the bytes waiting over, if there are any. -/
theorem Move.writeable {wsi : Wsi} (h : Move rt sys (.writeable wsi) sys') (hr : Registered sys) :
    sys' = sys ∨ ∃ c p, sys.server.connections.lookup c = some p ∧ p.obj.wsi = wsi
      ∧ p.obj.writeBuffer ≠ [] ∧ sys'.framesOf wsi = sys.framesOf wsi ++ [p.obj.writeBuffer] := by
  cases h with
  | idle => exact .inl rfl
  | @flushed c p hp hb =>
    obtain ⟨session, hs, -⟩ := hr.slot c p hp
    exact .inr ⟨c, p, hp, rfl, hb, by simp [framesOf, flush, hs]⟩

end System

namespace RPCClient

variable (parse : JsString → Option JsValue) (v : Variant)

theorem sockets_length_le (c : RPCClient) (e : ClientEvent) :
    c.sockets.length ≤ (c.step parse v e).sockets.length := by
  have hconnect (origin : Origin) (constructed : Bool) (c : RPCClient) :
      c.sockets.length ≤ (c.connect v origin constructed).sockets.length := by
    unfold connect
    split_ifs
    · simp [note]
    · exact le_rfl
    · exact le_rfl
  have hlink {c' : RPCClient} (h : c'.link = c.link) : c.sockets.length ≤ c'.sockets.length :=
    (congrArg List.length (link_eq h).2.2.2.1).ge
  cases e with
  | connect constructed => exact hconnect .app constructed (c.note .connectCalled)
  | disconnect =>
    simp only [step]
    rcases disconnect_eq (c.note .disconnectCalled) with ⟨-, h⟩ | ⟨k, -, h⟩
    · rw [h]
      exact le_rfl
    · rw [h]
      rcases close_eq k (c.note .disconnectCalled).halted with ⟨h', -⟩ | ⟨-, -, h'⟩
      · rw [h']
        exact le_rfl
      · rw [h']
        simp [setSocket, halted, note]
  | call stringified sendFails => exact hlink (link_call v stringified sendFails c)
  | setRPCEnabled enabled => exact hlink (link_setRPCEnabled v enabled c)
  | onopen k =>
    simp only [step]
    split_ifs
    · simp [onopen, emit, note, setSocket]
    · exact le_rfl
  | onmessage k data =>
    simp only [step]
    split_ifs
    · exact hlink (link_onmessage parse v data c)
    · exact le_rfl
  | onclose k =>
    simp only [step]
    split
    · exact le_rfl
    · exact le_rfl
    · rw [(onclose_eq v _).2.2]
      simp [note, setSocket]
  | onerror k =>
    simp only [step]
    split_ifs
    · exact le_rfl
    · exact le_rfl
  | timer constructed =>
    simp only [step]
    split_ifs
    · exact le_rfl
    · exact hconnect .auto constructed { c with timers := c.timers - 1 }

end RPCClient

namespace HandledRequest

variable (rt : Runtime)

/-- What a request is answered with: an id, and what its command returned or threw. -/
def outcome (x : HandledRequest) : ℤ × Outcome :=
  match parseRpcRequest rt x.posted.text with
  | .error what => (-1, .error what)
  | .ok request => (request.id, (x.server.dispatch rt x.amb request).1)

def reply (x : HandledRequest) : Message := OcppServer.reply (x.outcome rt).1 (x.outcome rt).2

/-- It is what the effect of the request's text is answered with. -/
theorem outcome_eq (x : HandledRequest) :
    let e := Effect.ofMessage rt x.amb x.server.clients x.posted.text x.server.data
    x.outcome rt = (e.2, e.1.result) := by
  unfold outcome Effect.ofMessage
  rcases parseRpcRequest rt x.posted.text with what | request
  · rfl
  · simp only [WebServer.dispatch_eq]

theorem isInt32_outcome (x : HandledRequest) : Json.IsInt32 (x.outcome rt).1 := by
  unfold outcome
  rcases h : parseRpcRequest rt x.posted.text with what | request
  · change Json.IsInt32 (-1)
    decide
  · obtain ⟨members, m, -, -, -, -, -, h32, -⟩ := parseRpcRequest_eq_ok rt h
    exact h32

end HandledRequest

namespace WebApp

/-- The messages there are on the links. -/
def Served (m : Message) : Prop :=
  (∃ c, m = welcome c) ∨ (∃ kv, m = valueChanged kv)
    ∨ ∃ id outcome, Json.IsInt32 id ∧ m = reply id outcome

variable (rt : Runtime)

/-- A message for link `k`, a reply if the request came over that link. -/
def For (s : WebApp) (k : ℕ) (m : Message) : Prop :=
  (∃ c, m = welcome c) ∨ (∃ kv, m = valueChanged kv)
    ∨ ∃ x ∈ s.handled, x.posted.link = k ∧ m = x.reply rt

/-- Bytes that are messages for link `k`, one after another. -/
def Carries (s : WebApp) (k : ℕ) (bytes : Bytes) : Prop :=
  ∃ ms : List Message, bytes = ms.flatMap (·.bytes rt) ∧ ∀ m ∈ ms, s.For rt k m

variable {rt} {s s' : WebApp} {k : ℕ}

theorem For.served {m : Message} (h : s.For rt k m) : Served m := by
  rcases h with h | h | ⟨x, -, -, rfl⟩
  · exact .inl h
  · exact .inr (.inl h)
  · exact .inr (.inr ⟨_, _, x.isInt32_outcome rt, rfl⟩)

theorem For.mono {m : Message} (h : s.For rt k m) (hs : s.handled ⊆ s'.handled) :
    s'.For rt k m := by
  rcases h with h | h | ⟨x, hx, hk⟩
  · exact .inl h
  · exact .inr (.inl h)
  · exact .inr (.inr ⟨x, hs hx, hk⟩)

theorem Carries.mono {bytes : Bytes} (h : s.Carries rt k bytes) (hs : s.handled ⊆ s'.handled) :
    s'.Carries rt k bytes := by
  obtain ⟨ms, hb, hms⟩ := h
  exact ⟨ms, hb, fun m hm => (hms m hm).mono hs⟩

theorem carries_nil : s.Carries rt k [] := ⟨[], rfl, by simp⟩

theorem Carries.append {bytes : Bytes} (h : s.Carries rt k bytes) {ms : List Message}
    (hms : ∀ m ∈ ms, s.For rt k m) : s.Carries rt k (bytes ++ ms.flatMap (·.bytes rt)) := by
  obtain ⟨ms₀, rfl, hms₀⟩ := h
  refine ⟨ms₀ ++ ms, List.flatMap_append.symm, fun m hm => ?_⟩
  rcases List.mem_append.1 hm with hm | hm
  · exact hms₀ m hm
  · exact hms m hm

/-! ## What a step does -/

theorem onLink_links (f : Link → Link) (j : ℕ) :
    (s.onLink k f).links j = if j = k then f (s.links k) else s.links j :=
  Function.update_apply ..

@[simp] theorem posted_onLink (f : Link → Link) : (s.onLink k f).posted = s.posted := rfl

@[simp] theorem handled_onLink (f : Link → Link) : (s.onLink k f).handled = s.handled := rfl

theorem peer_onLink (f : Link → Link) (hf : ∀ l, (f l).peer = l.peer) (j : ℕ) :
    ((s.onLink k f).links j).peer = (s.links j).peer := by
  rw [onLink_links]
  split_ifs with hj
  · rw [hf, hj]
  · rfl

variable (rt) (parse : JsString → Option JsValue) (stringify : Bytes → Json → ℕ → Option Bytes)
  (v : Variant)

/-- What a step may do. -/
inductive Change (s : WebApp) : WebEvent → WebApp → Prop
  | idle (e : WebEvent) : Change s e s
  | client (e : ClientEvent) (hc : ∀ stringified sendFails, e ≠ .call stringified sendFails)
      (hm : ∀ k data, e ≠ .onmessage k data) :
    Change s (.client e) { s with client := s.client.step parse v e }
  | call (method : Bytes) (params : Json) (sendFails : Bool) :
    Change s (.call method params sendFails) (s.call parse stringify v method params sendFails)
  | read {k : ℕ} {frame : Bytes} {down : List Bytes} {text : JsString}
      (hd : (s.links k).down = frame :: down) (ht : utf16? frame = some text) :
    Change s (.message k) { s.onLink k fun l => { l with down := down } with
      client := s.client.step parse v (.onmessage k text) }
  | failed (k : ℕ) : Change s (.message k) (s.onLink k fun l => { l with down := [] })
  | established {k : ℕ} {wsi : Wsi} {server : System} (hk : k < s.client.sockets.length)
      (hw : wsi ∉ s.server.sessions) (h : s.server.step rt none (.established wsi) = some server) :
    Change s (.established k wsi)
      { s.onLink k fun l => { l with peer := .connected wsi } with server := server }
  | received {k : ℕ} {amb : Ambient} {wsi : Wsi} {r : Posted} {up : List Posted} {server : System}
      (hk : (s.links k).peer = .connected wsi) (hup : (s.links k).up = r :: up)
      (h : s.server.step rt none (.receive wsi amb r.text) = some server) :
    Change s (.receive k amb) { s.onLink k fun l => { l with up := up } with
      server := server
      handled := s.handled ++ [⟨r, amb, s.server.server⟩] }
  | written {k : ℕ} {wsi : Wsi} {server : System} {frames : List Bytes}
      (hk : (s.links k).peer = .connected wsi)
      (h : s.server.step rt none (.writeable wsi) = some server)
      (hf : frames = (server.framesOf wsi).drop (s.server.framesOf wsi).length) :
    Change s (.writeable k)
      { s.onLink k fun l => { l with down := l.down ++ frames } with server := server }
  | closed {k : ℕ} {wsi : Wsi} {server : System} (hk : (s.links k).peer = .connected wsi)
      (h : s.server.step rt none (.closed wsi) = some server) :
    Change s (.closed k) { s.onLink k fun l => { l with peer := .gone } with server := server }
  | other {cb : Callback} {wsi : Wsi} {server : System} (hw : cb.wsi? = some wsi)
      (ho : ¬ s.Owns wsi) (h : s.server.step rt none cb = some server) :
    Change s (.other cb) { s with server := server }

variable {rt parse stringify v} {e : WebEvent}

theorem change_of_step (h : s.step rt parse stringify v e = some s') :
    Change rt parse stringify v s e s' := by
  cases e with
  | client e =>
    obtain rfl := Option.some.inj h
    cases e with
    | call | onmessage => exact .idle _
    | onopen k =>
      simp only [onClient]
      split_ifs
      · exact .idle _
      · exact .client (.onopen k) (by simp) (by simp)
    | connect constructed => exact .client (.connect constructed) (by simp) (by simp)
    | disconnect => exact .client .disconnect (by simp) (by simp)
    | setRPCEnabled enabled => exact .client (.setRPCEnabled enabled) (by simp) (by simp)
    | onclose k => exact .client (.onclose k) (by simp) (by simp)
    | onerror k => exact .client (.onerror k) (by simp) (by simp)
    | timer constructed => exact .client (.timer constructed) (by simp) (by simp)
  | call method params sendFails =>
    obtain rfl := Option.some.inj h
    exact .call method params sendFails
  | message k =>
    obtain rfl := Option.some.inj h
    unfold message
    split
    · exact .idle _
    · rename_i frame down hd
      split
      · rename_i text ht
        exact .read hd ht
      · exact .failed k
  | established k wsi =>
    simp only [step] at h
    split_ifs at h with hk
    · obtain ⟨server, hserver, rfl⟩ := Option.map_eq_some_iff.1 h
      exact .established hk.1 hk.2.2 hserver
    · exact Option.some.inj h ▸ .idle _
  | receive k amb =>
    simp only [step] at h
    split at h
    · rename_i hk hup
      obtain ⟨server, hserver, rfl⟩ := Option.map_eq_some_iff.1 h
      exact .received hk hup hserver
    · exact Option.some.inj h ▸ .idle _
  | writeable k =>
    simp only [step] at h
    split at h
    · rename_i hk
      obtain ⟨server, hserver, rfl⟩ := Option.map_eq_some_iff.1 h
      exact .written hk hserver rfl
    · exact Option.some.inj h ▸ .idle _
  | closed k =>
    simp only [step] at h
    split at h
    · rename_i hk
      obtain ⟨server, hserver, rfl⟩ := Option.map_eq_some_iff.1 h
      exact .closed hk hserver
    · exact Option.some.inj h ▸ .idle _
  | other cb =>
    simp only [step] at h
    split at h
    · rename_i hw
      split_ifs at h with ho
      · exact Option.some.inj h ▸ .idle _
      · obtain ⟨server, hserver, rfl⟩ := Option.map_eq_some_iff.1 h
        exact .other hw ho hserver
    · exact Option.some.inj h ▸ .idle _

section Call

variable (s parse stringify v)

theorem call_server (method : Bytes) (params : Json) (sendFails : Bool) :
    (s.call parse stringify v method params sendFails).server = s.server
      ∧ (s.call parse stringify v method params sendFails).handled = s.handled
      ∧ ∀ k, ((s.call parse stringify v method params sendFails).links k).peer = (s.links k).peer
        ∧ ((s.call parse stringify v method params sendFails).links k).down
          = (s.links k).down := by
  unfold call
  dsimp only
  split
  · split_ifs
    · refine ⟨rfl, rfl, fun k => ?_⟩
      simp only [post]
      rw [onLink_links]
      split_ifs with hk
      · rw [hk]
        exact ⟨rfl, rfl⟩
      · exact ⟨rfl, rfl⟩
    · exact ⟨rfl, rfl, fun k => ⟨rfl, rfl⟩⟩
  · exact ⟨rfl, rfl, fun k => ⟨rfl, rfl⟩⟩

theorem call_client (method : Bytes) (params : Json) (sendFails : Bool) :
    (s.call parse stringify v method params sendFails).client = s.client.step parse v
      (.call (stringify method params (increment s.client.requestId)).isSome sendFails) := by
  unfold call
  dsimp only
  split
  · split_ifs <;> rfl
  · rfl

end Call

/-! ## The requests -/

/-- A request that was posted was handled, in its turn, or is on its way. -/
def InTurn (s : WebApp) : Prop :=
  ∀ k, (s.handled.map HandledRequest.posted).filter (·.link = k) ++ (s.links k).up
    = s.posted.filter (·.link = k)

theorem InTurn.link_eq (h : s.InTurn) {r : Posted} (hr : r ∈ (s.links k).up) : r.link = k := by
  have hmem : r ∈ s.posted.filter (·.link = k) := by
    rw [← h k]
    exact List.mem_append_right _ hr
  simpa using (List.mem_filter.1 hmem).2

theorem InTurn.mem_posted (h : s.InTurn) {x : HandledRequest} (hx : x ∈ s.handled) :
    x.posted ∈ s.posted := by
  have hmem : x.posted ∈ s.posted.filter (·.link = x.posted.link) := by
    rw [← h]
    exact List.mem_append_left _ (List.mem_filter.2 ⟨List.mem_map_of_mem hx, by simp⟩)
  exact (List.mem_filter.1 hmem).1

theorem InTurn.congr (h : s.InTurn) (hh : s'.handled = s.handled) (hp : s'.posted = s.posted)
    (hup : ∀ k, (s'.links k).up = (s.links k).up) : s'.InTurn := by
  intro k
  rw [hh, hp, hup]
  exact h k

theorem up_onLink (f : Link → Link) (hf : ∀ l, (f l).up = l.up) (j : ℕ) :
    ((s.onLink k f).links j).up = (s.links j).up := by
  rw [onLink_links]
  split_ifs with hj
  · rw [hf, hj]
  · rfl

theorem InTurn.post (h : s.InTurn) (r : Posted) : (s.post r).InTurn := by
  intro k
  simp only [WebApp.post, onLink_links, handled_onLink, List.filter_append]
  split_ifs with hk
  · subst hk
    rw [← h, ← List.append_assoc]
    simp
  · rw [← h]
    simp [Ne.symm hk]

theorem InTurn.change (h : s.InTurn) (hc : Change rt parse stringify v s e s') : s'.InTurn := by
  cases hc with
  | idle => exact h
  | client | other => exact h.congr rfl rfl fun _ => rfl
  | call method params sendFails =>
    unfold call
    dsimp only
    split
    · split_ifs
      · exact InTurn.post (h.congr rfl rfl fun _ => rfl) _
      · exact h.congr rfl rfl fun _ => rfl
    · exact h.congr rfl rfl fun _ => rfl
  | @received k amb wsi r up server hk hup =>
    have hr : r.link = k := h.link_eq (by rw [hup]; exact List.mem_cons_self)
    intro j
    simp only [onLink_links, posted_onLink, List.map_append, List.filter_append, List.map_cons,
      List.map_nil]
    split_ifs with hj
    · subst hj
      rw [← h, hup]
      simp [hr]
    · rw [← h]
      simp [hr, Ne.symm hj]
  | @read k _ down =>
    exact h.congr rfl rfl (up_onLink (fun l => { l with down := down }) fun _ => rfl)
  | failed k => exact h.congr rfl rfl (up_onLink (fun l => { l with down := [] }) fun _ => rfl)
  | @established k wsi =>
    exact h.congr rfl rfl (up_onLink (fun l => { l with peer := .connected wsi }) fun _ => rfl)
  | @written k _ _ frames =>
    exact h.congr rfl rfl (up_onLink (fun l => { l with down := l.down ++ frames }) fun _ => rfl)
  | closed => exact h.congr rfl rfl (up_onLink (fun l => { l with peer := .gone }) fun _ => rfl)

/-! ## The links -/

variable (rt) in
/-- The links as the server has them. -/
structure Linked (s : WebApp) : Prop where
  registered : s.server.Registered
  live : ∀ k wsi, (s.links k).peer = .connected wsi →
    k < s.client.sockets.length ∧ wsi ∈ s.server.sessions
  apart : ∀ k k' wsi, (s.links k).peer = .connected wsi → (s.links k').peer = .connected wsi →
    k = k'
  waiting : ∀ c p k, s.server.server.connections.lookup c = some p →
    (s.links k).peer = .connected p.obj.wsi → s.Carries rt k p.obj.writeBuffer
  frames : ∀ k, ∀ f ∈ (s.links k).down, f ≠ [] ∧ s.Carries rt k f

/-- A step in which the server does nothing. -/
theorem Linked.away (h : Linked rt s) (hserver : s'.server = s.server)
    (hsockets : s.client.sockets.length ≤ s'.client.sockets.length)
    (hpeer : ∀ k, (s'.links k).peer = (s.links k).peer)
    (hdown : ∀ k, (s'.links k).down ⊆ (s.links k).down) (hh : s'.handled = s.handled) :
    Linked rt s' where
  registered := hserver ▸ h.registered
  live k wsi hk := by
    rw [hpeer] at hk
    rw [hserver]
    exact ⟨(h.live k wsi hk).1.trans_le hsockets, (h.live k wsi hk).2⟩
  apart k k' wsi hk hk' := by
    rw [hpeer] at hk hk'
    exact h.apart k k' wsi hk hk'
  waiting c p k hp hk := by
    rw [hserver] at hp
    rw [hpeer] at hk
    exact (h.waiting c p k hp hk).mono fun x hx => hh ▸ hx
  frames k f hf := by
    obtain ⟨hne, hc⟩ := h.frames k f (hdown k hf)
    exact ⟨hne, hc.mono fun x hx => hh ▸ hx⟩

/-- A step that is a callback of the server's. -/
theorem Linked.callback (h : Linked rt s) {cb : Callback}
    (hstep : s.server.step rt none cb = some s'.server)
    (hsockets : s'.client.sockets = s.client.sockets)
    (hpeer : ∀ k wsi, (s'.links k).peer = .connected wsi →
      ((s.links k).peer = .connected wsi ∧ cb ≠ .closed wsi)
        ∨ (k < s.client.sockets.length ∧ cb = .established wsi ∧ wsi ∉ s.server.sessions
          ∧ ∀ j ≠ k, (s'.links j).peer = (s.links j).peer))
    (hqueued : ∀ c p k, s.server.server.connections.lookup c = some p →
      (s.links k).peer = .connected p.obj.wsi →
      ∀ m ∈ s.server.queued rt c p.obj.wsi cb, s'.For rt k m)
    (hdown : ∀ k, ∀ f ∈ (s'.links k).down, f ∉ (s.links k).down → ∃ c p,
      s.server.server.connections.lookup c = some p ∧ (s.links k).peer = .connected p.obj.wsi
        ∧ f = p.obj.writeBuffer ∧ f ≠ [])
    (hh : s.handled ⊆ s'.handled) : Linked rt s' := by
  have hmove := h.registered.move rt none hstep
  refine ⟨h.registered.step rt none hstep, fun k wsi hk => ?_, fun k k' wsi hk hk' => ?_,
    fun c p' k hp' hk => ?_, fun k f hf => ?_⟩
  · rw [hsockets]
    rcases hpeer k wsi hk with ⟨hk, hc⟩ | ⟨hlt, rfl, hw, -⟩
    · exact ⟨(h.live k wsi hk).1, (hmove.mem_sessions_iff wsi).2 (.inr ⟨(h.live k wsi hk).2, hc⟩)⟩
    · refine ⟨hlt, ?_⟩
      generalize s'.server = server at hmove
      cases hmove with
      | idle hi => exact absurd hi hw
      | opened => exact (AList.mem_insert _).2 (.inl rfl)
  · rcases hpeer k wsi hk with ⟨hk, -⟩ | ⟨-, rfl, hw, hrest⟩
    · rcases hpeer k' wsi hk' with ⟨hk', -⟩ | ⟨-, rfl, hw, -⟩
      · exact h.apart k k' wsi hk hk'
      · exact absurd (h.live k wsi hk).2 hw
    · by_contra hne
      rw [hrest k' (Ne.symm hne)] at hk'
      exact hw (h.live k' wsi hk').2
  · rcases hmove.writeBuffer h.registered hp' with ⟨wsi, -, -, -, hb⟩ | ⟨p, hp, hw, hb⟩
    · exact ⟨[_], by rw [hb, List.flatMap_singleton], by simp [For]⟩
    · obtain ⟨session, hs, -⟩ := h.registered.slot c p hp
      have hk : (s.links k).peer = .connected p.obj.wsi := by
        rcases hpeer k _ hk with ⟨hk, -⟩ | ⟨-, -, hn, -⟩
        · rw [hk, hw]
        · rw [hw] at hn
          exact absurd (Dict.mem_iff_exists.2 ⟨session, hs⟩) hn
      rcases hb with hb | hb <;> rw [hb]
      · exact carries_nil
      · exact ((h.waiting c p k hp hk).mono hh).append (hqueued c p k hp hk)
  · by_cases hold : f ∈ (s.links k).down
    · obtain ⟨hne, hc⟩ := h.frames k f hold
      exact ⟨hne, hc.mono hh⟩
    · obtain ⟨c, p, hp, hk, rfl, hne⟩ := hdown k f hf hold
      exact ⟨hne, (h.waiting c p k hp hk).mono hh⟩

/-- The frames that wait are those that waited before. -/
theorem down_onLink (f : Link → Link) (hf : ∀ l, (f l).down ⊆ l.down) (j : ℕ) :
    ((s.onLink k f).links j).down ⊆ (s.links j).down := by
  rw [onLink_links]
  split_ifs with hj
  · rw [hj]
    exact hf _
  · exact List.Subset.refl _

theorem Linked.received (h : Linked rt s) (hq : s.InTurn) (amb : Ambient) {wsi : Wsi} {r : Posted}
    {up : List Posted} {server : System} (hk : (s.links k).peer = .connected wsi)
    (hup : (s.links k).up = r :: up)
    (hstep : s.server.step rt none (.receive wsi amb r.text) = some server) :
    Linked rt { s.onLink k fun l => { l with up := up } with
      server := server
      handled := s.handled ++ [⟨r, amb, s.server.server⟩] } := by
  have hpeer := peer_onLink (s := s) (k := k) (fun l => { l with up := up }) fun _ => rfl
  have hdown := down_onLink (s := s) (k := k) (fun l => { l with up := up })
    fun _ => List.Subset.refl _
  refine h.callback hstep rfl (fun j w hj => .inl ⟨(hpeer j).symm.trans hj, by simp⟩)
    (fun c p j hp hj m hm => ?_) (fun j f hf hnf => absurd (hdown j hf) hnf)
    (List.subset_append_left _ _)
  simp only [System.queued] at hm
  split_ifs at hm
  · rcases List.mem_append.1 hm with hm | hm
    · obtain ⟨kv, -, rfl⟩ := List.mem_map.1 hm
      exact .inr (.inl ⟨kv, rfl⟩)
    · simp only [decide_eq_true_eq] at hm
      split_ifs at hm with hw
      · -- The reply goes to the link the request came over.
        refine .inr (.inr ⟨⟨r, amb, s.server.server⟩, by simp, ?_, ?_⟩)
        · rw [← h.apart k j wsi hk (hw ▸ hj)]
          exact hq.link_eq (by rw [hup]; exact List.mem_cons_self)
        · rw [List.mem_singleton.1 hm, HandledRequest.reply, HandledRequest.outcome_eq]
      · cases hm
  · cases hm

theorem Linked.written (h : Linked rt s) {wsi : Wsi} {server : System} {frames : List Bytes}
    (hk : (s.links k).peer = .connected wsi)
    (hstep : s.server.step rt none (.writeable wsi) = some server)
    (hframes : frames = (server.framesOf wsi).drop (s.server.framesOf wsi).length) :
    Linked rt { s.onLink k fun l => { l with down := l.down ++ frames } with
      server := server } := by
  have hpeer := peer_onLink (s := s) (k := k) (fun l => { l with down := l.down ++ frames })
    fun _ => rfl
  refine h.callback hstep rfl (fun j w hj => .inl ⟨(hpeer j).symm.trans hj, by simp⟩)
    (fun _ _ _ _ _ => by simp [System.queued]) (fun j f hf hnf => ?_) (List.Subset.refl _)
  simp only [onLink_links] at hf
  split_ifs at hf with hjk
  · subst hjk
    rcases List.mem_append.1 hf with hf | hf
    · exact absurd hf hnf
    · have hmove := h.registered.move rt none hstep
      rcases hmove.writeable h.registered with rfl | ⟨c, p, hp, hw, hne, hnew⟩
      · rw [hframes, List.drop_length] at hf
        cases hf
      · rw [hframes, hnew, List.drop_left, List.mem_singleton] at hf
        exact ⟨c, p, hp, hw ▸ hk, hf, hf ▸ hne⟩
  · exact absurd hf hnf

theorem Linked.other (h : Linked rt s) {cb : Callback} {wsi : Wsi} {server : System}
    (hw : cb.wsi? = some wsi) (ho : ¬ s.Owns wsi)
    (hstep : s.server.step rt none cb = some server) : Linked rt { s with server := server } := by
  have hnot (j : ℕ) : (s.links j).peer ≠ .connected wsi :=
    fun hj => ho ⟨j, (h.live j wsi hj).1, hj⟩
  refine h.callback hstep rfl (fun j w hj => .inl ⟨hj, ?_⟩) (fun c p j hp hj m hm => ?_)
    (fun j f hf hnf => absurd hf hnf) (List.Subset.refl _)
  · rintro rfl
    obtain rfl := Option.some.inj hw
    exact hnot j hj
  · cases cb with
    | receive w amb message =>
      obtain rfl := Option.some.inj hw
      simp only [System.queued] at hm
      split_ifs at hm
      · rw [produced, if_neg, List.append_nil] at hm
        · obtain ⟨kv, -, rfl⟩ := List.mem_map.1 hm
          exact .inr (.inl ⟨kv, rfl⟩)
        · simp only [decide_eq_true_eq]
          rintro rfl
          exact hnot j hj
      · cases hm
    | broadcast | sendToConnection => cases hw
    | _ => cases hm

theorem Linked.change (h : Linked rt s) (hq : s.InTurn)
    (hc : Change rt parse stringify v s e s') : Linked rt s' := by
  cases hc with
  | idle => exact h
  | client e =>
    exact h.away rfl (RPCClient.sockets_length_le parse v s.client e) (fun _ => rfl)
      (fun _ => List.Subset.refl _) rfl
  | call method params sendFails =>
    obtain ⟨hserver, hh, hlinks⟩ := call_server s parse stringify v method params sendFails
    refine h.away hserver ?_ (fun k => (hlinks k).1) (fun k => ?_) hh
    · rw [call_client]
      exact RPCClient.sockets_length_le parse v s.client _
    · rw [(hlinks k).2]
      exact List.Subset.refl _
  | @read k frame down text hd =>
    refine h.away rfl (RPCClient.sockets_length_le parse v s.client (.onmessage k text))
      (peer_onLink (fun l => { l with down := down }) fun _ => rfl) (fun j => ?_) rfl
    simp only [onLink_links]
    split_ifs with hj
    · rw [hj, hd]
      exact List.subset_cons_self frame down
    · exact List.Subset.refl _
  | failed k =>
    exact h.away rfl le_rfl (peer_onLink _ fun _ => rfl)
      (down_onLink (fun l => { l with down := [] }) fun _ => List.nil_subset _) rfl
  | @established k wsi server hk hw hstep =>
    have hdown := down_onLink (s := s) (k := k) (fun l => { l with peer := .connected wsi })
      fun _ => List.Subset.refl _
    refine h.callback hstep rfl (fun j w hj => ?_) (fun _ _ _ _ _ => by simp [System.queued])
      (fun j f hf hnf => absurd (hdown j hf) hnf) (List.Subset.refl _)
    simp only [onLink_links] at hj ⊢
    split_ifs at hj with hjk
    · obtain rfl := Peer.connected.inj hj
      subst hjk
      refine .inr ⟨hk, rfl, hw, fun i hi => ?_⟩
      rw [if_neg hi]
    · exact .inl ⟨hj, by simp⟩
  | @received k amb _ _ _ _ hk hup hstep => exact h.received hq amb hk hup hstep
  | written hk hstep hf => exact h.written hk hstep hf
  | @closed k wsi server hk hstep =>
    have hdown := down_onLink (s := s) (k := k) (fun l => { l with peer := .gone })
      fun _ => List.Subset.refl _
    refine h.callback hstep rfl (fun j w hj => ?_) (fun _ _ _ _ _ => by simp [System.queued])
      (fun j f hf hnf => absurd (hdown j hf) hnf) (List.Subset.refl _)
    simp only [onLink_links] at hj
    split_ifs at hj with hjk
    refine .inl ⟨hj, fun heq => hjk ?_⟩
    obtain rfl := Callback.closed.inj heq
    exact h.apart j k wsi hj hk
  | other hw ho hstep => exact h.other hw ho hstep

end WebApp

end OcppServer
