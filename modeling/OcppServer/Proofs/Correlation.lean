import OcppServer.Proofs.Calls

/-!
# Requests and replies belong together

The counter gives each request its id, until it no longer grows; and a message finds the one call
that waits for its id. What goes wrong is the order of things in `handleMessage`: the request is
forgotten before `new Error` converts the error, and if that throws, the call is never settled. So
calls and replies correspond exactly as long as no reply is garbled and the ids last (`Tame`).
-/

namespace OcppServer

namespace RPCClient

variable (parse : JsString → Option JsValue)

/-- The ids of the calls that were sent. -/
def sentIds (c : RPCClient) : List ℕ :=
  c.calls.filterMap fun call => call.carrier.map fun _ => call.id

/-- What may happen to calls in a step of the web application's client. -/
structure Correlates (c : RPCClient) (e : ClientEvent) : Prop where
  distinct : (c.step parse .webJs e).sentIds.Nodup
  once : ∀ (i : ℕ) (call : Call), c.calls[i]? = some call → call.promise ≠ .pending →
    (c.step parse .webJs e).calls[i]? = some call
  /-- A call that changes was pending and gets the message with its id. -/
  own : ∀ i call call', c.calls[i]? = some call →
    (c.step parse .webJs e).calls[i]? = some call' → call' ≠ call →
    c.pendingRequests.lookup call.id = some i ∧ ∃ k data message, e = .onmessage k data
      ∧ parsed? parse .webJs data = some message ∧ replyId? message = some call.id
  answered : ∀ k data message n i call, e = .onmessage k data → c.sockets[k]? = some .open →
    parsed? parse .webJs data = some message → replyId? message = some n →
    c.pendingRequests.lookup n = some i → c.calls[i]? = some call → call.promise = .pending →
    (c.step parse .webJs e).calls[i]? = some { call with
      promise := if truthy? (message.get? (js "error")) then .rejected
        else .resolved (some message) }
  unrelated : ∀ k data, e = .onmessage k data →
    (∀ message n, parsed? parse .webJs data = some message → replyId? message = some n →
      c.pendingRequests.lookup n = none) →
    (c.step parse .webJs e).calls = c.calls
      ∧ (c.step parse .webJs e).pendingRequests = c.pendingRequests
  thrown : ∀ sendFails, e = .call true sendFails → c.connected = true → c.send sendFails = none →
    (c.step parse .webJs e).calls
        = c.calls ++ [⟨(c.step parse .webJs e).requestId, none, .rejected⟩]
      ∧ (c.step parse .webJs e).pendingRequests.lookup (c.step parse .webJs e).requestId = none

/-- A call is sent with a new id, and a reply that settles a call is not garbled. -/
def Tame (c : RPCClient) : ClientEvent → Prop
  | .call stringified sendFails => c.connected = true → stringified = true →
    c.send sendFails ≠ none → c.requestId < 2 ^ 53 ∨ c.requestId ∉ c.sentIds
  | .onmessage k data => c.sockets[k]? = some .open →
    ∀ message n i call, parsed? parse .webJs data = some message →
    c.pendingCall? message = some (n, i) → c.calls[i]? = some call → call.promise = .pending →
    garbled message = false
  | _ => True

theorem not_deaf (c : RPCClient) : ¬ c.Deaf .webJs := by
  simp [Deaf, Variant.embedded]

theorem filterMap_modify {α β : Type*} {f : α → Option β} {g : α → α} (h : ∀ a, f (g a) = f a) :
    ∀ (l : List α) (i : ℕ), (l.modify i g).filterMap f = l.filterMap f
  | [], i => by cases i <;> rfl
  | a :: l, 0 => by simp [List.filterMap_cons, h a]
  | a :: l, i + 1 => by simp [List.filterMap_cons, filterMap_modify h l i]

variable {parse} {c c' : RPCClient}

theorem sentIds_answered {message : JsValue} {i : ℕ}
    (hc : c'.calls = OcppServer.answered .webJs message i c.calls) : c'.sentIds = c.sentIds := by
  unfold sentIds
  rw [hc, OcppServer.answered]
  split_ifs
  · rfl
  · exact filterMap_modify (by simp) _ _

theorem sentIds_append {call : Call} (hc : c'.calls = c.calls ++ [call]) :
    c'.sentIds = c.sentIds ++ (call.carrier.map fun _ => call.id).toList := by
  unfold sentIds
  rw [hc, List.filterMap_append, List.filterMap_cons, List.filterMap_nil]
  rcases call.carrier <;> rfl

/-- The next id is new unless the counter stands still at an id that was sent. -/
theorem increment_notMem_iff (hb : Booked c) :
    increment c.requestId ∉ c.sentIds ↔ c.requestId < 2 ^ 53 ∨ c.requestId ∉ c.sentIds := by
  unfold increment
  split_ifs with hlt
  · refine iff_of_true (fun hm => ?_) (.inl hlt)
    obtain ⟨call, hcall, hid⟩ := List.mem_filterMap.1 hm
    obtain ⟨-, -, hid⟩ := Option.map_eq_some_iff.1 hid
    have := hb.numbered call hcall
    omega
  · rw [or_iff_right hlt]

/-- A step that neither enters a call nor answers one. -/
theorem Correlates.idle {e : ClientEvent} (hn : c.sentIds.Nodup)
    (hb : (c.step parse .webJs e).book = c.book)
    (hreply : ∀ k data message n i, e = .onmessage k data → c.sockets[k]? = some .open →
      parsed? parse .webJs data = some message → c.pendingCall? message ≠ some (n, i))
    (hcall : ∀ stringified sendFails, e = .call stringified sendFails → c.connected = false) :
    Correlates parse c e := by
  obtain ⟨-, hp, hc⟩ := book_eq hb
  refine ⟨?_, ?_, ?_, ?_, ?_, ?_⟩
  · rw [sentIds, hc]
    exact hn
  · rw [hc]
    exact fun i call hi _ => hi
  · rw [hc]
    intro i call call' hi hi' hne
    exact absurd (Option.some.inj (hi'.symm.trans hi)) hne
  · intro k data message n i call he ho hm hid hl
    exact absurd (pendingCall?_eq_some.2 ⟨hid, hl⟩) (hreply k data message n i he ho hm)
  · exact fun _ _ _ _ => ⟨hc, hp⟩
  · intro sendFails he hconn
    rw [hcall true sendFails he] at hconn
    cases hconn

theorem Correlates.enter {stringified sendFails : Bool} {call : Call}
    (hc : (c.step parse .webJs (.call stringified sendFails)).calls = c.calls ++ [call])
    (hn : (c.step parse .webJs (.call stringified sendFails)).sentIds.Nodup)
    (hthrown : stringified = true → c.send sendFails = none →
      call = ⟨(c.step parse .webJs (.call true sendFails)).requestId, none, .rejected⟩
        ∧ (c.step parse .webJs (.call true sendFails)).pendingRequests.lookup
          (c.step parse .webJs (.call true sendFails)).requestId = none) :
    Correlates parse c (.call stringified sendFails) := by
  have hleft : ∀ {i : ℕ} {d : Call}, c.calls[i]? = some d →
      (c.step parse .webJs (.call stringified sendFails)).calls[i]? = some d := by
    intro i d hi
    rw [hc, List.getElem?_append_left (List.getElem?_eq_some_iff.1 hi).1, hi]
  refine ⟨hn, fun i d hi _ => hleft hi, ?_, by simp, by simp, ?_⟩
  · intro i d d' hi hi' hne
    exact absurd (Option.some.inj (hi'.symm.trans (hleft hi))) hne
  · rintro sf he - hs
    obtain ⟨rfl, rfl⟩ := ClientEvent.call.inj he
    obtain ⟨hcall, hl⟩ := hthrown rfl hs
    exact ⟨hcall ▸ hc, hl⟩

theorem amend_of_settled {message : JsValue} {call : Call} (h : call.promise ≠ .pending) :
    call.amend .webJs message = call := by
  unfold Call.amend
  split_ifs
  · rfl
  · exact settle_of_settled h

/-- The reply with a pending id changes the call that waits for it, and no other. -/
theorem correlates_reply (hb : Booked c) (hn : c.sentIds.Nodup) {k n i : ℕ} {data : JsString}
    {message : JsValue} (ho : c.sockets[k]? = some .open)
    (hm : parsed? parse .webJs data = some message) (hp : c.pendingCall? message = some (n, i))
    (hc : (c.step parse .webJs (.onmessage k data)).calls
      = OcppServer.answered .webJs message i c.calls) :
    Correlates parse c (.onmessage k data) ↔ Tame parse c (.onmessage k data) := by
  obtain ⟨hid, hl⟩ := pendingCall?_eq_some.1 hp
  obtain ⟨d, hi, rfl⟩ := hb.index n i hl
  have hi' : (c.step parse .webJs (.onmessage k data)).calls[i]?
      = some (d.amend .webJs message) := by
    rw [hc, answered_getElem?, hi, Option.map_some, if_pos rfl]
  constructor
  · intro h _ message' n' i' call hm' hp' hcall hpend
    obtain rfl := Option.some.inj (hm.symm.trans hm')
    obtain ⟨rfl, rfl⟩ := Prod.mk.inj (Option.some.inj (hp.symm.trans hp'))
    obtain rfl := Option.some.inj (hi.symm.trans hcall)
    have hans := h.answered k data message d.id i d rfl ho hm hid hl hi hpend
    by_contra hg
    rw [hi', Call.amend, if_pos (by simpa using hg)] at hans
    have hset := congrArg Call.promise (Option.some.inj hans)
    rw [hpend] at hset
    dsimp only at hset
    split_ifs at hset
  · intro htame
    refine ⟨by rw [sentIds_answered hc]; exact hn, ?_, ?_, ?_, ?_, by simp⟩
    · intro j call hj hset
      rw [hc, answered_getElem?, hj, Option.map_some]
      split_ifs
      · rw [amend_of_settled hset]
      · rfl
    · intro j call call' hj hj' hne
      rw [hc, answered_getElem?, hj, Option.map_some] at hj'
      split_ifs at hj' with hij
      · subst hij
        obtain rfl := Option.some.inj (hi.symm.trans hj)
        exact ⟨hl, k, data, message, rfl, hm, hid⟩
      · exact absurd (Option.some.inj hj').symm hne
    · intro k' data' message' n j call he ho' hm' hid' hl' hj hpend
      obtain ⟨rfl, rfl⟩ := ClientEvent.onmessage.inj he
      obtain rfl := Option.some.inj (hm.symm.trans hm')
      obtain rfl := Option.some.inj (hid.symm.trans hid')
      obtain rfl := Option.some.inj (hl.symm.trans hl')
      obtain rfl := Option.some.inj (hi.symm.trans hj)
      have hg := htame ho message d.id i d hm hp hi hpend
      rw [hi', Call.amend, if_neg (by simp [hg]), settle_of_pending hpend]
      rfl
    · intro k' data' he hnone
      obtain ⟨rfl, rfl⟩ := ClientEvent.onmessage.inj he
      rw [hnone message d.id hm hid] at hl
      cases hl

theorem correlates_step (hb : Booked c) (hn : c.sentIds.Nodup) (e : ClientEvent) :
    Correlates parse c e ↔ Tame parse c e := by
  obtain ⟨b, hbook, hstep⟩ := exists_bookStep parse .webJs c e
  cases hstep with
  | refused href =>
    have hconn := href.resolve_left (not_deaf c)
    refine iff_of_true (.idle hn hbook (by simp) fun _ _ _ => hconn) fun hc => ?_
    rw [hconn] at hc
    cases hc
  | @sent sendFails k hd hc hs =>
    simp only [book, Prod.mk.injEq] at hbook
    obtain ⟨hr, hp, hcalls⟩ := hbook
    have hids : (c.step parse .webJs (.call true sendFails)).sentIds.Nodup
        ↔ c.requestId < 2 ^ 53 ∨ c.requestId ∉ c.sentIds := by
      rw [← increment_notMem_iff hb, sentIds_append hcalls, Option.map_some, Option.toList_some,
        ← List.concat_eq_append, List.nodup_concat]
      exact and_iff_left hn
    simp only [Tame, hc, hs, ne_eq, reduceCtorEq, not_false_eq_true, forall_const]
    refine ⟨fun h => hids.1 h.distinct, fun h => .enter hcalls (hids.2 h) fun _ hs' => ?_⟩
    rw [hs] at hs'
    cases hs'
  | @failed stringified sendFails hd hc hs =>
    simp only [book, Prod.mk.injEq] at hbook
    obtain ⟨hr, hp, hcalls⟩ := hbook
    have hids := sentIds_append hcalls
    simp only [Option.map_none, Option.toList_none, List.append_nil] at hids
    refine iff_of_true (.enter hcalls (hids ▸ hn) fun hstr _ => ?_) fun _ hstr hsome => ?_
    · subst hstr
      rw [hr, hp]
      exact ⟨rfl, AList.lookup_erase _ _⟩
    · exact absurd (hs hstr) hsome
  | replied ho hd hm hp =>
    simp only [book, Prod.mk.injEq] at hbook
    exact correlates_reply hb hn ho hm hp hbook.2.2
  | @passed k data hpass =>
    refine iff_of_true (.idle hn hbook ?_ (by simp)) fun ho message n i call hm hp => ?_
    · intro k' data' message n i he ho hm hp
      obtain ⟨rfl, rfl⟩ := ClientEvent.onmessage.inj he
      rw [hpass ho (not_deaf c) message hm] at hp
      cases hp
    · rw [hpass ho (not_deaf c) message hm] at hp
      cases hp
  | other hc hm =>
    refine iff_of_true (.idle hn hbook ?_ ?_) ?_
    · exact fun k data _ _ _ he => absurd he (hm k data)
    · exact fun s f he => absurd he (hc s f)
    · cases e with
      | call => exact absurd rfl (hc _ _)
      | onmessage => exact absurd rfl (hm _ _)
      | _ => trivial

/-- In every run requests and replies belong together exactly when each event is tame. -/
theorem correlates_iff (parse : JsString → Option JsValue) (events : List ClientEvent) :
    Runs.Throughout (step parse .webJs) (Correlates parse) {} events
      ↔ Runs.Throughout (step parse .webJs) (Tame parse) {} events := by
  have hstep : ∀ c e, Booked c ∧ c.sentIds.Nodup → (Correlates parse c e ↔ Tame parse c e) :=
    fun c e h => correlates_step h.1 h.2 e
  refine Runs.throughout_iff (step parse .webJs) hstep (fun c e h he => ?_)
    ⟨⟨by simp, by simp⟩, by simp [sentIds]⟩ events
  exact ⟨h.1.step parse .webJs e, ((hstep c e h).2 he).distinct⟩

/-- The reply to the first call carries an error whose `toString` is no function. -/
theorem garbled_reply :
    ¬ Runs.Throughout
      (step (fun _ => some (.obj [(js "id", .num 1),
        (js "error", .obj [(js "toString", .num 1)])])) .webJs)
      (Correlates fun _ => some (.obj [(js "id", .num 1),
        (js "error", .obj [(js "toString", .num 1)])])) {}
      [.connect true, .onopen 0, .call true false,
        .onmessage 0 (js "\x7b\"id\":1,\"error\":\x7b\"toString\":1\x7d\x7d")] := by
  intro h
  have hreply := h [.connect true, .onopen 0, .call true false] _ [] rfl
  have := hreply.answered 0 _ _ 1 0 ⟨1, some 0, .pending⟩ rfl rfl rfl rfl rfl rfl rfl
  cases this

end RPCClient

end OcppServer
