import OcppServer.Proofs.Calls

/-!
# Every call is settled

A call is settled by a reply that the client takes in, or at once if it cannot be sent. A close
event settles nothing: what is pending on the socket stays so. Nor is a reply of any use while
messages are ignored, or if its error does not convert to a string, which is noticed only after
the request was forgotten. Apart from this every call is settled when its fate is known (`Heeds`),
until the ids run out.
-/

namespace OcppServer

namespace RPCClient

variable (parse : JsString → Option JsValue) (v : Variant)

/-- A request is forgotten only once its call is settled; and after the close event of a socket
the calls sent on it are, and are forgotten. -/
structure Settled (c : RPCClient) : Prop where
  awaited : ∀ i call, c.calls[i]? = some call → call.promise = .pending →
    c.pendingRequests.lookup call.id = some i
  closed : ∀ i k call, c.calls[i]? = some call → call.carrier = some k →
    c.sockets[k]? = some .closed →
    call.promise ≠ .pending ∧ c.pendingRequests.lookup call.id ≠ some i

/-- After a reply that a socket delivers, the calls with its id are settled and forgotten, too. -/
structure Settles (c : RPCClient) (e : ClientEvent) : Prop where
  settled : Settled (c.step parse v e)
  replied : ∀ k data message n, e = .onmessage k data → c.sockets[k]? = some .open →
    parsed? parse v data = some message → replyId? message = some n →
    (c.step parse v e).pendingRequests.lookup n = none
      ∧ ∀ call ∈ (c.step parse v e).calls, call.id = n → call.promise ≠ .pending

/-- A call is sent with a new id and on a socket that is not closed; a reply is taken in; and a
socket closes with no request pending on it. -/
def Heeds (c : RPCClient) : ClientEvent → Prop
  | .call stringified sendFails => ¬ c.Deaf v → c.connected = true →
    (c.requestId < 2 ^ 53 ∨ ∀ call ∈ c.calls, call.id = c.requestId → call.promise ≠ .pending)
      ∧ ∀ k, stringified = true → c.send sendFails = some k → c.sockets[k]? ≠ some .closed
  | .onmessage k data => c.sockets[k]? = some .open →
    ∀ message n i, parsed? parse v data = some message → c.pendingCall? message = some (n, i) →
    ¬ c.Deaf v ∧ ∀ call, c.calls[i]? = some call → call.promise = .pending →
      garbled message = false
  | .onclose k => ∀ r, c.sockets[k]? = some r → r ≠ .closed →
    ∀ n i call, c.pendingRequests.lookup n = some i → c.calls[i]? = some call →
    call.carrier ≠ some k
  | _ => True

theorem closed_connect (origin : Origin) (constructed : Bool) (c : RPCClient) (k : ℕ) :
    (c.connect v origin constructed).sockets[k]? = some ReadyState.closed
      ↔ c.sockets[k]? = some .closed := by
  unfold connect
  split_ifs
  · simp only [note]
    rw [List.getElem?_append]
    split_ifs with hk
    · rfl
    · simp [List.getElem?_singleton, List.getElem?_eq_none (not_lt.1 hk)]
  · rfl
  · rfl

theorem closed_disconnect (c : RPCClient) (k : ℕ) :
    c.disconnect.sockets[k]? = some ReadyState.closed ↔ c.sockets[k]? = some .closed := by
  rcases disconnect_eq c with ⟨-, h⟩ | ⟨j, -, h⟩
  · rw [h]
    rfl
  rcases close_eq j c.halted with ⟨h', -⟩ | ⟨hlt, hne, h'⟩
  · rw [h, h']
    rfl
  · rw [h, h']
    simp only [setSocket, List.getElem?_set]
    split_ifs with hjk
    · subst hjk
      exact iff_of_false (by simp) hne
    · rfl

/-- Only a close event closes a socket, and no event undoes that. -/
theorem closed_step {c : RPCClient} {e : ClientEvent} (he : ∀ k, e ≠ .onclose k) (j : ℕ) :
    (c.step parse v e).sockets[j]? = some ReadyState.closed ↔ c.sockets[j]? = some .closed := by
  have hlink : ∀ c' : RPCClient, c'.link = c.link →
      (c'.sockets[j]? = some .closed ↔ c.sockets[j]? = some .closed) := by
    intro c' hl
    rw [(link_eq hl).2.2.2.1]
  cases e with
  | connect constructed => exact closed_connect v .app constructed (c.note _) j
  | disconnect => exact closed_disconnect (c.note _) j
  | call stringified sendFails => exact hlink _ (link_call v _ _ c)
  | setRPCEnabled enabled => exact hlink _ (link_setRPCEnabled v enabled c)
  | onopen k =>
    simp only [step]
    split_ifs with hk
    · simp only [onopen, emit, note, setSocket, List.getElem?_set]
      split_ifs with hkj hlt
      · subst hkj
        simp [hk]
      · subst hkj
        simp [hk]
      · rfl
    · rfl
  | onmessage k data =>
    simp only [step]
    split_ifs
    · exact hlink _ (link_onmessage parse v data c)
    · rfl
  | onclose k => exact absurd rfl (he k)
  | onerror k =>
    simp only [step]
    split_ifs <;> rfl
  | timer constructed =>
    simp only [step]
    split_ifs
    · rfl
    · exact closed_connect v .auto constructed { c with timers := c.timers - 1 } j

theorem closed_onclose {c : RPCClient} {k j : ℕ}
    (h : (c.step parse v (.onclose k)).sockets[j]? = some .closed) :
    c.sockets[j]? = some .closed ∨ (j = k ∧ k < c.sockets.length) := by
  simp only [step] at h
  split at h
  · exact .inl h
  · exact .inl h
  · rw [(onclose_eq v _).2.2] at h
    simp only [note, setSocket, List.getElem?_set] at h
    split_ifs at h with hkj hlt
    · exact .inr ⟨hkj.symm, hlt⟩
    · exact .inl h

theorem onclose_closed {c : RPCClient} {k : ℕ} (h : k < c.sockets.length) :
    (c.step parse v (.onclose k)).sockets[k]? = some .closed := by
  simp only [step]
  split
  · rename_i hk
    simp [h] at hk
  · assumption
  · rw [(onclose_eq v _).2.2]
    simp [note, setSocket, h]

variable {c c' : RPCClient}

theorem Settled.congr (h : Settled c) (hb : c'.book = c.book)
    (hs : ∀ k : ℕ, c'.sockets[k]? = some ReadyState.closed ↔ c.sockets[k]? = some .closed) :
    Settled c' := by
  obtain ⟨-, hp, hc⟩ := book_eq hb
  refine ⟨?_, ?_⟩
  · rw [hp, hc]
    exact h.awaited
  · intro i k call hi hk ho
    rw [hp]
    rw [hc] at hi
    exact h.closed i k call hi hk ((hs k).1 ho)

/-- The calls not settled yet have other ids than the next one. -/
theorem Booked.id_ne (h : Booked c)
    (hfresh : c.requestId < 2 ^ 53 ∨
      ∀ call ∈ c.calls, call.id = c.requestId → call.promise ≠ .pending)
    {call : Call} (hc : call ∈ c.calls) (hp : call.promise = .pending) :
    call.id ≠ increment c.requestId := by
  intro heq
  have hle := h.numbered call hc
  unfold increment at heq
  split_ifs at heq with hlt
  · omega
  · exact (hfresh.resolve_left hlt) call hc heq hp

/-- What a call that got the next id, sent or failed, needs. -/
theorem settled_enter_iff (h : Settled c) (hb : Booked c) {call : Call}
    (hid : call.id = increment c.requestId) (hc : c'.calls = c.calls ++ [call])
    (hs : c'.sockets = c.sockets)
    (hnext : ∀ i, c'.pendingRequests.lookup (increment c.requestId) = some i → i = c.calls.length)
    (hold : ∀ n, n ≠ increment c.requestId →
      c'.pendingRequests.lookup n = c.pendingRequests.lookup n)
    (hnew : call.promise = .pending →
      c'.pendingRequests.lookup (increment c.requestId) = some c.calls.length)
    (hfail : call.promise ≠ .pending → call.carrier = none) :
    Settled c' ↔
      (c.requestId < 2 ^ 53 ∨ ∀ call ∈ c.calls, call.id = c.requestId → call.promise ≠ .pending)
        ∧ ∀ k, call.carrier = some k → c.sockets[k]? ≠ some .closed := by
  have hleft : ∀ {i : ℕ} {d : Call}, c.calls[i]? = some d → i < c.calls.length
      ∧ c'.calls[i]? = some d := by
    intro i d hi
    have hlt := (List.getElem?_eq_some_iff.1 hi).1
    exact ⟨hlt, by rw [hc, List.getElem?_append_left hlt, hi]⟩
  have hlast : c'.calls[c.calls.length]? = some call := by simp [hc]
  constructor
  · intro h'
    refine ⟨?_, fun k hk ho => ?_⟩
    · by_cases hlt : c.requestId < 2 ^ 53
      · exact .inl hlt
      refine .inr fun d hd hdid hdp => ?_
      obtain ⟨i, hi⟩ := List.mem_iff_getElem?.1 hd
      obtain ⟨hil, hi'⟩ := hleft hi
      have hl := h'.awaited i d hi' hdp
      have hinc : increment c.requestId = c.requestId := if_neg hlt
      rw [hdid, ← hinc] at hl
      exact hil.ne (hnext i hl)
    · rw [← hs] at ho
      have hp := (h'.closed _ k call hlast hk ho).1
      rw [hfail hp] at hk
      cases hk
  · rintro ⟨hfresh, hopen⟩
    refine ⟨fun i d hi hdp => ?_, fun i k d hi hk ho => ?_⟩
    · rcases getElem?_concat_cases (hc ▸ hi) with hi | ⟨rfl, rfl⟩
      · rw [hold _ (hb.id_ne hfresh (List.mem_of_getElem? hi) hdp)]
        exact h.awaited i d hi hdp
      · rw [hid]
        exact hnew hdp
    · rw [hs] at ho
      rcases getElem?_concat_cases (hc ▸ hi) with hi | ⟨rfl, rfl⟩
      · obtain ⟨hp, hl⟩ := h.closed i k d hi hk ho
        refine ⟨hp, fun hl' => ?_⟩
        by_cases hn : d.id = increment c.requestId
        · rw [hn] at hl'
          exact (hleft hi).1.ne (hnext i hl')
        · rw [hold _ hn] at hl'
          exact hl hl'
      · exact absurd ho (hopen k hk)

theorem amend_settled {message : JsValue} {call : Call}
    (h : garbled message = true → call.promise ≠ .pending) :
    (call.amend v message).promise ≠ .pending := by
  unfold Call.amend
  split_ifs with hg
  · exact h hg
  by_cases hp : call.promise = .pending
  · rw [settle_of_pending hp]
    exact answer_ne_pending v message
  · rw [settle_of_settled hp]
    exact hp

/-- What a reply to a pending request needs: the call it answers is settled by it. -/
theorem settled_reply_iff (h : Settled c) (hb : Booked c) {message : JsValue} {n i : ℕ}
    (hl : c.pendingRequests.lookup n = some i) (hp : c'.pendingRequests = c.pendingRequests.erase n)
    (hc : c'.calls = answered v message i c.calls) (hs : c'.sockets = c.sockets) :
    Settled c' ↔ ∀ call, c.calls[i]? = some call → call.promise = .pending →
      garbled message = false := by
  obtain ⟨call, hi, hid⟩ := hb.index n i hl
  constructor
  · intro h' d hd hdp
    by_contra hg
    obtain rfl := Option.some.inj (hi.symm.trans hd)
    have hi' : c'.calls[i]? = some call := by
      rw [hc, answered_getElem?, hi]
      simp [Call.amend, hg]
    have := h'.awaited i call hi' hdp
    rw [hp, hid] at this
    exact (lookup_of_erase this).1 rfl
  · intro hans
    refine ⟨fun j d hj hdp => ?_, fun j k d hj hk ho => ?_⟩
    · rw [hc] at hj
      obtain ⟨d', hj', hid', -, hd⟩ := answered_of_getElem? hj
      split_ifs at hd with hij
      · subst hij hd
        refine absurd hdp (amend_settled v fun hg hp' => ?_)
        rw [hans d' hj' hp'] at hg
        cases hg
      · subst hd
        have hl' := h.awaited j d hj' hdp
        rw [hp, Dict.lookup_erase_eq, if_neg, hl']
        intro heq
        rw [heq, hl] at hl'
        exact hij (Option.some.inj hl')
    · rw [hc] at hj
      obtain ⟨d', hj', hid', hcar, hd⟩ := answered_of_getElem? hj
      rw [hs] at ho
      obtain ⟨hp', hl'⟩ := h.closed j k d' hj' (hcar.symm.trans hk) ho
      refine ⟨?_, fun he => ?_⟩
      · rw [hd]
        split_ifs
        · exact amend_settled v fun _ => hp'
        · exact hp'
      · rw [hp, hid'] at he
        exact hl' (lookup_of_erase he).2

theorem lookup_left_self {i : ℕ} {stringified : Bool}
    (h : (c.left v stringified).lookup (increment c.requestId) = some i) : i = c.calls.length := by
  unfold left at h
  dsimp only at h
  split_ifs at h
  · exact absurd rfl (lookup_of_erase h).1
  · rw [Dict.lookup_insert_eq, if_pos rfl] at h
    exact (Option.some.inj h).symm

theorem lookup_left_ne {n : ℕ} (stringified : Bool) (hn : n ≠ increment c.requestId) :
    (c.left v stringified).lookup n = c.pendingRequests.lookup n := by
  unfold left
  dsimp only
  split_ifs
  · rw [Dict.lookup_erase_eq, if_neg hn, Dict.lookup_insert_eq, if_neg hn]
  · rw [Dict.lookup_insert_eq, if_neg hn]

/-- A call delivers no reply. -/
theorem settles_of_not_message {e : ClientEvent} (he : ∀ k data, e ≠ .onmessage k data) :
    Settles parse v c e ↔ Settled (c.step parse v e) :=
  ⟨fun h => h.settled, fun h => ⟨h, fun k data _ _ heq => absurd heq (he k data)⟩⟩

theorem settles_call (h : Settled c) (hb : Booked c) (stringified sendFails : Bool) :
    Settles parse v c (.call stringified sendFails)
      ↔ Heeds parse v c (.call stringified sendFails) := by
  rw [settles_of_not_message parse v (by simp)]
  have hs : (c.step parse v (.call stringified sendFails)).sockets = c.sockets :=
    (link_eq (link_call v stringified sendFails c)).2.2.2.1
  obtain ⟨b, hbook, hstep⟩ := exists_bookStep parse v c (.call stringified sendFails)
  generalize c.step parse v (.call stringified sendFails) = c' at hbook hs ⊢
  cases hstep with
  | refused href =>
    refine iff_of_true (h.congr hbook fun k => by rw [hs]) fun hd hc => ?_
    rcases href with hd' | hc'
    · exact absurd hd' hd
    · rw [hc] at hc'
      cases hc'
  | @sent _ k hd hc hsend =>
    simp only [book, Prod.mk.injEq] at hbook
    obtain ⟨-, hp, hcalls⟩ := hbook
    rw [settled_enter_iff h hb rfl hcalls hs (fun i hi => ?_) (fun n hn => ?_) (fun _ => ?_)
      (fun hne => absurd rfl hne)]
    · simp only [Heeds, hsend, Option.some.injEq]
      constructor
      · exact fun h' _ _ => ⟨h'.1, fun k _ hk => h'.2 k hk⟩
      · exact fun h' => ⟨(h' hd hc).1, fun k hk => (h' hd hc).2 k trivial hk⟩
    · rw [hp, Dict.lookup_insert_eq, if_pos rfl] at hi
      exact (Option.some.inj hi).symm
    · rw [hp, Dict.lookup_insert_eq, if_neg hn]
    · rw [hp, Dict.lookup_insert_eq, if_pos rfl]
  | failed hd hc hsend =>
    simp only [book, Prod.mk.injEq] at hbook
    obtain ⟨-, hp, hcalls⟩ := hbook
    rw [settled_enter_iff h hb rfl hcalls hs (fun i hi => ?_) (fun n hn => ?_)
      (fun hne => ?_) (fun _ => rfl)]
    · simp only [Heeds]
      constructor
      · refine fun h' _ _ => ⟨h'.1, fun k hs' hk => ?_⟩
        rw [hsend hs'] at hk
        cases hk
      · refine fun h' => ⟨(h' hd hc).1, fun k hk => ?_⟩
        cases hk
    · rw [hp] at hi
      exact lookup_left_self v hi
    · rw [hp, lookup_left_ne v _ hn]
    · cases hne
  | other hc => exact absurd rfl (hc _ _)

theorem lookup_onmessage {k n : ℕ} {data : JsString} (h : c.pendingRequests.lookup n = none) :
    (c.step parse v (.onmessage k data)).pendingRequests.lookup n = none := by
  obtain ⟨b, hbook, hstep⟩ := exists_bookStep parse v c (.onmessage k data)
  generalize c.step parse v (.onmessage k data) = c' at hbook ⊢
  cases hstep with
  | replied =>
    simp only [book, Prod.mk.injEq] at hbook
    rw [hbook.2.1, Dict.lookup_erase_eq, h, ite_self]
  | passed | other => rw [(book_eq hbook).2.1, h]

/-- Of a message only a reply to a pending request asks anything. -/
theorem settles_message_iff {k : ℕ} {data : JsString} :
    Settles parse v c (.onmessage k data)
      ↔ Settled (c.step parse v (.onmessage k data)) ∧ (c.sockets[k]? = some .open →
        ∀ message n i, parsed? parse v data = some message →
        c.pendingCall? message = some (n, i) →
        (c.step parse v (.onmessage k data)).pendingRequests.lookup n = none) := by
  constructor
  · rintro ⟨h, hr⟩
    refine ⟨h, fun ho message n i hm hp => ?_⟩
    exact (hr k data message n rfl ho hm (pendingCall?_eq_some.1 hp).1).1
  · rintro ⟨h, hr⟩
    refine ⟨h, fun k' data' message n heq ho hm hid => ?_⟩
    obtain ⟨rfl, rfl⟩ := ClientEvent.onmessage.inj heq
    have hnone : (c.step parse v (.onmessage k data)).pendingRequests.lookup n = none := by
      rcases hl : c.pendingRequests.lookup n with _ | i
      · exact lookup_onmessage parse v hl
      · exact hr ho message n i hm (pendingCall?_eq_some.2 ⟨hid, hl⟩)
    refine ⟨hnone, fun call hcall hn hp => ?_⟩
    obtain ⟨j, hj⟩ := List.mem_iff_getElem?.1 hcall
    have := h.awaited j call hj hp
    rw [hn, hnone] at this
    cases this

theorem settles_onmessage (h : Settled c) (hb : Booked c) (k : ℕ) (data : JsString) :
    Settles parse v c (.onmessage k data) ↔ Heeds parse v c (.onmessage k data) := by
  have hs : (c.step parse v (.onmessage k data)).sockets = c.sockets := by
    simp only [step]
    split_ifs
    · exact (link_eq (link_onmessage parse v data c)).2.2.2.1
    · rfl
  rw [settles_message_iff]
  obtain ⟨b, hbook, hstep⟩ := exists_bookStep parse v c (.onmessage k data)
  generalize c.step parse v (.onmessage k data) = c' at hbook hs ⊢
  cases hstep with
  | @replied _ n i _ message ho hd hm hp =>
    simp only [book, Prod.mk.injEq] at hbook
    obtain ⟨-, hpend, hcalls⟩ := hbook
    rw [settled_reply_iff v h hb (pendingCall?_eq_some.1 hp).2 hpend hcalls hs]
    simp only [Heeds, ho, hm, hpend, forall_const, Option.some.injEq]
    constructor
    · rintro ⟨hans, -⟩ _ n' i' rfl hp'
      obtain ⟨rfl, rfl⟩ := Prod.mk.inj (Option.some.inj (hp.symm.trans hp'))
      exact ⟨hd, hans⟩
    · intro hheeds
      refine ⟨(hheeds message n i rfl hp).2, ?_⟩
      rintro _ n' i' rfl hp'
      obtain ⟨rfl, rfl⟩ := Prod.mk.inj (Option.some.inj (hp.symm.trans hp'))
      exact AList.lookup_erase _ _
  | passed hpass =>
    rw [and_iff_right (h.congr hbook fun k => by rw [hs])]
    obtain ⟨-, hpend, -⟩ := book_eq hbook
    rw [hpend]
    constructor
    · intro hnone ho message n i hm hp
      have hl := hnone ho message n i hm hp
      rw [(pendingCall?_eq_some.1 hp).2] at hl
      cases hl
    · intro hheeds ho message n i hm hp
      have := hpass ho (hheeds ho message n i hm hp).1 message hm
      rw [hp] at this
      cases this
  | other _ hm => exact absurd rfl (hm _ _)

theorem settles_onclose (h : Settled c) (hb : Booked c) (k : ℕ) :
    Settles parse v c (.onclose k) ↔ Heeds parse v c (.onclose k) := by
  rw [settles_of_not_message parse v (by simp)]
  have hbook : (c.step parse v (.onclose k)).book = c.book := by
    simp only [step]
    split
    · rfl
    · rfl
    · exact book_onclose v _
  obtain ⟨-, hp, hc⟩ := book_eq hbook
  constructor
  · intro h' r hr hne n i call hl hi hk
    obtain ⟨call', hi', rfl⟩ := hb.index n i hl
    obtain rfl := Option.some.inj (hi.symm.trans hi')
    have hlt := (List.getElem?_eq_some_iff.1 hr).1
    refine (h'.closed i k call (by rw [hc, hi]) hk (onclose_closed parse v hlt)).2 ?_
    rw [hp, hl]
  · intro hheeds
    refine ⟨by rw [hp, hc]; exact h.awaited, fun i j call hi hj ho => ?_⟩
    rw [hc] at hi
    rw [hp]
    rcases closed_onclose parse v ho with ho | ⟨rfl, hlt⟩
    · exact h.closed i j call hi hj ho
    by_cases hr : c.sockets[j]? = some .closed
    · exact h.closed i j call hi hj hr
    -- The call is neither pending on the socket nor forgotten before it was settled.
    have hl : c.pendingRequests.lookup call.id ≠ some i := fun hl =>
      hheeds c.sockets[j] (by simp [hlt]) (by simpa [hlt] using hr) call.id i call hl hi hj
    exact ⟨fun hpend => hl (h.awaited i call hi hpend), hl⟩

/-- A step settles the calls whose fate it decides exactly when it meets the condition. -/
theorem settles_step (h : Settled c) (hb : Booked c) (e : ClientEvent) :
    Settles parse v c e ↔ Heeds parse v c e := by
  have hother : (∀ stringified sendFails, e ≠ .call stringified sendFails) →
      (∀ k data, e ≠ .onmessage k data) → (∀ k, e ≠ .onclose k) → Settles parse v c e := by
    intro hc hm hcl
    rw [settles_of_not_message parse v hm]
    refine h.congr ?_ (closed_step parse v hcl)
    obtain ⟨b, hbook, hstep⟩ := exists_bookStep parse v c e
    rw [hbook]
    cases hstep with
    | other => rfl
    | refused | sent | failed => exact absurd rfl (hc _ _)
    | replied | passed => exact absurd rfl (hm _ _)
  cases e with
  | call stringified sendFails => exact settles_call parse v h hb stringified sendFails
  | onmessage k data => exact settles_onmessage parse v h hb k data
  | onclose k => exact settles_onclose parse v h hb k
  | _ => exact iff_of_true (hother (by simp) (by simp) (by simp)) trivial

/-- After every event of a run the calls whose fate is known are settled exactly when each event
meets the condition. -/
theorem settles_iff (events : List ClientEvent) :
    Runs.Throughout (step parse v) (Settles parse v) {} events
      ↔ Runs.Throughout (step parse v) (Heeds parse v) {} events := by
  have hstep : ∀ c e, Settled c ∧ Booked c → (Settles parse v c e ↔ Heeds parse v c e) :=
    fun c e h => settles_step parse v h.1 h.2 e
  refine Runs.throughout_iff (step parse v) hstep (fun c e h he => ?_)
    ⟨⟨by simp, by simp⟩, ⟨by simp, by simp⟩⟩ events
  exact ⟨((hstep c e h).2 he).settled, h.2.step parse v e⟩

/-- The socket closes while a call waits for its reply. -/
theorem close_settles_nothing :
    ¬ Runs.Throughout (step (fun _ => none) .webJs) (Settles (fun _ => none) .webJs) {}
      [.connect true, .onopen 0, .call true false, .onclose 0] := by
  intro h
  have hs := (h [.connect true, .onopen 0, .call true false] (.onclose 0) [] rfl).settled
  exact (hs.closed 0 0 ⟨1, some 0, .pending⟩ rfl rfl rfl).1 rfl

end RPCClient

end OcppServer
