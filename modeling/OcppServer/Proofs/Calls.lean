import OcppServer.Proofs.Client

/-!
# What an event does to the book of calls

A call is refused, or it gets the next id and is then sent or fails; a message is the reply to a
pending request, or it leaves the book alone; no other event touches the book (`BookStep`). From
this follows what holds in every run: an entry leads to a call with its id, and no id is above the
last one (`Booked`).
-/

namespace OcppServer

/-- The id a message is looked up with. -/
def replyId? (message : JsValue) : Option ℕ :=
  ((message.get? (js "id")).filter JsValue.truthy).bind JsValue.asId?

/-- The message carries a truthy error that does not convert to a string. -/
def garbled (message : JsValue) : Bool :=
  let error := message.get? (js "error")
  RPCClient.truthy? error && (error.map JsValue.toStringThrows).getD false

/-- What the call that waits for the message is settled with, unless the message is garbled. -/
def answer (v : Variant) (message : JsValue) : Promise :=
  if RPCClient.truthy? (message.get? (js "error")) then .rejected
  else .resolved (if v.embedded then message.get? (js "result") else some message)

/-- A call the message answers. -/
def Call.amend (v : Variant) (message : JsValue) (call : Call) : Call :=
  if garbled message then call else call.settle (answer v message)

/-- The calls after the message has answered call `i`. -/
def answered (v : Variant) (message : JsValue) (i : ℕ) (calls : List Call) : List Call :=
  if garbled message then calls else calls.modify i (.settle (answer v message))

@[simp] theorem settle_id (outcome : Promise) (call : Call) :
    (call.settle outcome).id = call.id := by
  unfold Call.settle
  split <;> rfl

@[simp] theorem settle_carrier (outcome : Promise) (call : Call) :
    (call.settle outcome).carrier = call.carrier := by
  unfold Call.settle
  split <;> rfl

theorem settle_of_pending {outcome : Promise} {call : Call} (h : call.promise = .pending) :
    call.settle outcome = { call with promise := outcome } := by
  unfold Call.settle
  rw [h]

theorem settle_of_settled {outcome : Promise} {call : Call} (h : call.promise ≠ .pending) :
    call.settle outcome = call := by
  unfold Call.settle
  split
  · exact absurd ‹_› h
  · rfl

theorem answer_ne_pending (v : Variant) (message : JsValue) : answer v message ≠ .pending := by
  unfold answer
  split_ifs <;> simp

@[simp] theorem amend_id (v : Variant) (message : JsValue) (call : Call) :
    (call.amend v message).id = call.id := by
  unfold Call.amend
  split_ifs
  · rfl
  · exact settle_id _ _

@[simp] theorem amend_carrier (v : Variant) (message : JsValue) (call : Call) :
    (call.amend v message).carrier = call.carrier := by
  unfold Call.amend
  split_ifs
  · rfl
  · exact settle_carrier _ _

theorem answered_getElem? (v : Variant) (message : JsValue) (i j : ℕ) (calls : List Call) :
    (answered v message i calls)[j]?
      = calls[j]?.map fun call => if i = j then call.amend v message else call := by
  unfold answered Call.amend
  by_cases hg : garbled message = true
  · simp [hg]
  · by_cases hij : i = j <;> simp [hg, hij]

/-- Answering leaves the ids and the sockets of the calls. -/
theorem answered_of_getElem? {v : Variant} {message : JsValue} {i j : ℕ} {calls : List Call}
    {call' : Call} (h : (answered v message i calls)[j]? = some call') :
    ∃ call, calls[j]? = some call ∧ call'.id = call.id ∧ call'.carrier = call.carrier
      ∧ call' = if i = j then call.amend v message else call := by
  rw [answered_getElem?] at h
  obtain ⟨call, hc, rfl⟩ := Option.map_eq_some_iff.1 h
  refine ⟨call, hc, ?_, ?_, rfl⟩ <;> split_ifs <;> simp

namespace RPCClient

theorem pendingCall?_eq_some {c : RPCClient} {message : JsValue} {n i : ℕ} :
    c.pendingCall? message = some (n, i)
      ↔ replyId? message = some n ∧ c.pendingRequests.lookup n = some i := by
  unfold pendingCall? replyId?
  rcases message.get? (js "id") with _ | value
  · simp
  dsimp only
  by_cases ht : value.truthy = true
  · rw [if_neg (by simp [ht]), Option.filter_some_pos ht, Option.bind_some]
    rcases value.asId? with _ | m
    · simp
    · simp only [Option.bind_some, Option.map_eq_some_iff, Prod.mk.injEq, Option.some.injEq]
      constructor
      · rintro ⟨j, hj, rfl, rfl⟩
        exact ⟨rfl, hj⟩
      · rintro ⟨rfl, hi⟩
        exact ⟨i, hi, rfl, rfl⟩
  · simp [Option.filter, ht]

variable (parse : JsString → Option JsValue) (v : Variant)

/-- The client takes no notice of calls and messages. -/
abbrev Deaf (c : RPCClient) : Prop := v.embedded = true ∧ c.rpcEnabled = false

/-- What a message stands for: a string may be parsed once more. -/
def reading : JsValue → Option JsValue
  | .str s => if v.embedded then some (.str s) else parse s
  | message => some message

/-- The message that data of a socket carry. -/
def parsed? (data : JsString) : Option JsValue := (parse data).bind (reading parse v)

/-- The pending requests after a failed call. -/
def left (stringified : Bool) (c : RPCClient) : Dict ℕ ℕ :=
  let id := increment c.requestId
  if stringified ∧ v.catchesSend then (c.pendingRequests.insert id c.calls.length).erase id
  else c.pendingRequests.insert id c.calls.length

inductive BookStep (c : RPCClient) : ClientEvent → ℕ × Dict ℕ ℕ × List Call → Prop
  | refused {stringified sendFails : Bool} (h : c.Deaf v ∨ c.connected = false) :
    BookStep c (.call stringified sendFails) c.book
  | sent {sendFails : Bool} {k : ℕ} (hd : ¬ c.Deaf v) (hc : c.connected = true)
      (hs : c.send sendFails = some k) :
    BookStep c (.call true sendFails)
      (increment c.requestId, c.pendingRequests.insert (increment c.requestId) c.calls.length,
        c.calls ++ [⟨increment c.requestId, some k, .pending⟩])
  | failed {stringified sendFails : Bool} (hd : ¬ c.Deaf v) (hc : c.connected = true)
      (hs : stringified = true → c.send sendFails = none) :
    BookStep c (.call stringified sendFails)
      (increment c.requestId, c.left v stringified,
        c.calls ++ [⟨increment c.requestId, none, .rejected⟩])
  | replied {k n i : ℕ} {data : JsString} {message : JsValue}
      (ho : c.sockets[k]? = some .open) (hd : ¬ c.Deaf v) (hm : parsed? parse v data = some message)
      (hp : c.pendingCall? message = some (n, i)) :
    BookStep c (.onmessage k data)
      (c.requestId, c.pendingRequests.erase n, answered v message i c.calls)
  | passed {k : ℕ} {data : JsString}
      (h : c.sockets[k]? = some .open → ¬ c.Deaf v →
        ∀ message, parsed? parse v data = some message → c.pendingCall? message = none) :
    BookStep c (.onmessage k data) c.book
  | other {e : ClientEvent} (hc : ∀ stringified sendFails, e ≠ .call stringified sendFails)
      (hm : ∀ k data, e ≠ .onmessage k data) : BookStep c e c.book

theorem book_caught (c : RPCClient) : (c.caught v).book = c.book := by
  unfold caught
  split_ifs <;> rfl

theorem book_call (stringified sendFails : Bool) (c : RPCClient) :
    BookStep parse v c (.call stringified sendFails) (c.call v stringified sendFails).book := by
  by_cases hd : c.Deaf v
  · rw [call, if_pos hd]
    exact .refused (.inl hd)
  by_cases hc : c.connected = true
  swap
  · rw [call, if_neg hd, if_pos (by simpa using hc)]
    exact .refused (.inr (by simpa using hc))
  rw [call, if_neg hd, if_neg (by simp [hc])]
  cases stringified
  · exact .failed hd hc (by simp)
  have hsend : send sendFails { c with
      requestId := increment c.requestId
      pendingRequests := c.pendingRequests.insert (increment c.requestId) c.calls.length }
      = c.send sendFails := rfl
  rcases hs : c.send sendFails with _ | k
  · have hf : BookStep parse v c (.call true sendFails) _ := .failed hd hc fun _ => hs
    rcases hv : v.catchesSend with _ | _ <;> simpa [hsend, hs, hv, left, book, addCall] using hf
  · have hsent : BookStep parse v c (.call true sendFails) _ := .sent hd hc hs
    simpa [hsend, hs, book, addCall] using hsent

theorem book_handleParsed (message : JsValue) (c : RPCClient) :
    (outcome (c.handleParsed v message)).book = match c.pendingCall? message with
      | some (n, i) => (c.requestId, c.pendingRequests.erase n, answered v message i c.calls)
      | none => c.book := by
  unfold handleParsed
  split
  · rfl
  rcases c.pendingCall? message with _ | ⟨n, i⟩
  · dsimp only
    split
    · split_ifs <;> rfl
    · rfl
  · simp only [answered, answer, garbled]
    by_cases ht : truthy? (message.get? (js "error")) = true
    · simp only [ht, if_true, Bool.true_and]
      split_ifs <;> rfl
    · simp only [ht, Bool.false_and, Bool.false_eq_true, if_false]
      rfl

theorem handleMessage_cases (message : JsValue) (c : RPCClient) :
    (∃ m, reading parse v message = some m
      ∧ c.handleMessage parse v message = c.handleParsed v m)
    ∨ (reading parse v message = none
      ∧ c.handleMessage parse v message = .ok (c.emit (js "message") (.value message))) := by
  cases message with
  | str s =>
    by_cases hv : v.embedded = true
    · exact .inl ⟨.str s, by simp [reading, hv], by simp [handleMessage, hv]⟩
    rcases hs : parse s with _ | m
    · exact .inr ⟨by simp [reading, hv, hs], by simp [handleMessage, hv, hs]⟩
    · exact .inl ⟨m, by simp [reading, hv, hs], by simp [handleMessage, hv, hs]⟩
  | _ => exact .inl ⟨_, rfl, rfl⟩

theorem book_onmessage {k : ℕ} (data : JsString) {c : RPCClient} (ho : c.sockets[k]? = some .open) :
    BookStep parse v c (.onmessage k data) (c.onmessage parse v data).book := by
  unfold onmessage
  split_ifs with hd
  · exact .passed fun _ hnd => absurd hd hnd
  rcases hm : parse data with _ | message
  · dsimp only
    rw [book_caught]
    exact .passed fun _ _ m h => by simp [parsed?, hm] at h
  have hread : parsed? parse v data = reading parse v message := by simp [parsed?, hm]
  have hstep : BookStep parse v c (.onmessage k data)
      (outcome (c.handleMessage parse v message)).book := by
    rcases handleMessage_cases parse v message c with ⟨m, hr, h⟩ | ⟨hr, h⟩
    · rw [h, book_handleParsed]
      rw [← hread] at hr
      rcases hc : c.pendingCall? m with _ | ⟨n, i⟩
      · refine .passed fun _ _ m' hm' => ?_
        obtain rfl := Option.some.inj (hr.symm.trans hm')
        exact hc
      · exact .replied ho hd hr hc
    · rw [h]
      exact .passed fun _ _ m hm => by simp [hread, hr] at hm
  dsimp only
  rcases hr : c.handleMessage parse v message with c' | c' <;> rw [hr] at hstep
  · rw [book_caught]
    exact hstep
  · exact hstep

theorem bookStep (c : RPCClient) (e : ClientEvent) :
    BookStep parse v c e (c.step parse v e).book := by
  have hother : (∀ stringified sendFails, e ≠ .call stringified sendFails) →
      (∀ k data, e ≠ .onmessage k data) → (c.step parse v e).book = c.book →
      BookStep parse v c e (c.step parse v e).book := by
    intro hc hm h
    rw [h]
    exact .other hc hm
  cases e with
  | connect constructed => exact hother (by simp) (by simp) (book_connect v _ _ _)
  | disconnect => exact hother (by simp) (by simp) (book_disconnect _)
  | call stringified sendFails => exact book_call parse v stringified sendFails c
  | setRPCEnabled enabled => exact hother (by simp) (by simp) (book_setRPCEnabled v enabled c)
  | onopen k =>
    refine hother (by simp) (by simp) ?_
    simp only [step]
    split_ifs <;> rfl
  | onmessage k data =>
    simp only [step]
    split_ifs with ho
    · exact book_onmessage parse v data ho
    · exact .passed fun h => absurd h ho
  | onclose k =>
    refine hother (by simp) (by simp) ?_
    simp only [step]
    split
    · rfl
    · rfl
    · exact book_onclose v _
  | onerror k =>
    refine hother (by simp) (by simp) ?_
    simp only [step]
    split_ifs <;> rfl
  | timer constructed =>
    refine hother (by simp) (by simp) ?_
    simp only [step]
    split_ifs
    · rfl
    · exact book_connect v _ _ _

theorem exists_bookStep (c : RPCClient) (e : ClientEvent) :
    ∃ b, (c.step parse v e).book = b ∧ BookStep parse v c e b := ⟨_, rfl, bookStep parse v c e⟩

/-- The book is in order: an entry leads to a call with its id, and no id is above the last. -/
structure Booked (c : RPCClient) : Prop where
  index : ∀ n i, c.pendingRequests.lookup n = some i → ∃ call, c.calls[i]? = some call ∧ call.id = n
  numbered : ∀ call ∈ c.calls, call.id ≤ c.requestId

theorem le_increment (n : ℕ) : n ≤ increment n := by
  unfold increment
  split_ifs <;> omega

theorem Booked.congr {c c' : RPCClient} (h : Booked c) (hb : c'.book = c.book) : Booked c' := by
  obtain ⟨hr, hp, hc⟩ := book_eq hb
  exact ⟨by rw [hp, hc]; exact h.index, by rw [hr, hc]; exact h.numbered⟩

/-- A call that got the next id, whether it was sent or failed. -/
theorem Booked.enter {c c' : RPCClient} (h : Booked c) {call : Call}
    (hid : call.id = increment c.requestId) (hr : c'.requestId = increment c.requestId)
    (hc : c'.calls = c.calls ++ [call])
    (hp : ∀ n i, c'.pendingRequests.lookup n = some i →
      (n = increment c.requestId ∧ i = c.calls.length) ∨ c.pendingRequests.lookup n = some i) :
    Booked c' where
  index n i hl := by
    rw [hc]
    rcases hp n i hl with ⟨rfl, rfl⟩ | hl
    · exact ⟨call, by simp, hid⟩
    · obtain ⟨call', hi, hn⟩ := h.index n i hl
      have hlt := (List.getElem?_eq_some_iff.1 hi).1
      exact ⟨call', (List.getElem?_append_left hlt).trans hi, hn⟩
  numbered call' hm := by
    rw [hc, List.mem_append, List.mem_singleton] at hm
    rw [hr]
    rcases hm with hm | rfl
    · exact (h.numbered call' hm).trans (le_increment _)
    · exact hid.le

theorem lookup_insert_cases {d : Dict ℕ ℕ} {n m i j : ℕ} (h : (d.insert m j).lookup n = some i) :
    (n = m ∧ i = j) ∨ d.lookup n = some i := by
  rw [Dict.lookup_insert_eq] at h
  split_ifs at h with hn
  · exact .inl ⟨hn, (Option.some.inj h).symm⟩
  · exact .inr h

theorem lookup_of_erase {d : Dict ℕ ℕ} {n m i : ℕ} (h : (d.erase m).lookup n = some i) :
    n ≠ m ∧ d.lookup n = some i := by
  rw [Dict.lookup_erase_eq] at h
  split_ifs at h with hn
  exact ⟨hn, h⟩

theorem lookup_left {c : RPCClient} {stringified : Bool} {n i : ℕ}
    (h : (c.left v stringified).lookup n = some i) :
    (n = increment c.requestId ∧ i = c.calls.length) ∨ c.pendingRequests.lookup n = some i := by
  unfold left at h
  dsimp only at h
  split_ifs at h
  · exact lookup_insert_cases (lookup_of_erase h).2
  · exact lookup_insert_cases h

theorem Booked.step {c : RPCClient} (h : Booked c) (e : ClientEvent) :
    Booked (RPCClient.step parse v c e) := by
  obtain ⟨b, hb, hstep⟩ := exists_bookStep parse v c e
  generalize RPCClient.step parse v c e = c' at hb ⊢
  cases hstep with
  | refused | passed | other => exact h.congr hb
  | sent =>
    simp only [book, Prod.mk.injEq] at hb
    refine h.enter rfl hb.1 hb.2.2 fun n i hl => ?_
    rw [hb.2.1] at hl
    exact lookup_insert_cases hl
  | failed =>
    simp only [book, Prod.mk.injEq] at hb
    refine h.enter rfl hb.1 hb.2.2 fun n i hl => ?_
    rw [hb.2.1] at hl
    exact lookup_left v hl
  | replied =>
    simp only [book, Prod.mk.injEq] at hb
    obtain ⟨hr, hp, hc⟩ := hb
    refine ⟨fun n i hl => ?_, fun call hm => ?_⟩
    · rw [hp] at hl
      obtain ⟨call, hi, hn⟩ := h.index n i (lookup_of_erase hl).2
      rw [hc, answered_getElem?, hi, Option.map_some]
      refine ⟨_, rfl, ?_⟩
      split_ifs <;> simpa using hn
    · rw [hc] at hm
      obtain ⟨j, hj⟩ := List.mem_iff_getElem?.1 hm
      obtain ⟨call', hj', hid, -, -⟩ := answered_of_getElem? hj
      rw [hid, hr]
      exact h.numbered call' (List.mem_of_getElem? hj')

end RPCClient

end OcppServer
