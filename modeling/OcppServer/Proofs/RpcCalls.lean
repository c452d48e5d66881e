import Mathlib.Data.List.Nodup
import OcppServer.Lib.Caller
import OcppServer.Proofs.RapidJson
import OcppServer.Proofs.RpcLinks

/-!
# The calls of a charge point

The calls on a link are those of a `Caller` (`Follows`): whatever the threads, the charge points
and the time-outs do, a call returns with an answer to it or with none, and no answer is returned by
two calls. When the charge points answer only what they were asked, it is the first answer to it,
and no answer is lost.
-/

namespace OcppServer

namespace Rpc

/-- The result a text is taken for. -/
def RpcFrame.result? : RpcFrame → Option RpcMessage
  | .result m => some m
  | _ => none

/-- The request of a call, as it is sent. -/
abbrev Request := ℤ × Bytes × Json

def Sent.asked? : Sent → Option Request
  | .call id action payload => some (id, action, payload)
  | _ => none

def Call.request (c : Call) : Request := (c.id, c.action, c.payload)

/-- What a link has of its calls: those that have returned, the one that waits, the next id, the
results in the queue, all the results received and the requests sent. -/
structure Book where
  calls : List Call
  pending : Option Call
  nextId : ℤ
  queue : List RpcMessage
  results : List RpcMessage
  asked : List Request

namespace Book

def finish (c : Call) (answer : Option RpcMessage) (k : Book) : Book :=
  { k with
    pending := none
    nextId := RpcBase.increment k.nextId
    calls := k.calls ++ [{ c with answer := answer }] }

/-- The calls that have their turn or had it. -/
def begun (k : Book) : List Call := k.calls ++ k.pending.toList

end Book

namespace RpcBase

/-- The results received on a link. -/
def results (b : RpcBase) : List RpcMessage := b.received.filterMap RpcFrame.result?

/-- The requests sent on a link. -/
def asked (b : RpcBase) : List Request := b.sent.filterMap Sent.asked?

def book (b : RpcBase) : Book where
  calls := b.calls
  pending := b.pending
  nextId := b.transactionId
  queue := b.resultsQueue.items
  results := b.results
  asked := b.asked

theorem doSend_book {msg : Sent} (h : msg.asked? = none) (b : RpcBase) :
    (b.doSend msg).book = b.book := by
  unfold doSend
  split_ifs
  · simp [book, results, asked, h]
  · rfl

theorem reply?_asked? {m : RpcMessage} {result : Handled} {msg : Sent}
    (h : reply? m result = some msg) : msg.asked? = none := by
  unfold reply? at h
  split_ifs at h <;> cases h <;> rfl

theorem enter_book (i : ℕ) (b : RpcBase) :
    (b.enter i).book = b.book
      ∨ ∃ action payload, b.pending = none
        ∧ let c : Call := { id := b.transactionId, action := action, payload := payload }
          (b.enter i).book = { b.book with pending := some c, asked := b.asked ++ [c.request] }
          ∨ b.connected = false ∧ (b.enter i).book = b.book.finish c none := by
  unfold enter
  split
  · rename_i action payload hp _
    refine .inr ⟨action, payload, hp, ?_⟩
    dsimp only
    split_ifs with hc
    · left
      simp [doSend, hc, book, results, asked, Sent.asked?, Call.request]
    · exact .inr ⟨by simpa using hc, rfl⟩
  · exact .inl rfl

theorem receive_book (frame : RpcFrame) (b : RpcBase) :
    (b.receive frame).book = b.book
      ∨ ∃ m, frame = .result m
        ∧ (b.receive frame).book
          = { b.book with queue := b.book.queue ++ [m], results := b.book.results ++ [m] } := by
  cases frame with
  | call m => exact .inl (by simp [receive, book, results, asked, RpcFrame.result?])
  | result m =>
    refine .inr ⟨m, rfl, ?_⟩
    simp [receive, book, results, asked, RpcFrame.result?, Queue.push]
  | invalid =>
    refine .inl ?_
    rw [receive, doSend_book rfl]
    simp [book, results, asked, RpcFrame.result?]

theorem popResult_book (b : RpcBase) :
    b.popResult.book = b.book
      ∨ ∃ c m queue, b.pending = some c ∧ b.book.queue = m :: queue
        ∧ b.popResult.book = if m.uniqueId = decimal c.id then
            { b.book with queue := queue }.finish c (some m)
          else { b.book with queue := queue } := by
  unfold popResult
  split
  · rename_i c m queue hc hq
    refine .inr ⟨c, m, queue.items, hc, (Queue.pop?_eq_some hq).1, ?_⟩
    dsimp only
    split_ifs <;> rfl
  · exact .inl rfl

theorem expire_book (b : RpcBase) :
    b.expire.book = b.book
      ∨ ∃ c, b.pending = some c ∧ b.expire.book = b.book.finish c none := by
  unfold expire
  split
  · exact .inr ⟨_, ‹_›, rfl⟩
  · exact .inl rfl

/-- What an act does to the calls. -/
theorem act_book (b : RpcBase) (a : Act) :
    (b.act a).book = b.book
      ∨ (∃ action payload, b.pending = none
        ∧ let c : Call := { id := b.transactionId, action := action, payload := payload }
          (b.act a).book = { b.book with pending := some c, asked := b.asked ++ [c.request] }
          ∨ b.connected = false ∧ (b.act a).book = b.book.finish c none)
      ∨ (∃ m, a = .receive (.result m)
        ∧ (b.act a).book
          = { b.book with queue := b.book.queue ++ [m], results := b.book.results ++ [m] })
      ∨ (∃ c m queue, b.pending = some c ∧ b.book.queue = m :: queue
        ∧ (b.act a).book = if m.uniqueId = decimal c.id then
            { b.book with queue := queue }.finish c (some m)
          else { b.book with queue := queue })
      ∨ ∃ c, b.pending = some c ∧ (b.act a).book = b.book.finish c none := by
  cases a with
  | call action payload =>
    left
    simp only [act, call]
    split_ifs <;> rfl
  | enter i =>
    rcases enter_book i b with h | h
    · exact .inl h
    · exact .inr (.inl h)
  | popResult =>
    rcases popResult_book b with h | h
    · exact .inl h
    · exact .inr (.inr (.inr (.inl h)))
  | expire =>
    rcases expire_book b with h | h
    · exact .inl h
    · exact .inr (.inr (.inr (.inr h)))
  | receive frame =>
    rcases receive_book frame b with h | ⟨m, rfl, h⟩
    · exact .inl h
    · exact .inr (.inr (.inl ⟨m, rfl, h⟩))
  | reply m result =>
    left
    simp only [act]
    rcases hr : reply? m result with _ | msg
    · rfl
    · exact doSend_book (reply?_asked? hr) b
  | disconnect => exact .inl rfl
  | writeable written =>
    left
    simp only [act, writeable]
    split_ifs <;> rfl
  | close => exact .inl rfl
  | told => exact .inl rfl

end RpcBase

section Follows

/-- The id of the `n`-th call on a link. -/
def idAt (random : ℤ) (n : ℕ) : ℤ := RpcBase.increment^[n] random

theorem idAt_succ (random : ℤ) (n : ℕ) :
    idAt random (n + 1) = RpcBase.increment (idAt random n) := Function.iterate_succ_apply' _ _ _

theorem idAt_emod (random : ℤ) (n : ℕ) : idAt random n % 2 ^ 32 = (random + n) % 2 ^ 32 := by
  induction n with
  | zero => simp [idAt]
  | succ n ih =>
    have hb : (idAt random n + 1).bmod (2 ^ 32) % 2 ^ 32 = (idAt random n + 1) % 2 ^ 32 :=
      Int.bmod_emod
    rw [idAt_succ, RpcBase.increment, hb]
    omega

/-- An `int` counts to `2 ^ 32` before an id is used again. -/
theorem idAt_injOn (random : ℤ) :
    Set.InjOn (fun n => decimal (idAt random n)) (Set.Iio (2 ^ 32)) := by
  intro m hm n hn h
  have hid := congrArg (· % (2 ^ 32 : ℤ)) (RapidJson.decimal_injective h)
  simp only [idAt_emod] at hid
  rw [Set.mem_Iio] at hm hn
  omega

/-- The calls of a link are those of a caller. -/
structure Follows (random : ℤ) (k : Book) (c : Caller RpcMessage) : Prop where
  returned : c.returned = k.calls.map Call.answer
  waiting : c.waiting = k.pending.isSome
  queue : c.queue = k.queue
  delivered : c.delivered = k.results
  nextId : k.nextId = idAt random k.calls.length
  ids : k.begun.map Call.id = (List.range k.begun.length).map (idAt random)

variable {random : ℤ}

/-- The ids of a caller's calls, and of its answers. -/
abbrev callIds (random : ℤ) (n : ℕ) : Bytes := decimal (idAt random n)

theorem Follows.begun {k : Book} {c : Caller RpcMessage} (h : Follows random k c) :
    c.begun = k.begun.length := by
  rw [Caller.begun, h.returned, h.waiting, Book.begun]
  rcases k.pending <;> simp

theorem Follows.begun_id {k : Book} {c : Caller RpcMessage} (h : Follows random k c) {i : ℕ}
    {call : Call} (hi : k.begun[i]? = some call) : call.id = idAt random i := by
  obtain ⟨hlt, rfl⟩ := List.getElem?_eq_some_iff.1 hi
  have hids := congrArg (·[i]?) h.ids
  simpa [hlt] using hids

theorem Follows.call_id {k : Book} {c : Caller RpcMessage} (h : Follows random k c) {i : ℕ}
    {call : Call} (hi : k.calls[i]? = some call) : call.id = idAt random i :=
  h.begun_id (by rw [Book.begun, List.getElem?_append_left (List.getElem?_eq_some_iff.1 hi).1, hi])

theorem Follows.pending_id {k : Book} {c : Caller RpcMessage} (h : Follows random k c) {call : Call}
    (hp : k.pending = some call) : call.id = idAt random k.calls.length :=
  h.begun_id (by simp [Book.begun, hp])

/-- A call that returns takes the place of the one that waits, or of the next one. -/
theorem Follows.finish {k : Book} {c : Caller RpcMessage} (h : Follows random k c) {call : Call}
    (hid : call.id = idAt random k.calls.length) (answer : Option RpcMessage)
    {taken queue : List RpcMessage} (heq : taken ++ queue = k.results) :
    Follows random ({ k with queue := queue }.finish call answer)
      ({ c with taken := taken, queue := queue }.finish answer) := by
  have hcalls : k.calls.map Call.id = (List.range k.calls.length).map (idAt random) := by
    have hids := congrArg (List.take k.calls.length) h.ids
    simpa [Book.begun, ← List.map_take, List.take_range] using hids
  refine ⟨by simp [Book.finish, Caller.finish, h.returned], rfl, rfl, heq, ?_, ?_⟩
  · simp [Book.finish, h.nextId, idAt_succ]
  · simp [Book.finish, Book.begun, hcalls, hid, List.range_succ]

theorem Follows.finish_none {k : Book} {c : Caller RpcMessage} (h : Follows random k c)
    {call : Call} (hid : call.id = idAt random k.calls.length) :
    Follows random (k.finish call none) (c.finish none) := by
  have hk : { k with queue := c.queue } = k := by rw [h.queue]
  have := h.finish hid none (show c.taken ++ c.queue = k.results from h.delivered)
  rwa [hk] at this

theorem Follows.start (random : ℤ) : Follows random (RpcBase.start random).book {} :=
  ⟨rfl, rfl, rfl, rfl, rfl, rfl⟩

/-- An act is a step of the caller, or none. -/
theorem Follows.act {b : RpcBase} {c : Caller RpcMessage} (h : Follows random b.book c) (a : Act) :
    ∃ c', Follows random (b.act a).book c' ∧ (c' = c ∨ ∃ e : Caller.Act RpcMessage,
      c' = c.step (callIds random) RpcMessage.uniqueId e
        ∧ ∀ m, e = .deliver m → a = .receive (.result m)) := by
  rcases b.act_book a with he | ⟨action, payload, hp, he | ⟨-, he⟩⟩ | ⟨m, rfl, he⟩
    | ⟨call, m, queue, hp, hq, he⟩ | ⟨call, hp, he⟩ <;> rw [he]
  · exact ⟨c, h, .inl rfl⟩
  · have hw : c.waiting = false := by rw [h.waiting]; simp [RpcBase.book, hp]
    refine ⟨{ c with waiting := true }, ?_, .inr ⟨.ask, rfl, by simp⟩⟩
    have hids := h.ids
    simp only [RpcBase.book, Book.begun, hp, Option.toList_none, List.append_nil] at hids
    exact ⟨h.returned, rfl, h.queue, h.delivered, h.nextId, by
      simpa [RpcBase.book, Book.begun, hids, List.range_succ] using h.nextId⟩
  · have hw : c.waiting = false := by rw [h.waiting]; simp [RpcBase.book, hp]
    exact ⟨_, h.finish_none h.nextId, .inr ⟨.fail, by simp [Caller.step, hw], by simp⟩⟩
  · refine ⟨_, ?_, .inr ⟨.deliver m, rfl, by simp⟩⟩
    refine ⟨h.returned, h.waiting, ?_, ?_, h.nextId, h.ids⟩
    · simp only [Caller.step]
      rw [h.queue]
    · have : (c.step (callIds random) RpcMessage.uniqueId (.deliver m)).delivered
          = c.delivered ++ [m] := (List.append_assoc _ _ _).symm
      rw [this, h.delivered]
  · have hw : c.waiting = true := by rw [h.waiting]; simp [RpcBase.book, hp]
    have hcq : c.queue = m :: queue := h.queue.trans hq
    have hlen : c.returned.length = b.book.calls.length := by simp [h.returned]
    have hid := h.pending_id hp
    have heq : c.taken ++ [m] ++ queue = b.book.results := by
      rw [← h.delivered, Caller.delivered, hcq, List.append_assoc, List.singleton_append]
    refine ⟨_, ?_, .inr ⟨.take, rfl, by simp⟩⟩
    simp only [Caller.step, hw, hcq, hlen, callIds, ← hid]
    split_ifs
    · exact h.finish hid (some m) heq
    · exact ⟨h.returned, hw.symm.trans h.waiting, rfl, heq, h.nextId, h.ids⟩
  · have hw : c.waiting = true := by rw [h.waiting]; simp [RpcBase.book, hp]
    exact ⟨_, h.finish_none (h.pending_id hp), .inr ⟨.giveUp, by simp [Caller.step, hw], by simp⟩⟩

end Follows

/-- What was sent of the calls: at most one request each, in their order, and one of each call that
waits or was answered. -/
structure Asking (k : Book) : Prop where
  sublist : k.asked.Sublist (k.begun.map Call.request)
  pending : ∀ c, k.pending = some c → c.request ∈ k.asked
  answered : ∀ c ∈ k.calls, c.answer.isSome → c.request ∈ k.asked

theorem Asking.start (random : ℤ) : Asking (RpcBase.start random).book :=
  ⟨List.Sublist.refl _, by simp [RpcBase.book, RpcBase.start],
    by simp [RpcBase.book, RpcBase.start]⟩

theorem Asking.finish {k : Book} (h : Asking k) {c : Call} {answer : Option RpcMessage}
    (hc : k.asked.Sublist (k.calls.map Call.request ++ [c.request]))
    (hans : answer.isSome → c.request ∈ k.asked) (queue : List RpcMessage) :
    Asking ({ k with queue := queue }.finish c answer) := by
  refine ⟨?_, by simp [Book.finish], fun d hd hans' => ?_⟩
  · simpa [Book.finish, Book.begun, Call.request] using hc
  · simp only [Book.finish, List.mem_append, List.mem_singleton] at hd
    rcases hd with hd | rfl
    · exact h.answered d hd hans'
    · exact hans hans'

theorem Asking.finish_pending {k : Book} (h : Asking k) {c : Call} (hp : k.pending = some c)
    (answer : Option RpcMessage) (queue : List RpcMessage) :
    Asking ({ k with queue := queue }.finish c answer) := by
  refine h.finish ?_ (fun _ => h.pending c hp) queue
  simpa [Book.begun, hp] using h.sublist

theorem Asking.act {b : RpcBase} (h : Asking b.book) (a : Act) : Asking (b.act a).book := by
  rcases b.act_book a with he | ⟨action, payload, hp, he | ⟨-, he⟩⟩ | ⟨m, -, he⟩
    | ⟨call, m, queue, hp, hq, he⟩ | ⟨call, hp, he⟩ <;> rw [he]
  · exact h
  · have hs := h.sublist
    simp only [RpcBase.book, Book.begun, hp, Option.toList_none, List.append_nil] at hs
    refine ⟨?_, by simp, fun c hc hans => List.mem_append_left _ (h.answered c hc hans)⟩
    simpa [RpcBase.book, Book.begun, Call.request] using
      hs.append_right [(b.transactionId, action, payload)]
  · refine h.finish ?_ (by simp) b.book.queue
    have hs := h.sublist
    rw [Book.begun, show b.book.pending = none from hp, Option.toList_none, List.append_nil] at hs
    exact hs.trans (List.sublist_append_left _ _)
  · exact ⟨h.sublist, h.pending, h.answered⟩
  · split_ifs
    · exact h.finish_pending hp _ queue
    · exact ⟨h.sublist, h.pending, h.answered⟩
  · exact h.finish_pending hp none b.book.queue

/-- While the websocket is up, every call was sent when it had its turn. -/
theorem act_asked {b : RpcBase} (h : b.connected = true → b.asked = b.book.begun.map Call.request)
    (a : Act) (hc : (b.act a).connected = true) :
    (b.act a).asked = (b.act a).book.begun.map Call.request := by
  have hcb : b.connected = true := (act_wire b a).connected hc
  have hb := h hcb
  change (b.act a).book.asked = _
  rcases b.act_book a with he | ⟨action, payload, hp, he | ⟨hf, -⟩⟩ | ⟨m, -, he⟩
    | ⟨call, m, queue, hp, hq, he⟩ | ⟨call, hp, he⟩
  · rw [he]
    exact hb
  · rw [he]
    have hcalls : b.asked = b.calls.map Call.request := by
      simpa [Book.begun, RpcBase.book, hp] using hb
    simp [hcalls, Book.begun, RpcBase.book, Call.request]
  · rw [hcb] at hf
    cases hf
  · rw [he]
    exact hb
  · rw [he]
    split_ifs
    · simpa [Book.finish, Book.begun, RpcBase.book, hp, Call.request] using hb
    · exact hb
  · rw [he]
    simpa [Book.finish, Book.begun, RpcBase.book, hp, Call.request] using hb

section Runs

variable (num : RapidJson.Numbers)

namespace RpcServer

/-- In every run, whatever the threads and the charge points do, the answers of the calls on a link
are results received on it, each at most once and in their order; an answered call was sent and its
answer has its id; and of the calls in their order each is sent at most once. -/
theorem answers_received (threads : ℕ) (events : List RpcEvent) :
    ∀ b ∈ (run num (start threads) events).clients,
      (b.calls.filterMap Call.answer).Sublist b.results
        ∧ (∀ c ∈ b.calls, ∀ m, c.answer = some m → c.request ∈ b.asked ∧ m.uniqueId = decimal c.id)
        ∧ b.asked.Sublist (b.book.begun.map Call.request) := by
  have hlinks := run_links_of num (P := fun b => Asking b.book ∧ ∃ random c, Follows random b.book c
    ∧ c.Answered (callIds random) RpcMessage.uniqueId) ?_ ?_ threads events
  · intro b hb
    obtain ⟨hask, random, c, hc, ha⟩ := hlinks b hb
    refine ⟨?_, fun call hcall m hm => ⟨hask.answered call hcall (by simp [hm]), ?_⟩, hask.sublist⟩
    · have hs := ha.sublist.trans (List.sublist_append_left _ c.queue)
      rw [List.reduceOption, hc.returned, List.filterMap_map] at hs
      rwa [← Caller.delivered, hc.delivered] at hs
    · obtain ⟨i, hi⟩ := List.mem_iff_getElem?.1 hcall
      have hret : c.returned[i]? = some (some m) := by
        rw [hc.returned, List.getElem?_map, show b.book.calls[i]? = some call from hi,
          Option.map_some, hm]
      rw [ha.id_eq i m hret, callIds, hc.call_id hi]
  · exact fun r => ⟨Asking.start r, r, {}, Follows.start r, by simp [List.reduceOption], by simp⟩
  · rintro b a ⟨hask, random, c, hc, ha⟩
    refine ⟨hask.act a, random, ?_⟩
    obtain ⟨c', hc', rfl | ⟨e, rfl, -⟩⟩ := hc.act a
    · exact ⟨c', hc', ha⟩
    · exact ⟨_, hc', ha.step _ _ e⟩

/-- A charge point is asked and answers. -/
def oneCall : List RpcEvent :=
  [.connected 7, .call 0 (lit "Reset") (.object []), .enter 0 0,
    .received 0 (RapidJson.write .whole 1 (.array [.int 3, .string (decimal 7), .object []]))]

/-- What `oneCall` was answered. -/
theorem oneCall_received :
    (run .whole (start 1) (oneCall ++ [.popResult 0])).clients.flatMap RpcBase.results
        = [{ uniqueId := decimal 7, payload := .object [] }]
      ∧ ∀ b ∈ (run .whole (start 1) (oneCall ++ [.popResult 0])).clients,
        (b.calls.filterMap Call.answer).Sublist b.results
          ∧ (∀ c ∈ b.calls, ∀ m, c.answer = some m →
            c.request ∈ b.asked ∧ m.uniqueId = decimal c.id)
          ∧ b.asked.Sublist (b.book.begun.map Call.request) :=
  ⟨rfl, answers_received .whole 1 (oneCall ++ [.popResult 0])⟩

theorem asked_of_connected (threads : ℕ) (events : List RpcEvent) :
    ∀ b ∈ (run num (start threads) events).clients,
      b.connected = true → b.asked = b.book.begun.map Call.request :=
  run_links_of num (fun _ _ => rfl) (fun _ a h => act_asked h a) threads events

/-- A result is received that answers a request sent on its link. -/
def Solicited (b : RpcBase) (a : Act) : Prop :=
  ∀ m, a = .receive (.result m) → ∃ r ∈ b.asked, m.uniqueId = decimal r.1

/-- What holds of the calls while the charge points answer only what they were asked. -/
theorem firstAnswers_of_solicited {threads : ℕ} {events : List RpcEvent}
    (h : Runs.Throughout (step num) (Acts num Solicited) (start threads) events) :
    ∀ b ∈ (run num (start threads) events).clients,
      Asking b.book ∧ ∃ random c, Follows random b.book c
        ∧ (c.begun ≤ 2 ^ 32 → c.FirstAnswers (callIds random) RpcMessage.uniqueId) := by
  refine run_links num ?_ ?_ events (by simp [start]) h
  · exact fun r => ⟨Asking.start r, r, {}, Follows.start r, fun _ =>
      ⟨by simp [Caller.delivered], by simp, by simp⟩⟩
  · rintro b a ⟨hask, random, c, hc, hf⟩ ha
    refine ⟨hask.act a, random, ?_⟩
    obtain ⟨c', hc', rfl | ⟨e, rfl, he⟩⟩ := hc.act a
    · exact ⟨c', hc', hf⟩
    · refine ⟨_, hc', fun hN => ?_⟩
      have hN' := (c.begun_le_step (callIds random) RpcMessage.uniqueId e).trans hN
      refine (hf hN').step _ _ (idAt_injOn random) (fun m hm => ?_) hN
      obtain ⟨r, hr, hid⟩ := ha m (he m hm)
      obtain ⟨call, hcall, rfl⟩ := List.mem_map.1 (hask.sublist.subset hr)
      obtain ⟨i, hi⟩ := List.mem_iff_getElem?.1 hcall
      have hlt := (List.getElem?_eq_some_iff.1 hi).1
      refine ⟨i, hc.begun.symm ▸ hlt, ?_⟩
      rw [hid]
      exact congrArg decimal (hc.begun_id hi)

/-- While the charge points answer only what they were asked, and an `int` can count the calls of a
link, a call that is answered returns the first result received with its id. No other call has
that id. -/
theorem call_returns_first_answer {threads : ℕ} {events : List RpcEvent}
    (h : Runs.Throughout (step num) (Acts num Solicited) (start threads) events) :
    ∀ b ∈ (run num (start threads) events).clients, b.book.begun.length ≤ 2 ^ 32 →
      (∀ c ∈ b.calls, ∀ m, c.answer = some m →
        b.results.find? (fun m => m.uniqueId = decimal c.id) = some m)
      ∧ (b.book.begun.map Call.id).Nodup := by
  intro b hb hlen
  obtain ⟨-, random, c, hc, hf⟩ := firstAnswers_of_solicited num h b hb
  have hf := hf (hc.begun.trans_le hlen)
  refine ⟨fun call hcall m hm => ?_, ?_⟩
  · obtain ⟨i, hi⟩ := List.mem_iff_getElem?.1 hcall
    have hret : c.returned[i]? = some (some m) := by
      rw [hc.returned, List.getElem?_map, show b.book.calls[i]? = some call from hi,
        Option.map_some, hm]
    have := hf.first i m hret
    rw [hc.delivered, callIds, ← hc.call_id hi] at this
    exact this
  · rw [hc.ids]
    refine List.Nodup.map_on (fun i hi j hj hij => ?_) List.nodup_range
    refine idAt_injOn random (Set.mem_Iio.2 ?_) (Set.mem_Iio.2 ?_) (congrArg decimal hij)
    · exact (List.mem_range.1 hi).trans_le hlen
    · exact (List.mem_range.1 hj).trans_le hlen

theorem decode_answer :
    decode .whole (RapidJson.write .whole 1 (.array [.int 3, .string (decimal 7), .object []]))
      = .result { uniqueId := decimal 7, payload := .object [] } := by
  rw [decode, RapidJson.parse_write]
  · rfl
  · simp [RapidJson.Readable, RapidJson.ReadableElems, RapidJson.ReadableMembers, RapidJson.IsInt64]

theorem oneCall_solicited (n : ℕ) :
    Runs.Throughout (step .whole) (Acts .whole Solicited) (start 1)
      (oneCall ++ List.replicate n (.popResult 0)) := by
  simp only [oneCall, List.cons_append, List.nil_append, Runs.throughout_cons]
  refine ⟨?_, ?_, ?_, ?_, ?_⟩
  · simp [Acts, actOn]
  · rintro k b a hb ha m rfl
    simp [actOn] at ha
  · rintro k b a hb ha m rfl
    simp [actOn] at ha
  · rintro k b a hb ha m rfl
    rw [actOn, decode_answer, ite_eq_iff] at ha
    obtain ⟨⟨rfl, -⟩, hm⟩ | ⟨-, hm⟩ := ha <;> cases hm
    cases hb
    exact ⟨(7, _, _), List.mem_singleton.2 rfl, rfl⟩
  · rintro pre e post he k b a hb ha m rfl
    obtain rfl : e = .popResult 0 := List.eq_of_mem_replicate (n := n) (by rw [he]; simp)
    simp [actOn] at ha

/-- The call of `oneCall`, when it was woken. -/
theorem oneCall_returns_first_answer :
    ((run .whole (start 1) (oneCall ++ [.popResult 0])).clients.map RpcBase.calls
        = [[⟨7, lit "Reset", .object [], some { uniqueId := decimal 7, payload := .object [] }⟩]])
      ∧ ∀ b ∈ (run .whole (start 1) (oneCall ++ [.popResult 0])).clients,
        b.book.begun.length ≤ 2 ^ 32 →
        (∀ c ∈ b.calls, ∀ m, c.answer = some m →
          b.results.find? (fun m => m.uniqueId = decimal c.id) = some m)
        ∧ (b.book.begun.map Call.id).Nodup :=
  ⟨rfl, call_returns_first_answer .whole (oneCall_solicited 1)⟩

/-- The call that waits is woken until it gets its answer. -/
theorem popResult_iterate {c : Call} {m : RpcMessage} {post : List RpcMessage}
    (hm : m.uniqueId = decimal c.id) : ∀ (pre : List RpcMessage) {b : RpcBase},
    b.pending = some c → b.resultsQueue = ⟨pre ++ m :: post, true⟩ →
      (∀ p ∈ pre, p.uniqueId ≠ decimal c.id) →
      RpcBase.popResult^[pre.length + 1] b
        = RpcBase.finish c (some m) { b with resultsQueue := ⟨post, true⟩ }
  | [], b, hp, hq, _ => by simp [RpcBase.popResult, hp, hq, Queue.pop?, hm]
  | p :: pre, b, hp, hq, hpre => by
    have hstep : b.popResult = { b with resultsQueue := ⟨pre ++ m :: post, true⟩ } := by
      simp [RpcBase.popResult, hp, hq, Queue.pop?, hpre p (by simp)]
    have ih := popResult_iterate hm pre (b := { b with resultsQueue := ⟨pre ++ m :: post, true⟩ })
      hp rfl fun q hq => hpre q (List.mem_cons_of_mem _ hq)
    rw [List.length_cons, Function.iterate_succ_apply, hstep, ih]

theorem run_popResult {k : ℕ} : ∀ (n : ℕ) {s : RpcServer} {b : RpcBase},
    s.clients[k]? = some b →
      (run num s (List.replicate n (.popResult k))).clients[k]? = some (RpcBase.popResult^[n] b)
  | 0, _, _, h => h
  | n + 1, s, b, h => by
    have hb : (step num s (.popResult k)).clients[k]? = some b.popResult := by
      simp [step, onClient_getElem?, h]
    exact run_popResult n hb

end RpcServer

end Runs

end Rpc

end OcppServer
