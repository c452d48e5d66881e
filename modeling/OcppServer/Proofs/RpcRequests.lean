import Mathlib.Algebra.Order.Group.Multiset
import Mathlib.Tactic.Abel
import OcppServer.Proofs.RpcCalls

/-!
# The requests of the charge points

A request is in the queue, with a worker, handled or dropped, and in one place only
(`requests_conserved`). The lock of a link's owner keeps two of its requests from being handled at
the same time, and keeps the listener from being told of a disconnection while one is; afterwards
the link's requests are dropped (`handled_until_notified`).
-/

namespace OcppServer

namespace Rpc

/-- What the server has of its requests. -/
structure Pool where
  queue : List PoolMessage
  workers : List Worker
  accepted : List PoolMessage
  handled : List (PoolMessage × Handled)
  dropped : List PoolMessage
  notified : List ℕ

def RpcServer.pool (s : RpcServer) : Pool where
  queue := s.requestsQueue.items
  workers := s.workers
  accepted := s.accepted
  handled := s.handled
  dropped := s.dropped
  notified := s.notified

/-- What an event may do to the requests. -/
inductive PoolStep (s : RpcServer) : RpcEvent → Pool → Prop
  | idle (e : RpcEvent) (h : ∀ k, e = .disconnected k → ¬ (s.IsClosing k ∧ s.Free k)) :
    PoolStep s e s.pool
  | accept (k : ℕ) (data : Bytes) (m : RpcMessage) (h : s.IsOpen k) :
    PoolStep s (.received k data)
      { s.pool with queue := s.pool.queue ++ [⟨k, m⟩], accepted := s.accepted ++ [⟨k, m⟩] }
  | told (k : ℕ) (hc : s.IsClosing k) (hf : s.Free k) :
    PoolStep s (.disconnected k) { s.pool with notified := s.notified ++ [k] }
  | take (w : ℕ) (m : PoolMessage) (queue : List PoolMessage) (hw : s.workers[w]? = some .idle)
      (hq : s.pool.queue = m :: queue) :
    PoolStep s (.take w) { s.pool with queue := queue, workers := s.workers.set w (.taken m) }
  | lock (w : ℕ) (m : PoolMessage) (hw : s.workers[w]? = some (.taken m)) (hf : s.Free m.link)
      (ho : s.Operational m.link) :
    PoolStep s (.lock w) { s.pool with workers := s.workers.set w (.handling m) }
  | drop (w : ℕ) (m : PoolMessage) (hw : s.workers[w]? = some (.taken m))
      (ho : ¬ s.Operational m.link) :
    PoolStep s (.lock w)
      { s.pool with workers := s.workers.set w .idle, dropped := s.dropped ++ [m] }
  | finish (w : ℕ) (m : PoolMessage) (result : Handled)
      (hw : s.workers[w]? = some (.handling m)) :
    PoolStep s (.handled w result)
      { s.pool with workers := s.workers.set w .idle, handled := s.handled ++ [(m, result)] }

variable (num : RapidJson.Numbers)

namespace RpcServer

theorem step_pool (s : RpcServer) (e : RpcEvent) : PoolStep s e (step num s e).pool := by
  have hidle (h : ∀ k, e ≠ .disconnected k) : PoolStep s e s.pool :=
    .idle e fun k hk => absurd hk (h k)
  cases e with
  | received k data =>
    simp only [step]
    split_ifs with h
    · simp only [receive]
      split
      · exact .accept k data _ h
      · exact hidle (by simp)
    · exact hidle (by simp)
  | closed k =>
    simp only [step]
    split_ifs <;> exact hidle (by simp)
  | disconnected k =>
    simp only [step]
    split_ifs with h
    · exact .told k h.1 h.2
    · refine .idle _ ?_
      rintro _ ⟨⟩
      exact h
  | take w =>
    simp only [step]
    split
    · rename_i m queue hw hq
      exact .take w m queue.items hw (Queue.pop?_eq_some hq).1
    · exact hidle (by simp)
  | lock w =>
    simp only [step]
    split
    · rename_i m hw
      split_ifs with hf ho
      · exact .lock w m hw hf ho
      · exact .drop w m hw ho
      · exact hidle (by simp)
    · exact hidle (by simp)
  | handled w result =>
    simp only [step]
    split
    · rename_i m hw
      have h := PoolStep.finish w m result hw
      simp only [finishRequest]
      split
      · exact h
      · exact h
    · exact hidle (by simp)
  | _ => exact hidle (by simp)

end RpcServer

/-! ## Where a request is -/

theorem coe_filterMap_cons {α β : Type} (f : α → Option β) (x : α) (l : List α) :
    ((x :: l).filterMap f : Multiset β)
      = ((f x).toList : Multiset β) + (l.filterMap f : Multiset β) := by
  rcases hx : f x with _ | b <;> simp [hx]

/-- An element of a list is replaced. -/
theorem coe_filterMap_set {α β : Type} (f : α → Option β) :
    ∀ {l : List α} {w : ℕ} {x : α} (y : α), l[w]? = some x →
      ((l.set w y).filterMap f : Multiset β) + ((f x).toList : Multiset β)
        = (l.filterMap f : Multiset β) + ((f y).toList : Multiset β)
  | [], w, x, y, h => by simp at h
  | z :: l, 0, x, y, h => by
    obtain rfl : z = x := by simpa using h
    rw [List.set_cons_zero, coe_filterMap_cons, coe_filterMap_cons, add_comm,
      add_comm ((f y).toList : Multiset β), add_assoc]
  | z :: l, w + 1, x, y, h => by
    rw [List.set_cons_succ, coe_filterMap_cons, coe_filterMap_cons, add_assoc, add_assoc,
      coe_filterMap_set f y (by simpa using h)]

namespace Pool

/-- The requests the workers have. -/
def withWorkers (p : Pool) : List PoolMessage := p.workers.filterMap Worker.request?

/-- Every request accepted is in one place. -/
def Conserved (p : Pool) : Prop :=
  (p.accepted : Multiset PoolMessage) = p.queue + p.withWorkers + p.handled.map Prod.fst + p.dropped

end Pool

theorem PoolStep.conserved {s : RpcServer} {e : RpcEvent} {p : Pool} (h : PoolStep s e p)
    (hs : s.pool.Conserved) : p.Conserved := by
  unfold Pool.Conserved Pool.withWorkers at *
  cases h with
  | idle => exact hs
  | accept k data m =>
    simp only [RpcServer.pool, ← Multiset.coe_add] at hs ⊢
    rw [hs]
    abel
  | told k hc hf => exact hs
  | take w m queue hw hq =>
    have hset := coe_filterMap_set Worker.request? (.taken m) hw
    simp only [RpcServer.pool] at hs hq hset ⊢
    rw [hs, hq, ← Multiset.cons_coe, ← Multiset.singleton_add]
    simp only [Worker.request?, Option.toList_none, Option.toList_some, Multiset.coe_nil, add_zero,
      Multiset.coe_singleton] at hset
    rw [hset]
    abel
  | lock w m hw hf ho =>
    have hset := coe_filterMap_set Worker.request? (.handling m) hw
    simp only [RpcServer.pool] at hs hset ⊢
    rw [hs, add_right_cancel hset]
  | drop w m hw ho =>
    have hset := coe_filterMap_set Worker.request? .idle hw
    simp only [RpcServer.pool, ← Multiset.coe_add] at hs ⊢
    simp only [Worker.request?, Option.toList_none, Option.toList_some, Multiset.coe_nil, add_zero,
      Multiset.coe_singleton] at hset ⊢
    rw [hs, ← hset]
    abel
  | finish w m result hw =>
    have hset := coe_filterMap_set Worker.request? .idle hw
    simp only [RpcServer.pool, ← Multiset.coe_add, List.map_append, List.map_cons, List.map_nil]
      at hs ⊢
    simp only [Worker.request?, Option.toList_none, Option.toList_some, Multiset.coe_nil, add_zero,
      Multiset.coe_singleton] at hset ⊢
    rw [hs, ← hset]
    abel

theorem PoolStep.notified_subset {s : RpcServer} {e : RpcEvent} {p : Pool} (h : PoolStep s e p) :
    s.notified ⊆ p.notified := by
  cases h with
  | told => exact List.subset_append_left _ _
  | _ => exact List.Subset.refl _

namespace RpcServer

/-- The listener was told of the link's disconnection. -/
def Closed (s : RpcServer) (k : ℕ) : Prop := ∃ b, s.clients[k]? = some b ∧ b.link = .closed

theorem actOn_told {s : RpcServer} {k : ℕ} {e : RpcEvent} :
    s.actOn num k e = some .told ↔ e = .disconnected k ∧ s.IsClosing k ∧ s.Free k := by
  cases e with
  | handled w result =>
    simp only [actOn]
    split
    · split_ifs <;> simp
    · simp
  | disconnected j =>
    simp only [actOn, RpcEvent.disconnected.injEq]
    constructor
    · intro h
      split_ifs at h with hj
      exact ⟨hj.1, hj.1 ▸ hj.2⟩
    · rintro ⟨rfl, h⟩
      simp [h]
  | _ => simp [actOn]

theorem isOpen_of_actOn_close {s : RpcServer} {k : ℕ} {e : RpcEvent}
    (h : s.actOn num k e = some .close) : s.IsOpen k := by
  cases e with
  | handled w result =>
    simp only [actOn] at h
    split at h
    · split_ifs at h
      cases h
    · cases h
  | closed j =>
    simp only [actOn] at h
    split_ifs at h with hj
    exact hj.1 ▸ hj.2
  | _ => simp [actOn] at h

theorem closed_step (s : RpcServer) (e : RpcEvent) (k : ℕ) :
    (step num s e).Closed k
      ↔ s.Closed k ∨ e = .disconnected k ∧ s.IsClosing k ∧ s.Free k := by
  rw [← actOn_told num]
  constructor
  · rintro ⟨b', hb', hl⟩
    rcases hb : s.clients[k]? with _ | b
    · obtain ⟨random, -, rfl⟩ := step_of_none num hb hb'
      cases hl
    · rw [step_of_some num hb, Option.some.injEq] at hb'
      subst hb'
      rcases ha : s.actOn num k e with _ | a
      · rw [ha] at hl
        exact .inl ⟨b, hb, hl⟩
      · rw [ha, Option.map_some, Option.getD_some] at hl
        rcases (act_wire b a).link with h | ⟨-, h⟩ | ⟨rfl, -⟩
        · exact .inl ⟨b, hb, h.symm.trans hl⟩
        · exact absurd (h.symm.trans hl) (by simp)
        · exact .inr rfl
  · rintro (⟨b, hb, hl⟩ | ha)
    · refine ⟨_, step_of_some num hb e, ?_⟩
      rcases ha : s.actOn num k e with _ | a
      · exact hl
      · rcases (act_wire b a).link with h | ⟨rfl, -⟩ | ⟨-, h⟩
        · exact h.trans hl
        · obtain ⟨b', hb', ho⟩ := isOpen_of_actOn_close num ha
          obtain rfl := Option.some.inj (hb.symm.trans hb')
          exact absurd (hl.symm.trans ho) (by simp)
        · exact h
    · obtain ⟨-, ⟨b, hb, -⟩, -⟩ := (actOn_told num).1 ha
      refine ⟨_, step_of_some num hb e, ?_⟩
      rw [ha]
      rfl

end RpcServer

namespace Pool

/-- The lock of a link's owner is free. -/
def Free (p : Pool) (k : ℕ) : Prop := ∀ w ∈ p.workers, w.locked? ≠ some k

/-- Two workers handle no requests of one link. -/
def Exclusive (p : Pool) : Prop := ∀ (w w' : ℕ) (m m' : PoolMessage),
  p.workers[w]? = some (.handling m) → p.workers[w']? = some (.handling m') →
    m.link = m'.link → w = w'

/-- The requests are where they belong: with so many links, of which those are closed. -/
structure Orderly (links : ℕ) (closed : ℕ → Prop) (p : Pool) : Prop where
  conserved : p.Conserved
  linked : ∀ m ∈ p.accepted, m.link < links
  exclusive : p.Exclusive
  notified : ∀ k, k ∈ p.notified ↔ closed k
  nodup : p.notified.Nodup
  free : ∀ k ∈ p.notified, p.Free k
  dropped : ∀ m ∈ p.dropped, m.link ∈ p.notified

variable {links k : ℕ} {closed : ℕ → Prop} {p : Pool}

theorem Orderly.mem_accepted (h : p.Orderly links closed) {w : Worker} (hw : w ∈ p.workers)
    {m : PoolMessage} (hm : w.request? = some m) : m ∈ p.accepted := by
  have : m ∈ (p.accepted : Multiset PoolMessage) := by
    rw [h.conserved]
    have : m ∈ p.withWorkers := List.mem_filterMap.2 ⟨w, hw, hm⟩
    simp [this]
  exact this

theorem Free.ne (h : p.Free k) {w : ℕ} {m : PoolMessage} (hw : p.workers[w]? = some (.handling m)) :
    m.link ≠ k := fun hk => h _ (List.mem_of_getElem? hw) (congrArg some hk)

/-- A worker changes to something that leaves the lock alone. -/
theorem Free.set (h : p.Free k) {w : ℕ} {x : Worker} (hx : x.locked? ≠ some k) :
    Pool.Free { p with workers := p.workers.set w x } k := by
  intro y hy
  rcases List.mem_or_eq_of_mem_set hy with hy | rfl
  · exact h y hy
  · exact hx

/-- A worker changes to something that takes no lock but a free one. -/
theorem Exclusive.set (h : p.Exclusive) {w : ℕ} {x : Worker}
    (hx : ∀ m, x = .handling m → p.Free m.link) :
    Pool.Exclusive { p with workers := p.workers.set w x } := by
  intro i j m m' hi hj hm
  simp only [List.getElem?_set] at hi hj
  by_cases hwi : w = i
  · by_cases hwj : w = j
    · rw [← hwi, hwj]
    · rw [if_pos hwi] at hi
      rw [if_neg hwj] at hj
      split_ifs at hi
      exact absurd hm.symm ((hx m (Option.some.inj hi)).ne hj)
  · rw [if_neg hwi] at hi
    by_cases hwj : w = j
    · rw [if_pos hwj] at hj
      split_ifs at hj
      exact absurd hm ((hx m' (Option.some.inj hj)).ne hi)
    · rw [if_neg hwj] at hj
      exact h i j m m' hi hj hm

end Pool

theorem PoolStep.orderly {s : RpcServer} {e : RpcEvent} {p : Pool} (h : PoolStep s e p)
    (hs : s.pool.Orderly s.clients.length s.Closed) {links : ℕ} (hlinks : s.clients.length ≤ links)
    {closed : ℕ → Prop}
    (hclosed : ∀ k, closed k ↔ s.Closed k ∨ e = .disconnected k ∧ s.IsClosing k ∧ s.Free k) :
    p.Orderly links closed := by
  have hc := h.conserved hs.conserved
  have hlinked : ∀ m ∈ s.pool.accepted, m.link < links := fun m hm =>
    (hs.linked m hm).trans_le hlinks
  have hnot (hd : ∀ k, e = .disconnected k → ¬ (s.IsClosing k ∧ s.Free k)) (k : ℕ) :
      k ∈ s.pool.notified ↔ closed k := by
    rw [hclosed, hs.notified]
    exact ⟨.inl, fun h => h.resolve_right fun ⟨he, hk⟩ => hd k he hk⟩
  cases h with
  | idle _ hd => exact { hs with conserved := hc, linked := hlinked, notified := hnot hd }
  | accept k data m hk =>
    refine { hs with conserved := hc, linked := fun x hx => ?_, notified := hnot (by simp) }
    rcases List.mem_append.1 hx with hx | hx
    · exact hlinked x hx
    · obtain ⟨b, hb, -⟩ := hk
      rw [List.mem_singleton.1 hx]
      exact ((List.getElem?_eq_some_iff.1 hb).1).trans_le hlinks
  | told k hk hf =>
    have hne : k ∉ s.pool.notified := by
      rw [hs.notified]
      rintro ⟨b, hb, hl⟩
      obtain ⟨b', hb', hl'⟩ := hk
      obtain rfl := Option.some.inj (hb.symm.trans hb')
      exact absurd (hl.symm.trans hl') (by simp)
    refine ⟨hc, hlinked, hs.exclusive, fun j => ?_, ?_, fun j hj => ?_, fun m hm => ?_⟩
    · rw [hclosed, ← hs.notified, List.mem_append, List.mem_singleton]
      refine or_congr_right ⟨?_, fun h => (RpcEvent.disconnected.inj h.1).symm⟩
      rintro rfl
      exact ⟨rfl, hk, hf⟩
    · exact hs.nodup.append (List.nodup_singleton k) (by simpa using hne)
    · rcases List.mem_append.1 hj with hj | hj
      · exact hs.free j hj
      · exact List.mem_singleton.1 hj ▸ hf
    · exact List.mem_append_left _ (hs.dropped m hm)
  | take w m queue hw hq =>
    refine ⟨hc, hlinked, hs.exclusive.set (by simp), hnot (by simp), hs.nodup, fun k hk => ?_,
      hs.dropped⟩
    exact (hs.free k hk).set (by simp [Worker.locked?])
  | lock w m hw hf ho =>
    refine ⟨hc, hlinked, hs.exclusive.set ?_, hnot (by simp), hs.nodup, fun k hk => ?_,
      hs.dropped⟩
    · rintro _ ⟨⟩
      exact hf
    · refine (hs.free k hk).set ?_
      rintro ⟨⟩
      obtain ⟨b, hb, hl⟩ := ho
      obtain ⟨b', hb', hl'⟩ := (hs.notified _).1 hk
      obtain rfl := Option.some.inj (hb.symm.trans hb')
      exact hl hl'
  | drop w m hw ho =>
    refine ⟨hc, hlinked, hs.exclusive.set (by simp), hnot (by simp), hs.nodup, fun k hk => ?_,
      fun x hx => ?_⟩
    · exact (hs.free k hk).set (by simp [Worker.locked?])
    · rcases List.mem_append.1 hx with hx | hx
      · exact hs.dropped x hx
      · obtain rfl := List.mem_singleton.1 hx
        have hlt := hs.linked x (hs.mem_accepted (List.mem_of_getElem? hw) rfl)
        refine (hs.notified _).2 ⟨_, List.getElem?_eq_getElem hlt, ?_⟩
        by_contra hl
        exact ho ⟨_, List.getElem?_eq_getElem hlt, hl⟩
  | finish w m result hw =>
    refine ⟨hc, hlinked, hs.exclusive.set (by simp), hnot (by simp), hs.nodup, fun k hk => ?_,
      hs.dropped⟩
    exact (hs.free k hk).set (by simp [Worker.locked?])

/-! ## What is sent -/

/-- The text was taken for none of the frames. -/
def RpcFrame.isInvalid : RpcFrame → Bool
  | .invalid => true
  | _ => false

def RpcFrame.call? : RpcFrame → Option RpcMessage
  | .call m => some m
  | _ => none

/-- The frame an act has received. -/
def Act.frame? : Act → Option RpcFrame
  | .receive frame => some frame
  | _ => none

/-- The request an act on link `k` has accepted. -/
def Act.accepted? (k : ℕ) : Act → Option PoolMessage
  | .receive (.call m) => some ⟨k, m⟩
  | _ => none

/-- The request an act on link `k` has handled. -/
def Act.handled? (k : ℕ) : Act → Option (PoolMessage × Handled)
  | .reply m result => some (⟨k, m⟩, result)
  | _ => none

/-- What an act has to say to the charge point, but for its calls. -/
def Act.reply? : Act → Option Sent
  | .receive .invalid => some protocolError
  | .reply m result => Rpc.reply? m result
  | _ => none

namespace RpcBase

/-- What was sent on a link, but for the calls. -/
def replies (b : RpcBase) : List Sent := b.sent.filter fun msg => msg.asked?.isNone

theorem doSend_replies {msg : Sent} (h : msg.asked? = none) {b : RpcBase}
    (hc : b.connected = true) : (b.doSend msg).replies = b.replies ++ [msg] := by
  simp [doSend, hc, replies, h]

theorem doSend_received (msg : Sent) (b : RpcBase) : (b.doSend msg).received = b.received := by
  unfold doSend
  split_ifs <;> rfl

theorem act_received (b : RpcBase) (a : Act) :
    (b.act a).received = b.received ++ a.frame?.toList := by
  rw [Act.frame?.eq_def]
  cases a with
  | call action payload => simp only [act, call]; split_ifs <;> simp
  | enter i =>
    simp only [act, enter]
    split
    · split_ifs
      · simp [doSend_received]
      · simp [finish]
    · simp
  | popResult =>
    simp only [act, popResult]
    split
    · split_ifs <;> simp [finish]
    · simp
  | expire => simp only [act, expire]; split <;> simp [finish]
  | receive frame => cases frame <;> simp [act, receive, doSend_received]
  | reply m result =>
    rcases hr : Rpc.reply? m result with _ | msg
    · simp [act, hr]
    · simp [act, hr, doSend_received]
  | disconnect => simp [act, disconnect]
  | writeable written => simp only [act, writeable]; split_ifs <;> simp [disconnect]
  | close => simp [act, close]
  | told => simp [act]

theorem act_replies {b : RpcBase} (hc : b.connected = true) (a : Act) :
    (b.act a).replies = b.replies ++ a.reply?.toList := by
  cases a with
  | call action payload => simp [act, call, hc, replies, Act.reply?]
  | enter i =>
    simp only [act, enter, hc, if_true]
    split
    · simp [doSend, replies, Sent.asked?, Act.reply?]
    · simp [Act.reply?]
  | popResult =>
    simp only [act, popResult]
    split
    · split_ifs <;> simp [finish, replies, Act.reply?]
    · simp [Act.reply?]
  | expire => simp only [act, expire]; split <;> simp [finish, replies, Act.reply?]
  | receive frame =>
    cases frame with
    | call m => simp [act, receive, replies, Act.reply?]
    | result m => simp [act, receive, replies, Act.reply?]
    | invalid => exact doSend_replies (b := { b with received := b.received ++ [.invalid] }) rfl hc
  | reply m result =>
    rcases hr : Rpc.reply? m result with _ | msg
    · simp [act, hr, Act.reply?]
    · simp [act, hr, Act.reply?, doSend_replies (reply?_asked? hr) hc]
  | disconnect => simp [act, disconnect, replies, Act.reply?]
  | writeable written =>
    simp only [act, writeable]
    split_ifs <;> simp [disconnect, replies, Act.reply?]
  | close => simp [act, close, replies, Act.reply?]
  | told => simp [act, replies, Act.reply?]

end RpcBase

namespace RpcServer

/-- The requests accepted on a link. -/
def acceptedOn (s : RpcServer) (k : ℕ) : List PoolMessage := s.accepted.filter (·.link = k)

/-- The requests of a link that were handled, and what became of them. -/
def handledOn (s : RpcServer) (k : ℕ) : List (PoolMessage × Handled) :=
  s.handled.filter (·.1.link = k)

theorem step_acceptedOn (s : RpcServer) (e : RpcEvent) (k : ℕ) :
    (step num s e).acceptedOn k
      = s.acceptedOn k ++ ((s.actOn num k e).bind (Act.accepted? k)).toList := by
  cases e with
  | received j data =>
    by_cases ho : s.IsOpen j
    · simp only [step, ho, if_true, actOn, and_true, receive]
      by_cases hj : j = k
      · cases decode num data <;> simp [Act.accepted?, acceptedOn, onClient, hj]
      · cases decode num data <;> simp [Act.accepted?, acceptedOn, onClient, hj]
    · simp [step, ho, actOn]
  | closed j =>
    simp only [step, actOn]
    split_ifs <;> simp [Act.accepted?, acceptedOn, onClient]
  | disconnected j =>
    simp only [step, actOn]
    split_ifs <;> simp [Act.accepted?, acceptedOn, onClient]
  | take w =>
    simp only [step, actOn]
    split <;> simp [acceptedOn]
  | lock w =>
    simp only [step, actOn]
    split
    · split_ifs <;> simp [acceptedOn]
    · simp
  | handled w result =>
    rcases hw : s.workers[w]? with _ | worker
    · simp [step, actOn, hw]
    rcases worker with _ | m | m
    · simp [step, actOn, hw]
    · simp [step, actOn, hw]
    · simp only [step, actOn, hw, finishRequest]
      cases reply? m.message result <;> split_ifs <;> simp [Act.accepted?, acceptedOn, onClient]
  | connected random => simp [step, actOn, acceptedOn]
  | _ => simp only [step, actOn]; split_ifs <;> simp [Act.accepted?, acceptedOn, onClient]

theorem step_handledOn (s : RpcServer) (e : RpcEvent) (k : ℕ) :
    (step num s e).handledOn k
      = s.handledOn k ++ ((s.actOn num k e).bind (Act.handled? k)).toList := by
  cases e with
  | handled w result =>
    rcases hw : s.workers[w]? with _ | worker
    · simp [step, actOn, hw]
    rcases worker with _ | m | ⟨j, m⟩
    · simp [step, actOn, hw]
    · simp [step, actOn, hw]
    · simp only [step, actOn, hw, finishRequest]
      by_cases hj : j = k
      · cases reply? m result <;> simp [Act.handled?, handledOn, onClient, hj]
      · cases reply? m result <;> simp [Act.handled?, handledOn, onClient, hj]
  | received j data =>
    simp only [step, actOn, receive]
    split_ifs
    · split <;> simp [Act.handled?, handledOn, onClient]
    · split <;> simp [handledOn, onClient]
    · simp [Act.handled?]
    · simp
  | closed j =>
    simp only [step, actOn]
    split_ifs <;> simp [Act.handled?, handledOn, onClient]
  | disconnected j =>
    simp only [step, actOn]
    split_ifs <;> simp [Act.handled?, handledOn, onClient]
  | take w =>
    simp only [step, actOn]
    split <;> simp [handledOn]
  | lock w =>
    simp only [step, actOn]
    split
    · split_ifs <;> simp [handledOn]
    · simp
  | connected random => simp [step, actOn, handledOn]
  | _ => simp only [step, actOn]; split_ifs <;> simp [Act.handled?, handledOn, onClient]

/-- What was accepted and said on a link. -/
structure Accounted (s : RpcServer) (k : ℕ) (b : RpcBase) : Prop where
  accepted : (s.acceptedOn k).map PoolMessage.message = b.received.filterMap RpcFrame.call?
  replies : b.connected = true → (b.replies : Multiset Sent)
    = (s.handledOn k).filterMap (fun p => reply? p.1.message p.2)
      + (b.received.filter RpcFrame.isInvalid).map fun _ => protocolError

theorem Accounted.step {s : RpcServer} {k : ℕ} {b : RpcBase} (h : s.Accounted k b) {e : RpcEvent}
    {a : Act} (ha : s.actOn num k e = some a) : (step num s e).Accounted k (b.act a) := by
  have hacc := step_acceptedOn num s e k
  have hhan := step_handledOn num s e k
  rw [ha, Option.bind_some] at hacc hhan
  refine ⟨?_, fun hc => ?_⟩
  · rw [hacc, b.act_received, List.filterMap_append, List.map_append, h.accepted]
    refine congrArg _ ?_
    rcases a with _ | _ | _ | _ | ⟨_ | _ | _⟩ | _ | _ | _ | _ | _ <;> rfl
  · have hcb : b.connected = true := (act_wire b a).connected hc
    have hnew : (a.reply?.toList : Multiset Sent)
        = (a.handled? k).toList.filterMap (fun p => reply? p.1.message p.2)
          + (a.frame?.toList.filter RpcFrame.isInvalid).map fun _ => protocolError := by
      rcases a with _ | _ | _ | _ | ⟨_ | _ | _⟩ | ⟨m, result⟩ | _ | _ | _ | _
      case reply => cases hr : reply? m result <;> simp [Act.reply?, Act.frame?, Act.handled?, hr]
      all_goals rfl
    rw [hhan, RpcBase.act_replies hcb, b.act_received, ← Multiset.coe_add, h.replies hcb, hnew,
      List.filter_append, List.map_append, List.filterMap_append, ← Multiset.coe_add,
      ← Multiset.coe_add]
    abel

theorem orderly_step {s : RpcServer} (h : s.pool.Orderly s.clients.length s.Closed) (e : RpcEvent) :
    (step num s e).pool.Orderly (step num s e).clients.length (step num s e).Closed := by
  refine (step_pool num s e).orderly h ?_ (closed_step num s e)
  rcases step_length num s e with hl | ⟨random, rfl⟩
  · exact hl.ge
  · simp [step]

theorem orderly_run (threads : ℕ) (events : List RpcEvent) :
    let s := run num (start threads) events
    s.pool.Orderly s.clients.length s.Closed := by
  refine List.foldlRecOn events (step num) (motive := fun s =>
    s.pool.Orderly s.clients.length s.Closed) ?_ fun s h e _ => orderly_step num h e
  have hw (w : ℕ) (m : PoolMessage) : (start threads).workers[w]? ≠ some (Worker.handling m) := by
    intro h
    have := List.eq_of_mem_replicate (List.mem_of_getElem? h)
    cases this
  refine ⟨?_, by simp [pool, start], fun w _ m _ h _ _ => absurd h (hw w m), ?_,
    by simp [pool, start], by simp [pool, start], by simp [pool, start]⟩
  · simp [Pool.Conserved, Pool.withWorkers, pool, start, List.filterMap_replicate, Worker.request?]
  · simp [pool, start, Closed]

theorem accounted_step {s : RpcServer} (ho : s.pool.Orderly s.clients.length s.Closed)
    (h : ∀ k b, s.clients[k]? = some b → s.Accounted k b) (e : RpcEvent) {k : ℕ} {b : RpcBase}
    (hb : (step num s e).clients[k]? = some b) : (step num s e).Accounted k b := by
  rcases hk : s.clients[k]? with _ | b₀
  -- a new link has nothing accepted or handled
  · obtain ⟨random, rfl, rfl⟩ := step_of_none num hk hb
    have hlt : ∀ m ∈ s.accepted, m.link ≠ k := by
      rintro m hm rfl
      exact absurd (ho.linked m hm) (by simpa using hk)
    have hhan : ∀ p ∈ s.handled, p.1.link ≠ k := by
      intro p hp
      refine hlt p.1 ?_
      have hmem : p.1 ∈ (s.accepted : Multiset PoolMessage) := by
        have := ho.conserved
        simp only [pool] at this
        rw [this]
        simp [List.mem_map_of_mem (f := Prod.fst) hp]
      exact hmem
    refine ⟨?_, fun _ => ?_⟩
    · simp only [step, acceptedOn]
      rw [List.filter_eq_nil_iff.2 (by simpa using hlt)]
      rfl
    · simp only [step, handledOn]
      rw [List.filter_eq_nil_iff.2 (by simpa using hhan)]
      rfl
  · have hs := h k b₀ hk
    rw [step_of_some num hk, Option.some.injEq] at hb
    subst hb
    rcases ha : s.actOn num k e with _ | a
    · have hacc := step_acceptedOn num s e k
      have hhan := step_handledOn num s e k
      rw [ha, Option.bind_none, Option.toList_none, List.append_nil] at hacc hhan
      exact ⟨hacc ▸ hs.accepted, hhan ▸ hs.replies⟩
    · exact hs.step num ha

theorem accounted_run (threads : ℕ) (events : List RpcEvent) :
    let s := run num (start threads) events
    ∀ k b, s.clients[k]? = some b → s.Accounted k b := by
  refine (List.foldlRecOn events (step num) (motive := fun s =>
    s.pool.Orderly s.clients.length s.Closed ∧ ∀ k b, s.clients[k]? = some b → s.Accounted k b)
    ⟨orderly_run num threads [], by simp [start, run]⟩ fun s h e _ => ?_).2
  exact ⟨orderly_step num h.1 e, fun k b hb => accounted_step num h.1 h.2 e hb⟩

/-- What a step has handled of a link, a worker had the lock for. -/
theorem handledOn_step_of_free {s : RpcServer} {k : ℕ} (h : s.Free k) (e : RpcEvent) :
    (step num s e).handledOn k = s.handledOn k := by
  rw [step_handledOn]
  cases e with
  | handled w result =>
    simp only [actOn]
    split
    · rename_i m hw
      rw [if_neg fun hk => h _ (List.mem_of_getElem? hw) (congrArg some hk)]
      simp
    · simp
  | connected random | take w | lock w => simp [actOn]
  | _ => simp only [actOn]; split_ifs <;> simp [Act.handled?]

/-- The listener is told of a disconnection once, and while it handles no request of the link; no
request of the link is handled afterwards. -/
theorem handled_until_notified (threads : ℕ) (events : List RpcEvent) :
    let s := run num (start threads) events
    s.notified.Nodup ∧ ∀ k ∈ s.notified, s.Free k
      ∧ ∀ more, (run num s more).handledOn k = s.handledOn k := by
  intro s
  have hs := orderly_run num threads events
  refine ⟨hs.nodup, fun k hk => ⟨hs.free k hk, fun more => ?_⟩⟩
  refine (List.foldlRecOn more (step num) (motive := fun t =>
    (t.pool.Orderly t.clients.length t.Closed ∧ k ∈ t.notified) ∧ t.handledOn k = s.handledOn k)
    ⟨⟨hs, hk⟩, rfl⟩ fun t ⟨⟨ht, hkt⟩, he⟩ e _ => ?_).2
  refine ⟨⟨orderly_step num ht e, (step_pool num t e).notified_subset hkt⟩, ?_⟩
  rw [handledOn_step_of_free num (ht.free k hkt), he]

end RpcServer

end Rpc

end OcppServer
