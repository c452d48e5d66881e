import OcppServer.RpcServer

/-!
# One link among all

What a step of the server does on a link is one act of a thread on it, or nothing (`actOn`), so
what every act keeps of a link holds of all links in every run (`run_links`). On the wire the acts
only send, write and close (`act_wire`): what was written is what was sent first, one frame each.
-/

namespace OcppServer

namespace Rpc

theorem Queue.pop?_eq_some {α : Type} {q q' : Queue α} {a : α} (h : q.pop? = some (a, q')) :
    q.items = a :: q'.items ∧ q'.enabled = q.enabled := by
  unfold Queue.pop? at h
  split at h
  · rename_i he hi
    simp only [Option.some.injEq, Prod.mk.injEq] at h
    obtain ⟨rfl, rfl⟩ := h
    exact ⟨hi, rfl⟩
  · cases h

/-- What the threads do on one link between two points where they may wait. -/
inductive Act where
  | call (action : Bytes) (payload : Json)
  | enter (i : ℕ)
  | popResult
  | expire
  | receive (frame : RpcFrame)
  | reply (m : RpcMessage) (result : Handled)
  | disconnect
  | writeable (written : ℕ)
  | close
  | told

def RpcBase.act (b : RpcBase) : Act → RpcBase
  | .call action payload => b.call action payload
  | .enter i => b.enter i
  | .popResult => b.popResult
  | .expire => b.expire
  | .receive frame => b.receive frame
  | .reply m result => ((reply? m result).map fun msg => b.doSend msg).getD b
  | .disconnect => b.disconnect
  | .writeable written => b.writeable written
  | .close => b.close
  | .told => { b with link := .closed }

/-- What a link has of its websocket. -/
structure Wire where
  link : Link
  connected : Bool
  enabled : Bool
  sendMsgs : List Sent
  sent : List Sent
  frames : List Sent

def RpcBase.wire (b : RpcBase) : Wire where
  link := b.link
  connected := b.connected
  enabled := b.resultsQueue.enabled
  sendMsgs := b.sendMsgs
  sent := b.sent
  frames := b.frames

/-- What an act may do to the websocket. -/
inductive Wire.Step : Act → Wire → Wire → Prop
  | idle (a : Act) (w : Wire) : Step a w w
  | send (a : Act) (w : Wire) (msg : Sent) (h : w.connected = true) :
    Step a w { w with sendMsgs := w.sendMsgs ++ [msg], sent := w.sent ++ [msg] }
  | write (a : Act) (w : Wire) (h : w.connected = true) :
    Step a w { w with frames := w.frames ++ w.sendMsgs, sendMsgs := [] }
  | fail (a : Act) (w : Wire) (n : ℕ) (h : w.connected = true) :
    Step a w { w with frames := w.frames ++ w.sendMsgs.take n, connected := false, sendMsgs := [] }
  | disconnect (a : Act) (w : Wire) : Step a w { w with connected := false, sendMsgs := [] }
  | close (w : Wire) :
    Step .close w { w with link := .closing, connected := false, enabled := false }
  | told (w : Wire) : Step .told w { w with link := .closed }

theorem Wire.step_doSend (a : Act) (b : RpcBase) (msg : Sent) :
    Wire.Step a b.wire (b.doSend msg).wire := by
  unfold RpcBase.doSend
  split_ifs with h
  · exact .send a b.wire msg h
  · exact .idle _ _

theorem act_wire (b : RpcBase) (a : Act) : Wire.Step a b.wire (b.act a).wire := by
  cases a with
  | call action payload =>
    simp only [RpcBase.act, RpcBase.call]
    split_ifs <;> exact .idle _ _
  | enter i =>
    simp only [RpcBase.act, RpcBase.enter]
    split
    · rename_i action payload _ _
      split_ifs with h
      · exact Wire.step_doSend _ { b with callers := b.callers.eraseIdx i }
          (.call b.transactionId action payload)
      · exact .idle _ _
    · exact .idle _ _
  | popResult =>
    simp only [RpcBase.act, RpcBase.popResult]
    split
    · rename_i queue _ hq
      have hw : ({ b with resultsQueue := queue } : RpcBase).wire = b.wire := by
        simp [RpcBase.wire, (Queue.pop?_eq_some hq).2]
      split_ifs
      · exact hw ▸ .idle _ _
      · exact hw ▸ .idle _ _
    · exact .idle _ _
  | expire =>
    simp only [RpcBase.act, RpcBase.expire]
    split <;> exact .idle _ _
  | receive frame =>
    simp only [RpcBase.act, RpcBase.receive]
    split
    · exact .idle _ _
    · exact .idle _ _
    · exact Wire.step_doSend _ { b with received := b.received ++ [.invalid] } protocolError
  | reply m result =>
    simp only [RpcBase.act]
    rcases reply? m result with _ | msg
    · exact .idle _ _
    · exact Wire.step_doSend _ b msg
  | disconnect => exact .disconnect _ _
  | writeable written =>
    simp only [RpcBase.act, RpcBase.writeable]
    split_ifs with h
    · exact .write _ b.wire h
    · exact .fail _ b.wire written h
    · exact .idle _ _
  | close => exact .close _
  | told => exact .told _

theorem Wire.Step.link {w w' : Wire} {a : Act} (h : Step a w w') :
    w'.link = w.link ∨ a = .close ∧ w'.link = .closing ∨ a = .told ∧ w'.link = .closed := by
  cases h with
  | close => exact .inr (.inl ⟨rfl, rfl⟩)
  | told => exact .inr (.inr ⟨rfl, rfl⟩)
  | _ => exact .inl rfl

/-- A websocket that is down stays down. -/
theorem Wire.Step.connected {w w' : Wire} {a : Act} (h : Step a w w') (hc : w'.connected = true) :
    w.connected = true := by
  cases h with
  | fail | disconnect | close => simp at hc
  | _ => assumption

/-- What was written is what was sent first; while the link is up the rest waits. Results are read
until the link is closed. -/
structure Wire.InOrder (w : Wire) : Prop where
  frames : w.frames <+: w.sent
  waiting : w.connected = true → w.frames ++ w.sendMsgs = w.sent
  enabled : w.link = .open → w.enabled = true

theorem Wire.InOrder.step {w w' : Wire} (h : InOrder w) {a : Act} (hs : Step a w w') :
    InOrder w' := by
  cases hs with
  | idle => exact h
  | send _ _ msg hc =>
    refine ⟨h.frames.trans (List.prefix_append _ _), fun _ => ?_, h.enabled⟩
    simp only
    rw [← h.waiting hc, List.append_assoc]
  | write _ _ hc => exact ⟨by simp [h.waiting hc], fun _ => by simpa using h.waiting hc, h.enabled⟩
  | fail _ _ n hc =>
    refine ⟨?_, by simp, h.enabled⟩
    rw [← h.waiting hc]
    exact (List.prefix_append_right_inj _).2 (List.take_prefix n _)
  | disconnect => exact ⟨h.frames, by simp, h.enabled⟩
  | close => exact ⟨h.frames, by simp, by simp⟩
  | told => exact ⟨h.frames, h.waiting, by simp⟩

section Links

variable (num : RapidJson.Numbers)

namespace RpcServer

/-- What a step does on link `k`. -/
def actOn (s : RpcServer) (k : ℕ) : RpcEvent → Option Act
  | .connected _ | .take _ | .lock _ => none
  | .received j data => if j = k ∧ s.IsOpen j then some (.receive (decode num data)) else none
  | .call j action payload => if j = k then some (.call action payload) else none
  | .enter j i => if j = k then some (.enter i) else none
  | .popResult j => if j = k then some .popResult else none
  | .expire j => if j = k then some .expire else none
  | .disconnect j => if j = k then some .disconnect else none
  | .writeable j written => if j = k then some (.writeable written) else none
  | .closed j => if j = k ∧ s.IsOpen j then some .close else none
  | .disconnected j => if j = k ∧ s.IsClosing j ∧ s.Free j then some .told else none
  | .handled w result =>
    match s.workers[w]? with
    | some (.handling m) => if m.link = k then some (.reply m.message result) else none
    | _ => none

theorem onClient_getElem? (f : RpcBase → RpcBase) (s : RpcServer) (j k : ℕ) :
    (s.onClient j f).clients[k]? = s.clients[k]?.map fun b => if j = k then f b else b := by
  simp [onClient, List.getElem?_modify]

/-- A step on the links that were there before it. -/
theorem step_of_some {s : RpcServer} {k : ℕ} {b : RpcBase} (h : s.clients[k]? = some b)
    (e : RpcEvent) :
    (step num s e).clients[k]? = some (((s.actOn num k e).map b.act).getD b) := by
  cases e with
  | connected random =>
    simp only [step, List.getElem?_append_left (List.getElem?_eq_some_iff.1 h).1, h, actOn,
      Option.map_none, Option.getD_none]
  | received j data =>
    by_cases ho : s.IsOpen j
    · have hr : (s.receive j (decode num data)).clients
          = (s.onClient j (.receive (decode num data))).clients := by
        unfold receive
        split <;> rfl
      simp only [step, ho, if_true, hr, onClient_getElem?, h, Option.map_some, actOn, and_true]
      split_ifs <;> rfl
    · simp [step, ho, h, actOn]
  | call j action payload => simp only [step, onClient_getElem?, h, actOn]; split_ifs <;> rfl
  | enter j i => simp only [step, onClient_getElem?, h, actOn]; split_ifs <;> rfl
  | popResult j => simp only [step, onClient_getElem?, h, actOn]; split_ifs <;> rfl
  | expire j => simp only [step, onClient_getElem?, h, actOn]; split_ifs <;> rfl
  | disconnect j => simp only [step, onClient_getElem?, h, actOn]; split_ifs <;> rfl
  | writeable j written => simp only [step, onClient_getElem?, h, actOn]; split_ifs <;> rfl
  | closed j =>
    by_cases ho : s.IsOpen j
    · simp only [step, ho, if_true, onClient_getElem?, h, Option.map_some, actOn, and_true]
      split_ifs <;> rfl
    · simp [step, ho, h, actOn]
  | disconnected j =>
    by_cases ho : s.IsClosing j ∧ s.Free j
    · simp only [step, ho, and_self, if_true, onClient_getElem?, h, Option.map_some, actOn,
        and_true]
      split_ifs <;> rfl
    · rw [step, if_neg ho, h, actOn, if_neg fun hc => ho hc.2]
      rfl
  | take w =>
    simp only [step, actOn]
    split <;> simp [h]
  | lock w =>
    simp only [step, actOn]
    split
    · split_ifs <;> simp [h]
    · simp [h]
  | handled w result =>
    rcases hw : s.workers[w]? with _ | worker
    · simp [step, actOn, hw, h]
    · rcases worker with _ | m | m
      · simp [step, actOn, hw, h]
      · simp [step, actOn, hw, h]
      · simp only [step, actOn, hw, finishRequest]
        rcases hr : reply? m.message result with _ | msg
        · simp only [h]
          split_ifs <;> simp [RpcBase.act, hr]
        · simp only [onClient_getElem?, h, Option.map_some]
          split_ifs <;> simp [RpcBase.act, hr]

@[simp] theorem onClient_length (f : RpcBase → RpcBase) (s : RpcServer) (j : ℕ) :
    (s.onClient j f).clients.length = s.clients.length := List.length_modify _ _ _

/-- Only a connection makes a new link. -/
theorem step_length (s : RpcServer) (e : RpcEvent) :
    (step num s e).clients.length = s.clients.length ∨ ∃ random, e = .connected random := by
  cases e with
  | connected random => exact .inr ⟨random, rfl⟩
  | received j data =>
    left
    simp only [step, receive]
    split_ifs
    · split <;> exact onClient_length _ s j
    · rfl
  | call j action payload => exact .inl (onClient_length _ s j)
  | enter j i => exact .inl (onClient_length _ s j)
  | popResult j => exact .inl (onClient_length _ s j)
  | expire j => exact .inl (onClient_length _ s j)
  | disconnect j => exact .inl (onClient_length _ s j)
  | writeable j written => exact .inl (onClient_length _ s j)
  | closed j =>
    left
    simp only [step]
    split_ifs
    · exact onClient_length _ s j
    · rfl
  | disconnected j =>
    left
    simp only [step]
    split_ifs
    · exact onClient_length _ s j
    · rfl
  | take w =>
    left
    simp only [step]
    split <;> rfl
  | lock w =>
    left
    simp only [step]
    split
    · split_ifs <;> rfl
    · rfl
  | handled w result =>
    left
    simp only [step, finishRequest]
    split
    · split
      · exact onClient_length _ _ _
      · rfl
    · rfl

/-- A link that was not there before a step is a new one. -/
theorem step_of_none {s : RpcServer} {k : ℕ} {b : RpcBase} (h : s.clients[k]? = none)
    {e : RpcEvent} (hb : (step num s e).clients[k]? = some b) :
    ∃ random, e = .connected random ∧ b = .start random := by
  have hk := List.getElem?_eq_none_iff.1 h
  have hlt := (List.getElem?_eq_some_iff.1 hb).1
  rcases step_length num s e with hlen | ⟨random, rfl⟩
  · omega
  · refine ⟨random, rfl, ?_⟩
    simp only [step, List.length_append, List.length_singleton] at hlt hb
    obtain rfl : k = s.clients.length := by omega
    rw [List.getElem?_concat_length] at hb
    exact (Option.some.inj hb).symm

/-- The acts of a step meet a condition. -/
def Acts (C : RpcBase → Act → Prop) (s : RpcServer) (e : RpcEvent) : Prop :=
  ∀ k b a, s.clients[k]? = some b → s.actOn num k e = some a → C b a

/-- What holds of a new link and is kept by the acts that meet the condition holds of all links. -/
theorem run_links {C : RpcBase → Act → Prop} {P : RpcBase → Prop} (hstart : ∀ r, P (.start r))
    (hact : ∀ b a, P b → C b a → P (b.act a)) :
    ∀ (events : List RpcEvent) {s : RpcServer}, (∀ b ∈ s.clients, P b) →
      Runs.Throughout (step num) (Acts num C) s events → ∀ b ∈ (run num s events).clients, P b
  | [], _, hs, _ => hs
  | e :: events, s, hs, hC => by
    obtain ⟨h0, hrest⟩ := (Runs.throughout_cons _).1 hC
    refine run_links hstart hact events (fun b hb => ?_) hrest
    obtain ⟨k, hk⟩ := List.mem_iff_getElem?.1 hb
    rcases hsk : s.clients[k]? with _ | b₀
    · obtain ⟨random, -, rfl⟩ := step_of_none num hsk hk
      exact hstart random
    · rw [step_of_some num hsk] at hk
      have hb₀ := hs b₀ (List.mem_of_getElem? hsk)
      rcases ha : s.actOn num k e with _ | a
      · rw [ha] at hk
        exact Option.some.inj hk ▸ hb₀
      · rw [ha] at hk
        exact Option.some.inj hk ▸ hact b₀ a hb₀ (h0 k b₀ a hsk ha)

/-- What every act keeps holds of all links in every run. -/
theorem run_links_of {P : RpcBase → Prop} (hstart : ∀ r, P (.start r))
    (hact : ∀ b a, P b → P (b.act a)) (threads : ℕ) (events : List RpcEvent) :
    ∀ b ∈ (run num (start threads) events).clients, P b :=
  run_links num (C := fun _ _ => True) hstart (fun b a h _ => hact b a h) events (by simp [start])
    fun _ _ _ _ _ _ _ _ _ => trivial

/-- The wire of every link is in order. -/
theorem wire_inOrder (threads : ℕ) (events : List RpcEvent) :
    ∀ b ∈ (run num (start threads) events).clients, b.wire.InOrder :=
  run_links_of num (fun _ => ⟨List.nil_prefix, fun _ => rfl, fun _ => rfl⟩)
    (fun b a h => h.step (act_wire b a)) threads events

end RpcServer

end Links

end Rpc

end OcppServer
