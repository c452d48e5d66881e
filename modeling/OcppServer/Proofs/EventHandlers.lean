import OcppServer.EventHandlers

/-!
# Whom an event reaches

`emit` should run each registration that is there when it starts, in order, unless it is removed
before its turn. Whatever a handler calls, the event's array is then a part of what it was and
registrations with new tags behind it (`Later`); so the walk is one of those `ForEach` is about,
and an exception changes nothing of that. The law holds exactly when no handler removes a
registration that had its turn, such as its own, while one of the first ones still waits
(`emit_inTurn_iff`). A handler that removes itself when it is run makes `emit` pass over the next.
-/

namespace OcppServer

namespace EventHandlers

variable {η δ : Type} (event : JsString)

/-- The array lost some registrations, got some with new tags, and kept its order. -/
structure Later (h h' : EventHandlers η) : Prop where
  nextTag : h.nextTag ≤ h'.nextTag
  array : ∃ kept new, h'.array event = kept ++ new ∧ kept.Sublist (h.array event)
    ∧ ∀ r ∈ new, h.nextTag ≤ r.tag

variable {event} {h h' h'' : EventHandlers η}

theorem Later.refl (h : EventHandlers η) : Later event h h :=
  ⟨Nat.le_refl _, h.array event, [], by simp, .refl _, by simp⟩

theorem Later.trans (h₁ : Later event h h') (h₂ : Later event h' h'') : Later event h h'' := by
  obtain ⟨kept, new, heq, hkept, hnew⟩ := h₁.array
  obtain ⟨kept', new', heq', hkept', hnew'⟩ := h₂.array
  rw [heq] at hkept'
  obtain ⟨s, t, rfl, hs, ht⟩ := List.sublist_append_iff.1 hkept'
  refine ⟨h₁.nextTag.trans h₂.nextTag, s, t ++ new', ?_, hs.trans hkept, ?_⟩
  · rw [heq', List.append_assoc]
  · intro r hr
    rcases List.mem_append.1 hr with hr | hr
    · exact hnew r (ht.subset hr)
    · exact h₁.nextTag.trans (hnew' r hr)

theorem array_on (e : JsString) (handler : η) (h : EventHandlers η) :
    (h.on e handler).array event
      = if event = e then h.array e ++ [⟨handler, h.nextTag⟩] else h.array event := by
  rw [array, on, Dict.lookup_insert_eq]
  split
  · rfl
  · rfl

theorem later_on (e : JsString) (handler : η) (h : EventHandlers η) :
    Later event h (h.on e handler) := by
  refine ⟨Nat.le_succ _, ?_⟩
  rw [array_on]
  split
  · rename_i he
    subst he
    exact ⟨_, _, rfl, .refl _, by simp⟩
  · exact (Later.refl h).array

variable [DecidableEq η]

theorem array_off (e : JsString) (handler : η) (h : EventHandlers η) :
    (h.off e handler).array event
      = if event = e then (h.array event).eraseP (fun r => r.handler = handler)
        else h.array event := by
  rw [array, off, Dict.lookup_modify, array]
  rcases h.arrays.lookup event with _ | l
  · simp
  · split
    · simp_all
    · simp_all

theorem later_off (e : JsString) (handler : η) (h : EventHandlers η) :
    Later event h (h.off e handler) := by
  refine ⟨Nat.le_refl _, ?_⟩
  rw [array_off]
  split
  · exact ⟨_, [], (List.append_nil _).symm, List.eraseP_sublist, by simp⟩
  · exact (Later.refl h).array

theorem later_apply (h : EventHandlers η) (c : HandlerCall η) : Later event h (h.apply c) := by
  cases c with
  | on e handler => exact later_on e handler h
  | off e handler => exact later_off e handler h

theorem later_calls : ∀ (calls : List (HandlerCall η)) (h : EventHandlers η),
    Later event h (calls.foldl apply h)
  | [], h => .refl h
  | c :: calls, h => (later_apply h c).trans (later_calls calls (h.apply c))

/-- Whether it throws makes no difference. -/
theorem caught_invoke (action : HandlerAction η) (h : EventHandlers η) :
    caught (invoke action h) = action.calls.foldl apply h := by
  rw [invoke]
  split
  · rfl
  · rfl

variable (script : ℕ → δ → HandlerAction η) (event) (data : δ)

theorem later_runHandler (r : Registration η) (e : Emitting η) :
    Later event e.handlers (runHandler script data r e).handlers := by
  rw [runHandler, caught_invoke]
  exact later_calls _ _

theorem mutates_runHandler (h : EventHandlers η) :
    ForEach.Mutates (fun e : Emitting η => e.handlers.array event) (runHandler script data)
      (h.array event) (fun e => h.nextTag ≤ e.handlers.nextTag) := by
  intro r e hle
  obtain ⟨hnext, kept, new, heq, hkept, hnew⟩ := later_runHandler event script data r e
  refine ⟨hle.trans hnext, kept, new, heq, hkept, ?_⟩
  intro x hx hfirst
  have hold := h.used_array event x hfirst
  have hfresh := hnew x hx
  omega

/-- What `emit` runs are the registrations there at the start, in order, each unless it is removed
before its turn, and after them perhaps some that were added meanwhile. -/
def RunsInTurn (h : EventHandlers η) : Prop :=
  ∃ extra, (emit script event data h).visited
      = (ForEach.inTurn (fun e => e.handlers.array event) (runHandler script data)
          (h.array event) ⟨⟨h, 0⟩, []⟩).visited ++ extra
    ∧ ∀ r ∈ extra, r ∉ h.array event

/-- While one of the first registrations waits, no handler removes one that had its turn. -/
def RemovesNoneRun (h : EventHandlers η) : Prop :=
  Runs.Throughout (ForEach.turn (fun e : Emitting η => e.handlers.array event)
      (runHandler script data))
    (ForEach.KeepsVisited (fun e => e.handlers.array event) (runHandler script data)
      (h.array event))
    ⟨⟨h, 0⟩, []⟩ (List.range (h.array event).length)

theorem emit_inTurn_iff (h : EventHandlers η) :
    RunsInTurn event script data h ↔ RemovesNoneRun event script data h := by
  have hm := mutates_runHandler event script data h
  exact ForEach.forEach_inTurn_iff (s := (⟨h, 0⟩ : Emitting η)) hm (h.nodup_array event)
    (Nat.le_refl _)

/-- Two handlers, the first of which removes itself when it is run. -/
def twoHandlers : EventHandlers (Fin 2) := (empty.on (js "connected") 0).on (js "connected") 1

def onceScript (n : ℕ) (_ : Unit) : HandlerAction (Fin 2) :=
  { calls := if n = 0 then [.off (js "connected") 0] else [] }

theorem once_passesOver : ¬ RunsInTurn (js "connected") onceScript () twoHandlers := by
  rintro ⟨extra, heq, -⟩
  have hrun : (emit onceScript (js "connected") () twoHandlers).visited = [⟨0, 0⟩] := by
    decide
  have hlaw : (ForEach.inTurn (fun e => e.handlers.array (js "connected"))
      (runHandler onceScript ()) (twoHandlers.array (js "connected"))
      ⟨⟨twoHandlers, 0⟩, []⟩).visited = [⟨0, 0⟩, ⟨1, 1⟩] := by
    decide
  rw [hrun, hlaw] at heq
  cases heq

end EventHandlers

end OcppServer
