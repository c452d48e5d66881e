import OcppServer.JsValue
import OcppServer.Lib.Dict
import OcppServer.Lib.ForEach

/-!
# The event handlers of the RPC client

`on`, `off` and `emit`. A handler is a function and is told from others by its identity; it may be
registered more than once, and the tags tell the registrations apart. Nothing reads a tag.
`emit` walks the event's array itself, so what the handlers do to it meanwhile shows in the walk.
What a handler does when it is run, its calls of `on` and `off` and whether it throws, is given by
a script: the handler run as number `n` of this `emit` acts as the script says for `n`.
-/

namespace OcppServer

structure Registration (η : Type) where
  handler : η
  tag : ℕ
  deriving DecidableEq

/-- The array of each event; tags come from a counter and are not used twice. -/
structure EventHandlers (η : Type) where
  arrays : Dict JsString (List (Registration η))
  nextTag : ℕ
  used : ∀ event l, arrays.lookup event = some l → ∀ r ∈ l, r.tag < nextTag
  nodup : ∀ event l, arrays.lookup event = some l → l.Nodup

namespace EventHandlers

variable {η : Type}

def empty : EventHandlers η where
  arrays := ∅
  nextTag := 0
  used := by simp
  nodup := by simp

/-- The array of an event, empty where the event has none. -/
def array (event : JsString) (h : EventHandlers η) : List (Registration η) :=
  (h.arrays.lookup event).getD []

theorem used_array (event : JsString) (h : EventHandlers η) :
    ∀ r ∈ h.array event, r.tag < h.nextTag := by
  intro r hr
  rw [array] at hr
  rcases hl : h.arrays.lookup event with _ | l
  · rw [hl] at hr
    cases hr
  · rw [hl] at hr
    exact h.used event l hl r hr

theorem nodup_array (event : JsString) (h : EventHandlers η) : (h.array event).Nodup := by
  rw [array]
  rcases hl : h.arrays.lookup event with _ | l
  · exact .nil
  · exact h.nodup event l hl

def on (event : JsString) (handler : η) (h : EventHandlers η) : EventHandlers η where
  arrays := h.arrays.insert event (h.array event ++ [⟨handler, h.nextTag⟩])
  nextTag := h.nextTag + 1
  used := by
    intro e l hl r hr
    rw [Dict.lookup_insert_eq] at hl
    split_ifs at hl
    · obtain rfl := Option.some.inj hl
      rcases List.mem_append.1 hr with hr | hr
      · have := h.used_array event r hr
        omega
      · rw [List.mem_singleton.1 hr]
        exact Nat.lt_succ_self _
    · have := h.used e l hl r hr
      omega
  nodup := by
    intro e l hl
    rw [Dict.lookup_insert_eq] at hl
    split_ifs at hl
    · obtain rfl := Option.some.inj hl
      refine List.nodup_append.2 ⟨h.nodup_array event, List.nodup_singleton _, ?_⟩
      intro r hr r' hr' heq
      have := h.used_array event r hr
      rw [heq, List.mem_singleton.1 hr'] at this
      exact (Nat.lt_irrefl _ this)
    · exact h.nodup e l hl

variable [DecidableEq η]

/-- `indexOf` and `splice`: the first registration of the handler goes. -/
def off (event : JsString) (handler : η) (h : EventHandlers η) : EventHandlers η where
  arrays := Dict.modify event (List.eraseP fun r => r.handler = handler) h.arrays
  nextTag := h.nextTag
  used := by
    intro e l hl r hr
    rw [Dict.lookup_modify] at hl
    obtain ⟨l', hl', rfl⟩ := Option.map_eq_some_iff.1 hl
    split at hr
    · exact h.used e l' hl' r (List.eraseP_subset hr)
    · exact h.used e l' hl' r hr
  nodup := by
    intro e l hl
    rw [Dict.lookup_modify] at hl
    obtain ⟨l', hl', rfl⟩ := Option.map_eq_some_iff.1 hl
    split
    · exact (h.nodup e l' hl').sublist List.eraseP_sublist
    · exact h.nodup e l' hl'

end EventHandlers

inductive HandlerCall (η : Type) where
  | on (event : JsString) (handler : η)
  | off (event : JsString) (handler : η)

/-- What a handler does when it is run: its calls, and whether it throws after them. -/
structure HandlerAction (η : Type) where
  calls : List (HandlerCall η) := []
  throws : Bool := false

namespace EventHandlers

variable {η : Type} [DecidableEq η]

def apply (h : EventHandlers η) : HandlerCall η → EventHandlers η
  | .on event handler => h.on event handler
  | .off event handler => h.off event handler

/-- `handler(data)`; an exception leaves what was done before it. -/
def invoke (action : HandlerAction η) (h : EventHandlers η) :
    Except (EventHandlers η) (EventHandlers η) :=
  let h := action.calls.foldl apply h
  if action.throws then .error h else .ok h

/-- The `try` around it. -/
def caught : Except (EventHandlers η) (EventHandlers η) → EventHandlers η
  | .ok h => h
  | .error h => h

/-- The handlers while an event is emitted, and how many were run. -/
structure Emitting (η : Type) where
  handlers : EventHandlers η
  run : ℕ := 0

variable {δ : Type} (script : ℕ → δ → HandlerAction η) (event : JsString) (data : δ)

/-- The callback of `forEach`. -/
def runHandler (_ : Registration η) (e : Emitting η) : Emitting η :=
  ⟨caught (invoke (script e.run data) e.handlers), e.run + 1⟩

/-- What is visited are the registrations whose handlers are run. -/
def emit (h : EventHandlers η) : ForEach.Walk (Registration η) (Emitting η) :=
  ForEach.forEach (fun e => e.handlers.array event) (runHandler script data) ⟨h, 0⟩

end EventHandlers

end OcppServer
