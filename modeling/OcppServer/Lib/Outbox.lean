import Mathlib.Data.List.Basic
import Mathlib.Data.List.TakeDrop
import Mathlib.Tactic.Common

/-!
# An outbox of bytes

A sender appends each message to one buffer of bytes, and a flush hands the whole buffer over as
one frame. No byte is lost or repeated (`flatten_frames`), whatever the schedule. The frames stay
the first messages, one each and in order, while each flush finds at most one message waiting
(`Framed`); two messages that wait together leave as one frame (`Framed.flush_not_isPrefix`).
-/

/-- The bytes waiting, the frames handed over and the messages sent so far. -/
structure Outbox (β : Type*) where
  buffer : List β := []
  frames : List (List β) := []
  sent : List (List β) := []

namespace Outbox

variable {β : Type*}

inductive Act (β : Type*) where
  | send (m : List β)
  | flush

def step (o : Outbox β) : Act β → Outbox β
  | .send m => { o with buffer := o.buffer ++ m, sent := o.sent ++ [m] }
  | .flush =>
    if o.buffer.isEmpty then o else { o with buffer := [], frames := o.frames ++ [o.buffer] }

theorem foldl_send : ∀ (ms : List (List β)) (o : Outbox β),
    (ms.map Act.send).foldl step o
      = { o with buffer := o.buffer ++ ms.flatten, sent := o.sent ++ ms }
  | [], o => by simp
  | m :: ms, o => by
    rw [List.map_cons, List.foldl_cons, foldl_send ms]
    simp [step]

theorem step_flatten {o : Outbox β} (a : Act β)
    (h : o.frames.flatten ++ o.buffer = o.sent.flatten) :
    (o.step a).frames.flatten ++ (o.step a).buffer = (o.step a).sent.flatten := by
  cases a with
  | send m => simp [step, ← h]
  | flush =>
    simp only [step]
    split_ifs
    · exact h
    · simpa using h

/-- The frames and the bytes waiting are the messages sent, end to end. -/
theorem flatten_frames : ∀ (acts : List (Act β)) {o : Outbox β},
    o.frames.flatten ++ o.buffer = o.sent.flatten →
      (acts.foldl step o).frames.flatten ++ (acts.foldl step o).buffer
        = (acts.foldl step o).sent.flatten
  | [], _, h => h
  | a :: acts, _, h => flatten_frames acts (step_flatten a h)

/-- So far the frames are the messages but the last `n`, which wait. -/
def Framed (o : Outbox β) (n : ℕ) : Prop :=
  ∃ tail, o.sent = o.frames ++ tail ∧ o.buffer = tail.flatten ∧ tail.length = n
    ∧ ∀ m ∈ tail, m ≠ []

theorem Framed.send {o : Outbox β} {n : ℕ} (h : Framed o n) {m : List β} (hm : m ≠ []) :
    Framed (o.step (.send m)) (n + 1) := by
  obtain ⟨tail, hs, hb, hn, hne⟩ := h
  refine ⟨tail ++ [m], by simp [step, hs], by simp [step, hb], by simp [hn], ?_⟩
  intro x hx
  rcases List.mem_append.1 hx with hx | hx
  · exact hne x hx
  · rw [List.mem_singleton.1 hx]; exact hm

theorem Framed.flush {o : Outbox β} {n : ℕ} (h : Framed o n) (hn1 : n ≤ 1) :
    Framed (o.step .flush) 0 := by
  obtain ⟨tail, hs, hb, hn, hne⟩ := h
  match tail, hn with
  | [], _ => exact ⟨[], by simpa [step, hb] using hs, by simp [step, hb], rfl, by simp⟩
  | [m], _ =>
    have hm : m ≠ [] := hne m (by simp)
    have hbm : o.buffer = m := by simpa using hb
    refine ⟨[], ?_, ?_, rfl, by simp⟩ <;> simp [step, hbm, hm, hs]
  | _ :: _ :: _, hn => simp at hn; omega

/-- Two messages that wait together leave as one frame. -/
theorem Framed.flush_not_isPrefix {o : Outbox β} {n : ℕ} (h : Framed o n) (hn2 : 2 ≤ n) :
    ¬ (o.step .flush).frames <+: (o.step .flush).sent := by
  obtain ⟨tail, hs, hb, hn, hne⟩ := h
  match tail, hn with
  | [], hn => simp at hn; omega
  | [_], hn => simp at hn; omega
  | m :: m' :: rest, _ =>
    have hm : m ≠ [] := hne m (by simp)
    have hm' : m' ≠ [] := hne m' (by simp)
    have hstep : o.step .flush = { o with buffer := [], frames := o.frames ++ [o.buffer] } := by
      simp [step, hb, hm]
    intro hpre
    simp only [hstep, hs, List.prefix_append_right_inj, List.cons_prefix_cons] at hpre
    have heq : m ++ (m' ++ rest.flatten) = m := hb.symm.trans hpre.1
    simp [hm'] at heq

theorem Framed.frames_isPrefix {o : Outbox β} {n : ℕ} (h : Framed o n) : o.frames <+: o.sent := by
  obtain ⟨tail, hs, -⟩ := h
  exact ⟨tail, hs.symm⟩

/-- At most one message waits exactly when the bytes waiting are none or the last message. -/
theorem Framed.le_one_iff {o : Outbox β} {n : ℕ} (h : Framed o n) :
    n ≤ 1 ↔ o.buffer = [] ∨ o.sent.getLast? = some o.buffer := by
  obtain ⟨tail, hs, hb, hn, hne⟩ := h
  rcases List.eq_nil_or_concat tail with rfl | ⟨init, m, rfl⟩
  · simp at hn hb
    simp [hb, ← hn]
  · have hm : m ≠ [] := hne m (by simp)
    simp only [List.concat_eq_append, List.length_append, List.length_singleton] at hn
    simp only [hs, hb, List.concat_eq_append, List.flatten_append, List.flatten_singleton,
      ← List.append_assoc, List.getLast?_concat, List.append_eq_nil_iff, hm, and_false, false_or,
      Option.some.injEq]
    rcases init with _ | ⟨m', init⟩
    · simp at hn
      simp [← hn]
    · have hm' : m' ≠ [] := hne m' (by simp)
      refine iff_of_false (by simp at hn; omega) fun heq => hm' ?_
      have hlen := congrArg List.length heq
      simp only [List.flatten_cons, List.length_append] at hlen
      exact List.length_eq_zero_iff.1 (by omega)

theorem Framed.sends {o : Outbox β} : ∀ {n : ℕ} (ms : List (List β)), Framed o n →
    (∀ m ∈ ms, m ≠ []) → ∃ k, Framed ((ms.map Act.send).foldl step o) k
  | n, [], h, _ => ⟨n, h⟩
  | n, m :: ms, h, hne =>
    Framed.sends ms (h.send (hne m (by simp))) fun m' hm' => hne m' (List.mem_cons_of_mem _ hm')

end Outbox
