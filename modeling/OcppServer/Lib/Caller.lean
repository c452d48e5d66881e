import Mathlib.Data.List.Basic
import Mathlib.Data.List.ReduceOption
import Mathlib.Order.Interval.Set.Defs
import Mathlib.Data.Set.Function
import OcppServer.Lib.Runs

/-!
# A caller that waits for its answers

One call at a time is under way; the `n`-th has the id `fresh n`. Answers are delivered to a queue
at any time and carry an id; the call takes one after the other, throws away those with another id,
and may give up at any point. So a call returns with an answer that has its id, and no answer is
returned twice (`Answered`). It returns the first answer there is with its id, as long as answers
come only for calls that were begun and the ids do not repeat (`FirstAnswers`).
-/

/-- What the calls so far returned with, whether another one waits, and the answers: those it took
from the queue and those still in it. -/
structure Caller (μ : Type*) where
  returned : List (Option μ) := []
  waiting : Bool := false
  taken : List μ := []
  queue : List μ := []

namespace Caller

inductive Act (μ : Type*) where
  | ask
  /-- A call that returns at once. -/
  | fail
  | deliver (m : μ)
  | take
  | giveUp

variable {ι μ : Type*}

def delivered (c : Caller μ) : List μ := c.taken ++ c.queue

/-- The number of calls begun. -/
def begun (c : Caller μ) : ℕ := c.returned.length + c.waiting.toNat

section Step

variable [DecidableEq ι] (fresh : ℕ → ι) (idOf : μ → ι)

/-- The call that waits returns. -/
def finish (c : Caller μ) (answer : Option μ) : Caller μ :=
  { c with returned := c.returned ++ [answer], waiting := false }

def step (c : Caller μ) : Act μ → Caller μ
  | .ask => { c with waiting := true }
  | .fail => if c.waiting then c else c.finish none
  | .deliver m => { c with queue := c.queue ++ [m] }
  | .take =>
    match c.waiting, c.queue with
    | true, m :: queue =>
      let c := { c with taken := c.taken ++ [m], queue := queue }
      if idOf m = fresh c.returned.length then c.finish (some m) else c
    | _, _ => c
  | .giveUp => if c.waiting then c.finish none else c

omit [DecidableEq ι] in
/-- The calls that have returned with an answer, after another returns. -/
theorem returned_finish {c : Caller μ} {answer : Option μ} {i : ℕ} {m : μ}
    (h : (c.finish answer).returned[i]? = some (some m)) :
    c.returned[i]? = some (some m) ∨ i = c.returned.length ∧ answer = some m := by
  simp only [Caller.finish] at h
  rcases lt_trichotomy i c.returned.length with hlt | rfl | hgt
  · rw [List.getElem?_append_left hlt] at h
    exact .inl h
  · rw [List.getElem?_concat_length] at h
    exact .inr ⟨rfl, Option.some.inj h⟩
  · rw [List.getElem?_eq_none (by simpa using Nat.succ_le_of_lt hgt)] at h
    cases h

/-- What a step does: nothing, or the effect of its kind. -/
theorem step_cases (c : Caller μ) (a : Act μ) :
    c.step fresh idOf a = c
      ∨ (a = .ask ∧ c.waiting = false ∧ c.step fresh idOf a = { c with waiting := true })
      ∨ c.step fresh idOf a = c.finish none
      ∨ (∃ m, a = .deliver m ∧ c.step fresh idOf a = { c with queue := c.queue ++ [m] })
      ∨ ∃ m queue, c.waiting = true ∧ c.queue = m :: queue
        ∧ c.step fresh idOf a = if idOf m = fresh c.returned.length then
            { c with taken := c.taken ++ [m], queue := queue }.finish (some m)
          else { c with taken := c.taken ++ [m], queue := queue } := by
  cases a with
  | ask =>
    rcases hw : c.waiting
    · exact .inr (.inl ⟨rfl, rfl, rfl⟩)
    · refine .inl ?_
      rw [step, ← hw]
  | fail =>
    rw [step]
    split
    · exact .inl rfl
    · exact .inr (.inr (.inl rfl))
  | deliver m => exact .inr (.inr (.inr (.inl ⟨m, rfl, rfl⟩)))
  | take =>
    rcases hw : c.waiting
    · exact .inl (by simp only [step, hw])
    · rcases hq : c.queue with _ | ⟨m, queue⟩
      · exact .inl (by simp only [step, hw, hq])
      · exact .inr (.inr (.inr (.inr ⟨m, queue, rfl, rfl, by simp only [step, hw, hq]⟩)))
  | giveUp =>
    rw [step]
    split
    · exact .inr (.inr (.inl rfl))
    · exact .inl rfl

theorem begun_le_step (c : Caller μ) (a : Act μ) : c.begun ≤ (c.step fresh idOf a).begun := by
  rcases step_cases fresh idOf c a with h | ⟨-, -, h⟩ | h | ⟨m, -, h⟩ | ⟨m, queue, hw, -, h⟩ <;>
    rw [h]
  · rcases hw : c.waiting <;> simp [begun, hw]
  · rcases hw : c.waiting <;> simp [begun, Caller.finish, hw]
  · rfl
  · split_ifs <;> simp [begun, Caller.finish, hw]

/-- A call's answer has its id, and the answers are among those taken, in order. -/
structure Answered (c : Caller μ) : Prop where
  sublist : c.returned.reduceOption.Sublist c.taken
  id_eq : ∀ i m, c.returned[i]? = some (some m) → idOf m = fresh i

omit [DecidableEq ι] in
theorem Answered.finish {c : Caller μ} (h : Answered fresh idOf c) {answer : Option μ}
    {taken : List μ} (hs : (c.returned.reduceOption ++ answer.toList).Sublist taken)
    (hid : ∀ m, answer = some m → idOf m = fresh c.returned.length) (queue : List μ) :
    Answered fresh idOf ({ c with taken := taken, queue := queue }.finish answer) := by
  refine ⟨?_, fun i m hi => ?_⟩
  · simpa [Caller.finish, List.reduceOption_append, List.reduceOption_singleton] using hs
  · rcases returned_finish hi with hi | ⟨rfl, ha⟩
    · exact h.id_eq i m hi
    · exact hid m ha

theorem Answered.step {c : Caller μ} (h : Answered fresh idOf c) (a : Act μ) :
    Answered fresh idOf (c.step fresh idOf a) := by
  rcases step_cases fresh idOf c a with he | ⟨-, -, he⟩ | he | ⟨m, -, he⟩ | ⟨m, queue, -, -, he⟩ <;>
    rw [he]
  · exact h
  · exact ⟨h.sublist, h.id_eq⟩
  · have hs : (c.returned.reduceOption ++ (none : Option μ).toList).Sublist c.taken := by
      simpa using h.sublist
    exact h.finish fresh idOf hs (by simp) c.queue
  · exact ⟨h.sublist, h.id_eq⟩
  · split_ifs with hm
    · refine h.finish fresh idOf (h.sublist.append (List.Sublist.refl _)) ?_ queue
      rintro _ ⟨⟩
      exact hm
    · exact ⟨h.sublist.trans (List.sublist_append_left _ _), h.id_eq⟩

/-- Only the calls begun are answered; the one that waits has not seen its answer yet; those
that returned with one returned with the first. -/
structure FirstAnswers (c : Caller μ) : Prop where
  known : ∀ m ∈ c.delivered, ∃ i < c.begun, idOf m = fresh i
  unseen : c.waiting = true → ∀ m ∈ c.taken, idOf m ≠ fresh c.returned.length
  first : ∀ i m, c.returned[i]? = some (some m) →
    c.delivered.find? (fun m => idOf m = fresh i) = some m

/-- An answer to a call that was begun. -/
def Expected (c : Caller μ) (a : Act μ) : Prop :=
  ∀ m, a = .deliver m → ∃ i < c.begun, idOf m = fresh i

/-- The call that waits returns with the first answer with its id, or with none. -/
theorem FirstAnswers.finish {c : Caller μ} (h : FirstAnswers fresh idOf c) {answer : Option μ}
    (hans : ∀ m, answer = some m →
      c.delivered.find? (fun m => idOf m = fresh c.returned.length) = some m)
    {taken queue : List μ} (heq : taken ++ queue = c.delivered) :
    FirstAnswers fresh idOf ({ c with taken := taken, queue := queue }.finish answer) := by
  have hd : ({ c with taken := taken, queue := queue }.finish answer).delivered = c.delivered := heq
  refine ⟨fun m hm => ?_, fun hw => ?_, fun i m hi => ?_⟩
  · rw [hd] at hm
    obtain ⟨i, hi, hid⟩ := h.known m hm
    refine ⟨i, lt_of_lt_of_le hi ?_, hid⟩
    rcases hw : c.waiting <;> simp [begun, Caller.finish, hw]
  · cases hw
  · rw [hd]
    rcases returned_finish hi with hi | ⟨rfl, ha⟩
    · exact h.first i m hi
    · exact hans m ha

theorem FirstAnswers.step {N : ℕ} (hinj : Set.InjOn fresh (Set.Iio N)) {c : Caller μ}
    (h : FirstAnswers fresh idOf c) {a : Act μ} (ha : Expected fresh idOf c a)
    (hN : (c.step fresh idOf a).begun ≤ N) : FirstAnswers fresh idOf (c.step fresh idOf a) := by
  rcases step_cases fresh idOf c a with
    he | ⟨-, hw, he⟩ | he | ⟨m, rfl, he⟩ | ⟨m, queue, hw, hq, he⟩ <;> rw [he] at hN ⊢
  · exact h
  · have hb : c.begun = c.returned.length := by simp [begun, hw]
    have hlt : c.returned.length < N := by
      simp only [begun, Bool.toNat_true] at hN
      omega
    refine ⟨fun m hm => ?_, fun _ m hm hid => ?_, h.first⟩
    · obtain ⟨i, hi, hid⟩ := h.known m hm
      exact ⟨i, by simp only [begun] at hb hi ⊢; omega, hid⟩
    -- an answer seen before is for an earlier call, which has another id
    · obtain ⟨i, hi, hi'⟩ := h.known m (List.mem_append_left _ hm)
      have := hinj (Set.mem_Iio.2 (by omega)) (Set.mem_Iio.2 hlt) (hi'.symm.trans hid)
      omega
  · exact h.finish fresh idOf (by simp) rfl
  · have hd : ({ c with queue := c.queue ++ [m] } : Caller μ).delivered = c.delivered ++ [m] :=
      (List.append_assoc _ _ _).symm
    refine ⟨fun m' hm' => ?_, h.unseen, fun i m' hi => ?_⟩
    · rw [hd, List.mem_append, List.mem_singleton] at hm'
      rcases hm' with hm' | rfl
      · exact h.known m' hm'
      · exact ha m' rfl
    · rw [hd, List.find?_append, h.first i m' hi]
      rfl
  · have hcons : c.taken ++ [m] ++ queue = c.delivered := by simp [delivered, hq]
    split_ifs with hm
    · refine h.finish fresh idOf ?_ hcons
      rintro _ ⟨⟩
      rw [← hcons, List.append_assoc, List.find?_append, List.find?_eq_none.2, Option.none_or]
      · simp [hm]
      · simpa using h.unseen hw
    · have hd : ({ c with taken := c.taken ++ [m], queue := queue } : Caller μ).delivered
          = c.delivered := hcons
      refine ⟨by rw [hd]; exact h.known, fun _ m' hm' => ?_, by rw [hd]; exact h.first⟩
      rcases List.mem_append.1 hm' with hm' | hm'
      · exact h.unseen hw m' hm'
      · rwa [List.mem_singleton.1 hm']

end Step

end Caller
