import Mathlib.Data.List.Basic
import Mathlib.Order.Basic
import Mathlib.Tactic.Common

/-!
# Runs of a step function

A run feeds a list of events to a step function. Where a step may have no outcome the run stops
(`run`); a total step function is folded. `AtEvery` is what holds at each event of a run, in the
state it meets; an invariant kept by the steps that meet a condition holds after every run whose
steps all meet it.
-/

namespace Runs

variable {σ ε : Type*}

section Partial

variable (step : σ → ε → Option σ)

/-- The state after the events, if every step had an outcome. -/
def run : σ → List ε → Option σ
  | s, [] => some s
  | s, e :: es => (step s e).bind fun t => run t es

@[simp] theorem run_nil (s : σ) : run step s [] = some s := rfl

theorem run_cons (s : σ) (e : ε) (es : List ε) :
    run step s (e :: es) = (step s e).bind fun t => run step t es := rfl

theorem run_append : ∀ (s : σ) (es fs : List ε),
    run step s (es ++ fs) = (run step s es).bind fun t => run step t fs
  | s, [], fs => rfl
  | s, e :: es, fs => by
    simp only [List.cons_append, run]
    rcases step s e with _ | t
    · rfl
    · simpa using run_append t es fs

theorem run_snoc {s t : σ} {es : List ε} (h : run step s es = some t) (e : ε) :
    run step s (es ++ [e]) = step t e := by
  rw [run_append, h, Option.bind_some, run_cons]
  rcases step t e with _ | u <;> rfl

theorem run_concat_eq_some {s u : σ} {es : List ε} {e : ε} :
    run step s (es ++ [e]) = some u ↔ ∃ t, run step s es = some t ∧ step t e = some u := by
  rw [run_append, Option.bind_eq_some_iff]
  refine exists_congr fun t => and_congr_right fun _ => ?_
  rw [run_cons]
  rcases step t e with _ | u' <;> simp

/-- `P` holds of each event of the run and the state it meets, as far as the run gets. -/
def AtEvery (P : σ → ε → Prop) (s : σ) (es : List ε) : Prop :=
  ∀ pre e post, es = pre ++ e :: post → ∀ t, run step s pre = some t → P t e

theorem atEvery_nil (P : σ → ε → Prop) (s : σ) : AtEvery step P s [] := by
  intro pre e post h
  simp at h

theorem AtEvery.of_isPrefix {P : σ → ε → Prop} {s : σ} {pre es : List ε}
    (h : AtEvery step P s es) (hpre : pre <+: es) : AtEvery step P s pre := by
  obtain ⟨post, rfl⟩ := hpre
  rintro a e b rfl
  exact h a e (b ++ post) (by simp)

theorem atEvery_cons {P : σ → ε → Prop} {s : σ} {e : ε} {es : List ε} :
    AtEvery step P s (e :: es) ↔ P s e ∧ ∀ t, step s e = some t → AtEvery step P t es := by
  constructor
  · refine fun h => ⟨h [] e es rfl s rfl, fun t ht pre f post he u hu => ?_⟩
    exact h (e :: pre) f post (by rw [he, List.cons_append]) u (by rw [run_cons, ht]; exact hu)
  · rintro ⟨h0, h⟩ pre f post he u hu
    rcases pre with _ | ⟨g, pre⟩
    · simp only [List.nil_append, List.cons.injEq] at he
      obtain ⟨rfl, rfl⟩ := he
      simp only [run_nil, Option.some.injEq] at hu
      exact hu ▸ h0
    · simp only [List.cons_append, List.cons.injEq] at he
      obtain ⟨rfl, rfl⟩ := he
      rcases ht : step s e with _ | t
      · simp [run_cons, ht] at hu
      · exact h t ht pre f post rfl u (by simpa [run_cons, ht] using hu)

/-- An invariant kept by every step on the events of a run holds after it. -/
theorem run_invariant_of {I : σ → Prop} {D : ε → Prop}
    (hstep : ∀ s e t, I s → D e → step s e = some t → I t) :
    ∀ (es : List ε) {s t : σ}, I s → (∀ e ∈ es, D e) → run step s es = some t → I t
  | [], s, t, hs, _, h => by
    simp only [run_nil, Option.some.injEq] at h
    exact h ▸ hs
  | e :: es, s, t, hs, hD, h => by
    rcases hu : step s e with _ | u
    · simp [run_cons, hu] at h
    · refine run_invariant_of hstep es (hstep s e u hs (hD e (by simp)) hu)
        (fun f hf => hD f (List.mem_cons_of_mem _ hf)) ?_
      simpa [run_cons, hu] using h

/-- An invariant kept by every step holds after every run. -/
theorem run_invariant {I : σ → Prop} (hstep : ∀ s e t, I s → step s e = some t → I t)
    (es : List ε) {s t : σ} (hs : I s) (h : run step s es = some t) : I t :=
  run_invariant_of step (D := fun _ => True) (fun s e t hs _ ht => hstep s e t hs ht) es hs
    (fun _ _ => trivial) h

/-- If every step that meets the condition has an outcome and keeps the invariant, a run whose
steps all meet it goes through and keeps the invariant. -/
theorem run_of_atEvery {I : σ → Prop} {C : σ → ε → Prop}
    (hstep : ∀ s e, I s → C s e → ∃ t, step s e = some t ∧ I t) :
    ∀ (es : List ε) {s : σ}, I s → AtEvery step C s es → ∃ t, run step s es = some t ∧ I t
  | [], s, hs, _ => ⟨s, rfl, hs⟩
  | e :: es, s, hs, h => by
    obtain ⟨hC, hrest⟩ := (atEvery_cons step).1 h
    obtain ⟨t, ht, hI⟩ := hstep s e hs hC
    obtain ⟨u, hu, hIu⟩ := run_of_atEvery hstep es hI (hrest t ht)
    exact ⟨u, by rw [run_cons, ht]; exact hu, hIu⟩

/-- A property of states holds all along a run exactly when each event meets a condition: the
condition keeps an invariant that gives the property, and without it the property is lost. `D`
are the events of the run. -/
theorem forall_run_iff {I P : σ → Prop} {C : σ → ε → Prop} {D : ε → Prop} (hP : ∀ s, I s → P s)
    (hI : ∀ s e t, I s → D e → C s e → step s e = some t → I t)
    (hC : ∀ s e, I s → ¬ C s e → ∃ t, step s e = some t ∧ ¬ P t) :
    ∀ (es : List ε) {s : σ}, I s → (∀ e ∈ es, D e) →
      ((∀ pre, pre <+: es → ∀ t, run step s pre = some t → P t) ↔ AtEvery step C s es)
  | [], s, hs, _ => by
    refine iff_of_true (fun pre hpre t ht => ?_) (atEvery_nil step C s)
    obtain rfl := List.prefix_nil.1 hpre
    exact Option.some.inj ht ▸ hP s hs
  | e :: es, s, hs, hD => by
    rw [atEvery_cons]
    constructor
    · intro h
      have he : C s e := by
        by_contra hne
        obtain ⟨t, ht, hPt⟩ := hC s e hs hne
        refine hPt (h [e] (by simp) t ?_)
        rw [run_cons, ht, Option.bind_some, run_nil]
      refine ⟨he, fun t ht => ?_⟩
      have hrest := forall_run_iff hP hI hC es (hI s e t hs (hD e (by simp)) he ht)
        fun f hf => hD f (List.mem_cons_of_mem _ hf)
      refine hrest.1 fun pre hpre u hu => h (e :: pre) ?_ u ?_
      · exact (List.prefix_cons_inj e).2 hpre
      · rw [run_cons, ht]
        exact hu
    · rintro ⟨he, h⟩ pre hpre u hu
      rcases pre with _ | ⟨f, pre⟩
      · exact Option.some.inj hu ▸ hP s hs
      · obtain ⟨rfl, hrel⟩ := List.cons_prefix_cons.1 hpre
        rcases ht : step s f with _ | t
        · simp [run_cons, ht] at hu
        · have hrest := forall_run_iff hP hI hC es (hI s f t hs (hD f (by simp)) he ht)
            fun g hg => hD g (List.mem_cons_of_mem _ hg)
          exact hrest.2 (h t ht) pre hrel u (by simpa [run_cons, ht] using hu)

end Partial

section Total

variable (step : σ → ε → σ)

/-- `P` holds of each event of the run and the state it meets. -/
def Throughout (P : σ → ε → Prop) (s : σ) (es : List ε) : Prop :=
  ∀ pre e post, es = pre ++ e :: post → P (pre.foldl step s) e

theorem throughout_nil (P : σ → ε → Prop) (s : σ) : Throughout step P s [] := by
  intro pre e post h
  simp at h

theorem throughout_cons {P : σ → ε → Prop} {s : σ} {e : ε} {es : List ε} :
    Throughout step P s (e :: es) ↔ P s e ∧ Throughout step P (step s e) es := by
  constructor
  · refine fun h => ⟨h [] e es rfl, fun pre f post he => ?_⟩
    exact h (e :: pre) f post (by rw [he, List.cons_append])
  · rintro ⟨h0, h⟩ pre f post he
    rcases pre with _ | ⟨g, pre⟩
    · simp only [List.nil_append, List.cons.injEq] at he
      obtain ⟨rfl, rfl⟩ := he
      exact h0
    · simp only [List.cons_append, List.cons.injEq] at he
      obtain ⟨rfl, rfl⟩ := he
      exact h pre f post rfl

/-- Steps that meet the condition keep an invariant and have a property; then all the steps of a
run whose steps meet it have the property. -/
theorem throughout_of {I : σ → Prop} {C P : σ → ε → Prop}
    (h : ∀ s e, I s → C s e → P s e ∧ I (step s e)) :
    ∀ (es : List ε) {s : σ}, I s → Throughout step C s es → Throughout step P s es
  | [], s, _, _ => throughout_nil step P s
  | e :: es, s, hs, hC => by
    obtain ⟨h0, hrest⟩ := (throughout_cons step).1 hC
    obtain ⟨hP, hI⟩ := h s e hs h0
    exact (throughout_cons step).2 ⟨hP, throughout_of h es hI hrest⟩

/-- Where a step has the property exactly when it meets the condition, so do all steps of a run. -/
theorem throughout_iff {I : σ → Prop} {C P : σ → ε → Prop} (h : ∀ s e, I s → (P s e ↔ C s e))
    (hI : ∀ s e, I s → C s e → I (step s e)) {s : σ} (hs : I s) (es : List ε) :
    Throughout step P s es ↔ Throughout step C s es :=
  ⟨throughout_of step (fun s e hs hP => ⟨(h s e hs).1 hP, hI s e hs ((h s e hs).1 hP)⟩) es hs,
    throughout_of step (fun s e hs hC => ⟨(h s e hs).2 hC, hI s e hs hC⟩) es hs⟩

/-- Where a step establishes a property exactly if it held before and the step meets a condition,
the property holds after a run exactly if it held at the start and all steps meet it. -/
theorem foldl_iff {I P : σ → Prop} {C : σ → ε → Prop}
    (hP : ∀ s e, I s → (P (step s e) ↔ P s ∧ C s e)) (hI : ∀ s e, I s → I (step s e)) :
    ∀ (es : List ε) {s : σ}, I s → (P (es.foldl step s) ↔ P s ∧ Throughout step C s es)
  | [], s, _ => (and_iff_left (throughout_nil step C s)).symm
  | e :: es, s, hs => by
    rw [List.foldl_cons, foldl_iff hP hI es (hI s e hs), hP s e hs, throughout_cons, and_assoc]

/-- What holds after every prefix of a run holds at the start and after each of its steps. -/
theorem forall_foldl_iff {P : σ → Prop} {s : σ} {es : List ε} :
    (∀ pre, pre <+: es → P (pre.foldl step s))
      ↔ P s ∧ Throughout step (fun t e => P (step t e)) s es := by
  constructor
  · refine fun h => ⟨h [] List.nil_prefix, fun pre e post he => ?_⟩
    have := h (pre ++ [e]) ⟨post, by rw [he, List.append_assoc, List.singleton_append]⟩
    simpa using this
  · rintro ⟨h0, h⟩ pre ⟨post, rfl⟩
    rcases List.eq_nil_or_concat pre with rfl | ⟨init, e, rfl⟩
    · exact h0
    · have := h init e post (by simp)
      simpa using this

end Total

end Runs
