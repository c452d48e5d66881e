import Mathlib.Data.List.Nodup
import Mathlib.Data.List.Perm.Subperm
import OcppServer.Lib.Runs

/-!
# Walking a list that changes meanwhile

`forEach` visits a list by index, as often as the list was long at first, and what it calls may
delete items of the list and append others. It should visit each item that was there at first, in
order, unless the item is gone by its turn (`inTurn`). A deletion at or before the index moves the
items behind it to the left, and the index goes on to the right: the next item is passed over and
never comes up again (`visited_turns`). So the walk goes as it should exactly when no call deletes
an item that was visited while one of the first items still waits (`forEach_inTurn_iff`).
-/

namespace ForEach

variable {α σ : Type*} (items : σ → List α) (call : α → σ → σ)

structure Walk (α σ : Type*) where
  state : σ
  visited : List α := []

def visit (w : Walk α σ) (a : α) : Walk α σ := ⟨call a w.state, w.visited ++ [a]⟩

/-- One index; there may be no item at it any more. -/
def turn (w : Walk α σ) (k : ℕ) : Walk α σ :=
  match (items w.state)[k]? with
  | some a => visit call w a
  | none => w

def forEach (s : σ) : Walk α σ :=
  (List.range (items s).length).foldl (turn items call) ⟨s, []⟩

/-- Each of the given items, in order, unless it is gone. -/
def inTurn [DecidableEq α] : List α → Walk α σ → Walk α σ
  | [], w => w
  | a :: rest, w => inTurn rest (if a ∈ items w.state then visit call w a else w)

/-- Calls delete items and append items that are none of the first ones. -/
def Mutates (first : List α) (I : σ → Prop) : Prop :=
  ∀ a s, I s → I (call a s) ∧ ∃ kept new, items (call a s) = kept ++ new ∧ kept.Sublist (items s)
    ∧ ∀ x ∈ new, x ∉ first

/-- If one of the first items still waits after the call, no item visited was deleted by it. -/
def KeepsVisited (first : List α) (w : Walk α σ) (k : ℕ) : Prop :=
  ∀ a, (items w.state)[k]? = some a →
    (∃ p ∈ first, p ∉ w.visited ++ [a] ∧ p ∈ items (call a w.state)) →
      ∀ q ∈ w.visited ++ [a], q ∈ items w.state → q ∈ items (call a w.state)

/-- The walk visits the first items each in turn, and after them perhaps items appended since. -/
def VisitsInTurn [DecidableEq α] (s : σ) : Prop :=
  ∃ extra, (forEach items call s).visited
      = (inTurn items call (items s) ⟨s, []⟩).visited ++ extra
    ∧ ∀ x ∈ extra, x ∉ items s

variable {items call} {first : List α} {I : σ → Prop}

/-- A sublist that has all of a list without duplicates is the list. -/
theorem sublist_eq_of_subset {s l : List α} (hs : s.Sublist l) (hl : l.Nodup) (h : l ⊆ s) : s = l :=
  hs.eq_of_length_le (hl.subperm h).length_le

theorem inTurn_visited [DecidableEq α] (items : σ → List α) (call : α → σ → σ) :
    ∀ (l : List α) (w : Walk α σ), ∃ more, (inTurn items call l w).visited = w.visited ++ more
  | [], w => ⟨[], (List.append_nil _).symm⟩
  | a :: l, w => by
    rw [inTurn]
    obtain ⟨more, h⟩ :=
      inTurn_visited items call l (if a ∈ items w.state then visit call w a else w)
    rw [h]
    split
    · exact ⟨a :: more, by simp [visit]⟩
    · exact ⟨more, rfl⟩

/-- What is gone does not come back, so it can be left out from the start. -/
theorem inTurn_of_gone [DecidableEq α] (hm : Mutates items call first I) {l l' : List α}
    (hsub : l'.Sublist l) :
    ∀ {w : Walk α σ}, l.Nodup → l ⊆ first → I w.state →
      (∀ x ∈ l, x ∈ items w.state → x ∈ l') → inTurn items call l w = inTurn items call l' w := by
  induction hsub with
  | slnil => intro w _ _ _ _; rfl
  | @cons l' l a hsub ih =>
    intro w hn hf hI hmem
    have ha : a ∉ items w.state := by
      intro ha
      exact (List.nodup_cons.1 hn).1 (hsub.subset (hmem a (by simp) ha))
    rw [inTurn, if_neg ha]
    exact ih (List.nodup_cons.1 hn).2 (fun x hx => hf (List.mem_cons_of_mem _ hx)) hI
      fun x hx => hmem x (List.mem_cons_of_mem _ hx)
  | @cons_cons l' l a hsub ih =>
    intro w hn hf hI hmem
    have hnl := List.nodup_cons.1 hn
    have hf' : l ⊆ first := fun x hx => hf (List.mem_cons_of_mem _ hx)
    have hrest : ∀ x ∈ l, x ∈ items w.state → x ∈ l' := by
      intro x hx hxs
      rcases List.mem_cons.1 (hmem x (List.mem_cons_of_mem _ hx) hxs) with rfl | h
      · exact absurd hx hnl.1
      · exact h
    rw [inTurn, inTurn]
    split
    · obtain ⟨hI', kept, new, heq, hkept, hnew⟩ := hm a w.state hI
      refine ih hnl.2 hf' hI' fun x hx hxs => ?_
      rw [visit, heq, List.mem_append] at hxs
      rcases hxs with hxs | hxs
      · exact hrest x hx (hkept.subset hxs)
      · exact absurd (hf' hx) (hnew x hxs)
    · exact ih hnl.2 hf' hI hrest

/-- What is behind an index after deletions was not before it, or was appended. -/
theorem mem_drop_of_mutated {l kept new : List α} (h : kept.Sublist l) (k : ℕ) {x : α}
    (hx : x ∈ (kept ++ new).drop k) : x ∈ l.drop k ∨ x ∈ new := by
  rw [← List.take_append_drop k l] at h
  obtain ⟨s, t, rfl, hs, ht⟩ := List.sublist_append_iff.1 h
  have hlen := hs.length_le
  rw [List.length_take] at hlen
  rw [List.append_assoc, List.drop_append, List.drop_eq_nil_of_le (by omega), List.nil_append] at hx
  rcases List.mem_append.1 (List.mem_of_mem_drop hx) with hx | hx
  · exact .inl (ht.subset hx)
  · exact .inr hx

/-- First items that are behind the index are not visited any more. -/
theorem visited_turns (hm : Mutates items call first I) {passed : List α} (hp : passed ⊆ first) :
    ∀ (m k : ℕ) {w : Walk α σ}, I w.state → (∀ x ∈ passed, x ∉ (items w.state).drop k) →
      ∃ extra, ((List.range' k m).foldl (turn items call) w).visited = w.visited ++ extra
        ∧ ∀ x ∈ extra, x ∉ passed
  | 0, _, w, _, _ => ⟨[], by simp, by simp⟩
  | m + 1, k, w, hI, h => by
    rw [List.range'_succ, List.foldl_cons, turn]
    rcases hk : (items w.state)[k]? with _ | a
    · dsimp only
      refine visited_turns hm hp m (k + 1) hI fun x hx hd => ?_
      have hlen := List.getElem?_eq_none_iff.1 hk
      rw [List.drop_eq_nil_of_le (by omega)] at hd
      cases hd
    · obtain ⟨hI', kept, new, heq, hkept, hnew⟩ := hm a w.state hI
      have hdrop : ∀ x ∈ passed, x ∉ (items (visit call w a).state).drop (k + 1) := by
        intro x hx hd
        rw [visit, heq, ← List.drop_drop] at hd
        rcases mem_drop_of_mutated hkept k (List.mem_of_mem_drop hd) with hd | hd
        · exact h x hx hd
        · exact hnew x hd (hp hx)
      obtain ⟨extra, hv, hx⟩ := visited_turns hm hp m (k + 1) hI' hdrop
      refine ⟨a :: extra, by rw [hv, visit]; simp, ?_⟩
      intro x hxe hxp
      rcases List.mem_cons.1 hxe with rfl | hxe
      · have hmem : x ∈ (items w.state).drop k := by
          rw [List.drop_eq_getElem_cons (List.getElem?_eq_some_iff.1 hk).1]
          simp [(List.getElem?_eq_some_iff.1 hk).2]
        exact h x hxp hmem
      · exact hx x hxe hxp

/-- So far all went in turn and nothing visited is gone: `ahead` are the first items that wait, and
what comes behind them is none of the first. -/
structure Underway (items : σ → List α) (first : List α) (I : σ → Prop) (w : Walk α σ)
    (ahead rest : List α) : Prop where
  items_eq : items w.state = w.visited ++ (ahead ++ rest)
  sublist : (w.visited ++ ahead).Sublist first
  rest : ∀ x ∈ rest, x ∉ first
  inv : I w.state

/-- What a call leaves of the items visited, of those that wait, and behind them. -/
structure Leaves (items : σ → List α) (first : List α) (I : σ → Prop) (w : Walk α σ)
    (ahead done ahead' rest' : List α) : Prop where
  items_eq : items w.state = done ++ (ahead' ++ rest')
  done : done.Sublist w.visited
  ahead : ahead'.Sublist ahead
  rest : ∀ x ∈ rest', x ∉ first
  inv : I w.state

section Step

variable {w : Walk α σ} {p : α} {ps rest : List α}

theorem Underway.getElem? (h : Underway items first I w (p :: ps) rest) :
    (items w.state)[w.visited.length]? = some p := by
  rw [h.items_eq, List.getElem?_append_right (Nat.le_refl _)]
  simp

theorem Underway.leaves (hm : Mutates items call first I)
    (h : Underway items first I w (p :: ps) rest) :
    ∃ done ahead' rest', Leaves items first I (visit call w p) ps done ahead' rest' := by
  obtain ⟨hI', kept, new, heq, hkept, hnew⟩ := hm p w.state h.inv
  have hitems : items w.state = (w.visited ++ [p]) ++ (ps ++ rest) := by
    rw [h.items_eq]
    simp
  rw [hitems] at hkept
  obtain ⟨done, back, rfl, hdone, hback⟩ := List.sublist_append_iff.1 hkept
  obtain ⟨ahead', old, rfl, hahead, hold⟩ := List.sublist_append_iff.1 hback
  refine ⟨done, ahead', old ++ new, by simp [visit, heq], hdone, hahead, ?_, hI'⟩
  intro x hx
  rcases List.mem_append.1 hx with hx | hx
  · exact h.rest x (hold.subset hx)
  · exact hnew x hx

variable {done ahead' rest' : List α}

/-- Of the first items, those left that were not visited are the ones that wait. -/
theorem Leaves.mem_ahead (hl : Leaves items first I w ps done ahead' rest') {x : α}
    (hx : x ∈ first) (hv : x ∉ w.visited) (hi : x ∈ items w.state) : x ∈ ahead' := by
  rw [hl.items_eq] at hi
  rcases List.mem_append.1 hi with hi | hi
  · exact absurd (hl.done.subset hi) hv
  rcases List.mem_append.1 hi with hi | hi
  · exact hi
  · exact absurd hx (hl.rest x hi)

/-- The next to visit are those that still wait. -/
theorem Leaves.inTurn_eq [DecidableEq α] (hm : Mutates items call first I) (hn : first.Nodup)
    (hl : Leaves items first I w ps done ahead' rest') (hsub : (w.visited ++ ps).Sublist first) :
    inTurn items call ps w = inTurn items call ahead' w := by
  have hnodup := List.nodup_append.1 (hn.sublist hsub)
  have hf : ps ⊆ first := fun x hx => hsub.subset (List.mem_append_right _ hx)
  refine inTurn_of_gone hm hl.ahead hnodup.2.1 hf hl.inv fun x hx hi => ?_
  exact hl.mem_ahead (hf hx) (fun hv => hnodup.2.2 x hv x hx rfl) hi

theorem Underway.keepsVisited_iff (hn : first.Nodup)
    (h : Underway items first I w (p :: ps) rest)
    (hl : Leaves items first I (visit call w p) ps done ahead' rest') :
    KeepsVisited items call first w w.visited.length ↔ ahead' = [] ∨ done = w.visited ++ [p] := by
  have hsub : ((w.visited ++ [p]) ++ ps).Sublist first := by simpa using h.sublist
  obtain ⟨hdone, -, hdisj⟩ := List.nodup_append.1 (hn.sublist hsub)
  have hfirst : ∀ {x}, x ∈ w.visited ++ [p] → x ∈ first :=
    fun hx => hsub.subset (List.mem_append_left _ hx)
  constructor
  · intro hk
    by_cases hnil : ahead' = []
    · exact .inl hnil
    · obtain ⟨q, hq⟩ := List.exists_mem_of_ne_nil _ hnil
      have hqps := hl.ahead.subset hq
      have hwaits : ∃ q ∈ first, q ∉ w.visited ++ [p] ∧ q ∈ items (call p w.state) := by
        refine ⟨q, hsub.subset (List.mem_append_right _ hqps),
          fun hqv => hdisj q hqv q hqps rfl, ?_⟩
        have heq := hl.items_eq
        rw [visit] at heq
        rw [heq]
        exact List.mem_append_right _ (List.mem_append_left _ hq)
      refine .inr (sublist_eq_of_subset hl.done hdone fun x hx => ?_)
      have hxi : x ∈ items (call p w.state) := by
        refine hk p h.getElem? hwaits x hx ?_
        rw [h.items_eq]
        rcases List.mem_append.1 hx with hx | hx
        · exact List.mem_append_left _ hx
        · exact List.mem_append_right _ (by simp [List.mem_singleton.1 hx])
      have heq := hl.items_eq
      rw [visit] at heq
      rw [heq] at hxi
      rcases List.mem_append.1 hxi with hxi | hxi
      · exact hxi
      rcases List.mem_append.1 hxi with hxi | hxi
      · exact absurd rfl (hdisj x hx x (hl.ahead.subset hxi))
      · exact absurd (hfirst hx) (hl.rest x hxi)
  · rintro hor a ha ⟨q, hqf, hqv, hqi⟩ x hx -
    obtain rfl : p = a := Option.some.inj (h.getElem?.symm.trans ha)
    rcases hor with rfl | rfl
    · exact absurd (hl.mem_ahead hqf hqv hqi) List.not_mem_nil
    · have heq := hl.items_eq
      rw [visit] at heq
      rw [heq]
      exact List.mem_append_left _ hx

end Step

/-- When nothing waits any more, no call deletes an item too early. -/
theorem keepsVisited_of_idle (hm : Mutates items call first I) :
    ∀ (m k : ℕ) {w : Walk α σ}, I w.state →
      (∀ x ∈ first, x ∉ w.visited → x ∉ items w.state) →
        Runs.Throughout (turn items call) (KeepsVisited items call first) w (List.range' k m)
  | 0, _, w, _, _ => Runs.throughout_nil _ _ w
  | m + 1, k, w, hI, h => by
    rw [List.range'_succ, Runs.throughout_cons]
    have hgone : ∀ a, ∀ x ∈ first, x ∉ w.visited → x ∉ items (call a w.state) := by
      intro a x hx hv hi
      obtain ⟨-, kept, new, heq, hkept, hnew⟩ := hm a w.state hI
      rw [heq] at hi
      rcases List.mem_append.1 hi with hi | hi
      · exact h x hx hv (hkept.subset hi)
      · exact hnew x hi hx
    refine ⟨?_, keepsVisited_of_idle hm m (k + 1) ?_ ?_⟩
    · rintro a - ⟨q, hqf, hqv, hqi⟩
      exact absurd hqi (hgone a q hqf fun hv => hqv (List.mem_append_left _ hv))
    · rw [turn]
      split
      · exact (hm _ _ hI).1
      · exact hI
    · rw [turn]
      split
      · exact fun x hx hv => hgone _ x hx fun hv' => hv (List.mem_append_left _ hv')
      · exact h

/-- And only items appended since are visited then. -/
theorem Leaves.idle (hm : Mutates items call first I) {w : Walk α σ} {ps done rest' : List α}
    (hl : Leaves items first I w ps done [] rest') (m : ℕ) :
    (∃ extra, ((List.range' w.visited.length m).foldl (turn items call) w).visited
        = w.visited ++ extra ∧ ∀ x ∈ extra, x ∉ first)
      ∧ Runs.Throughout (turn items call) (KeepsVisited items call first) w
          (List.range' w.visited.length m) := by
  refine ⟨visited_turns hm (fun x hx => hx) m _ hl.inv fun x hx hd => ?_,
    keepsVisited_of_idle hm m _ hl.inv fun x hx hv hi =>
      absurd (hl.mem_ahead hx hv hi) List.not_mem_nil⟩
  have hlen := hl.done.length_le
  rw [hl.items_eq, List.nil_append, List.drop_append, List.drop_eq_nil_of_le (by omega),
    List.nil_append] at hd
  exact hl.rest x (List.mem_of_mem_drop hd) hx

/-- The first item that waits is not behind an index past the one it has. -/
theorem Leaves.notMem_drop {w : Walk α σ} {q : α} {ps qs done rest' : List α}
    (hl : Leaves items first I w ps done (q :: qs) rest') (hps : ps.Nodup) (hq : q ∈ first)
    {k : ℕ} (hk : done.length < k) : q ∉ (items w.state).drop k := by
  intro hd
  obtain ⟨j, hj⟩ : ∃ j, k - done.length = j + 1 := ⟨k - done.length - 1, by omega⟩
  rw [hl.items_eq, List.drop_append, List.drop_eq_nil_of_le (by omega), List.nil_append, hj,
    List.cons_append, List.drop_succ_cons] at hd
  rcases List.mem_append.1 (List.mem_of_mem_drop hd) with hd | hd
  · exact (List.nodup_cons.1 (hps.sublist hl.ahead)).1 hd
  · exact hl.rest q hd hq

/-- From a state in which all went in turn so far. -/
theorem Underway.walk_iff [DecidableEq α] (hm : Mutates items call first I) (hn : first.Nodup) :
    ∀ (m : ℕ) {w : Walk α σ} {ahead rest : List α}, Underway items first I w ahead rest →
      w.visited.length + m = first.length →
        ((∃ extra, ((List.range' w.visited.length m).foldl (turn items call) w).visited
              = (inTurn items call ahead w).visited ++ extra ∧ ∀ x ∈ extra, x ∉ first)
          ↔ Runs.Throughout (turn items call) (KeepsVisited items call first) w
              (List.range' w.visited.length m))
  | m, w, [], rest, h, hlen => by
    have hl : Leaves items first I w [] w.visited [] rest :=
      ⟨h.items_eq, .refl _, .refl _, h.rest, h.inv⟩
    exact iff_of_true (hl.idle hm m).1 (hl.idle hm m).2
  | 0, w, p :: ps, rest, h, hlen => by
    have := h.sublist.length_le
    rw [List.length_append, List.length_cons] at this
    omega
  | m + 1, w, p :: ps, rest, h, hlen => by
    obtain ⟨done, ahead', rest', hl⟩ := h.leaves hm
    have hsub : ((visit call w p).visited ++ ps).Sublist first := by
      simpa [visit] using h.sublist
    have hturn : turn items call w w.visited.length = visit call w p := by
      rw [turn, h.getElem?]
    have hp : p ∈ items w.state := List.mem_of_getElem? h.getElem?
    have hvlen : (visit call w p).visited.length = w.visited.length + 1 := by simp [visit]
    rw [List.range'_succ, List.foldl_cons, Runs.throughout_cons, hturn, inTurn, if_pos hp,
      h.keepsVisited_iff hn hl, hl.inTurn_eq hm hn hsub, ← hvlen]
    rcases ahead' with _ | ⟨q, qs⟩
    · exact iff_of_true (hl.idle hm m).1 ⟨.inl rfl, (hl.idle hm m).2⟩
    have hqps : q ∈ ps := hl.ahead.subset List.mem_cons_self
    have hqi : q ∈ items (visit call w p).state := by
      rw [hl.items_eq]
      exact List.mem_append_right _ (by simp)
    simp only [reduceCtorEq, false_or]
    by_cases hdone : done = w.visited ++ [p]
    · -- nothing visited is gone: the next index is the next item's
      subst hdone
      have h' : Underway items first I (visit call w p) (q :: qs) rest' :=
        ⟨hl.items_eq, ((List.Sublist.refl _).append hl.ahead).trans hsub, hl.rest, hl.inv⟩
      rw [Underway.walk_iff hm hn m h' (by omega)]
      simp
    · -- the items that wait have moved to the left, and the first of them is passed over
      refine iff_of_false ?_ fun hd => hdone hd.1
      rintro ⟨extra, heq, -⟩
      have hqv : q ∉ (visit call w p).visited := fun hqv =>
        (List.nodup_append.1 (hn.sublist hsub)).2.2 q hqv q hqps rfl
      have hshort : done.length < (visit call w p).visited.length := by
        have hle := hl.done.length_le
        have hlne : done.length ≠ (visit call w p).visited.length :=
          fun hlen' => hdone (hl.done.eq_of_length hlen')
        omega
      have hqf : q ∈ first := hsub.subset (List.mem_append_right _ hqps)
      have hpassed : ∀ x ∈ [q], x ∉ (items (visit call w p).state).drop
          (visit call w p).visited.length := by
        intro x hx
        rw [List.mem_singleton.1 hx]
        exact hl.notMem_drop (List.nodup_append.1 (hn.sublist hsub)).2.1 hqf hshort
      have hqs : [q] ⊆ first := fun x hx => List.mem_singleton.1 hx ▸ hqf
      obtain ⟨extra', hv, hx⟩ := visited_turns hm hqs m _ hl.inv hpassed
      have hmem : q ∈ (inTurn items call (q :: qs) (visit call w p)).visited := by
        obtain ⟨more, hmore⟩ := inTurn_visited items call qs (visit call (visit call w p) q)
        rw [inTurn, if_pos hqi, hmore]
        exact List.mem_append_left _ (by simp [visit])
      have hmem' := List.mem_append_left extra hmem
      rw [← heq, hv] at hmem'
      rcases List.mem_append.1 hmem' with hmem' | hmem'
      · exact hqv hmem'
      · exact hx q hmem' (by simp)

/-- A walk goes as it should exactly when no call deletes an item that was visited while one of
the first items still waits. -/
theorem forEach_inTurn_iff [DecidableEq α] {s : σ} (hm : Mutates items call (items s) I)
    (hn : (items s).Nodup) (hI : I s) :
    VisitsInTurn items call s
      ↔ Runs.Throughout (turn items call) (KeepsVisited items call (items s)) ⟨s, []⟩
          (List.range (items s).length) := by
  have h : Underway items (items s) I ⟨s, []⟩ (items s) [] :=
    ⟨by simp, .refl _, by simp, hI⟩
  rw [VisitsInTurn, forEach, List.range_eq_range']
  exact h.walk_iff hm hn (items s).length (by simp)

end ForEach
