import OcppServer.Lib.Dict

/-!
# A replica kept by assignments

A copy of a map follows the map when each change is announced as the assignments it makes, in
order. Two maps agree when they hold the same value at every key.
-/

namespace Replica

variable {κ α : Type*} [DecidableEq κ]

/-- The assignments made one after another. -/
def replay (l : List (κ × α)) (d : Dict κ α) : Dict κ α :=
  l.foldl (fun d kv => d.insert kv.1 kv.2) d

/-- The same value at every key. -/
def Agree (d d' : Dict κ α) : Prop := ∀ k, d.lookup k = d'.lookup k

@[simp] theorem replay_nil (d : Dict κ α) : replay [] d = d := rfl

@[simp] theorem replay_cons (kv : κ × α) (l : List (κ × α)) (d : Dict κ α) :
    replay (kv :: l) d = replay l (d.insert kv.1 kv.2) := rfl

theorem replay_append (l l' : List (κ × α)) (d : Dict κ α) :
    replay (l ++ l') d = replay l' (replay l d) := List.foldl_append

theorem Agree.refl (d : Dict κ α) : Agree d d := fun _ => rfl

theorem Agree.trans {d d' d'' : Dict κ α} (h : Agree d d') (h' : Agree d' d'') : Agree d d'' :=
  fun k => (h k).trans (h' k)

theorem Agree.insert {d d' : Dict κ α} (h : Agree d d') (k : κ) (a : α) :
    Agree (d.insert k a) (d'.insert k a) := by
  intro j
  rw [Dict.lookup_insert_eq, Dict.lookup_insert_eq, h j]

theorem Agree.replay {d d' : Dict κ α} :
    ∀ (l : List (κ × α)), Agree d d' → Agree (replay l d) (replay l d')
  | [], h => h
  | kv :: l, h => Agree.replay l (h.insert kv.1 kv.2)

theorem lookup_replay [BEq κ] [LawfulBEq κ] (k : κ) :
    ∀ (l : List (κ × α)) (d : Dict κ α),
      (replay l d).lookup k = (l.reverse.lookup k).or (d.lookup k)
  | [], _ => rfl
  | (j, a) :: l, d => by
    rw [replay_cons, lookup_replay k l, List.reverse_cons, List.lookup_append, Option.or_assoc,
      Dict.lookup_insert_eq]
    by_cases h : k = j
    · subst h
      simp
    · have hb : (k == j) = false := by simpa using h
      simp only [List.lookup_cons, List.lookup_nil, hb, if_neg h, Option.none_or]

/-- A value was assigned or there before. -/
theorem lookup_replay_cases {k : κ} {a : α} {l : List (κ × α)} {d : Dict κ α}
    (h : (replay l d).lookup k = some a) : (k, a) ∈ l ∨ d.lookup k = some a := by
  rw [lookup_replay] at h
  rcases hl : l.reverse.lookup k with _ | b
  · rw [hl, Option.none_or] at h
    exact .inr h
  · rw [hl, Option.some_or, Option.some.injEq] at h
    exact .inl (List.mem_reverse.1 (Dict.mem_of_lookup (h ▸ hl)))

/-- From nothing, a value was assigned, and a value assigned alone is kept. -/
theorem mem_of_lookup_replay {k : κ} {a : α} {l : List (κ × α)}
    (h : (replay l ∅).lookup k = some a) : (k, a) ∈ l := by
  rcases lookup_replay_cases h with h | h
  · exact h
  · rw [AList.lookup_empty] at h
    cases h

theorem lookup_replay_of_unique {k : κ} {a : α} {l : List (κ × α)} (h : (k, a) ∈ l)
    (huniq : ∀ b, (k, b) ∈ l → b = a) : (replay l ∅).lookup k = some a := by
  rw [lookup_replay, AList.lookup_empty, Option.or_none]
  rcases hl : l.reverse.lookup k with _ | b
  · have hne := List.lookup_eq_none_iff.1 hl (k, a) (List.mem_reverse.2 h)
    simp at hne
  · rw [huniq b (List.mem_reverse.1 (Dict.mem_of_lookup hl))]

/-- The entries of a map, in any order, bring the map about. -/
theorem agree_replay_of_perm {l : List (κ × α)} {d : Dict κ α} (h : l.Perm d.toPairs) :
    Agree (replay l ∅) d := by
  intro k
  rcases hd : d.lookup k with _ | a
  · rcases hr : (replay l ∅).lookup k with _ | a
    · rfl
    · have hk := Dict.mem_toPairs.1 (h.mem_iff.1 (mem_of_lookup_replay hr))
      rw [hd] at hk
      cases hk
  · refine lookup_replay_of_unique (h.mem_iff.2 (Dict.mem_toPairs.2 hd)) fun b hb => ?_
    have hk := Dict.mem_toPairs.1 (h.mem_iff.1 hb)
    rw [hd, Option.some.injEq] at hk
    exact hk.symm

theorem mem_replay {k : κ} : ∀ (l : List (κ × α)) {d : Dict κ α}, k ∈ d → k ∈ replay l d
  | [], _, h => h
  | _ :: l, _, h => mem_replay l (AList.mem_insert _ |>.2 (.inr h))

end Replica
