import Mathlib.Data.List.Pairwise
import Mathlib.Tactic.Common

/-!
# Maps in the order of their keys

A `SortedMap` is a list of entries whose keys ascend, so no key stands twice and a walk through the
entries meets the keys in ascending order. Inserting and erasing keep the order; a search sees
their effect at the key alone (`find?_insert`, `find?_erase`).
-/

/-- Entries with ascending keys. -/
structure SortedMap (κ α : Type*) [Ord κ] where
  entries : List (κ × α)
  sorted : entries.Pairwise fun e f => compare e.1 f.1 = .lt

namespace SortedMap

variable {κ α : Type*} [Ord κ]

def empty : SortedMap κ α := ⟨[], .nil⟩

def findList (k : κ) : List (κ × α) → Option α
  | [] => none
  | (j, b) :: l => if compare k j = .eq then some b else findList k l

def insertList (k : κ) (a : α) : List (κ × α) → List (κ × α)
  | [] => [(k, a)]
  | (j, b) :: l =>
    match compare k j with
    | .lt => (k, a) :: (j, b) :: l
    | .eq => (k, a) :: l
    | .gt => (j, b) :: insertList k a l

/-- The value at a key. -/
def find? (m : SortedMap κ α) (k : κ) : Option α := findList k m.entries

def keys (m : SortedMap κ α) : List κ := m.entries.map Prod.fst

def erase (m : SortedMap κ α) (k : κ) : SortedMap κ α :=
  ⟨m.entries.filter fun e => compare k e.1 ≠ .eq, m.sorted.filter _⟩

theorem find?_empty (i : κ) : (empty : SortedMap κ α).find? i = none := rfl

theorem mem_insertList {k : κ} {a : α} {e : κ × α} :
    ∀ {l : List (κ × α)}, e ∈ insertList k a l → e = (k, a) ∨ e ∈ l
  | [], h => by simpa [insertList] using h
  | (j, b) :: l, h => by
    simp only [insertList] at h
    rcases hkj : compare k j with _ | _ | _ <;> rw [hkj] at h
    · exact List.mem_cons.1 h
    · exact (List.mem_cons.1 h).imp_right (List.mem_cons_of_mem _)
    · rcases List.mem_cons.1 h with rfl | h
      · exact .inr (by simp)
      · exact (mem_insertList h).imp_right (List.mem_cons_of_mem _)

section Lawful

variable [Std.LawfulEqOrd κ]

theorem pairwise_insertList [Std.TransOrd κ] (k : κ) (a : α) : ∀ {l : List (κ × α)},
    l.Pairwise (fun e f => compare e.1 f.1 = .lt) →
      (insertList k a l).Pairwise fun e f => compare e.1 f.1 = .lt
  | [], _ => List.pairwise_singleton _ _
  | (j, b) :: l, h => by
    obtain ⟨hj, hl⟩ := List.pairwise_cons.1 h
    simp only [insertList]
    rcases hkj : compare k j with _ | _ | _
    · refine List.pairwise_cons.2 ⟨fun e he => ?_, h⟩
      rcases List.mem_cons.1 he with rfl | he
      · exact hkj
      · exact Std.TransCmp.lt_trans hkj (hj e he)
    · obtain rfl := Std.LawfulEqOrd.eq_of_compare hkj
      exact List.pairwise_cons.2 ⟨hj, hl⟩
    · refine List.pairwise_cons.2 ⟨fun e he => ?_, pairwise_insertList k a hl⟩
      rcases mem_insertList he with rfl | he
      · exact Std.OrientedCmp.lt_of_gt hkj
      · exact hj e he

/-- The value at a key set; the entry goes to its place if it is new. -/
def insert [Std.TransOrd κ] (m : SortedMap κ α) (k : κ) (a : α) : SortedMap κ α :=
  ⟨insertList k a m.entries, pairwise_insertList k a m.sorted⟩

variable [DecidableEq κ]

theorem findList_cons (i j : κ) (b : α) (l : List (κ × α)) :
    findList i ((j, b) :: l) = if i = j then some b else findList i l := by
  simp only [findList, Std.compare_eq_iff_eq]

theorem findList_insertList (k i : κ) (a : α) : ∀ l : List (κ × α),
    findList i (insertList k a l) = if i = k then some a else findList i l
  | [] => findList_cons i k a []
  | (j, b) :: l => by
    simp only [insertList]
    rcases hkj : compare k j with _ | _ | _
    · exact findList_cons i k a _
    · obtain rfl := Std.compare_eq_iff_eq.1 hkj
      rw [findList_cons, findList_cons]
      split_ifs <;> rfl
    · have hne : k ≠ j := by
        rintro rfl
        rw [Std.compare_self] at hkj
        cases hkj
      rw [findList_cons, findList_insertList k i a l, findList_cons]
      by_cases hik : i = k
      · rw [if_pos hik, if_pos hik, if_neg (hik ▸ hne)]
      · rw [if_neg hik, if_neg hik]

theorem find?_insert [Std.TransOrd κ] (m : SortedMap κ α) (k i : κ) (a : α) :
    (m.insert k a).find? i = if i = k then some a else m.find? i :=
  findList_insertList k i a m.entries

theorem find?_insert_self [Std.TransOrd κ] (m : SortedMap κ α) (k : κ) (a : α) :
    (m.insert k a).find? k = some a :=
  (find?_insert m k k a).trans (if_pos rfl)

theorem find?_insert_eq_some [Std.TransOrd κ] {m : SortedMap κ α} {k i : κ} {a b : α} :
    (m.insert k a).find? i = some b ↔ i = k ∧ a = b ∨ i ≠ k ∧ m.find? i = some b := by
  rw [find?_insert]
  split_ifs with h <;> simp [h]

theorem findList_filter (k i : κ) : ∀ l : List (κ × α),
    findList i (l.filter fun e => compare k e.1 ≠ .eq) = if i = k then none else findList i l
  | [] => by simp [findList]
  | (j, b) :: l => by
    have ih := findList_filter k i l
    by_cases hkj : k = j
    · subst hkj
      rw [List.filter_cons_of_neg (by simp), ih, findList_cons]
      split_ifs <;> rfl
    · have hc : compare k j ≠ .eq := fun h => hkj (Std.compare_eq_iff_eq.1 h)
      rw [List.filter_cons_of_pos (by simpa using hc), findList_cons, ih, findList_cons]
      by_cases hik : i = k
      · subst hik
        rw [if_neg hkj, if_pos rfl, if_pos rfl]
      · rw [if_neg hik, if_neg hik]

theorem find?_erase (m : SortedMap κ α) (k i : κ) :
    (m.erase k).find? i = if i = k then none else m.find? i :=
  findList_filter k i m.entries

theorem find?_erase_eq_some {m : SortedMap κ α} {k i : κ} {a : α} :
    (m.erase k).find? i = some a ↔ i ≠ k ∧ m.find? i = some a := by
  rw [find?_erase]
  split_ifs with h <;> simp [h]

theorem findList_eq_some {i : κ} {a : α} : ∀ {l : List (κ × α)},
    l.Pairwise (fun e f => compare e.1 f.1 = .lt) → (findList i l = some a ↔ (i, a) ∈ l)
  | [], _ => by simp [findList]
  | (j, b) :: l, h => by
    obtain ⟨hj, hl⟩ := List.pairwise_cons.1 h
    rw [findList_cons, List.mem_cons, Prod.mk.injEq]
    split_ifs with hij
    · subst hij
      refine ⟨fun hb => .inl ⟨rfl, (Option.some.inj hb).symm⟩, ?_⟩
      rintro (⟨-, rfl⟩ | hmem)
      · rfl
      · have := hj _ hmem
        rw [Std.compare_self] at this
        cases this
    · rw [findList_eq_some hl]
      exact ⟨.inr, fun h => h.resolve_left fun h => hij h.1⟩

theorem find?_eq_some {m : SortedMap κ α} {i : κ} {a : α} :
    m.find? i = some a ↔ (i, a) ∈ m.entries :=
  findList_eq_some m.sorted

theorem mem_keys {m : SortedMap κ α} {i : κ} : i ∈ m.keys ↔ ∃ a, m.find? i = some a := by
  simp only [keys, List.mem_map, find?_eq_some, Prod.exists, exists_and_right, exists_eq_right]

theorem eq_empty {m : SortedMap κ α} (h : ∀ i, m.find? i = none) : m = empty := by
  obtain ⟨l, hl⟩ := m
  rcases l with _ | ⟨⟨j, b⟩, l⟩
  · rfl
  · have := h j
    rw [find?, findList_cons, if_pos rfl] at this
    cases this

end Lawful

end SortedMap
