import Mathlib.Data.List.Basic
import Mathlib.Data.List.Infix
import Mathlib.Tactic.Common

/-!
# Text with delimiters

Cutting a text at the first place a delimiter stands (`cutAt`) and reading lines up to the first
empty one (`readLines`), each undone by writing the pieces with their delimiters, as long as no
piece has the delimiter's first letter. `lines` cuts at every place of a letter, `afterLast?` gives
what follows the last one.
-/

namespace Delimited

variable {α : Type*} [DecidableEq α]

/-- What stands before and behind the first place of the delimiter. -/
def cutAt (delim : List α) : List α → Option (List α × List α)
  | [] => if delim = [] then some ([], []) else none
  | x :: l =>
    if delim <+: x :: l then some ([], (x :: l).drop delim.length)
    else (cutAt delim l).map (Prod.map (x :: ·) id)

theorem cutAt_append {c : α} (delim rest : List α) :
    ∀ {piece : List α}, c ∉ piece →
      cutAt (c :: delim) (piece ++ (c :: delim ++ rest)) = some (piece, rest)
  | [], _ => by
    rw [List.nil_append, List.cons_append, cutAt, if_pos]
    · simp
    · exact ⟨rest, by simp⟩
  | x :: piece, h => by
    have hx : ¬ c :: delim <+: x :: (piece ++ (c :: delim ++ rest)) := by
      intro hp
      exact h (by simp [(List.cons_prefix_cons.1 hp).1])
    have ih := cutAt_append delim rest fun hm : c ∈ piece => h (List.mem_cons_of_mem _ hm)
    rw [List.cons_append, cutAt, if_neg hx, ih]
    rfl

/-- The lines up to the first empty one, and what comes behind it; `fuel` bounds their number. -/
def readLines (eol : List α) : ℕ → List α → Option (List (List α) × List α)
  | 0, _ => none
  | fuel + 1, s =>
    match cutAt eol s with
    | none => none
    | some (line, rest) =>
      if line = [] then some ([], rest)
      else (readLines eol fuel rest).map (Prod.map (line :: ·) id)

/-- Lines written one after the other, with an empty line behind them. -/
def writeLines (eol : List α) (lines : List (List α)) : List α :=
  (lines.flatMap (· ++ eol)) ++ eol

theorem readLines_writeLines {c : α} (eol rest : List α) :
    ∀ {lines : List (List α)} {fuel : ℕ}, lines.length < fuel →
      (∀ line ∈ lines, line ≠ [] ∧ c ∉ line) →
        readLines (c :: eol) fuel (writeLines (c :: eol) lines ++ rest) = some (lines, rest)
  | [], fuel + 1, _, _ => by
    have hcut := cutAt_append eol rest (List.not_mem_nil (a := c))
    simp only [List.nil_append] at hcut
    simp only [writeLines, List.flatMap_nil, List.nil_append, readLines, hcut, if_true]
  | line :: lines, fuel + 1, hlen, h => by
    obtain ⟨hne, hc⟩ := h line (by simp)
    have hlen' : lines.length < fuel := by
      rw [List.length_cons] at hlen
      omega
    have ih := readLines_writeLines eol rest hlen' fun l hl => h l (List.mem_cons_of_mem _ hl)
    have hcut := cutAt_append eol (writeLines (c :: eol) lines ++ rest) hc
    have happ : writeLines (c :: eol) (line :: lines) ++ rest
        = line ++ (c :: eol ++ (writeLines (c :: eol) lines ++ rest)) := by
      simp [writeLines]
    rw [happ, readLines, hcut]
    dsimp only
    rw [if_neg hne, ih]
    rfl

/-- The lines at the head of a text, up to the first empty one. -/
def readBlock (eol s : List α) : Option (List (List α) × List α) := readLines eol s.length s

omit [DecidableEq α] in
theorem length_lt_writeLines (c : α) (eol : List α) :
    ∀ lines : List (List α), lines.length < (writeLines (c :: eol) lines).length
  | [] => by simp [writeLines]
  | line :: lines => by
    have ih := length_lt_writeLines c eol lines
    simp only [writeLines, List.flatMap_cons, List.length_append, List.length_cons] at ih ⊢
    omega

theorem readBlock_writeLines {c : α} (eol rest : List α) {lines : List (List α)}
    (h : ∀ line ∈ lines, line ≠ [] ∧ c ∉ line) :
    readBlock (c :: eol) (writeLines (c :: eol) lines ++ rest) = some (lines, rest) := by
  have hlen := length_lt_writeLines c eol lines
  exact readLines_writeLines eol rest (by rw [List.length_append]; omega) h

omit [DecidableEq α] in
/-- Reading back one by one what was written one by one. -/
theorem mapM_map_of_forall {β : Type*} {write : β → List α} {read : List α → Option β} :
    ∀ {l : List β}, (∀ x ∈ l, read (write x) = some x) → (l.map write).mapM read = some l
  | [], _ => rfl
  | x :: l, h => by
    have ih := mapM_map_of_forall fun y (hy : y ∈ l) => h y (List.mem_cons_of_mem _ hy)
    rw [List.map_cons, List.mapM_cons, h x (by simp), ih]
    rfl

/-- The lines of a text that the letter ends; what stands behind the last one is a line if it is
not empty. -/
def lines (eol : α) : List α → List (List α)
  | [] => []
  | x :: l =>
    if x = eol then [] :: lines eol l
    else
      match lines eol l with
      | [] => [[x]]
      | line :: rest => (x :: line) :: rest

theorem lines_append {eol : α} (rest : List α) :
    ∀ {line : List α}, eol ∉ line → lines eol (line ++ eol :: rest) = line :: lines eol rest
  | [], _ => by rw [List.nil_append, lines, if_pos rfl]
  | x :: line, h => by
    rw [List.mem_cons, not_or] at h
    rw [List.cons_append, lines, if_neg (Ne.symm h.1), lines_append rest h.2]

/-- Lines that are each written with the letter behind them. -/
theorem lines_flatMap {eol : α} : ∀ {l : List (List α)}, (∀ line ∈ l, eol ∉ line) →
    lines eol (l.flatMap (· ++ [eol])) = l
  | [], _ => rfl
  | line :: l, h => by
    have ih := lines_flatMap fun m hm => h m (List.mem_cons_of_mem _ hm)
    rw [List.flatMap_cons, List.append_assoc, List.singleton_append,
      lines_append _ (h line (by simp)), ih]

/-- What follows the last place of a letter. -/
def afterLast? (c : α) : List α → Option (List α)
  | [] => none
  | x :: l => (afterLast? c l).or (if x = c then some l else none)

theorem afterLast?_eq_none {c : α} : ∀ {l : List α}, c ∉ l → afterLast? c l = none
  | [], _ => rfl
  | x :: l, h => by
    rw [List.mem_cons, not_or] at h
    rw [afterLast?, afterLast?_eq_none h.2, if_neg (Ne.symm h.1), Option.or_none]

theorem afterLast?_append {c : α} {t : List α} (h : c ∉ t) :
    ∀ pre : List α, afterLast? c (pre ++ c :: t) = some t
  | [] => by
    rw [List.nil_append, afterLast?, afterLast?_eq_none h, if_pos rfl, Option.none_or]
  | x :: pre => by
    rw [List.cons_append, afterLast?, afterLast?_append h pre, Option.some_or]

/-- A letter of the text is followed, in its last place, by a piece without it. -/
theorem exists_afterLast {c : α} :
    ∀ {l : List α}, c ∈ l → ∃ pre t, l = pre ++ c :: t ∧ c ∉ t
  | x :: l, h => by
    by_cases hl : c ∈ l
    · obtain ⟨pre, t, rfl, ht⟩ := exists_afterLast hl
      exact ⟨x :: pre, t, rfl, ht⟩
    · obtain rfl : c = x := by simpa [hl] using h
      exact ⟨[], l, rfl, hl⟩

end Delimited
