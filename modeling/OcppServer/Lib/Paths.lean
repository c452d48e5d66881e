import Mathlib.Data.List.Infix
import Mathlib.Tactic.Common

/-!
# Lexical resolution of paths

A path is split at the separator, empty components and single dots are dropped, and a double dot
pops the component before it; above the start there is nothing to pop. A text without two dots in
a row has no component that pops, so its resolution never leaves the directory it starts in.
-/

namespace Paths

variable {α : Type*} [DecidableEq α] (sep dot : α)

/-- The components entered so far, the last one first; `none` once the start was left. -/
def resolveFrom : List (List α) → List (List α) → Option (List (List α))
  | entered, [] => some entered
  | entered, c :: components =>
    if c = [] ∨ c = [dot] then resolveFrom entered components
    else if c = [dot, dot] then
      if entered = [] then none else resolveFrom entered.tail components
    else resolveFrom (c :: entered) components

def resolve (path : List α) : Option (List (List α)) := resolveFrom dot [] (path.splitOn sep)

theorem isSome_resolveFrom : ∀ {components : List (List α)}, [dot, dot] ∉ components →
    ∀ entered, (resolveFrom dot entered components).isSome
  | [], _, entered => rfl
  | c :: components, h, entered => by
    rw [List.mem_cons, not_or] at h
    have ih := isSome_resolveFrom h.2
    rw [resolveFrom]
    split
    · exact ih entered
    · rw [if_neg (Ne.symm h.1)]
      exact ih (c :: entered)

omit [DecidableEq α] in
theorem infix_intercalate (s : List α) :
    ∀ {pieces : List (List α)} {piece : List α}, piece ∈ pieces → piece <:+: s.intercalate pieces
  | [p], piece, h => by
    obtain rfl := List.mem_singleton.1 h
    simp
  | p :: q :: pieces, piece, h => by
    rw [List.intercalate_cons_cons]
    rcases List.mem_cons.1 h with rfl | h
    · exact ⟨[], s ++ s.intercalate (q :: pieces), by simp⟩
    · exact (infix_intercalate s h).trans ⟨p ++ s, [], by simp⟩

theorem isSome_resolve {path : List α} (h : ¬ [dot, dot] <:+: path) :
    (resolve sep dot path).isSome := by
  refine isSome_resolveFrom dot (fun hm => h ?_) []
  have := infix_intercalate [sep] hm
  rwa [List.intercalate_splitOn] at this

omit [DecidableEq α] in
/-- Two dots in a row stand in a text put together of two only inside one of them, unless a dot
ends the one and begins the other. -/
theorem doubled_infix_append {xs ys : List α} :
    [dot, dot] <:+: xs ++ ys
      ↔ [dot, dot] <:+: xs ∨ [dot, dot] <:+: ys ∨ [dot] <:+ xs ∧ [dot] <+: ys := by
  rw [List.infix_append_iff_ne_nil]
  refine or_congr_right (or_congr_right ⟨?_, fun h => ?_⟩)
  · rintro ⟨l₁, l₂, h₁, h₂, h, hs, hp⟩
    obtain ⟨a, l₁, rfl⟩ := List.exists_cons_of_ne_nil h₁
    obtain ⟨b, l₂, rfl⟩ := List.exists_cons_of_ne_nil h₂
    have hnil : l₁ = [] ∧ l₂ = [] := by
      have := congrArg List.length h
      simp only [List.length_append, List.length_cons, List.length_nil] at this
      constructor <;> rw [← List.length_eq_zero_iff] <;> omega
    obtain ⟨rfl, rfl⟩ := hnil
    simp only [List.cons_append, List.nil_append, List.cons.injEq, and_true] at h
    obtain ⟨rfl, rfl⟩ := h
    exact ⟨hs, hp⟩
  · exact ⟨[dot], [dot], by simp, by simp, rfl, h.1, h.2⟩

end Paths
