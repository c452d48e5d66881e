import Mathlib.Data.List.TakeWhile
import Mathlib.Algebra.Ring.Int.Defs
import Mathlib.Algebra.Ring.Nat

/-!
# Strings of the C++ side

A `std::string` is its bytes. Where the source goes through a `const char*` the string is read up
to its first NUL (`cstr`).
-/

namespace OcppServer

/-- The bytes of a `std::string`. -/
abbrev Bytes := List UInt8

/-- A literal of the source; all of them that reach a client are ASCII. -/
def lit (s : String) : Bytes := s.toList.map fun c => UInt8.ofNat c.toNat

/-- What a `const char*` to the string's bytes shows of it. -/
def cstr (s : Bytes) : Bytes := s.takeWhile (· ≠ 0)

/-- `std::to_string` of an integer. -/
def decimal (n : ℤ) : Bytes := lit (toString n)

@[simp] theorem cstr_cstr (s : Bytes) : cstr (cstr s) = cstr s := List.takeWhile_idem

theorem cstr_of_notMem {s : Bytes} (h : (0 : UInt8) ∉ s) : cstr s = s := by
  rw [cstr, List.takeWhile_eq_self_iff]
  intro b hb
  rw [decide_eq_true_eq]
  rintro rfl
  exact h hb

theorem zero_notMem_cstr (s : Bytes) : (0 : UInt8) ∉ cstr s := by
  intro h
  simpa using List.mem_takeWhile_imp h

theorem mem_decimal {n : ℤ} {b : UInt8} (h : b ∈ decimal n) :
    b.toNat = 45 ∨ 48 ≤ b.toNat ∧ b.toNat ≤ 57 := by
  have hdigit : ∀ m : ℕ, ∀ c ∈ Nat.toDigits 10 m,
      48 ≤ (UInt8.ofNat c.toNat).toNat ∧ (UInt8.ofNat c.toNat).toNat ≤ 57 := by
    intro m c hc
    have hd := Nat.isDigit_of_mem_toDigits (by decide) (by decide) hc
    simp only [Char.isDigit, Bool.and_eq_true, decide_eq_true_eq, UInt32.le_iff_toNat_le] at hd
    have h1 : 48 ≤ c.toNat := hd.1
    have h2 : c.toNat ≤ 57 := hd.2
    have h3 : (UInt8.ofNat c.toNat).toNat = c.toNat := by
      rw [UInt8.toNat_ofNat']
      omega
    omega
  simp only [decimal, lit, List.mem_map] at h
  obtain ⟨c, hc, rfl⟩ := h
  cases n with
  | ofNat m =>
    have hs : toString (Int.ofNat m) = String.ofList (Nat.toDigits 10 m) := rfl
    rw [hs, String.toList_ofList] at hc
    exact Or.inr (hdigit m c hc)
  | negSucc m =>
    have hs : toString (Int.negSucc m) = "-" ++ String.ofList (Nat.toDigits 10 (m + 1)) := rfl
    rw [hs, String.toList_append, List.mem_append] at hc
    rcases hc with hc | hc
    · obtain rfl : c = '-' := by simpa using hc
      exact Or.inl (by decide)
    · rw [String.toList_ofList] at hc
      exact Or.inr (hdigit (m + 1) c hc)

theorem zero_notMem_decimal (n : ℤ) : (0 : UInt8) ∉ decimal n := by
  intro h
  have := mem_decimal h
  rw [UInt8.toNat_zero] at this
  omega

theorem decimal_ne_nil (n : ℤ) : decimal n ≠ [] := by
  simp only [decimal, lit, ne_eq, List.map_eq_nil_iff]
  cases n with
  | ofNat m =>
    have hs : toString (Int.ofNat m) = String.ofList (Nat.toDigits 10 m) := rfl
    rw [hs, String.toList_ofList]
    exact Nat.toDigits_ne_nil
  | negSucc m =>
    have hs : toString (Int.negSucc m) = "-" ++ String.ofList (Nat.toDigits 10 (m + 1)) := rfl
    rw [hs, String.toList_append]
    exact List.append_ne_nil_of_left_ne_nil (by simp) _

end OcppServer
