import Mathlib.Data.List.Basic
import Mathlib.Logic.Function.Basic
import Mathlib.Tactic.Common

/-!
# UTF-16

A character is one code unit, or a surrogate pair if it lies beyond the first plane. The first unit
of a pair is no character's only unit, so the units of a text determine it, and `decode` finds it.
-/

namespace Utf16

/-- The one code unit of a character in the first plane. -/
def unit (c : Char) : UInt16 := UInt16.ofNat c.toNat

/-- The code units of a character. -/
def units (c : Char) : List UInt16 :=
  if c.toNat < 0x10000 then [UInt16.ofNat c.toNat]
  else [UInt16.ofNat (0xD800 + (c.toNat - 0x10000) / 0x400),
    UInt16.ofNat (0xDC00 + (c.toNat - 0x10000) % 0x400)]

def encode (cs : List Char) : List UInt16 := cs.flatMap units

@[simp] theorem encode_cons (c : Char) (cs : List Char) :
    encode (c :: cs) = units c ++ encode cs := List.flatMap_cons ..

theorem units_ne_nil (c : Char) : units c ≠ [] := by
  unfold units
  split_ifs <;> simp

theorem Char.scalar (c : Char) : c.toNat < 0xD800 ∨ 0xDFFF < c.toNat ∧ c.toNat < 0x110000 := c.valid

theorem ofNat_inj {m n : ℕ} (hm : m < 0x10000) (hn : n < 0x10000) :
    UInt16.ofNat m = UInt16.ofNat n ↔ m = n := by
  rw [← UInt16.toNat_inj, UInt16.toNat_ofNat', UInt16.toNat_ofNat']
  omega

/-- Texts that begin with the same units begin with the same character. -/
theorem units_append_inj {c d : Char} {us vs : List UInt16} (h : units c ++ us = units d ++ vs) :
    c = d ∧ us = vs := by
  have hc := Char.scalar c
  have hd := Char.scalar d
  unfold units at h
  split_ifs at h with h1 h2 h2
  · obtain ⟨h0, hs⟩ := List.cons.inj h
    rw [ofNat_inj h1 h2] at h0
    exact ⟨Char.toNat_inj.1 h0, hs⟩
  · -- A character's only unit is no surrogate.
    have h0 := (List.cons.inj h).1
    rw [ofNat_inj h1 (by omega)] at h0
    omega
  · have h0 := (List.cons.inj h).1
    rw [ofNat_inj (by omega) h2] at h0
    omega
  · obtain ⟨h0, hs⟩ := List.cons.inj h
    obtain ⟨h0', hs⟩ := List.cons.inj hs
    rw [ofNat_inj (by omega) (by omega)] at h0 h0'
    refine ⟨Char.toNat_inj.1 ?_, hs⟩
    omega

theorem encode_injective : Function.Injective encode := by
  intro cs
  induction cs with
  | nil =>
    intro ds h
    rcases ds with _ | ⟨d, ds⟩
    · rfl
    · rw [encode_cons] at h
      exact absurd (List.append_eq_nil_iff.1 h.symm).1 (units_ne_nil d)
  | cons c cs ih =>
    intro ds h
    rcases ds with _ | ⟨d, ds⟩
    · rw [encode_cons] at h
      exact absurd (List.append_eq_nil_iff.1 h).1 (units_ne_nil c)
    · rw [encode_cons, encode_cons] at h
      obtain ⟨rfl, hrest⟩ := units_append_inj h
      rw [ih hrest]

/-- The characters of a row of code units, if no surrogate in it is alone. -/
def decode : List UInt16 → Option (List Char)
  | [] => some []
  | u :: us =>
    if u.toNat < 0xD800 ∨ 0xDFFF < u.toNat then (decode us).map (Char.ofNat u.toNat :: ·)
    else
      match us with
      | [] => none
      | v :: us =>
        if u.toNat < 0xDC00 ∧ 0xDC00 ≤ v.toNat ∧ v.toNat ≤ 0xDFFF then
          (decode us).map
            (Char.ofNat (0x10000 + (u.toNat - 0xD800) * 0x400 + (v.toNat - 0xDC00)) :: ·)
        else none

theorem decode_units (c : Char) (us : List UInt16) :
    decode (units c ++ us) = (decode us).map (c :: ·) := by
  have hc := Char.scalar c
  unfold units
  split_ifs with h1
  · have hu : (UInt16.ofNat c.toNat).toNat = c.toNat := by
      rw [UInt16.toNat_ofNat']
      omega
    rw [List.singleton_append, decode.eq_def]
    simp only [hu, if_pos (show c.toNat < 0xD800 ∨ 0xDFFF < c.toNat by omega), Char.ofNat_toNat]
  · have hu : (UInt16.ofNat (0xD800 + (c.toNat - 0x10000) / 0x400)).toNat
        = 0xD800 + (c.toNat - 0x10000) / 0x400 := by
      rw [UInt16.toNat_ofNat']
      omega
    have hv : (UInt16.ofNat (0xDC00 + (c.toNat - 0x10000) % 0x400)).toNat
        = 0xDC00 + (c.toNat - 0x10000) % 0x400 := by
      rw [UInt16.toNat_ofNat']
      omega
    have hval : 0x10000 + (0xD800 + (c.toNat - 0x10000) / 0x400 - 0xD800) * 0x400
        + (0xDC00 + (c.toNat - 0x10000) % 0x400 - 0xDC00) = c.toNat := by omega
    rw [List.cons_append, List.singleton_append, decode.eq_def]
    simp only [hu, hv]
    rw [if_neg (by omega), if_pos (by omega), hval, Char.ofNat_toNat]

theorem decode_encode (cs : List Char) : decode (encode cs) = some cs := by
  induction cs with
  | nil => rfl
  | cons c cs ih =>
    rw [encode_cons, decode_units, ih]
    rfl

end Utf16
