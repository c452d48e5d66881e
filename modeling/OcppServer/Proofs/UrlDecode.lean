import OcppServer.UrlDecode

/-!
# Escapes and what passes for one

A form encoding is decoded to what it encodes: the induction is on the encoding, and the loop
stands behind what was decoded already (`urlDecodeLoop_encoding`). A `%` without its two digits is
kept, unless the formatted extraction finds a number all the same: behind a first digit it stops
at any byte, and before the second it passes over a blank or a sign (`Misread`).
-/

namespace OcppServer

/-- `e` writes `b`: a byte as itself, as an escape, or a space as `+`. -/
inductive FormEncoding : Bytes → Bytes → Prop
  | nil : FormEncoding [] []
  | plain {c : UInt8} {e b : Bytes} : c ≠ '%'.toUInt8 → c ≠ '+'.toUInt8 → FormEncoding e b →
      FormEncoding (c :: e) (c :: b)
  | escape {high low : UInt8} {m n : ℕ} {e b : Bytes} : hexDigit? high = some m →
      hexDigit? low = some n → FormEncoding e b →
      FormEncoding ('%'.toUInt8 :: high :: low :: e) (UInt8.ofNat (16 * m + n) :: b)
  | plus {e b : Bytes} : FormEncoding e b → FormEncoding ('+'.toUInt8 :: e) (' '.toUInt8 :: b)

/-- Two digits stand at the head. -/
def IsHexPair : Bytes → Prop
  | a :: b :: _ => (hexDigit? a).isSome ∧ (hexDigit? b).isSome
  | _ => False

instance : (s : Bytes) → Decidable (IsHexPair s)
  | [] | [_] => .isFalse id
  | _ :: _ :: _ => inferInstanceAs (Decidable (_ ∧ _))

/-- The extraction finds a number in the two bytes, though they are no two digits. -/
def Misread : Bytes → Prop
  | a :: b :: _ =>
    (hexDigit? a).isSome ∧ hexDigit? b = none
        ∧ ¬(a = '0'.toUInt8 ∧ (b = 'x'.toUInt8 ∨ b = 'X'.toUInt8))
      ∨ (IsSpace a ∨ a = '+'.toUInt8 ∨ a = '-'.toUInt8) ∧ (hexDigit? b).isSome
  | _ => False

instance : (s : Bytes) → Decidable (Misread s)
  | [] | [_] => .isFalse id
  | _ :: _ :: _ => inferInstanceAs (Decidable (_ ∨ _))

section Extraction

variable {a b : UInt8}

theorem hexDigit?_cases {d : ℕ} (h : hexDigit? a = some d) :
    (48 ≤ a.toNat ∧ a.toNat ≤ 57 ∧ d = a.toNat - 48)
      ∨ (65 ≤ a.toNat ∧ a.toNat ≤ 70 ∧ d = a.toNat - 55)
      ∨ (97 ≤ a.toNat ∧ a.toNat ≤ 102 ∧ d = a.toNat - 87) := by
  unfold hexDigit? at h
  split_ifs at h <;> simp only [Option.some.injEq] at h <;> omega

theorem toNat_ne_of_hexDigit {d : ℕ} (h : hexDigit? a = some d) :
    ¬IsSpace a ∧ a.toNat ≠ 45 ∧ a.toNat ≠ 43 := by
  have := hexDigit?_cases h
  unfold IsSpace
  omega

theorem not_digit_of_not_range (h : a.toNat < 48 ∨ 102 < a.toNat) : hexDigit? a = none := by
  unfold hexDigit?
  split_ifs <;> first | rfl | omega

theorem extractSigned_of_unsigned {s : Bytes} (h45 : a.toNat ≠ 45) (h43 : a.toNat ≠ 43) :
    extractSigned (a :: s) = (extractMagnitude (a :: s)).map fun n : ℕ => (n : ℤ) := by
  simp only [extractSigned, if_neg h45, if_neg h43]

theorem extractMagnitude_singleton : extractMagnitude [b] = hexDigit? b := by
  simp only [extractMagnitude, extractDigits]
  rcases hexDigit? b with _ | d <;> simp

/-- Two bytes that do not begin with a blank or a sign. -/
theorem extractHex_unsigned (h : ¬IsSpace a) (h45 : a.toNat ≠ 45) (h43 : a.toNat ≠ 43) :
    extractHex [a, b] = (extractMagnitude [a, b]).map fun n : ℕ => (n : ℤ) := by
  rw [extractHex, List.dropWhile_cons_of_neg (by simpa using h), extractSigned_of_unsigned h45 h43]

/-- Two digits are read as the number they write. -/
theorem extractHex_pair {m n : ℕ} (ha : hexDigit? a = some m) (hb : hexDigit? b = some n) :
    extractHex [a, b] = some ((16 * m + n : ℕ) : ℤ) := by
  obtain ⟨hspace, h45, h43⟩ := toNat_ne_of_hexDigit ha
  have hx : ¬(a.toNat = 48 ∧ (b.toNat = 120 ∨ b.toNat = 88)) := by
    have := hexDigit?_cases hb
    omega
  rw [extractHex_unsigned hspace h45 h43, extractMagnitude, if_neg hx]
  simp only [extractDigits, ha, hb, Option.getD_none, mul_zero, zero_add, Option.getD_some]
  rfl

/-- A digit alone is read as itself, whatever follows it; but a `0x` leads to nothing. -/
theorem extractHex_digit {m : ℕ} (ha : hexDigit? a = some m) (hb : hexDigit? b = none) :
    extractHex [a, b]
      = if a.toNat = 48 ∧ (b.toNat = 120 ∨ b.toNat = 88) then none else some (m : ℤ) := by
  obtain ⟨hspace, h45, h43⟩ := toNat_ne_of_hexDigit ha
  rw [extractHex_unsigned hspace h45 h43, extractMagnitude]
  split
  · rfl
  · simp only [extractDigits, ha, hb, Option.getD_none, mul_zero, zero_add]
    rfl

/-- Behind a blank the second byte is read alone. -/
theorem extractHex_space (ha : IsSpace a) :
    extractHex [a, b] = (hexDigit? b).map fun n : ℕ => (n : ℤ) := by
  rw [extractHex, List.dropWhile_cons_of_pos (by simpa using ha)]
  by_cases hb : IsSpace b
  · rw [List.dropWhile_cons_of_pos (by simpa using hb), not_digit_of_not_range ?_]
    · rfl
    · unfold IsSpace at hb
      omega
  · rw [List.dropWhile_cons_of_neg (by simpa using hb)]
    by_cases hsign : b.toNat = 45 ∨ b.toNat = 43
    · rw [not_digit_of_not_range (by omega)]
      rcases hsign with h | h <;> simp [extractSigned, extractMagnitude, extractDigits, h]
    · rw [extractSigned_of_unsigned (by omega) (by omega), extractMagnitude_singleton]

/-- Behind a sign the second byte is read alone, and may be negated. -/
theorem extractHex_sign (ha : a.toNat = 45 ∨ a.toNat = 43) :
    extractHex [a, b]
      = (hexDigit? b).map fun d : ℕ => if a.toNat = 45 then -(d : ℤ) else (d : ℤ) := by
  have hspace : ¬IsSpace a := by
    unfold IsSpace
    omega
  rw [extractHex, List.dropWhile_cons_of_neg (by simpa using hspace), extractSigned,
    extractMagnitude_singleton]
  rcases ha with h | h
  · simp only [h, if_true]
  · simp only [h, Nat.reduceEqDiff, if_false, if_true]

theorem extractHex_none (h : ¬IsSpace a) (h45 : a.toNat ≠ 45) (h43 : a.toNat ≠ 43)
    (ha : hexDigit? a = none) : extractHex [a, b] = none := by
  have h0 : ¬(a.toNat = 48 ∧ (b.toNat = 120 ∨ b.toNat = 88)) := by
    rintro ⟨h0, -⟩
    simp [hexDigit?, h0] at ha
  rw [extractHex_unsigned h h45 h43, extractMagnitude, if_neg h0]
  simp [extractDigits, ha]

/-- Of two bytes that are no two digits a number is read exactly when they are misread. -/
theorem extractHex_eq_none_iff {rest : Bytes} (hne : ¬IsHexPair (a :: b :: rest)) :
    extractHex [a, b] = none ↔ ¬Misread (a :: b :: rest) := by
  simp only [IsHexPair, Misread, ← UInt8.toNat_inj] at hne ⊢
  have hchars : ('0'.toUInt8).toNat = 48 ∧ ('x'.toUInt8).toNat = 120 ∧ ('X'.toUInt8).toNat = 88
      ∧ ('+'.toUInt8).toNat = 43 ∧ ('-'.toUInt8).toNat = 45 := by decide
  obtain ⟨h0, hx, hX, hplus, hminus⟩ := hchars
  rw [h0, hx, hX, hplus, hminus]
  rcases ha : hexDigit? a with _ | m
  · by_cases hspace : IsSpace a
    · rw [extractHex_space hspace]
      rcases hexDigit? b with _ | n <;> simp [hspace]
    · by_cases hsign : a.toNat = 45 ∨ a.toNat = 43
      · rw [extractHex_sign hsign]
        rcases hexDigit? b with _ | n <;> simp [hsign.symm]
      · rw [extractHex_none hspace (by omega) (by omega) ha]
        simp [hspace, not_or.1 hsign]
  · obtain ⟨hspace, h45, h43⟩ := toNat_ne_of_hexDigit ha
    have hb : hexDigit? b = none := by simpa [ha] using hne
    rw [extractHex_digit ha hb]
    by_cases hx : a.toNat = 48 ∧ (b.toNat = 120 ∨ b.toNat = 88)
    · simp [hspace, hx]
    · rw [if_neg hx]
      simp only [reduceCtorEq, hb, Option.isSome_some, hx, false_iff, not_not, not_false_eq_true,
        and_self, true_or]

end Extraction

section Loop

variable {encoded : Bytes}

theorem ofInt_natCast (n : ℕ) : UInt8.ofInt n = UInt8.ofNat n := by
  have h : ((n : ℤ) % 2 ^ 8).toNat = n % 2 ^ 8 := by omega
  rw [UInt8.ofInt, h, ← UInt8.toNat_inj]
  simp

theorem urlDecodeLoop_of_lt {loop : UrlDecodeLoop} (h : loop.i < encoded.length) :
    urlDecodeLoop encoded loop = urlDecodeLoop encoded (urlDecodeStep encoded loop) := by
  rw [urlDecodeLoop, if_pos h]

theorem urlDecodeLoop_end {loop : UrlDecodeLoop} (h : encoded.length ≤ loop.i) :
    urlDecodeLoop encoded loop = loop.result := by
  rw [urlDecodeLoop, if_neg (by omega)]

theorem UrlDecodeLoop.Reached.urlDecode_eq {loop : UrlDecodeLoop} (h : Reached encoded loop) :
    urlDecode encoded = urlDecodeLoop encoded loop := by
  induction h with
  | start => rfl
  | step _ hlt ih => rw [ih, urlDecodeLoop_of_lt hlt]

/-- At a `%` the extraction of the next two bytes decides, where there are two. -/
theorem urlDecodeStep_percent {loop : UrlDecodeLoop} (h : encoded[loop.i]? = some '%'.toUInt8) :
    urlDecodeStep encoded loop =
      match encoded.drop (loop.i + 1) with
      | a :: b :: _ =>
        match extractHex [a, b] with
        | some value => ⟨loop.i + 3, loop.result ++ [UInt8.ofInt value]⟩
        | none => ⟨loop.i + 1, loop.result ++ ['%'.toUInt8]⟩
      | _ => ⟨loop.i + 1, loop.result ++ ['%'.toUInt8]⟩ := by
  have hlen : (encoded.drop (loop.i + 1)).length = encoded.length - (loop.i + 1) :=
    List.length_drop
  have hplus : '%'.toUInt8 ≠ '+'.toUInt8 := by decide
  simp only [urlDecodeStep, h, true_and, if_neg hplus]
  rcases hd : encoded.drop (loop.i + 1) with _ | ⟨a, _ | ⟨b, rest⟩⟩
  · rw [if_neg (by rw [hd, List.length_nil] at hlen; omega)]
  · rw [if_neg (by rw [hd, List.length_singleton] at hlen; omega)]
  · rw [if_pos (by rw [hd, List.length_cons, List.length_cons] at hlen; omega)]
    have htake : (a :: b :: rest).take 2 = [a, b] := rfl
    rcases hx : extractHex [a, b] with _ | value
    · simp only [htake, hx]
    · simp only [htake, hx]

theorem urlDecodeStep_plain {loop : UrlDecodeLoop} {c : UInt8} (h : encoded[loop.i]? = some c)
    (hpercent : c ≠ '%'.toUInt8) (hplus : c ≠ '+'.toUInt8) :
    urlDecodeStep encoded loop = ⟨loop.i + 1, loop.result ++ [c]⟩ := by
  simp only [urlDecodeStep, h, hpercent, false_and, if_false, if_neg hplus]

theorem urlDecodeStep_plus {loop : UrlDecodeLoop} (h : encoded[loop.i]? = some '+'.toUInt8) :
    urlDecodeStep encoded loop = ⟨loop.i + 1, loop.result ++ [' '.toUInt8]⟩ := by
  have hpercent : '+'.toUInt8 ≠ '%'.toUInt8 := by decide
  simp only [urlDecodeStep, h, hpercent, false_and, if_false, if_true]

/-- Behind what was decoded already, the rest of an encoding adds what it encodes. -/
theorem urlDecodeLoop_encoding {e b : Bytes} (h : FormEncoding e b) :
    ∀ pre result : Bytes, urlDecodeLoop (pre ++ e) ⟨pre.length, result⟩ = result ++ b := by
  induction h with
  | nil =>
    intro pre result
    rw [urlDecodeLoop_end (by simp), List.append_nil]
  | @plain c e b hpercent hplus _ ih =>
    intro pre result
    rw [urlDecodeLoop_of_lt (by simp), urlDecodeStep_plain (c := c) (by simp) hpercent hplus]
    have := ih (pre ++ [c]) (result ++ [c])
    simpa using this
  | @escape high low m n e b hh hl _ ih =>
    intro pre result
    rw [urlDecodeLoop_of_lt (by simp), urlDecodeStep_percent (by simp)]
    have hdrop : (pre ++ '%'.toUInt8 :: high :: low :: e).drop (pre.length + 1)
        = high :: low :: e := by
      simp [List.drop_append]
    simp only [hdrop, extractHex_pair hh hl, ofInt_natCast]
    have := ih (pre ++ ['%'.toUInt8, high, low]) (result ++ [UInt8.ofNat (16 * m + n)])
    simpa using this
  | plus _ ih =>
    intro pre result
    rw [urlDecodeLoop_of_lt (by simp), urlDecodeStep_plus (by simp)]
    have := ih (pre ++ ['+'.toUInt8]) (result ++ [' '.toUInt8])
    simpa using this

/-- Decoding undoes every encoding. -/
theorem urlDecode_encoding {e b : Bytes} (h : FormEncoding e b) : urlDecode e = b := by
  have := urlDecodeLoop_encoding h [] []
  simpa [urlDecode] using this

theorem urlDecode_mixed : urlDecode (lit "a%2B+%c3%A9") = lit "a+ " ++ [0xC3, 0xA9] :=
  urlDecode_encoding <|
    .plain (by decide) (by decide) <| .escape (m := 2) (n := 11) rfl rfl <| .plus <|
      .escape (m := 12) (n := 3) rfl rfl <| .escape (m := 10) (n := 9) rfl rfl .nil

/-- The turn at a `%` without its two digits puts out the `%` and goes on behind it, unless the
two bytes there are misread. -/
theorem urlDecodeStep_percent_iff {loop : UrlDecodeLoop}
    (h : encoded[loop.i]? = some '%'.toUInt8) (hne : ¬IsHexPair (encoded.drop (loop.i + 1))) :
    urlDecodeStep encoded loop = ⟨loop.i + 1, loop.result ++ ['%'.toUInt8]⟩
      ↔ ¬Misread (encoded.drop (loop.i + 1)) := by
  rw [urlDecodeStep_percent h]
  rcases hd : encoded.drop (loop.i + 1) with _ | ⟨a, _ | ⟨b, rest⟩⟩
  · simp [Misread]
  · simp [Misread]
  · rw [hd] at hne
    rw [← extractHex_eq_none_iff hne]
    rcases hx : extractHex [a, b] with _ | value <;> simp [hx]

/-- A `%` that is reached without its two digits is kept, and decoding goes on with the byte
behind it, exactly where the two bytes that follow are not misread. -/
theorem percent_kept_iff {loop : UrlDecodeLoop} (hr : loop.Reached encoded)
    (h : encoded[loop.i]? = some '%'.toUInt8) (hne : ¬IsHexPair (encoded.drop (loop.i + 1))) :
    (urlDecodeStep encoded loop = ⟨loop.i + 1, loop.result ++ ['%'.toUInt8]⟩
        ∧ urlDecode encoded
          = urlDecodeLoop encoded ⟨loop.i + 1, loop.result ++ ['%'.toUInt8]⟩)
      ↔ ¬Misread (encoded.drop (loop.i + 1)) := by
  rw [← urlDecodeStep_percent_iff h hne, and_iff_left_of_imp]
  intro hstep
  have hlt : loop.i < encoded.length := (List.getElem?_eq_some_iff.1 h).1
  rw [hr.urlDecode_eq, urlDecodeLoop_of_lt hlt, hstep]

theorem percent_kept_before_letters :
    urlDecodeStep (lit "%zz") ⟨0, []⟩ = ⟨1, ['%'.toUInt8]⟩
      ∧ urlDecode (lit "%zz") = urlDecodeLoop (lit "%zz") ⟨1, ['%'.toUInt8]⟩ :=
  (percent_kept_iff .start (by decide) (by decide)).2 (by decide)

theorem percent_swallows_letter :
    UrlDecodeLoop.Reached (lit "%4g") ⟨0, []⟩ ∧ (lit "%4g")[0]? = some '%'.toUInt8
      ∧ ¬IsHexPair ((lit "%4g").drop 1)
      ∧ urlDecodeStep (lit "%4g") ⟨0, []⟩ ≠ ⟨1, ['%'.toUInt8]⟩
      ∧ urlDecode (lit "%4g") = [4] := by
  refine ⟨.start, by decide, by decide, by decide, ?_⟩
  have hstep : urlDecodeStep (lit "%4g") ⟨0, []⟩ = ⟨3, [4]⟩ := by decide
  rw [urlDecode, urlDecodeLoop_of_lt (by decide), hstep, urlDecodeLoop_end (by decide)]

end Loop

end OcppServer
