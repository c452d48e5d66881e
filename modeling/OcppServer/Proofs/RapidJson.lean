import OcppServer.JsonGrammar

/-!
# What RapidJSON reads, and that it reads what it writes

A text of the grammar is read to its value: a string unit by unit, a number because what follows it
ends it, then a document by induction on its values. The bound the reader is given is twice the
length of the text, which covers the two calls that each value of an array costs. What the writer
leaves of a document is a text of the grammar, so it is read back.
-/

namespace OcppServer

namespace RapidJson

open JsonGrammar

/-! ## Strings -/

theorem parseHex4_hex4 {x : Bytes} {n : ℕ} (h : Hex4 x n) (t : Bytes) :
    parseHex4 (x ++ t) = some (n, t) := by
  obtain ⟨a, b, c, d, a', b', c', d', rfl, ha, hb, hc, hd, rfl⟩ := h
  simp [parseHex4, ha, hb, hc, hd]

theorem parseEscape_unicode (s : Bytes) : parseEscape (117 :: s) = parseUnicode s := by
  rw [parseEscape, show escaped? 117 = none by decide]
  rfl

/-- Behind the opening quote the characters are read up to the next one. -/
theorem parseStringToStream_chars {raw v : Bytes} (h : Chars raw v) (t : Bytes) :
    ∀ {n : ℕ}, raw.length < n → parseStringToStream n (raw ++ 34 :: t) = .ok (v, t) := by
  induction h with
  | nil =>
    intro n hn
    obtain ⟨n, rfl⟩ := Nat.exists_eq_add_of_lt hn
    rfl
  | @unescaped s v c h92 h34 h32 _ ih =>
    intro n hn
    obtain ⟨n, rfl⟩ := Nat.exists_eq_succ_of_ne_zero (by omega : n ≠ 0)
    have h0 : c ≠ 0 := by
      rintro rfl
      exact h32 (by decide)
    rw [List.cons_append, parseStringToStream, if_neg h92, if_neg h34, if_neg h0, if_neg h32,
      ih (by simpa using hn)]
    rfl
  | @escape s v c d hc _ ih =>
    intro n hn
    obtain ⟨n, rfl⟩ := Nat.exists_eq_succ_of_ne_zero (by omega : n ≠ 0)
    rw [List.length_cons, List.length_cons] at hn
    rw [List.cons_append, List.cons_append, parseStringToStream, if_pos rfl, parseEscape, hc]
    simp only [ih (by omega : _ < n)]
    rfl
  | @unicode x s v m hx hm _ ih =>
    intro n hn
    obtain ⟨n, rfl⟩ := Nat.exists_eq_succ_of_ne_zero (by omega : n ≠ 0)
    rw [List.length_cons, List.length_cons, List.length_append] at hn
    rw [List.cons_append, List.cons_append, List.append_assoc, parseStringToStream, if_pos rfl,
      parseEscape_unicode, parseUnicode, parseHex4_hex4 hx]
    simp only [if_neg hm, ih (by omega : _ < n)]
    rfl
  | @surrogates x y s v hi lo hx hy hhi hlo _ ih =>
    intro n hn
    obtain ⟨n, rfl⟩ := Nat.exists_eq_succ_of_ne_zero (by omega : n ≠ 0)
    simp only [List.length_cons, List.length_append] at hn
    rw [List.cons_append, List.cons_append, List.append_assoc, List.cons_append, List.cons_append,
      List.append_assoc, parseStringToStream, if_pos rfl, parseEscape_unicode, parseUnicode,
      parseHex4_hex4 hx]
    simp only [if_pos (by omega : 0xD800 ≤ hi ∧ hi ≤ 0xDFFF), if_pos hhi.2, parseHex4_hex4 hy,
      if_neg (by omega : ¬ (lo < 0xDC00 ∨ lo > 0xDFFF)), ih (by omega : _ < n)]
    rfl

/-- With the bound that `parseValue` and `parseMembers` give. -/
theorem parseStringToStream_quoted {raw v : Bytes} (h : Chars raw v) (t : Bytes) :
    parseStringToStream ((raw ++ 34 :: t).length + 1) (raw ++ 34 :: t) = .ok (v, t) :=
  parseStringToStream_chars h t (by rw [List.length_append, List.length_cons]; omega)

/-! ## Numbers -/

/-- What ends a number: neither a digit nor what a fraction or an exponent begins with. -/
def Stops (t : Bytes) : Prop :=
  ∀ c, t.head? = some c → isDigit c = false ∧ c ≠ 46 ∧ c ≠ 101 ∧ c ≠ 69

theorem stops_nil : Stops [] := by simp [Stops]

theorem stops_cons {c : UInt8} {t : Bytes} (h : isDigit c = false ∧ c ≠ 46 ∧ c ≠ 101 ∧ c ≠ 69) :
    Stops (c :: t) := by
  rintro d hd
  obtain rfl := Option.some.inj hd
  exact h

theorem takeWhile_digits {s t : Bytes} (hs : s.all isDigit = true)
    (ht : ∀ c, t.head? = some c → isDigit c = false) :
    (s ++ t).takeWhile isDigit = s ∧ (s ++ t).dropWhile isDigit = t := by
  rw [List.all_eq_true] at hs
  rw [List.takeWhile_append_of_pos hs, List.dropWhile_append_of_pos hs]
  rcases t with _ | ⟨c, t⟩
  · simp
  · have hc := ht c rfl
    exact ⟨by simp [hc], by simp [hc]⟩

theorem parseFraction_stops {t : Bytes} (h : t.head? ≠ some 46) :
    parseFraction t = .ok (false, t) := by
  unfold parseFraction
  split
  · simp at h
  · rfl

theorem parseFraction_append {s t : Bytes} (hs : IsFraction s)
    (ht : ∀ c, t.head? = some c → isDigit c = false) :
    parseFraction (s ++ t) = .ok (true, t) := by
  obtain ⟨ds, rfl, hne, hall⟩ := hs
  obtain ⟨htake, hdrop⟩ := takeWhile_digits hall ht
  rw [List.cons_append, parseFraction, htake, hdrop, if_neg (by simpa using hne)]

theorem parseExponent_stops {t : Bytes} (h : ∀ c, t.head? = some c → c ≠ 101 ∧ c ≠ 69) :
    parseExponent t = .ok (false, t) := by
  rcases t with _ | ⟨c, t⟩
  · rfl
  · obtain ⟨h1, h2⟩ := h c rfl
    rw [parseExponent, if_neg (by simp [h1, h2])]

theorem skipSign_append {sign ds : Bytes} (hsign : sign = [] ∨ sign = [43] ∨ sign = [45])
    (hne : ds ≠ []) (hall : ds.all isDigit = true) (t : Bytes) :
    skipSign (sign ++ (ds ++ t)) = ds ++ t := by
  rcases hsign with rfl | rfl | rfl
  · -- Without a sign the digits begin with neither `+` nor `-`.
    obtain ⟨d, ds, rfl⟩ := List.exists_cons_of_ne_nil hne
    have hd : isDigit d = true := (List.all_eq_true.1 hall) d (by simp)
    rw [List.nil_append, List.cons_append]
    unfold skipSign
    split
    · rename_i heq
      rw [(List.cons.inj heq).1] at hd
      exact absurd hd (by decide)
    · rename_i heq
      rw [(List.cons.inj heq).1] at hd
      exact absurd hd (by decide)
    · rfl
  · rfl
  · rfl

theorem parseExponent_append {s t : Bytes} (hs : IsExponent s)
    (ht : ∀ c, t.head? = some c → isDigit c = false) :
    parseExponent (s ++ t) = .ok (true, t) := by
  obtain ⟨e, sign, ds, rfl, he, hsign, hne, hall⟩ := hs
  obtain ⟨htake, hdrop⟩ := takeWhile_digits hall ht
  rw [List.cons_append, parseExponent, if_pos he, List.append_assoc]
  simp only [skipSign_append hsign hne hall, htake, hdrop]
  rw [if_neg (by simpa using hne)]

variable (num : Numbers)

/-- A number is read to its end, with the value of its integer part. -/
theorem parseUnsigned_append {minus : Bool} {s int frac exp t : Bytes} (hint : IsInteger int)
    (hfrac : frac = [] ∨ IsFraction frac) (hexp : exp = [] ∨ IsExponent exp) (ht : Stops t) :
    parseUnsigned num minus s (int ++ (frac ++ (exp ++ t)))
      = numberOf num (if minus then -(digitsValue int : ℤ) else digitsValue int)
        (frac.isEmpty && exp.isEmpty) s t := by
  have hnot : ∀ c, t.head? = some c → isDigit c = false := fun c hc => (ht c hc).1
  -- Behind the digits of the fraction stands the exponent or the end.
  have hexpHead : ∀ c, (exp ++ t).head? = some c → isDigit c = false := by
    intro c hc
    rcases hexp with rfl | ⟨e, sign, ds, rfl, he, -⟩
    · exact hnot c hc
    · obtain rfl : e = c := by simpa using hc
      rcases he with rfl | rfl <;> decide
  have hfracHead : ∀ c, (frac ++ (exp ++ t)).head? = some c → isDigit c = false := by
    intro c hc
    rcases hfrac with rfl | ⟨ds, rfl, -⟩
    · exact hexpHead c hc
    · obtain rfl : (46 : UInt8) = c := by simpa using hc
      decide
  have hf : parseFraction (frac ++ (exp ++ t)) = .ok (!frac.isEmpty, exp ++ t) := by
    rcases hfrac with rfl | hfrac
    · refine parseFraction_stops fun h46 => ?_
      rcases hexp with rfl | ⟨e, sign, ds, rfl, he, -⟩
      · exact (ht 46 h46).2.1 rfl
      · obtain rfl : e = 46 := by simpa using h46
        rcases he with he | he <;> exact absurd he (by decide)
    · obtain ⟨ds, rfl, -⟩ := id hfrac
      exact parseFraction_append hfrac hexpHead
  have he : parseExponent (exp ++ t) = .ok (!exp.isEmpty, t) := by
    rcases hexp with rfl | hexp
    · exact parseExponent_stops fun c hc => (ht c hc).2.2
    · obtain ⟨e, sign, ds, rfl, -⟩ := id hexp
      exact parseExponent_append hexp hnot
  rcases hint with rfl | ⟨c, ds, rfl, h48, hc, hds⟩
  · have hd : isDigit 48 = true := by decide
    rw [List.singleton_append, parseUnsigned, if_pos hd]
    simp only [if_true, hf, he, Bool.not_not]
  · obtain ⟨htake, hdrop⟩ := takeWhile_digits hds hfracHead
    rw [List.cons_append, parseUnsigned, if_pos hc]
    simp only [if_neg h48, htake, hdrop, hf, he, Bool.not_not]

/-- A whole number text, with its sign. -/
theorem parseNumber_append {minus int frac exp t : Bytes} (hminus : minus = [] ∨ minus = [45])
    (hint : IsInteger int) (hfrac : frac = [] ∨ IsFraction frac) (hexp : exp = [] ∨ IsExponent exp)
    (ht : Stops t) :
    parseNumber num (minus ++ (int ++ (frac ++ (exp ++ t))))
      = numberOf num (if minus = [] then (digitsValue int : ℤ) else -digitsValue int)
        (frac.isEmpty && exp.isEmpty) (minus ++ (int ++ (frac ++ (exp ++ t)))) t := by
  rcases hminus with rfl | rfl
  · -- The integer part begins with a digit, not with the sign.
    have hhead : ∃ c u, int ++ (frac ++ (exp ++ t)) = c :: u ∧ c ≠ 45 := by
      rcases hint with rfl | ⟨c, ds, rfl, -, hc, -⟩
      · exact ⟨48, _, rfl, by decide⟩
      · refine ⟨c, _, rfl, ?_⟩
        rintro rfl
        exact absurd hc (by decide)
    obtain ⟨c, u, hcu, hc⟩ := hhead
    have hpos : parseNumber num (c :: u) = parseUnsigned num false (c :: u) (c :: u) := by
      unfold parseNumber
      split
      · rename_i heq
        exact absurd (List.cons.inj heq).1 hc
      · rfl
    rw [List.nil_append, hcu, hpos, ← hcu, parseUnsigned_append num hint hfrac hexp ht]
    simp
  · rw [List.singleton_append, parseNumber, parseUnsigned_append num hint hfrac hexp ht]
    simp

theorem digitsValue_toDigits (m : ℕ) :
    digitsValue ((Nat.toDigits 10 m).map fun c => UInt8.ofNat c.toNat) = m := by
  have hfold : ∀ (l : List Char) (k : ℕ), (∀ c ∈ l, c.isDigit = true) →
      (l.map fun c => UInt8.ofNat c.toNat).foldl (fun n c => n * 10 + (c.toNat - 48)) k
        = Nat.ofDigitChars 10 l k := by
    intro l
    induction l with
    | nil => simp
    | cons c l ih =>
      intro k h
      have hc := h c (by simp)
      simp only [Char.isDigit, Bool.and_eq_true, decide_eq_true_eq, UInt32.le_iff_toNat_le] at hc
      have h57 : c.toNat ≤ 57 := hc.2
      have hbyte : (UInt8.ofNat c.toNat).toNat = c.toNat := by
        rw [UInt8.toNat_ofNat']
        omega
      rw [List.map_cons, List.foldl_cons, ih _ fun d hd => h d (List.mem_cons_of_mem _ hd),
        Nat.ofDigitChars_cons, hbyte, Nat.mul_comm]
      rfl
  rw [digitsValue, hfold _ _ fun c hc => Nat.isDigit_of_mem_toDigits (by decide) (by decide) hc,
    Nat.ofDigitChars_ten_toDigits]

theorem isDigit_toDigits {m : ℕ} {c : Char} (h : c ∈ Nat.toDigits 10 m) :
    isDigit (UInt8.ofNat c.toNat) = true := by
  have hd := Nat.isDigit_of_mem_toDigits (by decide) (by decide) h
  simp only [Char.isDigit, Bool.and_eq_true, decide_eq_true_eq, UInt32.le_iff_toNat_le] at hd
  have h1 : 48 ≤ c.toNat := hd.1
  have h2 : c.toNat ≤ 57 := hd.2
  simp only [isDigit, Bool.and_eq_true, decide_eq_true_eq, UInt8.le_iff_toNat_le,
    UInt8.toNat_ofNat', UInt8.toNat_ofNat]
  omega

/-- No leading zeros but the number 0. -/
theorem isInteger_toDigits (m : ℕ) :
    IsInteger ((Nat.toDigits 10 m).map fun c => UInt8.ofNat c.toNat) := by
  have hdigit : ∀ d < 10, 0 < d → UInt8.ofNat d.digitChar.toNat ≠ 48 := by decide
  have hhead : ∀ m, 0 < m → ∃ c l, Nat.toDigits 10 m = c :: l ∧ UInt8.ofNat c.toNat ≠ 48 := by
    intro m
    induction m using Nat.strong_induction_on with
    | _ m ih =>
      intro hm
      by_cases hlt : m < 10
      · exact ⟨m.digitChar, [], Nat.toDigits_of_lt_base hlt, hdigit m hlt hm⟩
      · obtain ⟨c, l, hc, hne⟩ := ih (m / 10) (by omega) (by omega)
        rw [Nat.toDigits_of_base_le (by decide) (by omega), hc]
        exact ⟨c, _, rfl, hne⟩
  rcases Nat.eq_zero_or_pos m with rfl | hm
  · exact .inl (by decide)
  · obtain ⟨c, l, hcl, hne⟩ := hhead m hm
    have hc : c ∈ Nat.toDigits 10 m := by simp [hcl]
    refine .inr ⟨_, _, by rw [hcl, List.map_cons], hne, isDigit_toDigits hc, ?_⟩
    rw [List.all_eq_true]
    intro d hd
    obtain ⟨e, he, rfl⟩ := List.mem_map.1 hd
    exact isDigit_toDigits (m := m) (by rw [hcl]; exact List.mem_cons_of_mem _ he)

theorem decimal_eq (n : ℤ) :
    decimal n = (if n < 0 then [45] else [])
      ++ (Nat.toDigits 10 n.natAbs).map fun c => UInt8.ofNat c.toNat := by
  cases n with
  | ofNat m =>
    have hs : toString (Int.ofNat m) = String.ofList (Nat.toDigits 10 m) := rfl
    rw [decimal, lit, hs, String.toList_ofList, if_neg (by simp)]
    rfl
  | negSucc m =>
    have hs : toString (Int.negSucc m) = "-" ++ String.ofList (Nat.toDigits 10 (m + 1)) := rfl
    rw [decimal, lit, hs, String.toList_append, List.map_append, if_pos (by simp)]
    exact congrArg ([45] ++ ·) (congrArg (List.map _) String.toList_ofList)

/-- Whole numbers as `double`s, with the digit the writer always leaves behind the point. -/
def Numbers.whole : Numbers where
  dtoa _ x := decimal x.num ++ lit ".0"
  strtod s := some <| if s.head? = some 45 then -(digitsValue (s.tail.takeWhile isDigit) : ℚ)
    else digitsValue (s.takeWhile isDigit)
  dtoa_text k x := by
    refine ⟨if x.num < 0 then [45] else [], _, lit ".0", [], ?_, by split_ifs <;> simp,
      isInteger_toDigits x.num.natAbs, .inr ⟨[48], by decide, by decide, by decide⟩, .inl rfl,
      .inl (by decide)⟩
    rw [decimal_eq, List.append_assoc, List.append_nil]

theorem decimal_injective : Function.Injective decimal := by
  have hne : ∀ (m : ℕ) (l : Bytes),
      (45 : UInt8) :: l ≠ (Nat.toDigits 10 m).map fun c => UInt8.ofNat c.toNat := by
    intro m l h
    obtain ⟨c, hc, hc45⟩ := List.mem_map.1 (h ▸ List.mem_cons_self)
    have := isDigit_toDigits hc
    rw [hc45] at this
    exact absurd this (by decide)
  intro m n h
  rw [decimal_eq, decimal_eq] at h
  have hm := digitsValue_toDigits m.natAbs
  have hn := digitsValue_toDigits n.natAbs
  split_ifs at h
  · rw [List.append_cancel_left h, hn] at hm
    omega
  · exact absurd h (hne _ _)
  · exact absurd h.symm (hne _ _)
  · rw [List.nil_append, List.nil_append] at h
    rw [h, hn] at hm
    omega

theorem parseNumber_number {s : Bytes} {j : Json} (h : Number num s j) {t : Bytes} (ht : Stops t) :
    parseNumber num (s ++ t) = .ok (j, t) := by
  obtain ⟨minus, int, frac, exp, rfl, hminus, hint, hfrac, hexp, hval⟩ := h
  have happ := parseNumber_append num hminus hint hfrac hexp ht
  simp only [List.append_assoc] at happ ⊢
  dsimp only at hval
  generalize (if minus = [] then (digitsValue int : ℤ) else -digitsValue int) = n at happ hval
  rw [happ, numberOf]
  split_ifs at hval with hn
  · obtain ⟨rfl, rfl, hn⟩ := hn
    rw [if_pos ⟨rfl, hn⟩, hval]
  · obtain ⟨d, hd, rfl⟩ := hval
    have htake : (minus ++ (int ++ (frac ++ (exp ++ t)))).take
        ((minus ++ (int ++ (frac ++ (exp ++ t)))).length - t.length)
        = minus ++ (int ++ (frac ++ exp)) := by
      simp only [← List.append_assoc]
      rw [List.length_append, Nat.add_sub_cancel, List.take_left]
    rw [if_neg, htake, hd]
    rintro ⟨hemp, hn'⟩
    simp only [Bool.and_eq_true, List.isEmpty_iff] at hemp
    exact hn ⟨hemp.1, hemp.2, hn'⟩

/-! ## Documents -/

theorem skipWhitespace_cons {c : UInt8} (h : isWhitespace c = false) (t : Bytes) :
    skipWhitespace (c :: t) = c :: t := by
  rw [skipWhitespace, List.dropWhile_cons, h]
  rfl

theorem skipWhitespace_ws {w : Bytes} (h : Ws w) (t : Bytes) :
    skipWhitespace (w ++ t) = skipWhitespace t := by
  rw [Ws, List.all_eq_true] at h
  exact List.dropWhile_append_of_pos h

/-- White space ends a number, and so do the characters between values. -/
theorem stops_ws {w : Bytes} (h : Ws w) {c : UInt8} (hc : c = 44 ∨ c = 93 ∨ c = 125) (t : Bytes) :
    Stops (w ++ c :: t) := by
  rcases w with _ | ⟨d, w⟩
  · rcases hc with rfl | rfl | rfl <;> exact stops_cons (by decide)
  · have hd : isWhitespace d = true := by
      rw [Ws, List.all_eq_true] at h
      exact h d (by simp)
    simp only [isWhitespace, Bool.or_eq_true, decide_eq_true_eq] at hd
    rcases hd with ((rfl | rfl) | rfl) | rfl <;> exact stops_cons (by decide)

/-- What a number begins with. -/
theorem isInteger_head {minus int : Bytes} (hminus : minus = [] ∨ minus = [45])
    (hint : IsInteger int) (t : Bytes) :
    ∃ c u, minus ++ (int ++ t) = c :: u ∧ (c = 45 ∨ isDigit c = true) := by
  rcases hminus with rfl | rfl
  · rcases hint with rfl | ⟨c, ds, rfl, -, hc, -⟩
    · exact ⟨48, _, rfl, .inr (by decide)⟩
    · exact ⟨c, _, rfl, .inr hc⟩
  · exact ⟨45, _, rfl, .inl rfl⟩

theorem number_head {s : Bytes} {j : Json} (h : Number num s j) :
    ∃ c u, s = c :: u ∧ (c = 45 ∨ isDigit c = true) := by
  obtain ⟨minus, int, frac, exp, rfl, hminus, hint, -⟩ := h
  exact isInteger_head hminus hint (frac ++ exp)

/-- A number is none of the other values. -/
theorem parseValue_number {c : UInt8} (hc : c = 45 ∨ isDigit c = true) (n : ℕ) (t : Bytes) :
    parseValue num (n + 1) (c :: t) = parseNumber num (c :: t) := by
  have hne : ∀ d : UInt8, d ≠ 45 → isDigit d = false → c ≠ d := by
    rintro d h45 hd rfl
    rcases hc with hc | hc
    · exact h45 hc
    · rw [hc] at hd
      cases hd
  rw [parseValue]
  all_goals
    rintro u heq
    exact hne _ (by decide) (by decide) (List.cons.inj heq).1

/-- A value begins neither with white space nor with a closing bracket. -/
theorem value_head {j : Json} {v : Bytes} (h : Value num j v) :
    ∃ c u, v = c :: u ∧ isWhitespace c = false ∧ c ≠ 93 := by
  have hnumber : ∀ c : UInt8, c = 45 ∨ isDigit c = true → isWhitespace c = false ∧ c ≠ 93 := by
    rintro c (rfl | hc)
    · decide
    · simp only [isDigit, Bool.and_eq_true, decide_eq_true_eq, UInt8.le_iff_toNat_le] at hc
      simp only [isWhitespace, Bool.or_eq_false_iff, decide_eq_false_iff_not, ← UInt8.toNat_inj,
        ne_eq]
      simp only [UInt8.toNat_ofNat] at hc ⊢
      omega
  cases j with
  | null =>
    rw [Value] at h
    exact ⟨_, _, h, by decide, by decide⟩
  | bool b =>
    rw [Value] at h
    cases b <;> exact ⟨_, _, h, by decide, by decide⟩
  | int n =>
    rw [Value] at h
    obtain ⟨c, u, hcu, hc⟩ := number_head num h
    exact ⟨c, u, hcu, hnumber c hc⟩
  | double x =>
    rw [Value] at h
    obtain ⟨c, u, hcu, hc⟩ := number_head num h
    exact ⟨c, u, hcu, hnumber c hc⟩
  | string s =>
    rw [Value] at h
    obtain ⟨raw, -, rfl⟩ := h
    exact ⟨_, _, rfl, by decide, by decide⟩
  | array elems =>
    rw [Value] at h
    obtain ⟨w, body, -, rfl, -⟩ := h
    exact ⟨_, _, rfl, by decide, by decide⟩
  | object members =>
    rw [Value] at h
    obtain ⟨w, body, -, rfl, -⟩ := h
    exact ⟨_, _, rfl, by decide, by decide⟩

/-- White space in front of a value is skipped to it. -/
theorem skipWhitespace_value {j : Json} {v : Bytes} (h : Value num j v) {w : Bytes} (hw : Ws w)
    (t : Bytes) : skipWhitespace (w ++ (v ++ t)) = v ++ t := by
  obtain ⟨c, u, rfl, hc, -⟩ := value_head num h
  rw [skipWhitespace_ws hw, List.cons_append, skipWhitespace_cons hc]

theorem elements_head {j : Json} {elems : List Json} {s : Bytes}
    (h : Elements num (j :: elems) s) : ∃ v t, Value num j v ∧ s = v ++ t := by
  rcases elems with _ | ⟨i, elems⟩
  · rw [Elements] at h
    obtain ⟨v, w, hv, -, rfl⟩ := h
    exact ⟨v, w, hv, rfl⟩
  · rw [Elements] at h
    · obtain ⟨v, w, w', t, hv, -, -, -, rfl⟩ := h
      exact ⟨v, _, hv, rfl⟩
    · simp

theorem members_head {m : Bytes × Json} {members : List (Bytes × Json)} {s : Bytes}
    (h : Members num (m :: members) s) : ∃ t, s = 34 :: t := by
  obtain ⟨name, j⟩ := m
  rcases members with _ | ⟨i, members⟩
  · rw [Members] at h
    obtain ⟨raw, w, w', v, u, -, -, -, -, -, rfl⟩ := h
    exact ⟨_, rfl⟩
  · rw [Members] at h
    · obtain ⟨raw, w, w', v, u, u', t, -, -, -, -, -, -, -, rfl⟩ := h
      exact ⟨_, rfl⟩
    · simp

theorem parseWord_append (value : Json) :
    ∀ word t, parseWord value word (word ++ t) = .ok (value, t)
  | [], t => by rw [List.nil_append, parseWord.eq_def]
  | w :: word, t => by
    rw [List.cons_append, parseWord, if_pos rfl]
    exact parseWord_append value word t

theorem parseValue_null (n : ℕ) (t : Bytes) :
    parseValue num (n + 1) (lit "null" ++ t) = .ok (.null, t) :=
  parseWord_append .null (lit "null") t

theorem parseValue_bool (b : Bool) (n : ℕ) (t : Bytes) :
    parseValue num (n + 1) ((if b then lit "true" else lit "false") ++ t) = .ok (.bool b, t) := by
  cases b
  · exact parseWord_append (.bool false) (lit "false") t
  · exact parseWord_append (.bool true) (lit "true") t

mutual

/-- A value is read to its end, whatever follows that ends it. -/
theorem parseValue_value : ∀ (j : Json) {v : Bytes} {n : ℕ} {t : Bytes}, Value num j v → Stops t →
    2 * v.length + 1 ≤ n → parseValue num n (v ++ t) = .ok (j, t)
  | _, _, 0, _, _, _, hn => by omega
  | .null, v, n + 1, t, h, _, _ => by
    rw [Value] at h
    rw [h, parseValue_null]
  | .bool b, v, n + 1, t, h, _, _ => by
    rw [Value] at h
    rw [h, parseValue_bool]
  | .int m, v, n + 1, t, h, ht, _ => by
    rw [Value] at h
    obtain ⟨c, u, rfl, hc⟩ := number_head num h
    rw [List.cons_append, parseValue_number num hc, ← List.cons_append, parseNumber_number num h ht]
  | .double x, v, n + 1, t, h, ht, _ => by
    rw [Value] at h
    obtain ⟨c, u, rfl, hc⟩ := number_head num h
    rw [List.cons_append, parseValue_number num hc, ← List.cons_append, parseNumber_number num h ht]
  | .string s, v, n + 1, t, h, _, _ => by
    rw [Value] at h
    obtain ⟨raw, hraw, rfl⟩ := h
    rw [List.cons_append, List.append_assoc, List.singleton_append, parseValue,
      parseStringToStream_quoted hraw]
    rfl
  | .array [], v, n + 1, t, h, _, _ => by
    rw [Value] at h
    obtain ⟨w, body, hw, rfl, hbody⟩ := h
    rw [Elements] at hbody
    rw [hbody, List.nil_append, List.cons_append, List.append_assoc, List.singleton_append,
      parseValue, skipWhitespace_ws hw, skipWhitespace_cons (by decide)]
    rfl
  | .array (j :: elems), v, n + 1, t, h, _, hn => by
    rw [Value] at h
    obtain ⟨w, body, hw, rfl, hbody⟩ := h
    simp only [List.length_cons, List.length_append] at hn
    have hrest := parseElements_elements j elems (t := t) hbody (by omega : _ ≤ n)
    obtain ⟨v, u, hv, rfl⟩ := elements_head num hbody
    have hskip := skipWhitespace_value num hv hw (u ++ 93 :: t)
    obtain ⟨c, v, rfl, -, hc⟩ := value_head num hv
    simp only [List.append_assoc, List.cons_append, List.nil_append] at hrest hskip ⊢
    rw [parseValue, hskip]
    split
    · rename_i heq
      exact absurd (List.cons.inj heq).1 hc
    · rw [hrest]
      rfl
  | .object [], v, n + 1, t, h, _, _ => by
    rw [Value] at h
    obtain ⟨w, body, hw, rfl, hbody⟩ := h
    rw [Members] at hbody
    rw [hbody, List.nil_append, List.cons_append, List.append_assoc, List.singleton_append,
      parseValue, skipWhitespace_ws hw, skipWhitespace_cons (by decide)]
    rfl
  | .object ((name, j) :: members), v, n + 1, t, h, _, hn => by
    rw [Value] at h
    obtain ⟨w, body, hw, rfl, hbody⟩ := h
    simp only [List.length_cons, List.length_append] at hn
    have hrest := parseMembers_members name j members (t := t) hbody (by omega : _ ≤ n)
    obtain ⟨u, rfl⟩ := members_head num hbody
    simp only [List.append_assoc, List.cons_append, List.nil_append] at hrest ⊢
    rw [parseValue, skipWhitespace_ws hw, skipWhitespace_cons (by decide)]
    change Except.map _ (parseMembers num n (34 :: (u ++ 125 :: t))) = _
    rw [hrest]
    rfl

theorem parseElements_elements : ∀ (j : Json) (elems : List Json) {s : Bytes} {n : ℕ} {t : Bytes},
    Elements num (j :: elems) s → 2 * s.length + 2 ≤ n →
    parseElements num n (s ++ 93 :: t) = .ok (j :: elems, t)
  | _, _, _, 0, _, _, hn => by omega
  | j, [], s, n + 1, t, h, hn => by
    rw [Elements] at h
    obtain ⟨v, w, hv, hw, rfl⟩ := h
    rw [List.length_append] at hn
    have hvalue := parseValue_value j hv (stops_ws hw (.inr (.inl rfl)) t) (by omega : _ ≤ n)
    rw [List.append_assoc, parseElements, hvalue]
    simp only [skipWhitespace_ws hw, skipWhitespace_cons (by decide : isWhitespace 93 = false)]
  | j, i :: elems, s, n + 1, t, h, hn => by
    rw [Elements] at h
    · obtain ⟨v, w, w', u, hv, hw, hw', hu, rfl⟩ := h
      simp only [List.length_append, List.length_cons] at hn
      have hvalue := parseValue_value j hv (stops_ws hw (.inl rfl) (w' ++ (u ++ 93 :: t)))
        (by omega : _ ≤ n)
      have hrest := parseElements_elements i elems (t := t) hu (by omega : _ ≤ n)
      obtain ⟨v', u', hv', rfl⟩ := elements_head num hu
      have hskip := skipWhitespace_value num hv' hw' (u' ++ 93 :: t)
      simp only [List.append_assoc, List.cons_append] at hvalue hrest ⊢
      rw [parseElements, hvalue]
      simp only [skipWhitespace_ws hw, skipWhitespace_cons (by decide : isWhitespace 44 = false),
        hskip, hrest]
      rfl
    · simp

theorem parseMembers_members : ∀ (name : Bytes) (j : Json) (members : List (Bytes × Json))
    {s : Bytes} {n : ℕ} {t : Bytes}, Members num ((name, j) :: members) s → 2 * s.length + 2 ≤ n →
    parseMembers num n (s ++ 125 :: t) = .ok ((name, j) :: members, t)
  | _, _, _, _, 0, _, _, hn => by omega
  | name, j, [], s, n + 1, t, h, hn => by
    rw [Members] at h
    obtain ⟨raw, w, w', v, u, hraw, hw, hw', hv, hu, rfl⟩ := h
    simp only [List.length_append, List.length_cons] at hn
    have hvalue := parseValue_value j hv (stops_ws hu (.inr (.inr rfl)) t) (by omega : _ ≤ n)
    simp only [List.append_assoc, List.cons_append]
    rw [parseMembers, parseStringToStream_quoted hraw]
    simp only [skipWhitespace_ws hw, skipWhitespace_cons (by decide : isWhitespace 58 = false),
      skipWhitespace_value num hv hw', hvalue, skipWhitespace_ws hu,
      skipWhitespace_cons (by decide : isWhitespace 125 = false)]
  | name, j, (name', i) :: members, s, n + 1, t, h, hn => by
    rw [Members] at h
    · obtain ⟨raw, w, w', v, u, u', r, hraw, hw, hw', hv, hu, hu', hr, rfl⟩ := h
      simp only [List.length_append, List.length_cons] at hn
      have hvalue := parseValue_value j hv (stops_ws hu (.inl rfl) (u' ++ (r ++ 125 :: t)))
        (by omega : _ ≤ n)
      have hrest := parseMembers_members name' i members (t := t) hr (by omega : _ ≤ n)
      obtain ⟨r', rfl⟩ := members_head num hr
      simp only [List.append_assoc, List.cons_append] at hvalue hrest ⊢
      rw [parseMembers, parseStringToStream_quoted hraw]
      simp only [skipWhitespace_ws hw, skipWhitespace_cons (by decide : isWhitespace 58 = false),
        skipWhitespace_value num hv hw', hvalue, skipWhitespace_ws hu, skipWhitespace_ws hu',
        skipWhitespace_cons (by decide : isWhitespace 44 = false),
        skipWhitespace_cons (by decide : isWhitespace 34 = false), hrest]
      rfl
    · simp

end

/-- Every text of the grammar is read to its value. -/
theorem parseDocument_text {j : Json} {s : Bytes} (h : Text num j s) :
    parseDocument num s = .ok j := by
  obtain ⟨w, v, w', hw, hv, hw', rfl⟩ := h
  have hstops : Stops w' := by
    rcases w' with _ | ⟨c, w'⟩
    · exact stops_nil
    · rw [Ws, List.all_cons, Bool.and_eq_true] at hw'
      have hc := hw'.1
      simp only [isWhitespace, Bool.or_eq_true, decide_eq_true_eq] at hc
      rcases hc with ((rfl | rfl) | rfl) | rfl <;> exact stops_cons (by decide)
  have hvalue := parseValue_value num j (n := 2 * (v ++ w').length + 2) hv hstops
    (by rw [List.length_append]; omega)
  have hend : skipWhitespace w' = [] := by
    have := skipWhitespace_ws hw' []
    rwa [List.append_nil] at this
  unfold parseDocument
  rw [skipWhitespace_value num hv hw]
  split
  · rename_i heq
    obtain ⟨c, u, rfl, -⟩ := value_head num hv
    cases heq
  · simp only [hvalue, hend]

/-! ## What the writer leaves -/

section Writer

theorem hexDigit?_hex : ∀ n < 16,
    hexDigit? (UInt8.ofNat (if n < 10 then 48 + n else 55 + n)) = some n := by decide

/-- A byte is written as it is, or as an escape. -/
theorem chars_escapeByte (b : UInt8) {s v : Bytes} (h : Chars s v) :
    Chars (escapeByte b ++ s) (b :: v) := by
  have hb := b.toNat_lt
  unfold escapeByte
  split_ifs with h1 h2 h3 h4 h5 h6 h7
  · exact .escape b b (by rcases h1 with rfl | rfl <;> rfl) h
  · exact .escape 98 b (by rw [h2]; rfl) h
  · exact .escape 116 b (by rw [h3]; rfl) h
  · exact .escape 110 b (by rw [h4]; rfl) h
  · exact .escape 102 b (by rw [h5]; rfl) h
  · exact .escape 114 b (by rw [h6]; rfl) h
  · have hlt : b.toNat < 32 := h7
    have hencode : encode b.toNat = [b] := by
      rw [encode, if_pos (by omega), UInt8.ofNat_toNat]
    have h0 : hexDigit? 48 = some 0 := by decide
    have hchars := Chars.unicode b.toNat ⟨48, 48, _, _, 0, 0, _, _, rfl, h0, h0,
      hexDigit?_hex _ (by omega : b.toNat / 16 < 16),
      hexDigit?_hex _ (by omega : b.toNat % 16 < 16), by omega⟩ (by omega) h
    rwa [hencode] at hchars
  · push Not at h1
    exact .unescaped b h1.2 h1.1 h7 h

theorem chars_written (v : Bytes) : Chars (v.flatMap escapeByte) v := by
  induction v with
  | nil => exact .nil
  | cons b v ih => exact chars_escapeByte b ih

/-- The digits of a whole number are those of its value, an integer if that fits in 64 bits. -/
theorem number_decimal_of {n : ℤ} {j : Json}
    (h : if IsInt64 n then j = .int n else ∃ d, num.strtod (decimal n) = some d ∧ j = .double d) :
    Number num (decimal n) j := by
  refine ⟨if n < 0 then [45] else [], _, [], [], ?_, by split_ifs <;> simp,
    isInteger_toDigits n.natAbs, .inl rfl, .inl rfl, ?_⟩
  · rw [decimal_eq, List.append_nil, List.append_nil]
  · have hval : (if (if n < 0 then [45] else ([] : Bytes)) = [] then (n.natAbs : ℤ)
        else -(n.natAbs : ℤ)) = n := by
      split_ifs with h1 h2
      · simp at h2
      · omega
      · omega
      · simp_all
    dsimp only
    rw [digitsValue_toDigits, hval]
    split_ifs at h with h64
    · rwa [if_pos ⟨rfl, rfl, h64⟩]
    · rwa [if_neg fun hn => h64 hn.2.2]

theorem number_decimal {n : ℤ} (h : IsInt64 n) : Number num (decimal n) (.int n) :=
  number_decimal_of num (by rw [if_pos h])

variable (k : ℕ)

/-- A `double` whose text is read back. -/
theorem number_dtoa {x : Double} (h : num.strtod (num.dtoa k x) = some x) :
    Number num (num.dtoa k x) (.double x) := by
  obtain ⟨minus, int, frac, exp, heq, hminus, hint, hfrac, hexp, hne⟩ := num.dtoa_text k x
  refine ⟨minus, int, frac, exp, heq, hminus, hint, hfrac, hexp, ?_⟩
  dsimp only
  rw [if_neg fun h => hne.elim (fun hf => hf h.1) fun he => he h.2.1]
  exact ⟨x, h, rfl⟩

mutual

/-- The integers fit in 64 bits, and the doubles are written with the places they need. -/
def Readable : Json → Prop
  | .int n => IsInt64 n
  | .double x => num.strtod (num.dtoa k x) = some x
  | .array elems => ReadableElems elems
  | .object members => ReadableMembers members
  | _ => True

def ReadableElems : List Json → Prop
  | [] => True
  | j :: elems => Readable j ∧ ReadableElems elems

def ReadableMembers : List (Bytes × Json) → Prop
  | [] => True
  | (_, j) :: members => Readable j ∧ ReadableMembers members

end

theorem writeElements_cons (j : Json) (elems : List Json) :
    writeElements num k (j :: elems)
      = write num k j ++ if elems = [] then [] else 44 :: writeElements num k elems := by
  cases elems <;> simp [writeElements]

theorem writeMembers_cons (name : Bytes) (j : Json) (members : List (Bytes × Json)) :
    writeMembers num k ((name, j) :: members)
      = writeString name ++ 58 :: (write num k j
        ++ if members = [] then [] else 44 :: writeMembers num k members) := by
  cases members <;> simp [writeMembers]

theorem ws_nil : Ws [] := rfl

mutual

theorem value_write : ∀ j : Json, Readable num k j → Value num j (write num k j)
  | .null, _ => by rw [Value, write]
  | .bool b, _ => by rw [Value, write]
  | .int n, h => by
    rw [Readable] at h
    rw [Value, write]
    exact number_decimal num h
  | .double x, h => by
    rw [Readable] at h
    rw [Value, write]
    exact number_dtoa num k h
  | .string s, _ => by
    rw [Value, write]
    exact ⟨_, chars_written s, by simp [writeString]⟩
  | .array elems, h => by
    rw [Readable] at h
    rw [Value, write]
    exact ⟨[], _, ws_nil, rfl, elements_write elems h⟩
  | .object members, h => by
    rw [Readable] at h
    rw [Value, write]
    exact ⟨[], _, ws_nil, rfl, members_write members h⟩

theorem elements_write : ∀ elems : List Json, ReadableElems num k elems →
    Elements num elems (writeElements num k elems)
  | [], _ => by rw [Elements, writeElements]
  | [j], h => by
    rw [ReadableElems] at h
    rw [Elements, writeElements]
    exact ⟨_, [], value_write j h.1, ws_nil, (List.append_nil _).symm⟩
  | j :: i :: elems, h => by
    rw [ReadableElems] at h
    rw [Elements, writeElements]
    · exact ⟨_, [], [], _, value_write j h.1, ws_nil, ws_nil, elements_write (i :: elems) h.2, rfl⟩
    all_goals simp

theorem members_write : ∀ members : List (Bytes × Json), ReadableMembers num k members →
    Members num members (writeMembers num k members)
  | [], _ => by rw [Members, writeMembers]
  | [(name, j)], h => by
    rw [ReadableMembers] at h
    rw [Members, writeMembers]
    exact ⟨_, [], [], _, [], chars_written name, ws_nil, ws_nil, value_write j h.1, ws_nil,
      by simp [writeString]⟩
  | (name, j) :: m :: members, h => by
    rw [ReadableMembers] at h
    rw [Members, writeMembers]
    · exact ⟨_, [], [], _, [], [], _, chars_written name, ws_nil, ws_nil, value_write j h.1, ws_nil,
        ws_nil, members_write (m :: members) h.2, by simp [writeString]⟩
    all_goals simp

end

theorem zero_notMem_of_digits {s : Bytes} (h : s.all isDigit = true) : (0 : UInt8) ∉ s := by
  intro h0
  exact absurd (List.all_eq_true.1 h 0 h0) (by decide)

theorem zero_notMem_numberText {minus int frac exp : Bytes} (hminus : minus = [] ∨ minus = [45])
    (hint : IsInteger int) (hfrac : frac = [] ∨ IsFraction frac)
    (hexp : exp = [] ∨ IsExponent exp) : (0 : UInt8) ∉ minus ++ (int ++ (frac ++ exp)) := by
  rw [List.mem_append, List.mem_append, List.mem_append, not_or, not_or, not_or]
  refine ⟨?_, ?_, ?_, ?_⟩
  · rcases hminus with rfl | rfl <;> decide
  · rcases hint with rfl | ⟨c, ds, rfl, -, hc, hds⟩
    · decide
    · exact zero_notMem_of_digits (by simpa using ⟨hc, by simpa using hds⟩)
  · rcases hfrac with rfl | ⟨ds, rfl, -, hds⟩
    · decide
    · have := zero_notMem_of_digits hds
      simpa using this
  · rcases hexp with rfl | ⟨e, sign, ds, rfl, he, hsign, -, hds⟩
    · decide
    · have h0 := zero_notMem_of_digits hds
      have he0 : (0 : UInt8) ≠ e := by rcases he with rfl | rfl <;> decide
      have hs0 : (0 : UInt8) ∉ sign := by rcases hsign with rfl | rfl | rfl <;> decide
      simp [he0, hs0, h0]

theorem zero_notMem_dtoa (x : Double) : (0 : UInt8) ∉ num.dtoa k x := by
  obtain ⟨minus, int, frac, exp, heq, hminus, hint, hfrac, hexp, -⟩ := num.dtoa_text k x
  rw [heq]
  exact zero_notMem_numberText hminus hint hfrac hexp

mutual

theorem zero_notMem_write : ∀ j : Json, (0 : UInt8) ∉ write num k j
  | .null => by
    rw [write]
    decide
  | .bool b => by
    rw [write]
    cases b <;> decide
  | .int n => by
    rw [write]
    exact zero_notMem_decimal n
  | .double x => by
    rw [write]
    exact zero_notMem_dtoa num k x
  | .string s => by
    rw [write]
    exact zero_notMem_writeString s
  | .array elems => by
    rw [write]
    simpa using zero_notMem_writeElements elems
  | .object members => by
    rw [write]
    simpa using zero_notMem_writeMembers members

theorem zero_notMem_writeElements : ∀ elems : List Json, (0 : UInt8) ∉ writeElements num k elems
  | [] => by simp [writeElements]
  | j :: elems => by
    have hj := zero_notMem_write j
    have helems := zero_notMem_writeElements elems
    rw [writeElements_cons]
    split_ifs <;> simp [hj, helems]

theorem zero_notMem_writeMembers :
    ∀ members : List (Bytes × Json), (0 : UInt8) ∉ writeMembers num k members
  | [] => by simp [writeMembers]
  | (name, j) :: members => by
    have hname := zero_notMem_writeString name
    have hj := zero_notMem_write j
    have hmembers := zero_notMem_writeMembers members
    rw [writeMembers_cons]
    split_ifs <;> simp [hname, hj, hmembers]

end

theorem write_ne_nil (j : Json) : write num k j ≠ [] := by
  cases j with
  | bool b =>
    rw [write]
    cases b <;> decide
  | int n =>
    rw [write]
    exact decimal_ne_nil n
  | double x =>
    rw [write]
    obtain ⟨minus, int, frac, exp, heq, -, hint, -⟩ := num.dtoa_text k x
    obtain ⟨c, t, rfl⟩ : ∃ c t, int = c :: t := by
      rcases hint with rfl | ⟨c, t, rfl, -⟩
      · exact ⟨_, _, rfl⟩
      · exact ⟨_, _, rfl⟩
    simp [heq]
  | _ => simp [write, lit, writeString]

/-- What the writer leaves of a document is parsed to the document. -/
theorem parse_write {doc : Json} (h : Readable num k doc) :
    parse num (write num k doc) = .ok doc := by
  have htext : Text num doc (write num k doc) :=
    ⟨[], _, [], ws_nil, value_write num k doc h, ws_nil, (List.append_nil _).symm⟩
  rw [parse, cstr_of_notMem (zero_notMem_write num k doc), parseDocument_text num htext]

end Writer

end RapidJson

end OcppServer
