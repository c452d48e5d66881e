import OcppServer.Proofs.RapidJson

/-!
# What RapidJSON makes of a text

Every text is a document or has an error at a place in it: what the reader has not read becomes
shorter with every value, and the bound it is given covers that. What it reads is of the grammar, so
the reader accepts the texts of the grammar and no others (`parse_spec`).
-/

namespace OcppServer

namespace RapidJson

open JsonGrammar

variable (num : Numbers)

/-- Something of the text was read, or an error of the reader is reported at a place in it. -/
def Advances {α : Type} (s : Bytes) : Result α → Prop
  | .ok (_, t) => t <:+ s ∧ t.length < s.length
  | .error e => e.rest <:+ s ∧ e.code ≠ .outOfFuel

theorem Advances.map {α β : Type} {s : Bytes} {r : Result α} (f : α × Bytes → β)
    (h : Advances s r) : Advances s (r.map fun p => (f p, p.2)) := by
  rcases r with e | ⟨a, t⟩ <;> exact h

/-- What advances in the rest of a text advances in the text. -/
theorem Advances.of_suffix {α : Type} {s t : Bytes} {r : Result α} (h : Advances t r)
    (hs : t <:+ s) : Advances s r := by
  rcases r with e | ⟨a, u⟩
  · exact ⟨h.1.trans hs, h.2⟩
  · exact ⟨h.1.trans hs, h.2.trans_le hs.length_le⟩

theorem skipWhitespace_suffix (s : Bytes) : skipWhitespace s <:+ s := List.dropWhile_suffix _

theorem parseHex4_suffix {s t : Bytes} {n : ℕ} (h : parseHex4 s = some (n, t)) : t <:+ s := by
  unfold parseHex4 at h
  split at h
  · split at h
    · obtain ⟨-, rfl⟩ := Prod.mk.inj (Option.some.inj h)
      exact ⟨[_, _, _, _], rfl⟩
    · cases h
  · cases h

theorem parseUnicode_spec (s : Bytes) : ∀ r, parseUnicode s = r →
    (∀ b t, r = .ok (b, t) → t <:+ s) ∧ ∀ code, r = .error code → code ≠ .outOfFuel := by
  rintro r rfl
  unfold parseUnicode
  split
  · simp
  · rename_i n u hu
    have hus := parseHex4_suffix hu
    split_ifs
    · split
      · split
        · simp
        · rename_i hw
          have hws := parseHex4_suffix hw
          split_ifs
          · simp
          · refine ⟨fun b t h => ?_, by simp⟩
            obtain ⟨-, rfl⟩ := Prod.mk.inj (Except.ok.inj h)
            exact (hws.trans ⟨[92, 117], rfl⟩).trans hus
      · simp
    · simp
    · refine ⟨fun b t h => ?_, by simp⟩
      obtain ⟨-, rfl⟩ := Prod.mk.inj (Except.ok.inj h)
      exact hus

theorem parseEscape_spec (s : Bytes) :
    (∀ b t, parseEscape s = .ok (b, t) → t <:+ s)
      ∧ ∀ code, parseEscape s = .error code → code ≠ .outOfFuel := by
  rcases s with _ | ⟨e, s⟩
  · simp [parseEscape]
  · rw [parseEscape]
    split
    · refine ⟨fun b t h => ?_, by simp⟩
      obtain ⟨-, rfl⟩ := Prod.mk.inj (Except.ok.inj h)
      exact List.suffix_cons e s
    · split_ifs
      · obtain ⟨hok, herr⟩ := parseUnicode_spec s _ rfl
        exact ⟨fun b t h => (hok b t h).trans (List.suffix_cons e s), herr⟩
      · simp

theorem parseStringToStream_advances : ∀ (n : ℕ) (s : Bytes), s.length < n →
    Advances s (parseStringToStream n s)
  | n + 1, [], _ => ⟨List.suffix_refl _, by simp⟩
  | n + 1, c :: s, h => by
    have hlt : s.length < n := by simpa using h
    rw [parseStringToStream]
    split_ifs
    · obtain ⟨hok, herr⟩ := parseEscape_spec s
      rcases he : parseEscape s with code | ⟨b, t⟩
      · exact ⟨List.suffix_refl _, herr code he⟩
      · have ht := hok b t he
        have hrec := parseStringToStream_advances n t (ht.length_le.trans_lt hlt)
        exact (hrec.map fun r => b ++ r.1).of_suffix (ht.trans (List.suffix_cons c s))
    · exact ⟨List.suffix_cons c s, by simp⟩
    · exact ⟨List.suffix_refl _, by simp⟩
    · exact ⟨List.suffix_refl _, by simp⟩
    · exact ((parseStringToStream_advances n s hlt).map fun r => c :: r.1).of_suffix
        (List.suffix_cons c s)

/-- Nothing more than the text was read. -/
def Within {α : Type} (s : Bytes) : Result α → Prop
  | .ok (_, t) => t <:+ s
  | .error e => e.rest <:+ s ∧ e.code ≠ .outOfFuel

theorem parseFraction_within (s : Bytes) : Within s (parseFraction s) := by
  unfold parseFraction
  split
  · rename_i t
    have ht : t <:+ 46 :: t := List.suffix_cons _ _
    by_cases h : (t.takeWhile isDigit).isEmpty = true
    · rw [if_pos h]
      exact ⟨ht, by simp⟩
    · rw [if_neg h]
      exact (List.dropWhile_suffix _).trans ht
  · exact List.suffix_refl _

theorem skipSign_suffix (s : Bytes) : skipSign s <:+ s := by
  unfold skipSign
  split
  · exact List.suffix_cons _ _
  · exact List.suffix_cons _ _
  · exact List.suffix_refl _

theorem parseExponent_within (s : Bytes) : Within s (parseExponent s) := by
  rcases s with _ | ⟨c, s⟩
  · exact List.suffix_refl _
  have hsign := (skipSign_suffix s).trans (List.suffix_cons c s)
  by_cases hc : c = 101 ∨ c = 69
  · rw [parseExponent, if_pos hc]
    by_cases h : ((skipSign s).takeWhile isDigit).isEmpty = true
    · simp only [if_pos h]
      exact ⟨hsign, by simp⟩
    · simp only [if_neg h]
      exact (List.dropWhile_suffix _).trans hsign
  · rw [parseExponent, if_neg hc]
    exact List.suffix_refl _

theorem numberOf_advances (n : ℤ) (isInteger : Bool) {s t : Bytes} (ht : t <:+ s)
    (hlt : t.length < s.length) : Advances s (numberOf num n isInteger s t) := by
  by_cases h : isInteger = true ∧ IsInt64 n
  · rw [numberOf, if_pos h]
    exact ⟨ht, hlt⟩
  · rw [numberOf, if_neg h]
    split
    · exact ⟨ht, hlt⟩
    · exact ⟨List.suffix_refl _, by simp⟩

theorem parseUnsigned_advances (minus : Bool) {s u : Bytes} (hs : u <:+ s) :
    Advances s (parseUnsigned num minus s u) := by
  rcases u with _ | ⟨c, t⟩
  · exact ⟨List.nil_suffix, by simp⟩
  by_cases hc : isDigit c = true
  swap
  · rw [parseUnsigned, if_neg hc]
    exact ⟨hs, by simp⟩
  have hrest : (if c = 48 then t else t.dropWhile isDigit) <:+ t := by
    split_ifs
    · exact List.suffix_refl _
    · exact List.dropWhile_suffix _
  -- The text behind the integer part is shorter than the text.
  have key : ∀ v, v <:+ t → v <:+ s ∧ v.length < s.length := by
    intro v hv
    refine ⟨(hv.trans (List.suffix_cons c t)).trans hs, ?_⟩
    have h1 := hs.length_le
    have h2 := hv.length_le
    rw [List.length_cons] at h1
    omega
  rw [parseUnsigned, if_pos hc]
  generalize (if c = 48 then t else t.dropWhile isDigit) = u at hrest ⊢
  generalize (if c = 48 then [c] else c :: t.takeWhile isDigit) = digits
  dsimp only
  have hfrac := parseFraction_within u
  rcases hf : parseFraction u with e | ⟨frac, v⟩ <;> rw [hf] at hfrac
  · exact ⟨(key _ (hfrac.1.trans hrest)).1, hfrac.2⟩
  have hv : v <:+ t := List.IsSuffix.trans hfrac hrest
  have hexp := parseExponent_within v
  dsimp only
  rcases hx : parseExponent v with e | ⟨exp, w⟩ <;> rw [hx] at hexp
  · exact ⟨(key _ (hexp.1.trans hv)).1, hexp.2⟩
  · obtain ⟨hw, hlt⟩ := key w (List.IsSuffix.trans hexp hv)
    exact numberOf_advances num _ _ hw hlt

theorem parseNumber_advances (s : Bytes) : Advances s (parseNumber num s) := by
  unfold parseNumber
  split
  · exact parseUnsigned_advances num true (List.suffix_cons _ _)
  · exact parseUnsigned_advances num false (List.suffix_refl _)

/-- What stays within the rest behind a byte advances. -/
theorem Within.advances {α : Type} {c : UInt8} {t : Bytes} {r : Result α} (h : Within t r) :
    Advances (c :: t) r := by
  rcases r with e | ⟨a, u⟩
  · exact ⟨h.1.trans (List.suffix_cons c t), h.2⟩
  · have hu : u <:+ t := h
    exact ⟨hu.trans (List.suffix_cons c t), Nat.lt_succ_of_le hu.length_le⟩

theorem Advances.within {α : Type} {s : Bytes} {r : Result α} (h : Advances s r) :
    Within s r := by
  rcases r with e | ⟨a, t⟩
  · exact h
  · exact h.1

theorem Within.of_suffix {α : Type} {s t : Bytes} {r : Result α} (h : Within t r) (hs : t <:+ s) :
    Within s r := by
  rcases r with e | ⟨a, u⟩
  · exact ⟨h.1.trans hs, h.2⟩
  · exact List.IsSuffix.trans h hs

theorem Within.map {α β : Type} {s : Bytes} {r : Result α} (f : α × Bytes → β)
    (h : Within s r) : Within s (r.map fun p => (f p, p.2)) := by
  rcases r with e | ⟨a, t⟩ <;> exact h

theorem parseWord_within (value : Json) : ∀ word s, Within s (parseWord value word s)
  | [], s => by
    rw [parseWord]
    exact List.suffix_refl _
  | _ :: _, [] => ⟨List.suffix_refl _, by simp⟩
  | w :: word, c :: s => by
    rw [parseWord]
    split_ifs
    · exact (parseWord_within value word s).of_suffix (List.suffix_cons c s)
    · exact ⟨List.suffix_refl _, by simp⟩

mutual

/-- The bound is large enough for every text. -/
theorem parseValue_advances : ∀ (n : ℕ) (s : Bytes), 2 * s.length + 1 ≤ n →
    Advances s (parseValue num n s)
  | n + 1, s, hn => by
    have hstring : ∀ t, Within t (parseStringToStream (t.length + 1) t) := fun t =>
      (parseStringToStream_advances _ t (by omega)).within
    rw [parseValue.eq_def]
    dsimp only
    split
    · exact (parseWord_within .null [117, 108, 108] _).advances
    · exact (parseWord_within (.bool true) [114, 117, 101] _).advances
    · exact (parseWord_within (.bool false) [97, 108, 115, 101] _).advances
    · exact ((hstring _).map fun r => Json.string r.1).advances
    · rename_i t
      have hskip := skipWhitespace_suffix t
      rw [List.length_cons] at hn
      split
      · rename_i u heq
        rw [heq] at hskip
        have hu : u <:+ t := (List.suffix_cons _ _).trans hskip
        exact Within.advances (r := .ok (Json.object [], u)) hu
      · have hmem := parseMembers_advances n (skipWhitespace t) (by
          have := hskip.length_le
          omega)
        exact ((hmem.within.of_suffix hskip).map fun r => Json.object r.1).advances
    · rename_i t
      have hskip := skipWhitespace_suffix t
      rw [List.length_cons] at hn
      split
      · rename_i u heq
        rw [heq] at hskip
        have hu : u <:+ t := (List.suffix_cons _ _).trans hskip
        exact Within.advances (r := .ok (Json.array [], u)) hu
      · have helem := parseElements_advances n (skipWhitespace t) (by
          have := hskip.length_le
          omega)
        exact ((helem.within.of_suffix hskip).map fun r => Json.array r.1).advances
    · exact parseNumber_advances num s

theorem parseElements_advances : ∀ (n : ℕ) (s : Bytes), 2 * s.length + 2 ≤ n →
    Advances s (parseElements num n s)
  | n + 1, s, hn => by
    have hvalue := parseValue_advances n s (by omega)
    rw [parseElements.eq_def]
    dsimp only
    rcases hv : parseValue num n s with e | ⟨value, t⟩ <;> rw [hv] at hvalue
    · exact hvalue
    obtain ⟨hts, hlt⟩ := hvalue
    have hskip := (skipWhitespace_suffix t)
    dsimp only
    split
    · rename_i u heq
      rw [heq] at hskip
      have hu : skipWhitespace u <:+ t :=
        (skipWhitespace_suffix u).trans ((List.suffix_cons _ _).trans hskip)
      have hrest := parseElements_advances n (skipWhitespace u) (by
        have := hu.length_le
        omega)
      exact (hrest.map fun r => value :: r.1).of_suffix (hu.trans hts)
    · rename_i u heq
      rw [heq] at hskip
      have hu : u <:+ t := (List.suffix_cons _ _).trans hskip
      exact ⟨hu.trans hts, hu.length_le.trans_lt hlt⟩
    · exact ⟨hskip.trans hts, by simp⟩

theorem parseMembers_advances : ∀ (n : ℕ) (s : Bytes), 2 * s.length + 2 ≤ n →
    Advances s (parseMembers num n s)
  | n + 1, s, hn => by
    rw [parseMembers.eq_def]
    dsimp only
    split
    swap
    · exact ⟨List.suffix_refl _, by simp⟩
    rename_i t
    rw [List.length_cons] at hn
    have hname := parseStringToStream_advances (t.length + 1) t (by omega)
    rcases hs : parseStringToStream (t.length + 1) t with e | ⟨name, u⟩ <;> rw [hs] at hname
    · exact (Within.advances hname : Advances _ (.error e))
    have hu := (skipWhitespace_suffix u).trans hname.1
    dsimp only
    split
    swap
    · exact ⟨hu.trans (List.suffix_cons _ _), by simp⟩
    rename_i v heq
    rw [heq] at hu
    have hv : skipWhitespace v <:+ t :=
      (skipWhitespace_suffix v).trans ((List.suffix_cons _ _).trans hu)
    have hvalue := parseValue_advances n (skipWhitespace v) (by
      have := hv.length_le
      omega)
    have hvalue := hvalue.of_suffix hv
    rcases hj : parseValue num n (skipWhitespace v) with e | ⟨value, w⟩ <;> rw [hj] at hvalue
    · exact (Within.advances hvalue : Advances _ (.error e))
    obtain ⟨hwt, hlt⟩ := hvalue
    have hskip := (skipWhitespace_suffix w).trans hwt
    dsimp only
    split
    · rename_i x heq
      rw [heq] at hskip
      have hx : skipWhitespace x <:+ t :=
        (skipWhitespace_suffix x).trans ((List.suffix_cons _ _).trans hskip)
      have hrest := parseMembers_advances n (skipWhitespace x) (by
        have := hx.length_le
        omega)
      exact ((hrest.within.of_suffix hx).map fun r => (name, value) :: r.1).advances
    · rename_i x heq
      rw [heq] at hskip
      have hx : x <:+ t := (List.suffix_cons _ _).trans hskip
      exact Within.advances (r := .ok ([(name, value)], x)) hx
    · exact ⟨hskip.trans (List.suffix_cons _ _), by simp⟩

end

/-- Every text is a document or has an error of the reader, at a place in the text. -/
theorem parseDocument_total (s : Bytes) :
    (∃ doc, parseDocument num s = .ok doc)
      ∨ ∃ e, parseDocument num s = .error e ∧ e.rest <:+ s ∧ e.code ≠ .outOfFuel := by
  have hskip := skipWhitespace_suffix s
  unfold parseDocument
  split
  · exact .inr ⟨_, rfl, List.nil_suffix, by simp⟩
  have hvalue := parseValue_advances num (2 * (skipWhitespace s).length + 2) (skipWhitespace s)
    (by omega)
  rcases hv : parseValue num (2 * (skipWhitespace s).length + 2) (skipWhitespace s)
    with e | ⟨value, t⟩ <;> rw [hv] at hvalue
  · exact .inr ⟨e, rfl, hvalue.1.trans hskip, hvalue.2⟩
  · have ht := (skipWhitespace_suffix t).trans (hvalue.1.trans hskip)
    dsimp only
    split
    · exact .inl ⟨value, rfl⟩
    · exact .inr ⟨_, rfl, ht, by simp⟩

/-! ## What is read is of the grammar -/

theorem hex4_of_parseHex4 {s t : Bytes} {n : ℕ} (h : parseHex4 s = some (n, t)) :
    ∃ x, s = x ++ t ∧ Hex4 x n := by
  unfold parseHex4 at h
  split at h
  · split at h
    · rename_i a b c d u _ _ _ _ a' b' c' d' ha hb hc hd
      obtain ⟨rfl, rfl⟩ := Prod.mk.inj (Option.some.inj h)
      exact ⟨[a, b, c, d], rfl, a, b, c, d, a', b', c', d', rfl, ha, hb, hc, hd, rfl⟩
    · cases h
  · cases h

theorem map_eq_ok {ε α β : Type} {f : α → β} {r : Except ε α} {b : β} (h : r.map f = .ok b) :
    ∃ a, r = .ok a ∧ f a = b := by
  rcases r with e | a
  · cases h
  · exact ⟨a, rfl, Except.ok.inj h⟩

/-- An escape, and the characters behind it. -/
theorem chars_of_parseEscape {s t d : Bytes} (h : parseEscape s = .ok (d, t)) :
    ∃ e, s = e ++ t ∧ ∀ {raw v : Bytes}, Chars raw v → Chars (92 :: (e ++ raw)) (d ++ v) := by
  unfold parseEscape at h
  split at h
  · cases h
  · rename_i c s
    split at h
    · rename_i b hb
      obtain ⟨rfl, rfl⟩ := Prod.mk.inj (Except.ok.inj h)
      exact ⟨[c], rfl, fun hc => .escape c b hb hc⟩
    · split_ifs at h with hu
      subst hu
      unfold parseUnicode at h
      split at h
      · cases h
      · rename_i hi u hu
        obtain ⟨x, rfl, hx⟩ := hex4_of_parseHex4 hu
        split_ifs at h with hsur hhi
        · split at h
          · rename_i s
            split at h
            · cases h
            · rename_i lo w hw
              obtain ⟨y, rfl, hy⟩ := hex4_of_parseHex4 hw
              split_ifs at h with hlo
              obtain ⟨rfl, rfl⟩ := Prod.mk.inj (Except.ok.inj h)
              refine ⟨117 :: (x ++ 92 :: 117 :: y), by simp, fun hc => ?_⟩
              have := Chars.surrogates hi lo hx hy ⟨hsur.1, hhi⟩ (by omega) hc
              simpa using this
          · cases h
        · obtain ⟨rfl, rfl⟩ := Prod.mk.inj (Except.ok.inj h)
          refine ⟨117 :: x, rfl, fun hc => ?_⟩
          have := Chars.unicode hi hx hsur hc
          simpa using this

theorem chars_of_parseStringToStream : ∀ {n : ℕ} {s v t : Bytes},
    parseStringToStream n s = .ok (v, t) → ∃ raw, s = raw ++ 34 :: t ∧ Chars raw v
  | 0, _, _, _, h => by cases h
  | _ + 1, [], _, _, h => by cases h
  | n + 1, c :: s, v, t, h => by
    rw [parseStringToStream] at h
    split_ifs at h with h92 h34 h0 h32
    · subst h92
      split at h
      · cases h
      · rename_i d u he
        obtain ⟨e, rfl, hesc⟩ := chars_of_parseEscape he
        obtain ⟨⟨w, t'⟩, hrest, heq⟩ := map_eq_ok h
        obtain ⟨rfl, rfl⟩ := Prod.mk.inj heq
        obtain ⟨raw, rfl, hraw⟩ := chars_of_parseStringToStream hrest
        exact ⟨92 :: (e ++ raw), by simp, hesc hraw⟩
    · obtain ⟨rfl, rfl⟩ := Prod.mk.inj (Except.ok.inj h)
      exact ⟨[], by rw [h34]; rfl, .nil⟩
    · obtain ⟨⟨w, t'⟩, hrest, heq⟩ := map_eq_ok h
      obtain ⟨rfl, rfl⟩ := Prod.mk.inj heq
      obtain ⟨raw, rfl, hraw⟩ := chars_of_parseStringToStream hrest
      exact ⟨c :: raw, rfl, .unescaped c h92 h34 h32 hraw⟩

theorem takeWhile_append_dropWhile_digits (s : Bytes) :
    s = s.takeWhile isDigit ++ s.dropWhile isDigit ∧ (s.takeWhile isDigit).all isDigit = true :=
  ⟨List.takeWhile_append_dropWhile.symm, List.all_takeWhile⟩

theorem fraction_of_parseFraction {s t : Bytes} {b : Bool} (h : parseFraction s = .ok (b, t)) :
    ∃ frac, s = frac ++ t ∧ (frac = [] ∨ IsFraction frac) ∧ b = !frac.isEmpty := by
  unfold parseFraction at h
  split at h
  · rename_i u
    split_ifs at h with hemp
    obtain ⟨rfl, rfl⟩ := Prod.mk.inj (Except.ok.inj h)
    obtain ⟨hu, hall⟩ := takeWhile_append_dropWhile_digits u
    refine ⟨46 :: u.takeWhile isDigit, by rw [List.cons_append, ← hu], .inr ⟨_, rfl, ?_, hall⟩, rfl⟩
    simpa using hemp
  · obtain ⟨rfl, rfl⟩ := Prod.mk.inj (Except.ok.inj h)
    exact ⟨[], rfl, .inl rfl, rfl⟩

theorem skipSign_cases (s : Bytes) :
    ∃ sign, s = sign ++ skipSign s ∧ (sign = [] ∨ sign = [43] ∨ sign = [45]) := by
  unfold skipSign
  split
  · exact ⟨[43], rfl, by simp⟩
  · exact ⟨[45], rfl, by simp⟩
  · exact ⟨[], rfl, by simp⟩

theorem exponent_of_parseExponent {s t : Bytes} {b : Bool} (h : parseExponent s = .ok (b, t)) :
    ∃ exp, s = exp ++ t ∧ (exp = [] ∨ IsExponent exp) ∧ b = !exp.isEmpty := by
  unfold parseExponent at h
  split at h
  · rename_i c u
    split_ifs at h with hc
    · dsimp only at h
      split_ifs at h with hemp
      obtain ⟨rfl, rfl⟩ := Prod.mk.inj (Except.ok.inj h)
      obtain ⟨sign, hsign, hs⟩ := skipSign_cases u
      obtain ⟨hu, hall⟩ := takeWhile_append_dropWhile_digits (skipSign u)
      refine ⟨c :: (sign ++ (skipSign u).takeWhile isDigit), ?_, .inr ⟨c, sign, _, rfl, hc, hs, ?_,
        hall⟩, rfl⟩
      · rw [List.cons_append, List.append_assoc, ← hu, ← hsign]
      · simpa using hemp
    · obtain ⟨rfl, rfl⟩ := Prod.mk.inj (Except.ok.inj h)
      exact ⟨[], rfl, .inl rfl, rfl⟩
  · obtain ⟨rfl, rfl⟩ := Prod.mk.inj (Except.ok.inj h)
    exact ⟨[], rfl, .inl rfl, rfl⟩

theorem of_numberOf {n : ℤ} {isInteger : Bool} {v s t : Bytes} {j : Json}
    (h : numberOf num n isInteger (v ++ s) s = .ok (j, t)) :
    s = t ∧ if isInteger = true ∧ IsInt64 n then j = .int n
      else ∃ d, num.strtod v = some d ∧ j = .double d := by
  rw [numberOf, List.length_append, Nat.add_sub_cancel, List.take_left] at h
  split_ifs at h ⊢
  · obtain ⟨rfl, rfl⟩ := Prod.mk.inj (Except.ok.inj h)
    exact ⟨rfl, rfl⟩
  · split at h
    · rename_i d hd
      obtain ⟨rfl, rfl⟩ := Prod.mk.inj (Except.ok.inj h)
      exact ⟨rfl, d, hd, rfl⟩
    · cases h

/-- What follows the sign of a number. -/
theorem of_parseUnsigned {minus : Bool} (sign : Bytes) {s t : Bytes} {j : Json}
    (h : parseUnsigned num minus (sign ++ s) s = .ok (j, t)) :
    ∃ int frac exp, s = int ++ (frac ++ (exp ++ t)) ∧ IsInteger int
      ∧ (frac = [] ∨ IsFraction frac) ∧ (exp = [] ∨ IsExponent exp)
      ∧ let n : ℤ := if minus then -(digitsValue int : ℤ) else digitsValue int
        if frac = [] ∧ exp = [] ∧ IsInt64 n then j = .int n
        else ∃ d, num.strtod (sign ++ (int ++ (frac ++ exp))) = some d ∧ j = .double d := by
  rcases s with _ | ⟨c, u⟩
  · cases h
  rw [parseUnsigned] at h
  by_cases hc : isDigit c = true
  swap
  · rw [if_neg hc] at h
    cases h
  rw [if_pos hc] at h
  -- the integer part, and what is left behind it
  obtain ⟨int, u', hu, hint, hdigits, hrest⟩ : ∃ int u', c :: u = int ++ u' ∧ IsInteger int
      ∧ (if c = 48 then [c] else c :: u.takeWhile isDigit) = int
      ∧ (if c = 48 then u else u.dropWhile isDigit) = u' := by
    by_cases h48 : c = 48
    · exact ⟨[48], u, by rw [h48]; rfl, .inl rfl, by rw [if_pos h48, h48], if_pos h48⟩
    · obtain ⟨hu, hall⟩ := takeWhile_append_dropWhile_digits u
      exact ⟨_, _, by rw [List.cons_append, ← hu], .inr ⟨c, _, rfl, h48, hc, hall⟩, if_neg h48,
        if_neg h48⟩
  simp only [hdigits, hrest] at h
  rw [hu] at h ⊢
  split at h
  · cases h
  · rename_i f u'' hf
    obtain ⟨frac, rfl, hfrac, rfl⟩ := fraction_of_parseFraction hf
    split at h
    · cases h
    · rename_i e u''' he
      obtain ⟨exp, rfl, hexp, rfl⟩ := exponent_of_parseExponent he
      have hsplit : sign ++ (int ++ (frac ++ (exp ++ u''')))
          = (sign ++ (int ++ (frac ++ exp))) ++ u''' := by simp
      rw [hsplit] at h
      obtain ⟨rfl, hval⟩ := of_numberOf num h
      refine ⟨int, frac, exp, rfl, hint, hfrac, hexp, ?_⟩
      simpa [and_assoc] using hval

theorem number_of_parseNumber {s t : Bytes} {j : Json} (h : parseNumber num s = .ok (j, t)) :
    ∃ v, s = v ++ t ∧ Number num v j := by
  unfold parseNumber at h
  split at h
  · obtain ⟨int, frac, exp, rfl, hint, hfrac, hexp, hval⟩ := of_parseUnsigned num [45] h
    exact ⟨45 :: (int ++ (frac ++ exp)), by simp, [45], int, frac, exp, rfl, .inr rfl, hint, hfrac,
      hexp, by simpa using hval⟩
  · obtain ⟨int, frac, exp, rfl, hint, hfrac, hexp, hval⟩ := of_parseUnsigned num [] h
    exact ⟨int ++ (frac ++ exp), by simp, [], int, frac, exp, rfl, .inl rfl, hint, hfrac,
      hexp, by simpa using hval⟩

theorem ws_skipWhitespace (s : Bytes) : ∃ w, Ws w ∧ s = w ++ skipWhitespace s :=
  ⟨s.takeWhile isWhitespace, List.all_takeWhile, List.takeWhile_append_dropWhile.symm⟩

theorem word_of_parseWord {value j : Json} : ∀ {word s t : Bytes},
    parseWord value word s = .ok (j, t) → j = value ∧ s = word ++ t
  | [], s, t, h => by
    rw [parseWord.eq_def] at h
    obtain ⟨rfl, rfl⟩ := Prod.mk.inj (Except.ok.inj h)
    exact ⟨rfl, rfl⟩
  | w :: word, [], t, h => by
    rw [parseWord.eq_def] at h
    cases h
  | w :: word, c :: s, t, h => by
    rw [parseWord] at h
    split_ifs at h with hc
    obtain ⟨rfl, rfl⟩ := word_of_parseWord h
    exact ⟨rfl, by rw [hc]; rfl⟩

theorem value_of_number {s : Bytes} {j : Json} (h : Number num s j) : Value num j s := by
  obtain ⟨minus, int, frac, exp, -, -, -, -, -, hval⟩ := id h
  dsimp only at hval
  generalize (if minus = [] then (digitsValue int : ℤ) else -digitsValue int) = n at hval
  split_ifs at hval
  · subst hval
    rwa [Value]
  · obtain ⟨d, -, rfl⟩ := hval
    rwa [Value]

mutual

/-- What is read as a value is a text of it. -/
theorem value_of_parseValue : ∀ (n : ℕ) {s t : Bytes} {j : Json},
    parseValue num n s = .ok (j, t) → ∃ v, s = v ++ t ∧ Value num j v
  | 0, _, _, _, h => by cases h
  | n + 1, s, t, j, h => by
    rw [parseValue.eq_def] at h
    dsimp only at h
    split at h
    · obtain ⟨rfl, hs⟩ := word_of_parseWord h
      exact ⟨_, hs, by rw [Value]⟩
    · obtain ⟨rfl, hs⟩ := word_of_parseWord h
      exact ⟨_, hs, by rw [Value]; rfl⟩
    · obtain ⟨rfl, hs⟩ := word_of_parseWord h
      exact ⟨_, hs, by rw [Value]; rfl⟩
    · obtain ⟨⟨v, u⟩, hv, heq⟩ := map_eq_ok h
      obtain ⟨rfl, rfl⟩ := Prod.mk.inj heq
      obtain ⟨raw, rfl, hraw⟩ := chars_of_parseStringToStream hv
      refine ⟨34 :: (raw ++ [34]), by simp, ?_⟩
      rw [Value]
      exact ⟨raw, hraw, rfl⟩
    · rename_i u
      obtain ⟨w, hw, hu⟩ := ws_skipWhitespace u
      split at h
      · rename_i u' heq
        obtain ⟨rfl, rfl⟩ := Prod.mk.inj (Except.ok.inj h)
        rw [heq] at hu
        refine ⟨123 :: (w ++ ([] ++ [125])), by simp [hu], ?_⟩
        rw [Value]
        exact ⟨w, [], hw, rfl, by rw [Members]⟩
      · obtain ⟨⟨members, u'⟩, hmem, heq⟩ := map_eq_ok h
        obtain ⟨rfl, rfl⟩ := Prod.mk.inj heq
        obtain ⟨body, hbody, -, hm⟩ := members_of_parseMembers n hmem
        refine ⟨123 :: (w ++ (body ++ [125])), by rw [hu, hbody]; simp, ?_⟩
        rw [Value]
        exact ⟨w, body, hw, rfl, hm⟩
    · rename_i u
      obtain ⟨w, hw, hu⟩ := ws_skipWhitespace u
      split at h
      · rename_i u' heq
        obtain ⟨rfl, rfl⟩ := Prod.mk.inj (Except.ok.inj h)
        rw [heq] at hu
        refine ⟨91 :: (w ++ ([] ++ [93])), by simp [hu], ?_⟩
        rw [Value]
        exact ⟨w, [], hw, rfl, by rw [Elements]⟩
      · obtain ⟨⟨elems, u'⟩, helems, heq⟩ := map_eq_ok h
        obtain ⟨rfl, rfl⟩ := Prod.mk.inj heq
        obtain ⟨body, hbody, -, he⟩ := elements_of_parseElements n helems
        refine ⟨91 :: (w ++ (body ++ [93])), by rw [hu, hbody]; simp, ?_⟩
        rw [Value]
        exact ⟨w, body, hw, rfl, he⟩
    · obtain ⟨v, hs, hv⟩ := number_of_parseNumber num h
      exact ⟨v, hs, value_of_number num hv⟩

theorem elements_of_parseElements : ∀ (n : ℕ) {s t : Bytes} {elems : List Json},
    parseElements num n s = .ok (elems, t) →
      ∃ body, s = body ++ 93 :: t ∧ elems ≠ [] ∧ Elements num elems body
  | 0, _, _, _, h => by cases h
  | n + 1, s, t, elems, h => by
    rw [parseElements] at h
    split at h
    · cases h
    · rename_i j u hj
      obtain ⟨v, rfl, hv⟩ := value_of_parseValue n hj
      obtain ⟨w, hw, hu⟩ := ws_skipWhitespace u
      split at h
      · rename_i u' heq
        rw [heq] at hu
        obtain ⟨⟨rest, r⟩, hrest, heq'⟩ := map_eq_ok h
        obtain ⟨rfl, rfl⟩ := Prod.mk.inj heq'
        obtain ⟨w', hw', hu'⟩ := ws_skipWhitespace u'
        obtain ⟨body, hbody, hne, he⟩ := elements_of_parseElements n hrest
        refine ⟨v ++ (w ++ 44 :: (w' ++ body)), by rw [hu, hu', hbody]; simp, by simp, ?_⟩
        rw [Elements]
        · exact ⟨v, w, w', body, hv, hw, hw', he, rfl⟩
        · exact hne
      · rename_i u' heq
        obtain ⟨rfl, rfl⟩ := Prod.mk.inj (Except.ok.inj h)
        rw [heq] at hu
        refine ⟨v ++ w, by rw [hu]; simp, by simp, ?_⟩
        rw [Elements]
        exact ⟨v, w, hv, hw, rfl⟩
      · cases h

theorem members_of_parseMembers : ∀ (n : ℕ) {s t : Bytes} {members : List (Bytes × Json)},
    parseMembers num n s = .ok (members, t) →
      ∃ body, s = body ++ 125 :: t ∧ members ≠ [] ∧ Members num members body
  | 0, _, _, _, h => by cases h
  | n + 1, s, t, members, h => by
    rw [parseMembers.eq_def] at h
    dsimp only at h
    split at h
    · split at h
      · cases h
      · rename_i name u hname
        obtain ⟨raw, rfl, hraw⟩ := chars_of_parseStringToStream hname
        obtain ⟨w, hw, hu⟩ := ws_skipWhitespace u
        split at h
        · rename_i x hx
          rw [hx] at hu
          obtain ⟨w', hw', hx'⟩ := ws_skipWhitespace x
          split at h
          · cases h
          · rename_i j y hj
            obtain ⟨v, hv', hv⟩ := value_of_parseValue n hj
            obtain ⟨r, hr, hy⟩ := ws_skipWhitespace y
            split at h
            · rename_i z hz
              rw [hz] at hy
              obtain ⟨⟨rest, q⟩, hrest, heq⟩ := map_eq_ok h
              obtain ⟨rfl, rfl⟩ := Prod.mk.inj heq
              obtain ⟨r', hr', hz'⟩ := ws_skipWhitespace z
              obtain ⟨body, hbody, hne, hm⟩ := members_of_parseMembers n hrest
              refine ⟨34 :: (raw ++ 34 :: (w ++ 58 :: (w' ++ (v ++ (r ++ 44 :: (r' ++ body)))))),
                by rw [hu, hx', hv', hy, hz', hbody]; simp, by simp, ?_⟩
              rw [Members]
              · exact ⟨raw, w, w', v, r, r', body, hraw, hw, hw', hv, hr, hr', hm, rfl⟩
              · exact hne
            · rename_i z hz
              obtain ⟨rfl, rfl⟩ := Prod.mk.inj (Except.ok.inj h)
              rw [hz] at hy
              refine ⟨34 :: (raw ++ 34 :: (w ++ 58 :: (w' ++ (v ++ r)))),
                by rw [hu, hx', hv', hy]; simp, by simp, ?_⟩
              rw [Members]
              exact ⟨raw, w, w', v, r, hraw, hw, hw', hv, hr, rfl⟩
            · cases h
        · cases h
    · cases h

end

theorem text_of_parseDocument {s : Bytes} {j : Json} (h : parseDocument num s = .ok j) :
    Text num j s := by
  obtain ⟨w, hw, hs⟩ := ws_skipWhitespace s
  unfold parseDocument at h
  split at h
  · cases h
  · split at h
    · cases h
    · rename_i u hu
      obtain ⟨v, hv, hvalue⟩ := value_of_parseValue num _ hu
      obtain ⟨w', hw', hu'⟩ := ws_skipWhitespace u
      split at h
      · rename_i heq
        rw [heq, List.append_nil] at hu'
        obtain rfl := Except.ok.inj h
        exact ⟨w, v, w', hw, hvalue, hw', by rw [← hu', ← hv, ← hs]⟩
      · cases h

theorem parse_eq_ok_iff {s : Bytes} {j : Json} : parse num s = .ok j ↔ Text num j (cstr s) := by
  constructor
  · intro h
    unfold parse at h
    split at h
    · rename_i doc hdoc
      obtain rfl := Except.ok.inj h
      exact text_of_parseDocument num hdoc
    · cases h
  · intro h
    rw [parse, parseDocument_text num h]

variable (k : ℕ)

mutual

/-- The `double`s of a document. -/
def doubles : Json → List Double
  | .double x => [x]
  | .array elems => doublesElems elems
  | .object members => doublesMembers members
  | _ => []

def doublesElems : List Json → List Double
  | [] => []
  | j :: elems => doubles j ++ doublesElems elems

def doublesMembers : List (Bytes × Json) → List Double
  | [] => []
  | (_, j) :: members => doubles j ++ doublesMembers members

end

mutual

/-- Of what was read only the doubles may be written as something else. -/
theorem readable_of_value : ∀ (j : Json) {s : Bytes}, Value num j s →
    (∀ x ∈ doubles j, num.strtod (num.dtoa k x) = some x) → Readable num k j
  | .int n, s, h, _ => by
    rw [Value] at h
    obtain ⟨minus, int, frac, exp, -, -, -, -, -, hval⟩ := h
    dsimp only at hval
    generalize (if minus = [] then (digitsValue int : ℤ) else -digitsValue int) = m at hval
    rw [Readable]
    split_ifs at hval with hm
    · rw [Json.int.inj hval]
      exact hm.2.2
    · obtain ⟨d, -, hd⟩ := hval
      cases hd
  | .double x, s, h, hk => by
    rw [Readable]
    exact hk x (by simp [doubles])
  | .array elems, s, h, hk => by
    rw [Value] at h
    obtain ⟨w, body, -, -, hbody⟩ := h
    rw [Readable]
    exact readable_of_elements elems hbody (by simpa only [doubles] using hk)
  | .object members, s, h, hk => by
    rw [Value] at h
    obtain ⟨w, body, -, -, hbody⟩ := h
    rw [Readable]
    exact readable_of_members members hbody (by simpa only [doubles] using hk)
  | .null, _, _, _ => by simp [Readable]
  | .bool _, _, _, _ => by simp [Readable]
  | .string _, _, _, _ => by simp [Readable]

theorem readable_of_elements : ∀ (elems : List Json) {s : Bytes}, Elements num elems s →
    (∀ x ∈ doublesElems elems, num.strtod (num.dtoa k x) = some x) → ReadableElems num k elems
  | [], _, _, _ => by simp [ReadableElems]
  | [j], s, h, hk => by
    rw [Elements] at h
    obtain ⟨v, w, hv, -, -⟩ := h
    rw [doublesElems, List.forall_mem_append] at hk
    exact ⟨readable_of_value j hv hk.1, by simp [ReadableElems]⟩
  | j :: i :: elems, s, h, hk => by
    rw [doublesElems, List.forall_mem_append] at hk
    rw [Elements] at h
    · obtain ⟨v, w, w', t, hv, -, -, ht, -⟩ := h
      exact ⟨readable_of_value j hv hk.1, readable_of_elements (i :: elems) ht hk.2⟩
    · simp

theorem readable_of_members : ∀ (members : List (Bytes × Json)) {s : Bytes},
    Members num members s → (∀ x ∈ doublesMembers members, num.strtod (num.dtoa k x) = some x) →
      ReadableMembers num k members
  | [], _, _, _ => by simp [ReadableMembers]
  | [(name, j)], s, h, hk => by
    rw [Members] at h
    obtain ⟨raw, w, w', v, u, -, -, -, hv, -⟩ := h
    rw [doublesMembers, List.forall_mem_append] at hk
    exact ⟨readable_of_value j hv hk.1, by simp [ReadableMembers]⟩
  | (name, j) :: m :: members, s, h, hk => by
    rw [doublesMembers, List.forall_mem_append] at hk
    rw [Members] at h
    · obtain ⟨raw, w, w', v, u, u', t, -, -, -, hv, -, -, ht, -⟩ := h
      exact ⟨readable_of_value j hv hk.1, readable_of_members (m :: members) ht hk.2⟩
    · simp

end

/-- A document that was read is read again from what is written of it, if each of its doubles is
from the digits the writer leaves of it. -/
theorem parse_write_of_parse {s : Bytes} {doc : Json} (h : parse num s = .ok doc)
    (hk : ∀ x ∈ doubles doc, num.strtod (num.dtoa k x) = some x) :
    parse num (write num k doc) = .ok doc := by
  obtain ⟨w, v, w', -, hv, -, -⟩ := (parse_eq_ok_iff num).1 h
  exact parse_write num k (readable_of_value num k doc hv hk)

/-- A list with blanks and a fraction. -/
theorem parse_write_of_parse_whole :
    parse .whole (write .whole 324 (.array [.bool true, .double 2]))
      = .ok (.array [.bool true, .double 2]) := by
  refine parse_write_of_parse .whole 324 (s := lit "[ true, 2.0 ]") ?_ fun x hx => ?_
  swap
  · obtain rfl : x = 2 := by simpa [doubles, doublesElems] using hx
    rfl
  refine (parse_eq_ok_iff .whole).2 ⟨[], lit "[ true, 2.0 ]", [], ws_nil, ?_, ws_nil, rfl⟩
  rw [Value]
  refine ⟨[32], lit "true, 2.0 ", rfl, rfl, ?_⟩
  rw [Elements]
  · refine ⟨lit "true", [], [32], lit "2.0 ", by rw [Value]; rfl, ws_nil, rfl, ?_, rfl⟩
    rw [Elements]
    refine ⟨lit "2.0", [32], ?_, rfl, rfl⟩
    rw [Value]
    refine ⟨[], [50], [46, 48], [], rfl, .inl rfl, .inr ⟨50, [], rfl, by decide, by decide, rfl⟩,
      .inr ⟨[48], rfl, by simp, rfl⟩, .inl rfl, ?_⟩
    exact ⟨2, rfl, rfl⟩
  · simp

end RapidJson

end OcppServer
