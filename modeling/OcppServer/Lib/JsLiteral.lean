import Mathlib.Data.List.Infix
import OcppServer.Lib.Utf16

/-!
# JavaScript string literals

Reading a string literal of sloppy-mode code, with all its escapes, and a call whose two arguments
are such literals. A literal is never shorter than what it denotes, and if it is not longer it is
spelled as it denotes (`literalBody_spec`).
-/

namespace JsLiteral

open Utf16 (unit)

/-- White space and line terminators. -/
def IsSpace (c : UInt16) : Prop :=
  c.toNat ∈ [9, 10, 11, 12, 13, 32, 0xA0, 0x1680, 0x2028, 0x2029, 0x202F, 0x205F, 0x3000, 0xFEFF]
    ∨ 0x2000 ≤ c.toNat ∧ c.toNat ≤ 0x200A

instance (c : UInt16) : Decidable (IsSpace c) := inferInstanceAs (Decidable (_ ∨ _))

def hexDigit? (c : UInt16) : Option ℕ :=
  if 48 ≤ c.toNat ∧ c.toNat ≤ 57 then some (c.toNat - 48)
  else if 65 ≤ c.toNat ∧ c.toNat ≤ 70 then some (c.toNat - 55)
  else if 97 ≤ c.toNat ∧ c.toNat ≤ 102 then some (c.toNat - 87)
  else none

def hexNumber? (digits : List UInt16) : Option ℕ :=
  digits.foldlM (fun n c => (hexDigit? c).map (16 * n + ·)) 0

def IsOctalDigit (c : UInt16) : Prop := 48 ≤ c.toNat ∧ c.toNat ≤ 55

instance (c : UInt16) : Decidable (IsOctalDigit c) := inferInstanceAs (Decidable (_ ∧ _))

/-- The units of a code point. -/
def codePoint (n : ℕ) : List UInt16 :=
  if n < 0x10000 then [UInt16.ofNat n]
  else [UInt16.ofNat (0xD800 + (n - 0x10000) / 0x400),
    UInt16.ofNat (0xDC00 + (n - 0x10000) % 0x400)]

/-- The character behind a backslash that has no escape of its own stands for itself. -/
def singleEscape (c : UInt16) : UInt16 :=
  if c = unit 'b' then 8
  else if c = unit 't' then 9
  else if c = unit 'n' then 10
  else if c = unit 'v' then 11
  else if c = unit 'f' then 12
  else if c = unit 'r' then 13
  else c

/-- Up to three digits, as long as the number is below 256. -/
def octalEscape (c : UInt16) (s : List UInt16) : List UInt16 × ℕ :=
  let more := (s.takeWhile fun d => IsOctalDigit d).take (if c.toNat ≤ 51 then 2 else 1)
  ([UInt16.ofNat ((c :: more).foldl (fun n d => 8 * n + (d.toNat - 48)) 0)], more.length + 1)

/-- `\xHH`, behind the `x`. -/
def hexEscape? (s : List UInt16) : Option (List UInt16 × ℕ) :=
  if s.length < 2 then none
  else (hexNumber? (s.take 2)).map fun n => ([UInt16.ofNat n], 3)

/-- `\uHHHH` and the form in braces, behind the `u`. -/
def unicodeEscape? (s : List UInt16) : Option (List UInt16 × ℕ) :=
  if s.head? = some (unit '\x7b') then
    let digits := s.tail.takeWhile (· ≠ unit '\x7d')
    if digits = [] ∨ s.length ≤ digits.length + 1 then none
    else (hexNumber? digits).bind fun n =>
      if n ≤ 0x10FFFF then some (codePoint n, digits.length + 3) else none
  else if s.length < 4 then none
  else (hexNumber? (s.take 4)).map fun n => ([UInt16.ofNat n], 5)

/-- What stands behind a backslash: what it denotes and how many units it takes. -/
def escape? : List UInt16 → Option (List UInt16 × ℕ)
  | [] => none
  | c :: s =>
    if c = 10 ∨ c = 0x2028 ∨ c = 0x2029 then some ([], 1)
    else if c = 13 then some ([], if s.head? = some 10 then 2 else 1)
    else if c = unit 'x' then hexEscape? s
    else if c = unit 'u' then unicodeEscape? s
    else if IsOctalDigit c then some (octalEscape c s)
    else some ([singleEscape c], 1)

/-- A literal behind its opening quote `q`: what it denotes and what follows it. The number counts
the units of an escape that is underway. -/
def literalBody (q : UInt16) : ℕ → List UInt16 → Option (List UInt16 × List UInt16)
  | _, [] => none
  | n + 1, _ :: s => literalBody q n s
  | 0, c :: s =>
    if c = q then some ([], s)
    else if c = 10 ∨ c = 13 then none
    else if c = unit '\\' then
      (escape? s).bind fun e => (literalBody q e.2 s).map (Prod.map (e.1 ++ ·) id)
    else (literalBody q 0 s).map (Prod.map (c :: ·) id)

def skipSpace (s : List UInt16) : List UInt16 := s.dropWhile fun c => IsSpace c

/-- What follows the token. -/
def token? (t s : List UInt16) : Option (List UInt16) :=
  if t <+: skipSpace s then some ((skipSpace s).drop t.length) else none

/-- A literal, and what follows it. -/
def literal? (s : List UInt16) : Option (List UInt16 × List UInt16) :=
  match skipSpace s with
  | [] => none
  | q :: s => if q = unit '\'' ∨ q = unit '"' then literalBody q 0 s else none

/-- Two literals as the arguments of a call, behind its opening parenthesis, and nothing else. -/
def arguments? (s : List UInt16) : Option (List UInt16 × List UInt16) :=
  (literal? s).bind fun a =>
    (token? [unit ','] a.2).bind fun s =>
      (literal? s).bind fun b =>
        (token? [unit ')'] b.2).bind fun s =>
          if skipSpace s = [] then some (a.1, b.1) else none

/-- The arguments of the call with the tokens of `callee`, if the text is that call. -/
def call? (callee : List (List UInt16)) (s : List UInt16) : Option (List UInt16 × List UInt16) :=
  (callee.foldlM (fun s t => token? t s) s).bind arguments?

/-- A unit that stands for itself within the quotes. -/
def Plain (q c : UInt16) : Prop := c ≠ q ∧ c ≠ 10 ∧ c ≠ 13 ∧ c ≠ unit '\\'

instance (q c : UInt16) : Decidable (Plain q c) := inferInstanceAs (Decidable (_ ∧ _))

theorem codePoint_length (n : ℕ) : (codePoint n).length ≤ 2 := by
  unfold codePoint
  split_ifs <;> simp

theorem hexEscape?_length {s value : List UInt16} {n : ℕ}
    (h : hexEscape? s = some (value, n)) : value.length ≤ n := by
  unfold hexEscape? at h
  split_ifs at h
  obtain ⟨m, -, he⟩ := Option.map_eq_some_iff.1 h
  obtain ⟨rfl, rfl⟩ := Prod.mk.inj he
  simp

theorem unicodeEscape?_length {s value : List UInt16} {n : ℕ}
    (h : unicodeEscape? s = some (value, n)) : value.length ≤ n := by
  unfold unicodeEscape? at h
  dsimp only at h
  split_ifs at h
  · obtain ⟨m, -, hm⟩ := Option.bind_eq_some_iff.1 h
    split_ifs at hm
    obtain ⟨rfl, rfl⟩ := Prod.mk.inj (Option.some.inj hm)
    have := codePoint_length m
    omega
  · obtain ⟨m, -, he⟩ := Option.map_eq_some_iff.1 h
    obtain ⟨rfl, rfl⟩ := Prod.mk.inj he
    simp

theorem escape?_length {s value : List UInt16} {n : ℕ} (h : escape? s = some (value, n)) :
    value.length ≤ n := by
  rcases s with _ | ⟨c, s⟩
  · cases h
  rw [escape?] at h
  split_ifs at h with hline hcr hcrlf hx hu hoctal
  · obtain ⟨rfl, rfl⟩ := Prod.mk.inj (Option.some.inj h)
    simp
  · obtain ⟨rfl, rfl⟩ := Prod.mk.inj (Option.some.inj h)
    simp
  · obtain ⟨rfl, rfl⟩ := Prod.mk.inj (Option.some.inj h)
    simp
  · exact hexEscape?_length h
  · exact unicodeEscape?_length h
  · obtain ⟨rfl, rfl⟩ := Prod.mk.inj (Option.some.inj h)
    simp
  · obtain ⟨rfl, rfl⟩ := Prod.mk.inj (Option.some.inj h)
    simp

/-- What a literal denotes is not longer than the literal, and is how it is spelled if not
shorter. -/
theorem literalBody_spec {q : UInt16} : ∀ {s : List UInt16} {n : ℕ} {value rest : List UInt16},
    literalBody q n s = some (value, rest) →
      ∃ source, s = source ++ q :: rest ∧ value.length + n ≤ source.length
        ∧ (source.length ≤ value.length → source = value ∧ ∀ c ∈ value, Plain q c)
  | _ :: s, n + 1, value, rest, h => by
    rw [literalBody] at h
    obtain ⟨source, rfl, hlen, -⟩ := literalBody_spec h
    refine ⟨_ :: source, rfl, ?_, fun hle => ?_⟩
    · rw [List.length_cons]
      omega
    · rw [List.length_cons] at hle
      omega
  | c :: s, 0, value, rest, h => by
    rw [literalBody] at h
    split_ifs at h with hq hbreak hescape
    · cases h
      exact ⟨[], by rw [hq, List.nil_append], by simp, fun _ => ⟨rfl, by simp⟩⟩
    · obtain ⟨⟨denoted, n⟩, hescaped, h⟩ := Option.bind_eq_some_iff.1 h
      obtain ⟨⟨value, rest⟩, hbody, he⟩ := Option.map_eq_some_iff.1 h
      obtain ⟨rfl, rfl⟩ := Prod.mk.inj he
      obtain ⟨source, rfl, hlen, -⟩ := literalBody_spec hbody
      have hdenoted := escape?_length hescaped
      dsimp only at hlen ⊢
      refine ⟨c :: source, rfl, ?_, fun hle => ?_⟩
      · rw [List.length_append, List.length_cons]
        omega
      · rw [List.length_append, List.length_cons] at hle
        omega
    · obtain ⟨⟨value, rest⟩, hbody, he⟩ := Option.map_eq_some_iff.1 h
      obtain ⟨rfl, rfl⟩ := Prod.mk.inj he
      obtain ⟨source, rfl, hlen, hplain⟩ := literalBody_spec hbody
      refine ⟨c :: source, rfl, ?_, fun hle => ?_⟩
      · rw [List.length_cons, List.length_cons]
        omega
      · rw [List.length_cons, List.length_cons] at hle
        obtain ⟨rfl, hall⟩ := hplain (by omega)
        refine ⟨rfl, fun d hd => ?_⟩
        rcases List.mem_cons.1 hd with rfl | hd
        · rw [not_or] at hbreak
          exact ⟨hq, hbreak.1, hbreak.2, hescape⟩
        · exact hall d hd

theorem literalBody_plain {q : UInt16} (rest : List UInt16) :
    ∀ {value : List UInt16}, (∀ c ∈ value, Plain q c) →
      literalBody q 0 (value ++ q :: rest) = some (value, rest)
  | [], _ => by rw [List.nil_append, literalBody, if_pos rfl]
  | c :: value, h => by
    obtain ⟨hq, hlf, hcr, hescape⟩ := h c (by simp)
    have ih := literalBody_plain rest fun d hd => h d (List.mem_cons_of_mem _ hd)
    rw [List.cons_append, literalBody, if_neg hq, if_neg (by simp [hlf, hcr]), if_neg hescape, ih]
    rfl

/-! ## Calls -/

theorem skipSpace_cons {c : UInt16} (h : ¬ IsSpace c) (s : List UInt16) :
    skipSpace (c :: s) = c :: s := List.dropWhile_cons_of_neg (by simpa using h)

theorem skipSpace_length (s : List UInt16) : (skipSpace s).length ≤ s.length :=
  (List.dropWhile_suffix _).length_le

theorem token?_append {c : UInt16} (h : ¬ IsSpace c) (t s : List UInt16) :
    token? (c :: t) (c :: t ++ s) = some s := by
  have hskip : skipSpace (c :: t ++ s) = c :: t ++ s := skipSpace_cons h (t ++ s)
  rw [token?, hskip, if_pos (List.prefix_append _ _), List.drop_left]

theorem call?_cons (t : List UInt16) (callee : List (List UInt16)) (s : List UInt16) :
    call? (t :: callee) s = (token? t s).bind (call? callee) := by
  rw [call?, List.foldlM_cons, Option.bind_eq_bind, Option.bind_assoc]
  rfl

/-- A call of a name that is spelled without white space. -/
theorem call?_flatten (s : List UInt16) : ∀ {callee : List (List UInt16)},
    (callee.all fun t => t.head?.any fun c => ¬ IsSpace c) = true →
      call? callee (callee.flatten ++ s) = arguments? s
  | [], _ => rfl
  | [] :: _, h => by simp at h
  | (c :: t) :: callee, h => by
    rw [List.all_cons, Bool.and_eq_true] at h
    have hc : ¬ IsSpace c := by simpa using h.1
    rw [List.flatten_cons, List.append_assoc, call?_cons, token?_append hc, Option.bind_some]
    exact call?_flatten s h.2

theorem token?_length {t s rest : List UInt16} (h : token? t s = some rest) :
    t.length + rest.length ≤ s.length := by
  unfold token? at h
  split_ifs at h with hpre
  obtain rfl := Option.some.inj h
  have := hpre.length_le
  have := skipSpace_length s
  rw [List.length_drop]
  omega

theorem literal?_quote (s : List UInt16) :
    literal? (unit '\'' :: s) = literalBody (unit '\'') 0 s := by
  rw [literal?, skipSpace_cons (by decide)]
  exact if_pos (.inl rfl)

theorem literal?_space {c : UInt16} (h : IsSpace c) (s : List UInt16) :
    literal? (c :: s) = literal? s := by
  have hskip : skipSpace (c :: s) = skipSpace s := List.dropWhile_cons_of_pos (by simpa using h)
  rw [literal?, literal?, hskip]

theorem literal?_length {s value rest : List UInt16} (h : literal? s = some (value, rest)) :
    value.length + rest.length + 2 ≤ s.length := by
  unfold literal? at h
  have hskip := skipSpace_length s
  split at h
  · cases h
  · rename_i q body hbody
    split_ifs at h
    obtain ⟨source, rfl, hlen, -⟩ := literalBody_spec h
    rw [hbody, List.length_cons, List.length_append, List.length_cons] at hskip
    omega

theorem arguments?_eq_some {s a b : List UInt16} (h : arguments? s = some (a, b)) :
    ∃ r₁ r₂ r₃ r₄, literal? s = some (a, r₁) ∧ token? [unit ','] r₁ = some r₂
      ∧ literal? r₂ = some (b, r₃) ∧ token? [unit ')'] r₃ = some r₄ ∧ skipSpace r₄ = [] := by
  obtain ⟨⟨a', r₁⟩, ha, h⟩ := Option.bind_eq_some_iff.1 h
  obtain ⟨r₂, hcomma, h⟩ := Option.bind_eq_some_iff.1 h
  obtain ⟨⟨b', r₃⟩, hb, h⟩ := Option.bind_eq_some_iff.1 h
  obtain ⟨r₄, hclose, h⟩ := Option.bind_eq_some_iff.1 h
  split_ifs at h with hend
  obtain ⟨rfl, rfl⟩ := Prod.mk.inj (Option.some.inj h)
  exact ⟨r₁, r₂, r₃, r₄, ha, hcomma, hb, hclose, hend⟩

theorem arguments?_length {s a b : List UInt16} (h : arguments? s = some (a, b)) :
    a.length + b.length + 6 ≤ s.length := by
  obtain ⟨r₁, r₂, r₃, r₄, ha, hcomma, hb, hclose, -⟩ := arguments?_eq_some h
  have h1 := literal?_length ha
  have h2 := token?_length hcomma
  have h3 := literal?_length hb
  have h4 := token?_length hclose
  simp only [List.length_cons, List.length_nil] at h2 h4
  omega

/-- A comma, and a text in quotes as the last argument of a call. -/
def spelledLast (y : List UInt16) : List UInt16 :=
  unit ',' :: unit ' ' :: unit '\'' :: (y ++ [unit '\'', unit ')'])

/-- Two texts in quotes, as the arguments of a call. -/
def spelled (x y : List UInt16) : List UInt16 := unit '\'' :: (x ++ unit '\'' :: spelledLast y)

theorem token?_spelledLast (y : List UInt16) : token? [unit ','] (spelledLast y)
    = some (unit ' ' :: unit '\'' :: (y ++ [unit '\'', unit ')'])) :=
  token?_append (by decide) [] _

theorem literal?_spelledLast (y : List UInt16) :
    literal? (unit ' ' :: unit '\'' :: (y ++ [unit '\'', unit ')']))
      = literalBody (unit '\'') 0 (y ++ [unit '\'', unit ')']) := by
  rw [literal?_space (by decide), literal?_quote]

theorem arguments?_spelled {x y : List UInt16} (hx : ∀ c ∈ x, Plain (unit '\'') c)
    (hy : ∀ c ∈ y, Plain (unit '\'') c) : arguments? (spelled x y) = some (x, y) := by
  have hclose : token? [unit ')'] [unit ')'] = some [] := by decide
  simp only [arguments?, spelled, literal?_quote, literalBody_plain _ hx, Option.bind_some,
    token?_spelledLast, literal?_spelledLast, literalBody_plain _ hy, hclose]
  rfl

/-- Texts that are read as arguments that are not shorter are plain, and are the arguments. -/
theorem plain_of_arguments? {x y a b : List UInt16} (h : arguments? (spelled x y) = some (a, b))
    (hx : x.length ≤ a.length) (hy : y.length ≤ b.length) :
    (x = a ∧ ∀ c ∈ a, Plain (unit '\'') c) ∧ y = b ∧ ∀ c ∈ b, Plain (unit '\'') c := by
  obtain ⟨r₁, r₂, r₃, r₄, ha, hcomma, hb, hclose, -⟩ := arguments?_eq_some h
  have hr₂ := token?_length hcomma
  have hr₃ := literal?_length hb
  have hr₄ := token?_length hclose
  simp only [List.length_cons, List.length_nil] at hr₂ hr₄
  rw [spelled, literal?_quote] at ha
  obtain ⟨source, hsource, hlen, hplain⟩ := literalBody_spec ha
  have htotal := congrArg List.length hsource
  simp only [spelledLast, List.length_append, List.length_cons, List.length_nil] at htotal
  -- The first literal ends at the quote behind `x`: the next unit is a comma.
  have hends : source.length = x.length := by
    by_contra hne
    have hlen' : (x ++ [unit '\'']).length = source.length := by
      rw [List.length_append, List.length_singleton]
      omega
    rw [List.append_cons] at hsource
    have hcomma := (List.cons.inj (List.append_inj hsource hlen').2).1
    exact absurd hcomma (by decide)
  obtain ⟨rfl, hrest⟩ := List.append_inj hsource hends.symm
  obtain ⟨rfl, hxplain⟩ := hplain (by omega)
  refine ⟨⟨rfl, hxplain⟩, ?_⟩
  obtain rfl := (List.cons.inj hrest).2
  obtain rfl := Option.some.inj ((token?_spelledLast y).symm.trans hcomma)
  rw [literal?_spelledLast] at hb
  obtain ⟨source, hsource, hlen, hplain⟩ := literalBody_spec hb
  have htotal := congrArg List.length hsource
  simp only [List.length_append, List.length_cons, List.length_nil] at htotal
  obtain ⟨rfl, -⟩ := List.append_inj hsource (by omega)
  exact hplain (by omega)

end JsLiteral
