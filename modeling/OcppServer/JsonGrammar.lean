import OcppServer.RapidJson

/-!
# JSON texts

The grammar of RFC 8259 on bytes, by the value a text stands for: the white space, the escapes of
strings and the numbers are free. As in the reader, strings are not checked to be UTF-8, the value
of a whole number that fits in 64 bits is an integer, and any other number has the value the
conversion gives it, if it gives one.
-/

namespace OcppServer

namespace JsonGrammar

open RapidJson (isWhitespace hexDigit? escaped? encode digitsValue IsInteger IsFraction IsExponent
  IsInt64 Numbers)

/-- `ws` -/
def Ws (s : Bytes) : Prop := s.all isWhitespace = true

/-- `4HEXDIG` with its value. -/
def Hex4 (s : Bytes) (n : ℕ) : Prop :=
  ∃ a b c d a' b' c' d', s = [a, b, c, d] ∧ hexDigit? a = some a' ∧ hexDigit? b = some b'
    ∧ hexDigit? c = some c' ∧ hexDigit? d = some d' ∧ n = ((a' * 16 + b') * 16 + c') * 16 + d'

/-- `*char` with the bytes it stands for. -/
inductive Chars : Bytes → Bytes → Prop
  | nil : Chars [] []
  | unescaped {s v : Bytes} (c : UInt8) (h92 : c ≠ 92) (h34 : c ≠ 34) (h32 : ¬ c < 32)
    (h : Chars s v) : Chars (c :: s) (c :: v)
  | escape {s v : Bytes} (c d : UInt8) (hc : escaped? c = some d) (h : Chars s v) :
    Chars (92 :: c :: s) (d :: v)
  | unicode {x s v : Bytes} (n : ℕ) (hx : Hex4 x n) (hn : ¬ (0xD800 ≤ n ∧ n ≤ 0xDFFF))
    (h : Chars s v) : Chars (92 :: 117 :: (x ++ s)) (encode n ++ v)
  | surrogates {x y s v : Bytes} (hi lo : ℕ) (hx : Hex4 x hi) (hy : Hex4 y lo)
    (hhi : 0xD800 ≤ hi ∧ hi ≤ 0xDBFF) (hlo : 0xDC00 ≤ lo ∧ lo ≤ 0xDFFF) (h : Chars s v) :
    Chars (92 :: 117 :: (x ++ 92 :: 117 :: (y ++ s)))
      (encode ((hi - 0xD800) * 1024 + (lo - 0xDC00) + 0x10000) ++ v)

variable (num : Numbers)

/-- `number = [ minus ] int [ frac ] [ exp ]` with its value. -/
def Number (s : Bytes) (j : Json) : Prop :=
  ∃ minus int frac exp, s = minus ++ (int ++ (frac ++ exp)) ∧ (minus = [] ∨ minus = [45])
    ∧ IsInteger int ∧ (frac = [] ∨ IsFraction frac) ∧ (exp = [] ∨ IsExponent exp)
    ∧ let n : ℤ := if minus = [] then digitsValue int else -digitsValue int
      if frac = [] ∧ exp = [] ∧ IsInt64 n then j = .int n
      else ∃ d, num.strtod s = some d ∧ j = .double d

mutual

/-- `value` -/
def Value : Json → Bytes → Prop
  | .null, s => s = lit "null"
  | .bool b, s => s = if b then lit "true" else lit "false"
  | .int n, s => Number num s (.int n)
  | .double x, s => Number num s (.double x)
  | .string v, s => ∃ raw, Chars raw v ∧ s = 34 :: (raw ++ [34])
  | .array elems, s => ∃ w body, Ws w ∧ s = 91 :: (w ++ (body ++ [93])) ∧ Elements elems body
  | .object members, s =>
    ∃ w body, Ws w ∧ s = 123 :: (w ++ (body ++ [125])) ∧ Members members body

/-- `[ value *( value-separator value ) ]` -/
def Elements : List Json → Bytes → Prop
  | [], s => s = []
  | [j], s => ∃ v w, Value j v ∧ Ws w ∧ s = v ++ w
  | j :: elems, s =>
    ∃ v w w' t, Value j v ∧ Ws w ∧ Ws w' ∧ Elements elems t ∧ s = v ++ (w ++ 44 :: (w' ++ t))

/-- `[ member *( value-separator member ) ]` -/
def Members : List (Bytes × Json) → Bytes → Prop
  | [], s => s = []
  | [(name, j)], s => ∃ raw w w' v u, Chars raw name ∧ Ws w ∧ Ws w' ∧ Value j v ∧ Ws u
    ∧ s = 34 :: (raw ++ 34 :: (w ++ 58 :: (w' ++ (v ++ u))))
  | (name, j) :: members, s =>
    ∃ raw w w' v u u' t, Chars raw name ∧ Ws w ∧ Ws w' ∧ Value j v ∧ Ws u ∧ Ws u'
      ∧ Members members t
      ∧ s = 34 :: (raw ++ 34 :: (w ++ 58 :: (w' ++ (v ++ (u ++ 44 :: (u' ++ t))))))

end

/-- `JSON-text = ws value ws` -/
def Text (j : Json) (s : Bytes) : Prop :=
  ∃ w v w', Ws w ∧ Value num j v ∧ Ws w' ∧ s = w ++ (v ++ w')

end JsonGrammar

end OcppServer
