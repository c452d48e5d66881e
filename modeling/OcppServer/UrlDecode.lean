import OcppServer.Text

/-!
# Form-encoded text

`urlDecode` scans its argument by index: an escape moves the index by three, everything else by
one. The two bytes behind a `%` go through `iss >> std::hex >> value`, which has a grammar of its
own (`extractHex`): blanks are skipped, a sign and a `0x` may lead, and the digits end at the
first byte that is none.
-/

namespace OcppServer

/-- What a byte counts as a digit of base 16, in either case. -/
def hexDigit? (c : UInt8) : Option ℕ :=
  if 48 ≤ c.toNat ∧ c.toNat ≤ 57 then some (c.toNat - 48)
  else if 65 ≤ c.toNat ∧ c.toNat ≤ 70 then some (c.toNat - 55)
  else if 97 ≤ c.toNat ∧ c.toNat ≤ 102 then some (c.toNat - 87)
  else none

/-- `std::isspace` of the classic locale. -/
def IsSpace (c : UInt8) : Prop := c.toNat = 32 ∨ 9 ≤ c.toNat ∧ c.toNat ≤ 13

instance (c : UInt8) : Decidable (IsSpace c) := inferInstanceAs (Decidable (_ ∨ _))

/-- The digits up to the first byte that is none, added to those already read. -/
def extractDigits : Option ℕ → Bytes → Option ℕ
  | read, [] => read
  | read, c :: rest =>
    match hexDigit? c with
    | some d => extractDigits (some (16 * read.getD 0 + d)) rest
    | none => read

/-- The digits behind a `0x`, if one leads; the `0` of it is no digit then. -/
def extractMagnitude (s : Bytes) : Option ℕ :=
  match s with
  | zero :: x :: rest =>
    if zero.toNat = 48 ∧ (x.toNat = 120 ∨ x.toNat = 88) then extractDigits none rest
    else extractDigits none s
  | _ => extractDigits none s

/-- The magnitude behind a sign, if one leads. -/
def extractSigned (s : Bytes) : Option ℤ :=
  match s with
  | c :: rest =>
    if c.toNat = 45 then (extractMagnitude rest).map fun n : ℕ => -(n : ℤ)
    else if c.toNat = 43 then (extractMagnitude rest).map fun n : ℕ => (n : ℤ)
    else (extractMagnitude s).map fun n : ℕ => (n : ℤ)
  | [] => none

/-- `iss >> std::hex >> value`; of two bytes no value is out of the range of an `int`. -/
def extractHex (s : Bytes) : Option ℤ := extractSigned (s.dropWhile fun c => IsSpace c)

/-- The index and the `result` of the loop. -/
structure UrlDecodeLoop where
  i : ℕ
  result : Bytes
deriving DecidableEq

/-- The body of the loop with its `++i`. -/
def urlDecodeStep (encoded : Bytes) (loop : UrlDecodeLoop) : UrlDecodeLoop :=
  match encoded[loop.i]? with
  | none => loop
  | some c =>
    if c = '%'.toUInt8 ∧ loop.i + 2 < encoded.length then
      match extractHex ((encoded.drop (loop.i + 1)).take 2) with
      | some value => ⟨loop.i + 2 + 1, loop.result ++ [UInt8.ofInt value]⟩
      | none => ⟨loop.i + 1, loop.result ++ [c]⟩
    else if c = '+'.toUInt8 then ⟨loop.i + 1, loop.result ++ [' '.toUInt8]⟩
    else ⟨loop.i + 1, loop.result ++ [c]⟩

theorem lt_urlDecodeStep {encoded : Bytes} {loop : UrlDecodeLoop} (h : loop.i < encoded.length) :
    loop.i < (urlDecodeStep encoded loop).i := by
  rw [urlDecodeStep, List.getElem?_eq_getElem h]
  dsimp only
  split
  · rcases extractHex ((encoded.drop (loop.i + 1)).take 2) with _ | value
    · exact Nat.lt_succ_self _
    · show loop.i < loop.i + 2 + 1
      omega
  · split <;> simp

def urlDecodeLoop (encoded : Bytes) (loop : UrlDecodeLoop) : Bytes :=
  if loop.i < encoded.length then urlDecodeLoop encoded (urlDecodeStep encoded loop)
  else loop.result
termination_by encoded.length - loop.i
decreasing_by
  have := lt_urlDecodeStep ‹_›
  omega

def urlDecode (encoded : Bytes) : Bytes := urlDecodeLoop encoded ⟨0, []⟩

/-- The states the loop passes on its way through the string. -/
inductive UrlDecodeLoop.Reached (encoded : Bytes) : UrlDecodeLoop → Prop
  | start : Reached encoded ⟨0, []⟩
  | step {loop : UrlDecodeLoop} : Reached encoded loop → loop.i < encoded.length →
      Reached encoded (urlDecodeStep encoded loop)

end OcppServer
