import OcppServer.Lib.Delimited
import OcppServer.Lib.Dict
import OcppServer.Text

/-!
# Header blocks

`parseHeaders` reads lines with `std::getline`, cuts each at its first colon and takes the blanks
off both parts; a line without a colon is skipped. A position is `none` where the search returns
`npos`: `erase(0, npos)` leaves nothing, and neither does `erase(npos + 1)`, for the sum is 0.
-/

namespace OcppServer

/-- The characters of `" \t"`. -/
def IsBlank (c : UInt8) : Prop := c.toNat = 32 ∨ c.toNat = 9

instance (c : UInt8) : Decidable (IsBlank c) := inferInstanceAs (Decidable (_ ∨ _))

/-- `find_first_not_of(" \t")`. -/
def findFirstNotBlank : Bytes → Option ℕ
  | [] => none
  | c :: s => if IsBlank c then (findFirstNotBlank s).map (· + 1) else some 0

/-- `find_last_not_of(" \t")`. -/
def findLastNotBlank : Bytes → Option ℕ
  | [] => none
  | c :: s => ((findLastNotBlank s).map (· + 1)).or (if IsBlank c then none else some 0)

/-- `s.erase(0, s.find_first_not_of(" \t"))`. -/
def eraseLeading (s : Bytes) : Bytes :=
  match findFirstNotBlank s with
  | none => []
  | some pos => s.drop pos

/-- `s.erase(s.find_last_not_of(" \t") + 1)`. -/
def eraseTrailing (s : Bytes) : Bytes :=
  match findLastNotBlank s with
  | none => []
  | some pos => s.take (pos + 1)

/-- The body of the loop. -/
def parseHeaderLine (result : Dict Bytes Bytes) (line : Bytes) : Dict Bytes Bytes :=
  match Delimited.cutAt (lit ":") line with
  | none => result
  | some (key, value) =>
    result.insert (eraseTrailing (eraseLeading key)) (eraseTrailing (eraseLeading value))

def parseHeaders (headers : Bytes) : Dict Bytes Bytes :=
  (Delimited.lines '\n'.toUInt8 headers).foldl parseHeaderLine ∅

end OcppServer
