import OcppServer.Json

/-!
# RapidJSON's reader and writer

The reader with its default flags, on a text that ends at its first NUL, and the compact writer.
Each function of the reader takes the text that is left and returns what it made of it and the
rest; an error keeps the rest it is reported at. The recursion is bounded by a number that the
length of the text provides for. The digits of a `double` are not worked out: the conversions are
`Numbers`, of which the reader takes one and the writer the other.
-/

namespace OcppServer

namespace RapidJson

inductive ParseErrorCode where
  | documentEmpty
  | documentRootNotSingular
  | valueInvalid
  | objectMissName
  | objectMissColon
  | objectMissCommaOrCurlyBracket
  | arrayMissCommaOrSquareBracket
  | stringUnicodeEscapeInvalidHex
  | stringUnicodeSurrogateInvalid
  | stringEscapeInvalid
  | stringMissQuotationMark
  | stringInvalidEncoding
  | numberTooBig
  | numberMissFraction
  | numberMissExponent
  /-- Not an error of the reader: the bound on the recursion was too small. -/
  | outOfFuel
  deriving DecidableEq

/-- `GetParseError_En` -/
def ParseErrorCode.text : ParseErrorCode → Bytes
  | documentEmpty => lit "The document is empty."
  | documentRootNotSingular => lit "The document root must not be followed by other values."
  | valueInvalid => lit "Invalid value."
  | objectMissName => lit "Missing a name for object member."
  | objectMissColon => lit "Missing a colon after a name of object member."
  | objectMissCommaOrCurlyBracket =>
    lit "Missing a comma or '\x7d' after an object member."
  | arrayMissCommaOrSquareBracket => lit "Missing a comma or ']' after an array element."
  | stringUnicodeEscapeInvalidHex => lit "Incorrect hex digit after \\u escape in string."
  | stringUnicodeSurrogateInvalid => lit "The surrogate pair in string is invalid."
  | stringEscapeInvalid => lit "Invalid escape character in string."
  | stringMissQuotationMark => lit "Missing a closing quotation mark in string."
  | stringInvalidEncoding => lit "Invalid encoding in string."
  | numberTooBig => lit "Number too big to be stored in double."
  | numberMissFraction => lit "Miss fraction part in number."
  | numberMissExponent => lit "Miss exponent in number."
  | outOfFuel => []

/-- An error and the text left where it is reported. -/
structure Failure where
  code : ParseErrorCode
  rest : Bytes

abbrev Result (α : Type) := Except Failure (α × Bytes)

def isWhitespace (c : UInt8) : Bool := c = 32 || c = 10 || c = 13 || c = 9

def skipWhitespace (s : Bytes) : Bytes := s.dropWhile isWhitespace

/-! ## Strings -/

def hexDigit? (c : UInt8) : Option ℕ :=
  if 48 ≤ c ∧ c ≤ 57 then some (c.toNat - 48)
  else if 65 ≤ c ∧ c ≤ 70 then some (c.toNat - 55)
  else if 97 ≤ c ∧ c ≤ 102 then some (c.toNat - 87)
  else none

def parseHex4 : Bytes → Option (ℕ × Bytes)
  | a :: b :: c :: d :: s =>
    match hexDigit? a, hexDigit? b, hexDigit? c, hexDigit? d with
    | some a, some b, some c, some d => some (((a * 16 + b) * 16 + c) * 16 + d, s)
    | _, _, _, _ => none
  | _ => none

/-- `UTF8<>::Encode` -/
def encode (codepoint : ℕ) : Bytes :=
  if codepoint ≤ 0x7F then [UInt8.ofNat codepoint]
  else if codepoint ≤ 0x7FF then
    [UInt8.ofNat (0xC0 + codepoint / 64), UInt8.ofNat (0x80 + codepoint % 64)]
  else if codepoint ≤ 0xFFFF then
    [UInt8.ofNat (0xE0 + codepoint / 4096), UInt8.ofNat (0x80 + codepoint / 64 % 64),
      UInt8.ofNat (0x80 + codepoint % 64)]
  else
    [UInt8.ofNat (0xF0 + codepoint / 262144), UInt8.ofNat (0x80 + codepoint / 4096 % 64),
      UInt8.ofNat (0x80 + codepoint / 64 % 64), UInt8.ofNat (0x80 + codepoint % 64)]

/-- The table `escape` of the reader. -/
def escaped? (c : UInt8) : Option UInt8 :=
  if c = 34 then some 34
  else if c = 47 then some 47
  else if c = 92 then some 92
  else if c = 98 then some 8
  else if c = 102 then some 12
  else if c = 110 then some 10
  else if c = 114 then some 13
  else if c = 116 then some 9
  else none

/-- What follows `\u`. -/
def parseUnicode (s : Bytes) : Except ParseErrorCode (Bytes × Bytes) :=
  match parseHex4 s with
  | none => .error .stringUnicodeEscapeInvalidHex
  | some (codepoint, s) =>
    if 0xD800 ≤ codepoint ∧ codepoint ≤ 0xDFFF then
      if codepoint ≤ 0xDBFF then
        match s with
        | 92 :: 117 :: s =>
          match parseHex4 s with
          | none => .error .stringUnicodeEscapeInvalidHex
          | some (codepoint2, s) =>
            if codepoint2 < 0xDC00 ∨ codepoint2 > 0xDFFF then
              .error .stringUnicodeSurrogateInvalid
            else
              .ok (encode ((codepoint - 0xD800) * 1024 + (codepoint2 - 0xDC00) + 0x10000), s)
        | _ => .error .stringUnicodeSurrogateInvalid
      else .error .stringUnicodeSurrogateInvalid
    else .ok (encode codepoint, s)

/-- What follows a backslash; its errors are reported at the backslash. -/
def parseEscape : Bytes → Except ParseErrorCode (Bytes × Bytes)
  | [] => .error .stringEscapeInvalid
  | e :: s =>
    match escaped? e with
    | some c => .ok ([c], s)
    | none => if e = 117 then parseUnicode s else .error .stringEscapeInvalid

/-- `ParseStringToStream`, behind the opening quote. -/
def parseStringToStream : ℕ → Bytes → Result Bytes
  | 0, s => .error ⟨.outOfFuel, s⟩
  | _ + 1, [] => .error ⟨.stringMissQuotationMark, []⟩
  | n + 1, c :: s =>
    if c = 92 then
      match parseEscape s with
      | .error code => .error ⟨code, c :: s⟩
      | .ok (t, s) => (parseStringToStream n s).map fun r => (t ++ r.1, r.2)
    else if c = 34 then .ok ([], s)
    else if c = 0 then .error ⟨.stringMissQuotationMark, c :: s⟩
    else if c < 32 then .error ⟨.stringInvalidEncoding, c :: s⟩
    else (parseStringToStream n s).map fun r => (c :: r.1, r.2)

/-! ## Numbers -/

def isDigit (c : UInt8) : Bool := 48 ≤ c && c ≤ 57

/-- `int = zero / ( digit1-9 *DIGIT )` -/
def IsInteger (s : Bytes) : Prop :=
  s = [48] ∨ ∃ c t, s = c :: t ∧ c ≠ 48 ∧ isDigit c = true ∧ t.all isDigit = true

/-- `frac = decimal-point 1*DIGIT` -/
def IsFraction (s : Bytes) : Prop := ∃ t, s = 46 :: t ∧ t ≠ [] ∧ t.all isDigit = true

/-- `exp = e [ minus / plus ] 1*DIGIT` -/
def IsExponent (s : Bytes) : Prop :=
  ∃ e sign t, s = e :: (sign ++ t) ∧ (e = 101 ∨ e = 69) ∧ (sign = [] ∨ sign = [43] ∨ sign = [45])
    ∧ t ≠ [] ∧ t.all isDigit = true

/-- A number that is read as a `double`. -/
def IsDoubleText (s : Bytes) : Prop :=
  ∃ minus int frac exp, s = minus ++ (int ++ (frac ++ exp)) ∧ (minus = [] ∨ minus = [45])
    ∧ IsInteger int ∧ (frac = [] ∨ IsFraction frac) ∧ (exp = [] ∨ IsExponent exp)
    ∧ (frac ≠ [] ∨ exp ≠ [])

/-- The conversions between doubles and digits: the writer's `dtoa`, given the most decimal places,
which always puts a point or an exponent, and the reader's, which fails where the number is too
big. -/
structure Numbers where
  dtoa : ℕ → Double → Bytes
  strtod : Bytes → Option Double
  dtoa_text : ∀ k x, IsDoubleText (dtoa k x)

/-- The value of a row of digits. -/
def digitsValue (s : Bytes) : ℕ := s.foldl (fun n c => n * 10 + (c.toNat - 48)) 0

/-- The rest behind `frac = decimal-point 1*DIGIT`, and whether there is one. -/
def parseFraction : Bytes → Except Failure (Bool × Bytes)
  | 46 :: s =>
    if (s.takeWhile isDigit).isEmpty then .error ⟨.numberMissFraction, s⟩
    else .ok (true, s.dropWhile isDigit)
  | s => .ok (false, s)

def skipSign : Bytes → Bytes
  | 43 :: s => s
  | 45 :: s => s
  | s => s

/-- The rest behind `exp = e [ minus / plus ] 1*DIGIT`, and whether there is one. -/
def parseExponent : Bytes → Except Failure (Bool × Bytes)
  | c :: s =>
    if c = 101 ∨ c = 69 then
      let s := skipSign s
      if (s.takeWhile isDigit).isEmpty then .error ⟨.numberMissExponent, s⟩
      else .ok (true, s.dropWhile isDigit)
    else .ok (false, c :: s)
  | [] => .ok (false, [])

/-- An integer that fits in 64 bits stays one. -/
def IsInt64 (n : ℤ) : Prop := -2 ^ 63 ≤ n ∧ n < 2 ^ 64

instance (n : ℤ) : Decidable (IsInt64 n) := inferInstanceAs (Decidable (_ ∧ _))

variable (num : Numbers)

/-- The number whose text is what `s` has before `rest`, with its integer part. -/
def numberOf (n : ℤ) (isInteger : Bool) (s rest : Bytes) : Result Json :=
  if isInteger ∧ IsInt64 n then .ok (.int n, rest)
  else
    match num.strtod (s.take (s.length - rest.length)) with
    | some d => .ok (.double d, rest)
    | none => .error ⟨.numberTooBig, s⟩

/-- `ParseNumber`, behind the sign of the text `s`. -/
def parseUnsigned (minus : Bool) (s : Bytes) : Bytes → Result Json
  | [] => .error ⟨.valueInvalid, []⟩
  | c :: t =>
    if isDigit c then
      -- Nothing follows a leading zero.
      let digits := if c = 48 then [c] else c :: t.takeWhile isDigit
      let t := if c = 48 then t else t.dropWhile isDigit
      match parseFraction t with
      | .error e => .error e
      | .ok (frac, t) =>
        match parseExponent t with
        | .error e => .error e
        | .ok (exp, t) =>
          let n : ℤ := digitsValue digits
          numberOf num (if minus then -n else n) (!frac && !exp) s t
    else .error ⟨.valueInvalid, c :: t⟩

def parseNumber : Bytes → Result Json
  | 45 :: t => parseUnsigned num true (45 :: t) t
  | s => parseUnsigned num false s s

/-! ## Values -/

/-- `ParseNull`, `ParseTrue` and `ParseFalse`: the letters of the word one after another. -/
def parseWord (value : Json) : Bytes → Bytes → Result Json
  | [], s => .ok (value, s)
  | w :: word, c :: s =>
    if c = w then parseWord value word s else .error ⟨.valueInvalid, c :: s⟩
  | _ :: _, [] => .error ⟨.valueInvalid, []⟩

mutual

def parseValue : ℕ → Bytes → Result Json
  | 0, s => .error ⟨.outOfFuel, s⟩
  | n + 1, s =>
    match s with
    | 110 :: _ => parseWord .null (lit "null") s
    | 116 :: _ => parseWord (.bool true) (lit "true") s
    | 102 :: _ => parseWord (.bool false) (lit "false") s
    | 34 :: t => (parseStringToStream (t.length + 1) t).map fun r => (.string r.1, r.2)
    | 123 :: t =>
      match skipWhitespace t with
      | 125 :: t => .ok (.object [], t)
      | t => (parseMembers n t).map fun r => (.object r.1, r.2)
    | 91 :: t =>
      match skipWhitespace t with
      | 93 :: t => .ok (.array [], t)
      | t => (parseElements n t).map fun r => (.array r.1, r.2)
    | s => parseNumber num s

/-- The loop of `ParseArray`. -/
def parseElements : ℕ → Bytes → Result (List Json)
  | 0, s => .error ⟨.outOfFuel, s⟩
  | n + 1, s =>
    match parseValue n s with
    | .error e => .error e
    | .ok (value, s) =>
      match skipWhitespace s with
      | 44 :: s => (parseElements n (skipWhitespace s)).map fun r => (value :: r.1, r.2)
      | 93 :: s => .ok ([value], s)
      | s => .error ⟨.arrayMissCommaOrSquareBracket, s⟩

/-- The loop of `ParseObject`. -/
def parseMembers : ℕ → Bytes → Result (List (Bytes × Json))
  | 0, s => .error ⟨.outOfFuel, s⟩
  | n + 1, s =>
    match s with
    | 34 :: t =>
      match parseStringToStream (t.length + 1) t with
      | .error e => .error e
      | .ok (name, s) =>
        match skipWhitespace s with
        | 58 :: s =>
          match parseValue n (skipWhitespace s) with
          | .error e => .error e
          | .ok (value, s) =>
            match skipWhitespace s with
            | 44 :: s =>
              (parseMembers n (skipWhitespace s)).map fun r => ((name, value) :: r.1, r.2)
            | 125 :: s => .ok ([(name, value)], s)
            | s => .error ⟨.objectMissCommaOrCurlyBracket, s⟩
        | s => .error ⟨.objectMissColon, s⟩
    | s => .error ⟨.objectMissName, s⟩

end

/-- `GenericReader::Parse` of a text without NULs. -/
def parseDocument (s : Bytes) : Except Failure Json :=
  match skipWhitespace s with
  | [] => .error ⟨.documentEmpty, []⟩
  | s =>
    match parseValue num (2 * s.length + 2) s with
    | .error e => .error e
    | .ok (value, s) =>
      match skipWhitespace s with
      | [] => .ok value
      | s => .error ⟨.documentRootNotSingular, s⟩

/-- `Document::Parse` of a `const char*`. -/
def parse (text : Bytes) : Except ParseError Json :=
  match parseDocument num (cstr text) with
  | .ok doc => .ok doc
  | .error e => .error ⟨e.code.text, (cstr text).length - e.rest.length⟩

/-! ## The writer -/

variable (maxDecimalPlaces : ℕ)

mutual

def write : Json → Bytes
  | .null => lit "null"
  | .bool b => if b then lit "true" else lit "false"
  | .int n => decimal n
  | .double x => num.dtoa maxDecimalPlaces x
  | .string s => writeString s
  | .array elems => 91 :: (writeElements elems ++ [93])
  | .object members => 123 :: (writeMembers members ++ [125])

/-- The elements with the commas of `Prefix` between them. -/
def writeElements : List Json → Bytes
  | [] => []
  | [j] => write j
  | j :: elems => write j ++ 44 :: writeElements elems

def writeMembers : List (Bytes × Json) → Bytes
  | [] => []
  | [(name, j)] => writeString name ++ 58 :: write j
  | (name, j) :: members => writeString name ++ 58 :: (write j ++ 44 :: writeMembers members)

end

/-- `kDefaultMaxDecimalPlaces` -/
def defaultMaxDecimalPlaces : ℕ := 324

end RapidJson

end OcppServer
