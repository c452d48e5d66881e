import Mathlib.Data.Rat.Defs
import OcppServer.Text

/-!
# RapidJSON values

`Json` is a RapidJSON value: an integer keeps its own type beside the doubles, a string carries
its length and so may hold NULs, and an object keeps its members in order, duplicates included.
The parser and the writer belong to `Runtime`, with what else the server takes from its libraries.
-/

namespace OcppServer

/-- A finite `double`, as the rational it denotes. -/
abbrev Double := ℚ

inductive Json where
  | null
  | bool (b : Bool)
  | int (n : ℤ)
  | double (x : Double)
  | string (s : Bytes)
  | array (elems : List Json)
  | object (members : List (Bytes × Json))

namespace Json

/-- `HasMember(name)` and then `[name]`: the first member of that name. -/
def find? (name : Bytes) : Json → Option Json
  | object members => members.lookup name
  | _ => none

def isObject : Json → Bool
  | object _ => true
  | _ => false

/-- The values `IsInt()` accepts. -/
def IsInt32 (n : ℤ) : Prop := -2 ^ 31 ≤ n ∧ n < 2 ^ 31

instance (n : ℤ) : Decidable (IsInt32 n) := inferInstanceAs (Decidable (_ ∧ _))

/-- `IsString()` and then `GetString()`, which the callers turn into a `std::string`. -/
def getString? : Json → Option Bytes
  | string s => some (cstr s)
  | _ => none

/-- `IsInt()` and then `GetInt()`. -/
def getInt? : Json → Option ℤ
  | int n => if IsInt32 n then some n else none
  | _ => none

/-- A member that is there and a string. -/
def stringMember? (name : Bytes) (j : Json) : Option Bytes := (j.find? name).bind getString?

/-- A member that is there and an `int`. -/
def intMember? (name : Bytes) (j : Json) : Option ℤ := (j.find? name).bind getInt?

end Json

/-- What `ParseResult` tells of a failure: `GetParseError_En` of its code, and the offset. -/
structure ParseError where
  text : Bytes
  offset : ℕ

/-- What the server calls in its libraries. -/
structure Runtime where
  /-- `Document::Parse` of a NUL-terminated text. -/
  parse : Bytes → Except ParseError Json
  /-- The text a `Writer` leaves in its `StringBuffer`. -/
  write : Json → Bytes
  /-- `std::to_string(double)`. -/
  doubleToString : Double → Bytes
  /-- The rounding of a `double` operation's exact result. -/
  round : ℚ → Double
  /-- The writer escapes control characters and writes something for every value. -/
  zero_notMem_write : ∀ doc, 0 ∉ write doc
  write_ne_nil : ∀ doc, write doc ≠ []
  zero_notMem_doubleToString : ∀ x, 0 ∉ doubleToString x

section Compact

/-- A byte of a string as `Writer` writes it; upper-case hexadecimal for the control characters
without a short form. -/
def escapeByte (b : UInt8) : Bytes :=
  let hex (n : ℕ) : UInt8 := UInt8.ofNat (if n < 10 then 48 + n else 55 + n)
  if b = 34 ∨ b = 92 then [92, b]
  else if b = 8 then [92, 98]
  else if b = 9 then [92, 116]
  else if b = 10 then [92, 110]
  else if b = 12 then [92, 102]
  else if b = 13 then [92, 114]
  else if b < 32 then [92, 117, 48, 48, hex (b.toNat / 16), hex (b.toNat % 16)]
  else [b]

def writeString (s : Bytes) : Bytes := [34] ++ s.flatMap escapeByte ++ [34]

theorem zero_notMem_escapeByte (b : UInt8) : (0 : UInt8) ∉ escapeByte b := by
  have hhex : ∀ n < 16, (0 : UInt8) ≠ UInt8.ofNat (if n < 10 then 48 + n else 55 + n) := by decide
  have hb := b.toNat_lt
  unfold escapeByte
  split_ifs with h1 h2 h3 h4 h5 h6 h7
  · rcases h1 with rfl | rfl <;> decide
  iterate 5 decide
  · simp only [List.mem_cons, List.not_mem_nil, or_false, not_or]
    refine ⟨by decide, by decide, by decide, by decide, hhex _ ?_, hhex _ ?_⟩ <;> omega
  · rintro h
    rw [List.mem_singleton] at h
    subst h
    exact h7 (by decide)

theorem zero_notMem_writeString (s : Bytes) : (0 : UInt8) ∉ writeString s := by
  simp [writeString, zero_notMem_escapeByte]

mutual

/-- The compact text of a document; of the doubles it knows the whole ones. -/
def Json.compact : Json → Bytes
  | .null => lit "null"
  | .bool b => if b then lit "true" else lit "false"
  | .int n => decimal n
  | .double x => decimal x.num ++ lit ".0"
  | .string s => writeString s
  | .array elems => [91] ++ List.flatten ((compactElems elems).intersperse [44]) ++ [93]
  | .object members => [123] ++ List.flatten ((compactMembers members).intersperse [44]) ++ [125]

def Json.compactElems : List Json → List Bytes
  | [] => []
  | j :: js => j.compact :: compactElems js

def Json.compactMembers : List (Bytes × Json) → List Bytes
  | [] => []
  | (name, j) :: ms => (writeString name ++ [58] ++ j.compact) :: compactMembers ms

end

theorem mem_flatten_intersperse {α : Type*} {x : α} {sep : List α} : ∀ {l : List (List α)},
    x ∈ (l.intersperse sep).flatten → x ∈ sep ∨ ∃ t ∈ l, x ∈ t
  | [], h => by simp at h
  | [t], h => by
    rw [List.intersperse_singleton] at h
    exact .inr ⟨t, by simp, by simpa using h⟩
  | t :: u :: l, h => by
    rw [List.intersperse_cons_cons] at h
    simp only [List.flatten_cons, List.mem_append] at h
    rcases h with h | h | h
    · exact .inr ⟨t, by simp, h⟩
    · exact .inl h
    · rcases mem_flatten_intersperse h with h | ⟨v, hv, hx⟩
      · exact .inl h
      · exact .inr ⟨v, List.mem_cons_of_mem _ hv, hx⟩

theorem zero_notMem_enclosed {first last : Bytes} {pieces : List Bytes} (hf : (0 : UInt8) ∉ first)
    (hl : (0 : UInt8) ∉ last) (h : ∀ t ∈ pieces, (0 : UInt8) ∉ t) :
    (0 : UInt8) ∉ first ++ List.flatten (pieces.intersperse [44]) ++ last := by
  rw [List.mem_append, List.mem_append, not_or, not_or]
  refine ⟨⟨hf, fun h0 => ?_⟩, hl⟩
  rcases mem_flatten_intersperse h0 with h0 | ⟨t, ht, h0⟩
  · exact absurd h0 (by decide)
  · exact h t ht h0

mutual

theorem Json.zero_notMem_compact : ∀ j : Json, (0 : UInt8) ∉ j.compact
  | .null => by decide
  | .bool b => by cases b <;> decide
  | .int n => by rw [Json.compact]; exact zero_notMem_decimal n
  | .double x => by
    have h0 : (0 : UInt8) ∉ lit ".0" := by decide
    rw [Json.compact, List.mem_append, not_or]
    exact ⟨zero_notMem_decimal _, h0⟩
  | .string s => by rw [Json.compact]; exact zero_notMem_writeString s
  | .array elems => by
    rw [Json.compact]
    exact zero_notMem_enclosed (by decide) (by decide) (Json.zero_notMem_compactElems elems)
  | .object members => by
    rw [Json.compact]
    exact zero_notMem_enclosed (by decide) (by decide) (Json.zero_notMem_compactMembers members)

theorem Json.zero_notMem_compactElems :
    ∀ js : List Json, ∀ t ∈ Json.compactElems js, (0 : UInt8) ∉ t
  | [], t, h => by simp [Json.compactElems] at h
  | j :: js, t, h => by
    rw [Json.compactElems, List.mem_cons] at h
    rcases h with rfl | h
    · exact Json.zero_notMem_compact j
    · exact Json.zero_notMem_compactElems js t h

theorem Json.zero_notMem_compactMembers :
    ∀ ms : List (Bytes × Json), ∀ t ∈ Json.compactMembers ms, (0 : UInt8) ∉ t
  | [], t, h => by simp [Json.compactMembers] at h
  | (name, j) :: ms, t, h => by
    rw [Json.compactMembers, List.mem_cons] at h
    rcases h with rfl | h
    · have hj := Json.zero_notMem_compact j
      have hn := zero_notMem_writeString name
      simp [hj, hn]
    · exact Json.zero_notMem_compactMembers ms t h

end

theorem Json.compact_ne_nil : ∀ j : Json, j.compact ≠ []
  | .null => by decide
  | .bool b => by cases b <;> decide
  | .int n => by
    rw [Json.compact]
    exact decimal_ne_nil n
  | .double x => by simp [Json.compact, lit]
  | .string s => by simp [Json.compact, writeString]
  | .array elems => by simp [Json.compact]
  | .object members => by simp [Json.compact]

/-- A runtime for given inputs: it parses the texts of a table. -/
def Runtime.ofTable (table : List (Bytes × Json)) : Runtime where
  parse text := match table.lookup text with
    | some doc => .ok doc
    | none => .error ⟨lit "Invalid value.", 0⟩
  write := Json.compact
  doubleToString x := decimal x.num ++ lit ".000000"
  round x := x
  zero_notMem_write := Json.zero_notMem_compact
  write_ne_nil := Json.compact_ne_nil
  zero_notMem_doubleToString x := by
    rw [List.mem_append, not_or]
    exact ⟨zero_notMem_decimal _, by decide⟩

end Compact

variable (rt : Runtime)

/-- `jsonToString`: the buffer is read back as a C string. -/
def jsonToString (doc : Json) : Bytes := cstr (rt.write doc)

theorem jsonToString_ne_nil (doc : Json) : jsonToString rt doc ≠ [] := by
  rw [jsonToString, cstr_of_notMem (rt.zero_notMem_write doc)]
  exact rt.write_ne_nil doc

def jsonValueToString : Json → Bytes
  | .string s => cstr s
  | .int n => if Json.IsInt32 n then decimal n else cstr (rt.write (.int n))
  | .double x => rt.doubleToString x
  | .bool b => if b then lit "true" else lit "false"
  | value => cstr (rt.write value)

theorem zero_notMem_jsonValueToString (value : Json) :
    (0 : UInt8) ∉ jsonValueToString rt value := by
  cases value with
  | int n =>
    simp only [jsonValueToString]
    split_ifs
    · exact zero_notMem_decimal n
    · exact zero_notMem_cstr _
  | double x => exact rt.zero_notMem_doubleToString x
  | bool b => cases b <;> simp only [jsonValueToString] <;> decide
  | _ => exact zero_notMem_cstr _

end OcppServer
