import Mathlib.Data.Rat.Defs
import Mathlib.Algebra.Ring.Nat

/-!
# Values of the JavaScript side

What `JSON.parse` can return. A string is its UTF-16 code units; a number that overflows parses to
an infinity. Members are own properties, and nothing a text can name is found on a prototype but
the methods the language looks up itself.
-/

namespace OcppServer

abbrev JsString := List UInt16

/-- A string literal of the source. -/
def js (s : String) : JsString := s.toList.map fun c => UInt16.ofNat c.toNat

inductive JsValue where
  | null
  | bool (b : Bool)
  | num (x : ℚ)
  | infinity (negative : Bool)
  | str (s : JsString)
  | arr (elems : List JsValue)
  | obj (members : List (JsString × JsValue))

namespace JsValue

def truthy : JsValue → Bool
  | null => false
  | bool b => b
  | num x => x ≠ 0
  | str s => s ≠ []
  | _ => true

/-- `value[name]`, which for these names only an object has; `null` has no members at all. -/
def get? (name : JsString) : JsValue → Option JsValue
  | obj members => members.lookup name
  | _ => none

mutual

/-- Converting to a string throws for an object whose own `toString` hides the inherited one, and
for an array that holds such an object. -/
def toStringThrows : JsValue → Bool
  | arr elems => anyThrows elems
  | obj members => (members.lookup (js "toString")).isSome
  | _ => false

def anyThrows : List JsValue → Bool
  | [] => false
  | v :: vs => v.toStringThrows || anyThrows vs

end

/-- The natural number a value is, as `Map.has` compares keys. -/
def asId? : JsValue → Option ℕ
  | num x => if x.den = 1 ∧ 0 ≤ x.num then some x.num.toNat else none
  | _ => none

end JsValue

/-- `++` on a `Number`: from `2 ^ 53` on, the sum rounds back. -/
def increment (n : ℕ) : ℕ := if n < 2 ^ 53 then n + 1 else n

end OcppServer
