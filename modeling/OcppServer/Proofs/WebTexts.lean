import OcppServer.Proofs.RpcTexts
import OcppServer.Proofs.WebCalls

/-!
# The texts on the links

The web server with RapidJSON as its library. A text of the client's request is read as the request
it asks (`request_read`), and a frame of several messages is no JSON text (`parseDocument_merged`).
So any `JSON.stringify` that writes JSON asks what is asked (`asks_of_texts`), and a `JSON.parse`
that reads it reads the frames (`readsFrames_jsonParse`).
-/

namespace OcppServer

open RapidJson JsonGrammar

/-! ## No text holds a NUL -/

section Zero

variable {num : Numbers}

theorem zero_notMem_ws {w : Bytes} (h : Ws w) : (0 : UInt8) ∉ w := by
  intro h0
  exact absurd (List.all_eq_true.1 h 0 h0) (by decide)

theorem zero_notMem_chars {raw v : Bytes} (h : Chars raw v) : (0 : UInt8) ∉ raw := by
  have hhex {x : Bytes} {n : ℕ} (hx : Hex4 x n) : (0 : UInt8) ∉ x := by
    obtain ⟨a, b, c, d, a', b', c', d', rfl, ha, hb, hc, hd, -⟩ := hx
    have hne {e : UInt8} {m : ℕ} (he : hexDigit? e = some m) : (0 : UInt8) ≠ e := by
      rintro rfl
      cases he
    simp [hne ha, hne hb, hne hc, hne hd]
  induction h with
  | nil => exact List.not_mem_nil
  | unescaped c h92 h34 h32 h ih =>
    have hc : (0 : UInt8) ≠ c := by
      rintro rfl
      exact h32 (by decide)
    simp [hc, ih]
  | escape c d hc h ih =>
    have hc : (0 : UInt8) ≠ c := by
      rintro rfl
      cases hc
    simp [hc, ih]
  | unicode n hx hn h ih => simp [hhex hx, ih]
  | surrogates hi lo hx hy hhi hlo h ih => simp [hhex hx, hhex hy, ih]

theorem zero_notMem_number {s : Bytes} {j : Json} (h : Number num s j) : (0 : UInt8) ∉ s := by
  obtain ⟨minus, int, frac, exp, rfl, hminus, hint, hfrac, hexp, -⟩ := h
  exact zero_notMem_numberText hminus hint hfrac hexp

mutual

theorem zero_notMem_value : ∀ (j : Json) {v : Bytes}, Value num j v → (0 : UInt8) ∉ v
  | .null, v, h => by
    rw [Value] at h
    rw [h]
    decide
  | .bool b, v, h => by
    rw [Value] at h
    rw [h]
    cases b <;> decide
  | .int n, v, h => by
    rw [Value] at h
    exact zero_notMem_number h
  | .double x, v, h => by
    rw [Value] at h
    exact zero_notMem_number h
  | .string s, v, h => by
    rw [Value] at h
    obtain ⟨raw, hraw, rfl⟩ := h
    simp [zero_notMem_chars hraw]
  | .array elems, v, h => by
    rw [Value] at h
    obtain ⟨w, body, hw, rfl, hbody⟩ := h
    simp [zero_notMem_ws hw, zero_notMem_elements elems hbody]
  | .object members, v, h => by
    rw [Value] at h
    obtain ⟨w, body, hw, rfl, hbody⟩ := h
    simp [zero_notMem_ws hw, zero_notMem_members members hbody]

theorem zero_notMem_elements : ∀ (elems : List Json) {s : Bytes}, Elements num elems s →
    (0 : UInt8) ∉ s
  | [], s, h => by
    rw [Elements] at h
    simp [h]
  | [j], s, h => by
    rw [Elements] at h
    obtain ⟨v, w, hv, hw, rfl⟩ := h
    simp [zero_notMem_value j hv, zero_notMem_ws hw]
  | j :: i :: elems, s, h => by
    rw [Elements] at h
    · obtain ⟨v, w, w', t, hv, hw, hw', ht, rfl⟩ := h
      simp [zero_notMem_value j hv, zero_notMem_ws hw, zero_notMem_ws hw',
        zero_notMem_elements (i :: elems) ht]
    · simp

theorem zero_notMem_members : ∀ (members : List (Bytes × Json)) {s : Bytes},
    Members num members s → (0 : UInt8) ∉ s
  | [], s, h => by
    rw [Members] at h
    simp [h]
  | [(name, j)], s, h => by
    rw [Members] at h
    obtain ⟨raw, w, w', v, u, hraw, hw, hw', hv, hu, rfl⟩ := h
    simp [zero_notMem_chars hraw, zero_notMem_ws hw, zero_notMem_ws hw', zero_notMem_value j hv,
      zero_notMem_ws hu]
  | (name, j) :: m :: members, s, h => by
    rw [Members] at h
    · obtain ⟨raw, w, w', v, u, u', t, hraw, hw, hw', hv, hu, hu', ht, rfl⟩ := h
      simp [zero_notMem_chars hraw, zero_notMem_ws hw, zero_notMem_ws hw', zero_notMem_value j hv,
        zero_notMem_ws hu, zero_notMem_ws hu', zero_notMem_members (m :: members) ht]
    · simp

end

theorem zero_notMem_of_text {j : Json} {s : Bytes} (h : Text num j s) : (0 : UInt8) ∉ s := by
  obtain ⟨w, v, w', hw, hv, hw', rfl⟩ := h
  simp [zero_notMem_ws hw, zero_notMem_value j hv, zero_notMem_ws hw']

end Zero

variable (num : Numbers)

/-- The library is RapidJSON. -/
structure Runtime.UsesRapidJson (rt : Runtime) : Prop where
  parse : rt.parse = RapidJson.parse num
  write : rt.write = RapidJson.write num defaultMaxDecimalPlaces

variable {num} {rt : Runtime}

/-! ## Requests -/

/-- The request a client makes of a call. -/
def requestDoc (method : Bytes) (params : Json) (id : ℕ) : Json :=
  .object [(lit "jsonrpc", .string (lit "2.0")), (lit "id", .int id),
    (lit "method", .string method), (lit "params", params)]

section Members

variable {text method : Bytes} {doc params : Json}

/-- A document with the members of a request is read as one if its id fits in an `int`. -/
theorem parseRpcRequest_of_members {id : ℤ} (hparse : rt.parse (cstr text) = .ok doc)
    (ho : doc.isObject = true) (hj : doc.stringMember? (lit "jsonrpc") = some (lit "2.0"))
    (hm : doc.stringMember? (lit "method") = some method)
    (hi : doc.find? (lit "id") = some (.int id)) (hp : doc.find? (lit "params") = some params) :
    parseRpcRequest rt text = if Json.IsInt32 id then .ok ⟨lit "2.0", method, params, id, true⟩
      else .error (lit "Missing or invalid 'id' field") := by
  have hint : doc.intMember? (lit "id") = if Json.IsInt32 id then some id else none := by
    rw [Json.intMember?, hi, Option.bind_some, Json.getInt?]
  unfold parseRpcRequest
  by_cases h32 : Json.IsInt32 id
  · rw [if_pos h32] at hint ⊢
    simp only [hparse, ho, hj, hm, hint, hp, Bool.true_eq_false, if_false]
  · rw [if_neg h32] at hint ⊢
    simp only [hparse, ho, hj, hm, hint, Bool.true_eq_false, if_false]

end Members

/-- However the request's text is written, the server reads the request; unless its id does not
fit in an `int`. -/
theorem request_read (hrt : rt.UsesRapidJson num) {method : Bytes} {params : Json} {id : ℕ}
    {text : Bytes} (h : Text num (requestDoc method params id) text) :
    parseRpcRequest rt text
      = if Json.IsInt32 id then .ok ⟨lit "2.0", cstr method, params, id, true⟩
        else .error (lit "Missing or invalid 'id' field") := by
  have hparse : rt.parse (cstr text) = .ok (requestDoc method params id) := by
    rw [hrt.parse]
    refine (parse_eq_ok_iff num).2 ?_
    rwa [cstr_cstr, cstr_of_notMem (zero_notMem_of_text h)]
  exact parseRpcRequest_of_members hparse rfl rfl rfl rfl rfl

/-- A `JSON.stringify` that writes JSON texts of the requests asks what is asked. -/
theorem asks_of_texts (hrt : rt.UsesRapidJson num) {stringify : Bytes → Json → ℕ → Option Bytes}
    (h : ∀ method params id text, stringify method params id = some text →
      Text num (requestDoc method params id) text) : WebApp.Asks stringify rt := by
  intro method params id text ht request hr
  rw [request_read hrt (h method params id text ht)] at hr
  split_ifs at hr
  exact (Except.ok.inj hr).symm

/-! ## Frames -/

variable (num)

/-- `JSON.parse` of the text of a frame. -/
def jsonParse (text : JsString) : Option JsValue :=
  (Utf16.decode text).bind fun cs =>
    match parseDocument num (cs.flatMap String.utf8EncodeChar) with
    | .ok doc => doc.toJs?
    | .error _ => none

theorem decode_of_utf16? {s : Bytes} {text : JsString} (h : utf16? s = some text) :
    (Utf16.decode text).map (·.flatMap String.utf8EncodeChar) = some s := by
  unfold utf16? String.fromUTF8? at h
  obtain ⟨str, hstr, rfl⟩ := Option.map_eq_some_iff.1 h
  split_ifs at hstr with hv
  obtain rfl := Option.some.inj hstr
  rw [Utf16.decode_encode, Option.map_some, Option.some.injEq]
  exact List.toByteArray_inj.1 (String.utf8Encode_toList (b := String.fromUTF8 s.toByteArray hv))

theorem jsonParse_of_utf16? {s : Bytes} {text : JsString} (h : utf16? s = some text) :
    jsonParse num text = match parseDocument num s with
      | .ok doc => doc.toJs?
      | .error _ => none := by
  obtain ⟨cs, hcs, rfl⟩ := Option.map_eq_some_iff.1 (decode_of_utf16? h)
  rw [jsonParse, hcs, Option.bind_some]

/-- What `JSON.parse` makes of a text of the grammar. -/
theorem jsonParse_text {s : Bytes} {text : JsString} (h : utf16? s = some text) {doc : Json}
    (hdoc : Text num doc s) : jsonParse num text = doc.toJs? := by
  rw [jsonParse_of_utf16? num h, parseDocument_text num hdoc]

theorem text_of_value {doc : Json} {s : Bytes} (h : Value num doc s) : Text num doc s :=
  ⟨[], s, [], ws_nil, h, ws_nil, (List.append_nil s).symm⟩

/-- The literal stands for itself in a string. -/
def PlainLit (s : String) : Prop :=
  (lit s).all (fun c => decide (c ≠ 92 ∧ c ≠ 34 ∧ ¬ c < 32)) = true

instance (s : String) : Decidable (PlainLit s) := inferInstanceAs (Decidable (_ = _))

theorem PlainLit.plain {s : String} (h : PlainLit s) : Rpc.Plain (lit s) := by
  intro c hc
  have hc := List.all_eq_true.1 h c hc
  rw [decide_eq_true_eq] at hc
  exact hc

section Welcome

variable {num} (name : String) (hname : PlainLit name) {j : Json} {v : Bytes}
  (hv : Value num j v)
include hname hv

theorem member_last {u : Bytes} (hu : Ws u) :
    Members num [(lit name, j)] (34 :: (lit name ++ 34 :: 58 :: 32 :: (v ++ u))) := by
  rw [Members]
  exact ⟨lit name, [], [32], v, u, Rpc.chars_plain hname.plain, ws_nil, rfl, hv, hu, rfl⟩

theorem member_cons {u : Bytes} (hu : Ws u) {members : List (Bytes × Json)} {t : Bytes}
    (hne : members ≠ []) (ht : Members num members t) :
    Members num ((lit name, j) :: members)
      (34 :: (lit name ++ 34 :: 58 :: 32 :: (v ++ 44 :: (u ++ t)))) := by
  rw [Members]
  · exact ⟨lit name, [], [32], v, [], u, t, Rpc.chars_plain hname.plain, ws_nil, rfl, hv, ws_nil,
      hu, ht, rfl⟩
  · exact hne

end Welcome

theorem value_object {members : List (Bytes × Json)} {w body : Bytes} (hw : Ws w)
    (h : Members num members body) :
    Value num (.object members) (123 :: (w ++ (body ++ [125]))) := by
  rw [Value]
  exact ⟨w, body, hw, rfl, h⟩

/-- The document of a welcome, given the value of its number. -/
def welcomeDoc (connectionId : Json) : Json :=
  .object [(lit "jsonrpc", .string (lit "2.0")), (lit "method", .string (lit "connected")),
    (lit "params", .object [(lit "connectionId", connectionId),
      (lit "message", .string (lit "WebSocket connection established"))])]

set_option maxRecDepth 4096 in
theorem value_welcome {c : ℤ} {j : Json} (h : Value num j (decimal c)) (rt : Runtime) :
    Value num (welcomeDoc j) ((welcome c).bytes rt) := by
  have hlit {s : String} (hs : PlainLit s) : Value num (.string (lit s)) (34 :: (lit s ++ [34])) :=
    Rpc.text_plain num hs.plain
  have hws {w : Bytes} (hw : w.all (fun c => decide (c = 32 ∨ c = 10)) = true) : Ws w := by
    refine List.all_eq_true.2 fun c hc => ?_
    have hc := List.all_eq_true.1 hw c hc
    rw [decide_eq_true_eq] at hc
    rcases hc with rfl | rfl <;> rfl
  have hinner : Members num _ _ := member_cons "connectionId" (by decide) h
    (hws (w := lit "\n            ") (by decide)) (by simp)
    (member_last "message" (by decide) (hlit (s := "WebSocket connection established")
      (by decide)) (hws (w := lit "\n        ") (by decide)))
  have hparams := value_object num (hws (w := lit "\n            ") (by decide)) hinner
  have houter := member_cons "jsonrpc" (by decide)
    (hlit (s := "2.0") (by decide)) (hws (w := lit "\n        ") (by decide)) (by simp)
    (member_cons "method" (by decide) (hlit (s := "connected") (by decide))
      (hws (w := lit " \n        ") (by decide)) (by simp)
      (member_last "params" (by decide) hparams (hws (w := lit "\n    ") (by decide))))
  have hdoc := value_object num (hws (w := lit "\n        ") (by decide)) houter
  refine Eq.mp (congrArg (Value num (welcomeDoc j)) ?_) hdoc
  simp only [Message.bytes, welcome, List.append_assoc, List.cons_append, List.nil_append]
  rfl

section Frames

variable {num} (hrt : rt.UsesRapidJson num)
  (hnum : ∀ n : ℤ, ∃ x, num.strtod (decimal n) = some x)

include hnum in
/-- A connection's id is a number, however large. -/
theorem exists_value_decimal (n : ℤ) :
    ∃ j x, Value num j (decimal n) ∧ j.toJs? = some (.num x) := by
  by_cases h : IsInt64 n
  · refine ⟨.int n, n, ?_, rfl⟩
    rw [Value]
    exact number_decimal num h
  · obtain ⟨x, hx⟩ := hnum n
    refine ⟨.double x, x, ?_, rfl⟩
    rw [Value]
    exact number_decimal_of num (by rw [if_neg h]; exact ⟨x, hx, rfl⟩)

include hrt in
theorem value_document {m : Message} (hm : WebApp.Served m) {doc : Json} (h : m = .json doc) :
    ∃ members, doc = .object members ∧ Value num doc
      (jsonToString rt doc) := by
  have hread : ∃ members, doc = .object members
      ∧ Readable num defaultMaxDecimalPlaces (.object members) := by
    rcases hm with ⟨c, rfl⟩ | ⟨kv, rfl⟩ | ⟨id, outcome, h32, rfl⟩
    · cases h
    · obtain rfl := Message.json.inj h
      exact ⟨_, rfl, by simp [Readable, ReadableMembers]⟩
    · have hid : IsInt64 id := by
        unfold Json.IsInt32 at h32
        unfold IsInt64
        omega
      cases outcome <;> obtain rfl := Message.json.inj h <;>
        refine ⟨_, rfl, ?_⟩ <;> split_ifs <;> simp [Readable, ReadableMembers, hid]
  obtain ⟨members, rfl, hread⟩ := hread
  refine ⟨members, rfl, ?_⟩
  have hz := RapidJson.zero_notMem_write num defaultMaxDecimalPlaces (.object members)
  rw [jsonToString, hrt.write, cstr_of_notMem hz]
  exact value_write num defaultMaxDecimalPlaces _ hread

include hrt hnum in
/-- Every message on the links is the text of an object. -/
theorem value_served {m : Message} (hm : WebApp.Served m) :
    ∃ members, Value num (.object members) (m.bytes rt) := by
  cases m with
  | json doc =>
    obtain ⟨members, rfl, h⟩ := value_document hrt hm rfl
    exact ⟨members, h⟩
  | text s =>
    rcases hm with ⟨c, hc⟩ | ⟨kv, h⟩ | ⟨id, outcome, -, h⟩
    · obtain ⟨j, x, hj, -⟩ := exists_value_decimal hnum c
      rw [hc]
      exact ⟨_, value_welcome num hj _⟩
    · cases h
    · cases outcome <;> cases h

theorem parseDocument_two {members : List (Bytes × Json)} {v t : Bytes}
    (hv : Value num (.object members) v) (ht : t.head? = some 123) :
    ∃ e, parseDocument num (v ++ t) = .error e := by
  obtain ⟨u, rfl⟩ : ∃ u, t = 123 :: u := by
    cases t with
    | nil => cases ht
    | cons c u => exact ⟨u, by rw [Option.some.inj ht]⟩
  have hvalue := parseValue_value num (.object members) (n := 2 * (v ++ 123 :: u).length + 2) hv
    (stops_cons (c := 123) (t := u) (by decide)) (by rw [List.length_append]; omega)
  have hskip := skipWhitespace_value num hv ws_nil (123 :: u)
  rw [List.nil_append] at hskip
  unfold parseDocument
  rw [hskip]
  split
  · exact ⟨_, rfl⟩
  · rw [hvalue]
    dsimp only
    rw [skipWhitespace_cons (by decide)]
    exact ⟨_, rfl⟩

include hrt hnum in
/-- Several messages one after another are no document. -/
theorem parseDocument_merged {ms : List Message} (hlen : 2 ≤ ms.length)
    (hms : ∀ m ∈ ms, WebApp.Served m) :
    ∃ e, parseDocument num (ms.flatMap (·.bytes rt)) = .error e := by
  match ms, hlen, hms with
  | m :: m' :: ms, _, hms =>
    obtain ⟨members, hv⟩ := value_served hrt hnum (hms m (by simp))
    obtain ⟨members', hv'⟩ := value_served hrt hnum (hms m' (by simp))
    rw [List.flatMap_cons]
    refine parseDocument_two hv ?_
    rw [Value] at hv'
    obtain ⟨w, body, -, hbytes, -⟩ := hv'
    rw [List.flatMap_cons, hbytes]
    rfl

include hrt hnum in
/-- A `JSON.parse` that reads JSON texts reads the frames. -/
theorem readsFrames_jsonParse : WebApp.ReadsFrames (jsonParse num) rt where
  document doc text hserved ht := by
    obtain ⟨members, -, hv⟩ := value_document hrt hserved rfl
    exact jsonParse_text num ht (text_of_value num hv)
  welcome c text ht := by
    obtain ⟨j, x, hj, hx⟩ := exists_value_decimal hnum c
    rw [jsonParse_text num ht (text_of_value num (value_welcome num hj _))]
    simp (disch := decide) only [welcomeDoc, Json.toJs?, Json.membersToJs?, utf16?_lit, hx,
      Option.map_some, Option.bind_some]
    exact ⟨_, rfl, rfl⟩
  merged ms text hlen hms ht := by
    obtain ⟨e, he⟩ := parseDocument_merged hrt hnum hlen hms
    rw [jsonParse_of_utf16? num ht, he]

end Frames

end OcppServer
