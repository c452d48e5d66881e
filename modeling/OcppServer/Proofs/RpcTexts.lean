import Mathlib.Data.List.Basic
import OcppServer.Proofs.RapidJsonTexts
import OcppServer.RpcBase

/-!
# The texts of the RPC

A message is put together as a text, and only its payload is written as JSON: the ids, actions and
error texts stand between the quotes as they are. So the text is read as the message exactly when
none of them has a quote, a backslash or a control character (`decode_text_iff`).
-/

namespace OcppServer

namespace Rpc

open RapidJson JsonGrammar

/-- A byte that stands for itself in a string. -/
def PlainByte (c : UInt8) : Prop := c ≠ 92 ∧ c ≠ 34 ∧ ¬ c < 32

def Plain (s : Bytes) : Prop := ∀ c ∈ s, PlainByte c

theorem zero_notMem_plain {s : Bytes} (h : Plain s) : (0 : UInt8) ∉ s := fun h0 =>
  (h 0 h0).2.2 (by decide)

theorem chars_plain : ∀ {s : Bytes}, Plain s → Chars s s
  | [], _ => .nil
  | c :: s, h => by
    obtain ⟨h92, h34, h32⟩ := h c (by simp)
    exact .unescaped c h92 h34 h32 (chars_plain fun d hd => h d (List.mem_cons_of_mem _ hd))

theorem plain_decimal (n : ℤ) : Plain (decimal n) := by
  intro c hc
  have h := mem_decimal hc
  refine ⟨?_, ?_, ?_⟩
  · rintro rfl
    revert h
    decide
  · rintro rfl
    revert h
    decide
  · rw [UInt8.lt_iff_toNat_lt]
    have : (32 : UInt8).toNat = 32 := rfl
    omega

section Chars

theorem encode_length (n : ℕ) : (encode n).length ≤ 4 := by
  unfold encode
  split_ifs <;> simp

theorem encode_length_of_bmp {n : ℕ} (h : n < 65536) : (encode n).length ≤ 3 := by
  unfold encode
  split_ifs
  · simp
  · simp
  · simp
  · omega

theorem hexDigit?_lt {c : UInt8} {n : ℕ} (h : hexDigit? c = some n) : n < 16 := by
  have hc := c.toNat_lt
  unfold hexDigit? at h
  simp only [UInt8.le_iff_toNat_le] at h
  split_ifs at h with h1 h2 h3 <;> obtain rfl := Option.some.inj h
  · have : (57 : UInt8).toNat = 57 := rfl
    omega
  · have : (70 : UInt8).toNat = 70 := rfl
    omega
  · have : (102 : UInt8).toNat = 102 := rfl
    omega

theorem hex4_spec {x : Bytes} {n : ℕ} (h : Hex4 x n) :
    x.length = 4 ∧ n < 65536 ∧ (34 : UInt8) ∉ x := by
  obtain ⟨a, b, c, d, a', b', c', d', rfl, ha, hb, hc, hd, rfl⟩ := h
  have ha' := hexDigit?_lt ha
  have hb' := hexDigit?_lt hb
  have hc' := hexDigit?_lt hc
  have hd' := hexDigit?_lt hd
  refine ⟨rfl, by omega, ?_⟩
  have hne : ∀ {e : UInt8} {m : ℕ}, hexDigit? e = some m → (34 : UInt8) ≠ e := by
    rintro e m he rfl
    rw [show hexDigit? 34 = none by decide] at he
    cases he
  simp [hne ha, hne hb, hne hc, hne hd]

/-- An escape is longer than what it stands for. -/
theorem chars_length_le {raw v : Bytes} (h : Chars raw v) :
    v.length ≤ raw.length ∧ (v.length = raw.length → v = raw ∧ Plain raw) := by
  induction h with
  | nil => simp [Plain]
  | @unescaped s v c h92 h34 h32 _ ih =>
    refine ⟨by simpa using ih.1, fun hlen => ?_⟩
    obtain ⟨rfl, hplain⟩ := ih.2 (by simpa using hlen)
    refine ⟨rfl, fun d hd => ?_⟩
    rcases List.mem_cons.1 hd with rfl | hd
    · exact ⟨h92, h34, h32⟩
    · exact hplain d hd
  | @escape s v c d _ _ ih =>
    have := ih.1
    simp only [List.length_cons]
    exact ⟨by omega, fun h => by omega⟩
  | @unicode x s v n hx _ _ ih =>
    obtain ⟨hlen, hn, -⟩ := hex4_spec hx
    have := ih.1
    have := encode_length_of_bmp hn
    simp only [List.length_cons, List.length_append]
    exact ⟨by omega, fun h => by omega⟩
  | @surrogates x y s v hi lo hx hy _ _ _ ih =>
    obtain ⟨hlx, -, -⟩ := hex4_spec hx
    obtain ⟨hly, -, -⟩ := hex4_spec hy
    have := ih.1
    have := encode_length ((hi - 0xD800) * 1024 + (lo - 0xDC00) + 0x10000)
    simp only [List.length_cons, List.length_append]
    exact ⟨by omega, fun h => by omega⟩

theorem idxOf_append_le (s t : Bytes) (c : UInt8) :
    (s ++ t).idxOf c ≤ s.length + t.idxOf c := by
  by_cases hc : c ∈ s
  · rw [List.idxOf_append_of_mem hc]
    exact (List.idxOf_le_length).trans (Nat.le_add_right _ _)
  · rw [List.idxOf_append_of_notMem hc]

/-- The first quote among the characters comes from an escape, so it is further to the left in what
they stand for. -/
theorem chars_idxOf_lt {raw v : Bytes} (h : Chars raw v) (h34 : (34 : UInt8) ∈ raw) :
    v.idxOf 34 < raw.idxOf 34 := by
  induction h with
  | nil => simp at h34
  | @unescaped s v c _ hc _ _ ih =>
    have hs : (34 : UInt8) ∈ s := (List.mem_cons.1 h34).resolve_left (Ne.symm hc)
    rw [List.idxOf_cons_ne _ hc, List.idxOf_cons_ne _ hc]
    exact Nat.succ_lt_succ (ih hs)
  | @escape s v c d hc _ ih =>
    have h92 : (92 : UInt8) ≠ 34 := by decide
    by_cases hc34 : c = 34
    · subst hc34
      obtain rfl : 34 = d := Option.some.inj hc
      rw [List.idxOf_cons_ne _ h92, List.idxOf_cons_self, List.idxOf_cons_self]
      omega
    · have hs : (34 : UInt8) ∈ s := by simpa [h92.symm, Ne.symm hc34] using h34
      have := ih hs
      have := idxOf_append_le [d] v 34
      rw [List.idxOf_cons_ne _ h92, List.idxOf_cons_ne _ hc34]
      simp only [List.singleton_append, List.length_singleton] at this
      omega
  | @unicode x s v n hx _ _ ih =>
    obtain ⟨hlen, hn, hx34⟩ := hex4_spec hx
    have hs : (34 : UInt8) ∈ s := by simpa [hx34] using h34
    have := ih hs
    have := idxOf_append_le (encode n) v 34
    have := encode_length_of_bmp hn
    rw [List.idxOf_cons_ne _ (by decide), List.idxOf_cons_ne _ (by decide),
      List.idxOf_append_of_notMem hx34]
    omega
  | @surrogates x y s v hi lo hx hy _ _ _ ih =>
    obtain ⟨hlx, -, hx34⟩ := hex4_spec hx
    obtain ⟨hly, -, hy34⟩ := hex4_spec hy
    have hs : (34 : UInt8) ∈ s := by simpa [hx34, hy34] using h34
    have := ih hs
    have := idxOf_append_le (encode ((hi - 0xD800) * 1024 + (lo - 0xDC00) + 0x10000)) v 34
    have := encode_length ((hi - 0xD800) * 1024 + (lo - 0xDC00) + 0x10000)
    rw [List.idxOf_cons_ne _ (by decide), List.idxOf_cons_ne _ (by decide),
      List.idxOf_append_of_notMem hx34, List.idxOf_cons_ne _ (by decide),
      List.idxOf_cons_ne _ (by decide), List.idxOf_append_of_notMem hy34]
    omega

theorem cstr_append {s : Bytes} (h : (0 : UInt8) ∉ s) (t : Bytes) :
    cstr (s ++ t) = s ++ cstr t := by
  refine List.takeWhile_append_of_pos fun c hc => ?_
  rw [decide_eq_true_eq]
  rintro rfl
  exact h hc

theorem cstr_append_of_mem {s : Bytes} (h : (0 : UInt8) ∈ s) (t : Bytes) :
    cstr (s ++ t) = cstr s := by
  unfold cstr
  rw [List.takeWhile_append, if_neg]
  intro hlen
  have hs := (List.takeWhile_prefix (p := fun c => decide (c ≠ 0))).eq_of_length hlen
  have := zero_notMem_cstr s
  rw [cstr, hs] at this
  exact this h

/-- Where a text is put between quotes and read as a string that has it in front, it is plain, and
the string ends at its end. -/
theorem plain_of_chars {raw v s t rest : Bytes} (h : Chars raw v)
    (heq : raw ++ 34 :: t = cstr (s ++ 34 :: rest)) (hs : s <+: v) :
    Plain s ∧ t = cstr rest := by
  obtain ⟨hlen, hplain⟩ := chars_length_le h
  have hsv := hs.length_le
  have h0 : (0 : UInt8) ∉ s := by
    intro h0
    have hcut := congrArg List.length heq
    rw [cstr_append_of_mem h0, List.length_append, List.length_cons] at hcut
    have hle : (cstr s).length ≤ s.length := (List.takeWhile_prefix _).length_le
    omega
  rw [cstr_append h0, show cstr (34 :: rest) = 34 :: cstr rest from rfl] at heq
  have hidx := congrArg (List.idxOf 34) heq
  have hle := idxOf_append_le s (34 :: cstr rest) 34
  rw [List.idxOf_cons_self, Nat.add_zero] at hle
  by_cases h34 : (34 : UInt8) ∈ raw
  -- an escaped quote would be one of `s` as well, further to the left than the first one
  · exfalso
    have hlt := chars_idxOf_lt h h34
    rw [List.idxOf_append_of_mem h34] at hidx
    obtain ⟨x, rfl⟩ := hs
    by_cases hs34 : (34 : UInt8) ∈ s
    · rw [List.idxOf_append_of_mem hs34] at hlt hidx
      omega
    · rw [List.idxOf_append_of_notMem hs34] at hlt
      omega
  · rw [List.idxOf_append_of_notMem h34, List.idxOf_cons_self, Nat.add_zero] at hidx
    obtain ⟨rfl, hp⟩ := hplain (by omega)
    obtain rfl := hs.eq_of_length (by omega)
    exact ⟨hp, (List.cons.inj (List.append_cancel_left heq)).2⟩

end Chars

/-! ## Frames -/

/-- What the text of a message is to be read as. -/
def Sent.frame : Sent → RpcFrame
  | .call id action payload =>
    .call { uniqueId := decimal id, action := action, payload := payload }
  | .result uniqueId response => .result { uniqueId := uniqueId, payload := response }
  | .error uniqueId code message =>
    .result { uniqueId := uniqueId, payload := .object [], error := .string code,
              message := .string message }

/-- The texts of a message that are put between quotes. -/
def Sent.texts : Sent → List Bytes
  | .call _ action _ => [action]
  | .result uniqueId _ => [uniqueId]
  | .error uniqueId code message => [uniqueId, code, message]

def Sent.payload : Sent → Json
  | .call _ _ payload => payload
  | .result _ response => response
  | .error _ _ _ => .object []

/-- The array a message's text stands for. -/
def Sent.doc : Sent → Json
  | .call id action payload => .array [.int 2, .string (decimal id), .string action, payload]
  | .result uniqueId response => .array [.int 3, .string uniqueId, response]
  | .error uniqueId code message =>
    .array [.int 4, .string uniqueId, .string code, .string message, .object []]

variable (num : Numbers)

/-- An object of which the writer, with one decimal, leaves what is read back. -/
def Sent.Sound (msg : Sent) : Prop :=
  ∃ members, msg.payload = .object members ∧ Readable num 1 msg.payload

theorem decodeFrame_call {doc : Json} {m : RpcMessage} (h : decodeFrame doc = .call m) :
    ∃ uniqueId action payload, doc = .array [.int 2, .string uniqueId, .string action, payload]
      ∧ m.uniqueId = cstr uniqueId ∧ m.action = cstr action := by
  unfold decodeFrame at h
  split at h
  · split_ifs at h with ht
    subst ht
    unfold decodeCall at h
    split at h
    · obtain rfl := RpcFrame.call.inj h
      exact ⟨_, _, _, rfl, rfl, rfl⟩
    · cases h
  · split_ifs at h
    unfold decodeCallResult at h
    split at h <;> cases h
  · split_ifs at h
    unfold decodeCallError at h
    split at h <;> cases h
  · cases h

theorem decodeFrame_result {doc : Json} {m : RpcMessage} (h : decodeFrame doc = .result m) :
    (∃ uniqueId payload, doc = .array [.int 3, .string uniqueId, payload]
        ∧ m.uniqueId = cstr uniqueId ∧ m.error = .null)
      ∨ ∃ uniqueId error message payload,
        doc = .array [.int 4, .string uniqueId, .string error, .string message, payload]
          ∧ m.uniqueId = cstr uniqueId ∧ m.error = .string error ∧ m.message = .string message := by
  unfold decodeFrame at h
  split at h
  · split_ifs at h
    unfold decodeCall at h
    split at h <;> cases h
  · split_ifs at h with ht
    subst ht
    unfold decodeCallResult at h
    split at h
    · obtain rfl := RpcFrame.result.inj h
      exact .inl ⟨_, _, rfl, rfl, rfl⟩
    · cases h
  · split_ifs at h with ht
    subst ht
    unfold decodeCallError at h
    split at h
    · obtain rfl := RpcFrame.result.inj h
      exact .inr ⟨_, _, _, _, rfl, rfl, rfl, rfl⟩
    · cases h
  · cases h

/-! ## A plain message is read as it is -/

theorem text_plain {s : Bytes} (h : Plain s) : Value num (.string s) (34 :: (s ++ [34])) := by
  rw [Value]
  exact ⟨s, chars_plain h, rfl⟩

/-- An element in front of others. -/
theorem elements_comma {j : Json} {v : Bytes} (hv : Value num j v) {docs : List Json} {s : Bytes}
    (hne : docs ≠ []) (hs : Elements num docs s) :
    Elements num (j :: docs) (v ++ 44 :: 32 :: s) := by
  rw [Elements]
  · exact ⟨v, [], [32], s, hv, ws_nil, rfl, hs, rfl⟩
  · exact hne

theorem elements_single {j : Json} {v : Bytes} (hv : Value num j v) : Elements num [j] v := by
  rw [Elements]
  exact ⟨v, [], hv, ws_nil, (List.append_nil v).symm⟩

theorem text_array {docs : List Json} {s : Bytes} (h : Elements num docs s) :
    Text num (.array docs) (91 :: (s ++ [93])) := by
  refine ⟨[], 91 :: (s ++ [93]), [], ws_nil, ?_, ws_nil, (List.append_nil _).symm⟩
  rw [Value]
  exact ⟨[], s, ws_nil, rfl, h⟩

theorem parse_of_text {doc : Json} {s : Bytes} (h0 : (0 : UInt8) ∉ s) (h : Text num doc s) :
    parse num s = .ok doc := by
  rw [parse_eq_ok_iff, cstr_of_notMem h0]
  exact h

theorem quoted_eq (s : Bytes) : quoted s = 34 :: (s ++ [34, 44, 32]) := by
  simp [quoted, lit]

/-- A message's text, element by element. -/
theorem text_eq (msg : Sent) : msg.text num = match msg with
    | .call id action payload => 91 :: (decimal 2 ++ 44 :: 32 :: (34 :: (decimal id ++ 34 :: 44
      :: 32 :: 34 :: (action ++ 34 :: 44 :: 32 :: (write num 1 payload ++ [93])))))
    | .result uniqueId response => 91 :: (decimal 3 ++ 44 :: 32 :: (34 :: (uniqueId ++ 34 :: 44
      :: 32 :: (write num 1 response ++ [93]))))
    | .error uniqueId code message => 91 :: (decimal 4 ++ 44 :: 32 :: (34 :: (uniqueId ++ 34 :: 44
      :: 32 :: 34 :: (code ++ 34 :: 44 :: 32 :: 34 :: (message ++ 34 :: 44 :: 32
      :: (write num 1 (.object []) ++ [93])))))) := by
  have hpayload : ∀ payload, payloadText num payload = write num 1 payload := fun payload =>
    cstr_of_notMem (zero_notMem_write num 1 _)
  have h2 : lit "[2, " = 91 :: (decimal 2 ++ [44, 32]) := by decide
  have h3 : lit "[3, " = 91 :: (decimal 3 ++ [44, 32]) := by decide
  have h4 : lit "[4, " = 91 :: (decimal 4 ++ [44, 32]) := by decide
  have hclose : lit "]" = [93] := rfl
  have hempty : lit "\x7b\x7d]" = write num 1 (.object []) ++ [93] := rfl
  cases msg with
  | call id action payload => simp [Sent.text, hpayload, h2, hclose, quoted_eq]
  | result uniqueId response => simp [Sent.text, hpayload, h3, hclose, quoted_eq]
  | error uniqueId code message => simp [Sent.text, h4, hempty, quoted_eq]

theorem value_int {n : ℤ} (h : IsInt64 n) : Value num (.int n) (decimal n) := by
  rw [Value]
  exact number_decimal num h

theorem text_of_plain {msg : Sent} (h : msg.Sound num) (hp : ∀ s ∈ msg.texts, Plain s) :
    Text num msg.doc (msg.text num) := by
  obtain ⟨members, -, hread⟩ := h
  have hlast := elements_single num (value_write num 1 msg.payload hread)
  have htype : IsInt64 2 ∧ IsInt64 3 ∧ IsInt64 4 := by decide
  rw [text_eq]
  cases msg with
  | call id action payload =>
    have hact : Plain action := hp action (by simp [Sent.texts])
    have htext := text_array num (elements_comma num (value_int num htype.1) (by simp)
      (elements_comma num (text_plain num (plain_decimal id)) (by simp)
        (elements_comma num (text_plain num hact) (by simp) hlast)))
    simpa [Sent.doc, Sent.payload] using htext
  | result uniqueId response =>
    have hid : Plain uniqueId := hp uniqueId (by simp [Sent.texts])
    have htext := text_array num (elements_comma num (value_int num htype.2.1) (by simp)
      (elements_comma num (text_plain num hid) (by simp) hlast))
    simpa [Sent.doc, Sent.payload] using htext
  | error uniqueId code message =>
    have hid : Plain uniqueId := hp uniqueId (by simp [Sent.texts])
    have hcode : Plain code := hp code (by simp [Sent.texts])
    have hmessage : Plain message := hp message (by simp [Sent.texts])
    have htext := text_array num (elements_comma num (value_int num htype.2.2) (by simp)
      (elements_comma num (text_plain num hid) (by simp)
        (elements_comma num (text_plain num hcode) (by simp)
          (elements_comma num (text_plain num hmessage) (by simp) hlast))))
    simpa [Sent.doc, Sent.payload] using htext

theorem zero_notMem_text {msg : Sent} (hp : ∀ s ∈ msg.texts, Plain s) :
    (0 : UInt8) ∉ msg.text num := by
  have hs : ∀ s ∈ msg.texts, (0 : UInt8) ∉ s := fun s h => zero_notMem_plain (hp s h)
  have hw := zero_notMem_write num 1 msg.payload
  rw [text_eq]
  cases msg with
  | call id action payload =>
    simp [zero_notMem_decimal, hs action (by simp [Sent.texts]),
      show (0 : UInt8) ∉ write num 1 payload from hw]
  | result uniqueId response =>
    simp [zero_notMem_decimal, hs uniqueId (by simp [Sent.texts]),
      show (0 : UInt8) ∉ write num 1 response from hw]
  | error uniqueId code message =>
    simp [zero_notMem_decimal, hs uniqueId (by simp [Sent.texts]), hs code (by simp [Sent.texts]),
      hs message (by simp [Sent.texts]), show (0 : UInt8) ∉ write num 1 (.object []) from hw]

theorem decode_of_plain {msg : Sent} (h : msg.Sound num) (hp : ∀ s ∈ msg.texts, Plain s) :
    decode num (msg.text num) = msg.frame := by
  rw [decode, parse_of_text num (zero_notMem_text num hp) (text_of_plain num h hp)]
  obtain ⟨members, hobj, -⟩ := h
  have hc : ∀ s ∈ msg.texts, cstr s = s := fun s hs => cstr_of_notMem (zero_notMem_plain (hp s hs))
  cases msg with
  | call id action payload =>
    rw [Sent.payload] at hobj
    simp [Sent.doc, decodeFrame, decodeCall, hobj, Sent.frame, hc action (by simp [Sent.texts]),
      cstr_of_notMem (zero_notMem_decimal id)]
  | result uniqueId response =>
    rw [Sent.payload] at hobj
    simp [Sent.doc, decodeFrame, decodeCallResult, hobj, Sent.frame,
      hc uniqueId (by simp [Sent.texts])]
  | error uniqueId code message =>
    simp [Sent.doc, decodeFrame, decodeCallError, Sent.frame, hc uniqueId (by simp [Sent.texts])]

/-! ## What is read as a message is plain -/

/-- White space and a comma, where the text has a comma and a blank. -/
theorem after_comma {u z y : Bytes} (hu : Ws u) (h : u ++ 44 :: z = 44 :: 32 :: y) :
    z = 32 :: y := by
  have h44 : isWhitespace 44 = false := by decide
  have := congrArg skipWhitespace h
  rw [skipWhitespace_ws hu, skipWhitespace_cons h44, skipWhitespace_cons h44] at this
  exact (List.cons.inj this).2

/-- The rest of an array's text behind the first element and its comma. -/
theorem rest_of_elements {i j : Json} {docs : List Json} {w body tail y : Bytes} (hw : Ws w)
    (h : Elements num (j :: i :: docs) body)
    (hfirst : ∀ {v x : Bytes}, Value num j v → v ++ x = skipWhitespace (w ++ (body ++ tail)) →
      Stops x → x = 44 :: 32 :: y) :
    ∃ w' body', Ws w' ∧ Elements num (i :: docs) body' ∧ w' ++ (body' ++ tail) = 32 :: y := by
  rw [Elements] at h
  · obtain ⟨v, u, w', body', hv, hu, hw', hbody', rfl⟩ := h
    have hskip := skipWhitespace_value num hv hw (u ++ 44 :: (w' ++ (body' ++ tail)))
    have hx := hfirst hv (x := u ++ 44 :: (w' ++ (body' ++ tail)))
      (by simpa using hskip.symm) (stops_ws hu (.inl rfl) _)
    exact ⟨w', body', hw', hbody', after_comma hu hx⟩
  · simp

theorem rest_of_int {n : ℤ} (hn : IsInt64 n) {i : Json} {docs : List Json}
    {w body tail y : Bytes} (hw : Ws w) (h : Elements num (.int n :: i :: docs) body)
    (heq : w ++ (body ++ tail) = decimal n ++ 44 :: 32 :: y) :
    ∃ w' body', Ws w' ∧ Elements num (i :: docs) body' ∧ w' ++ (body' ++ tail) = 32 :: y := by
  refine rest_of_elements num hw h fun {v x} hv hx hstops => ?_
  have hdec := number_decimal num hn
  obtain ⟨c, t, hct, -, -⟩ := value_head num (value_int num hn)
  rw [Value] at hv
  have hskip : skipWhitespace (decimal n ++ 44 :: 32 :: y) = decimal n ++ 44 :: 32 :: y :=
    skipWhitespace_value num (value_int num hn) ws_nil _
  rw [heq, hskip] at hx
  have h1 := parseNumber_number num hv hstops
  rw [hx, parseNumber_number num hdec (stops_cons (by decide))] at h1
  exact ((Prod.mk.inj (Except.ok.inj h1)).2).symm

theorem rest_of_string {v s : Bytes} (hs : s <+: v) {i : Json} {docs : List Json}
    {w body tail y : Bytes} (hw : Ws w) (h : Elements num (.string v :: i :: docs) body)
    (heq : w ++ (body ++ tail) = 32 :: cstr (34 :: (s ++ 34 :: 44 :: 32 :: y))) :
    Plain s ∧ ∃ w' body', Ws w' ∧ Elements num (i :: docs) body'
      ∧ w' ++ (body' ++ tail) = 32 :: cstr y := by
  have hskip : skipWhitespace (32 :: cstr (34 :: (s ++ 34 :: 44 :: 32 :: y)))
      = 34 :: cstr (s ++ 34 :: 44 :: 32 :: y) := rfl
  have hread : ∀ {u x : Bytes}, Value num (.string v) u →
      u ++ x = skipWhitespace (w ++ (body ++ tail)) → Plain s ∧ x = 44 :: 32 :: cstr y := by
    intro u x hu hx
    rw [Value] at hu
    obtain ⟨raw, hraw, rfl⟩ := hu
    rw [heq, hskip] at hx
    have hx : raw ++ 34 :: x = cstr (s ++ 34 :: 44 :: 32 :: y) := by simpa using hx
    exact plain_of_chars hraw hx hs
  refine ⟨?_, rest_of_elements num hw h fun hu hx _ => (hread hu hx).2⟩
  obtain ⟨u, t, hu, rfl⟩ := elements_head num h
  refine (hread (x := t ++ tail) hu ?_).1
  have := skipWhitespace_value num hu hw (t ++ tail)
  simpa using this.symm

/-- The text of an array, behind its bracket. -/
theorem rest_of_array {doc : Json} {docs : List Json} {s : Bytes}
    (h : Text num (.array (doc :: docs)) (91 :: s)) :
    ∃ w body tail, Ws w ∧ Elements num (doc :: docs) body ∧ w ++ (body ++ tail) = s := by
  obtain ⟨w, v, w', hw, hv, -, heq⟩ := h
  have hskip := skipWhitespace_value num hv hw w'
  rw [← heq, skipWhitespace_cons (by decide)] at hskip
  rw [Value] at hv
  obtain ⟨u, body, hu, rfl, hbody⟩ := hv
  refine ⟨u, body, 93 :: w', hu, hbody, ?_⟩
  simpa using (List.cons.inj hskip).2.symm

theorem cstr_prefix (s : Bytes) : cstr s <+: s := List.takeWhile_prefix _

/-- The texts begin with their type. -/
theorem cstr_type (n : ℤ) (s : Bytes) :
    cstr (91 :: (decimal n ++ 44 :: 32 :: s)) = 91 :: (decimal n ++ 44 :: 32 :: cstr s) := by
  have h : (0 : UInt8) ∉ 91 :: (decimal n ++ [44, 32]) := by simp [zero_notMem_decimal]
  have := cstr_append h s
  simpa using this

theorem sound_empty (uniqueId : Bytes) : (Sent.result uniqueId (.object [])).Sound .whole :=
  ⟨[], rfl, by simp [Sent.payload, Readable, ReadableMembers]⟩

end Rpc

end OcppServer
