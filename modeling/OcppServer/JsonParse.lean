import OcppServer.Json
import OcppServer.JsValue
import OcppServer.Lib.Replica
import OcppServer.Lib.Utf16

/-!
# What the browser reads of what the server writes

A text frame holds UTF-8; the browser hands on its UTF-16 and drops the connection if it cannot.
`Json.toJs?` is the value `JSON.parse` makes of a document that the server wrote: where a name
occurs twice the last member counts. It has no value if a string in it is no text.
-/

namespace OcppServer

def utf16? (s : Bytes) : Option JsString :=
  (String.fromUTF8? s.toByteArray).map fun text => Utf16.encode text.toList

mutual

/-- An integer is a number, exact up to `2 ^ 53`. -/
def Json.toJs? : Json → Option JsValue
  | .null => some .null
  | .bool b => some (.bool b)
  | .int n => some (.num n)
  | .double x => some (.num x)
  | .string s => (utf16? s).map .str
  | .array elems => (Json.elemsToJs? elems).map .arr
  | .object members => (Json.membersToJs? members).map fun l => .obj (Replica.replay l ∅).toPairs

def Json.elemsToJs? : List Json → Option (List JsValue)
  | [] => some []
  | j :: rest => j.toJs?.bind fun v => (Json.elemsToJs? rest).map (v :: ·)

def Json.membersToJs? : List (Bytes × Json) → Option (List (JsString × JsValue))
  | [] => some []
  | (name, j) :: rest => (utf16? name).bind fun name => j.toJs?.bind fun v =>
    (Json.membersToJs? rest).map ((name, v) :: ·)

end

/-- `JSON.parse`, given what a frame brings of the document's text, returns the document's value,
or there is neither. -/
def ReadsBack (parse : JsString → Option JsValue) (rt : Runtime) (doc : Json) : Prop :=
  (utf16? (jsonToString rt doc)).bind parse = doc.toJs?

section ReadsBack

variable {parse : JsString → Option JsValue} {rt : Runtime} {doc : Json}

/-- What `JSON.parse` makes of the text of a document. -/
theorem ReadsBack.eq_of_text (h : ReadsBack parse rt doc) {text : JsString}
    (ht : utf16? (jsonToString rt doc) = some text) : parse text = doc.toJs? := by
  rw [← h, ht, Option.bind_some]

theorem ReadsBack.eq_none (h : ReadsBack parse rt doc) (ht : utf16? (jsonToString rt doc) = none) :
    doc.toJs? = none := by
  rw [← h, ht, Option.bind_none]

end ReadsBack

theorem utf16?_inj {a b : Bytes} {t : JsString} (ha : utf16? a = some t) (hb : utf16? b = some t) :
    a = b := by
  unfold utf16? at ha hb
  obtain ⟨s, hs, rfl⟩ := Option.map_eq_some_iff.1 ha
  obtain ⟨s', hs', heq⟩ := Option.map_eq_some_iff.1 hb
  obtain rfl := String.toList_injective (Utf16.encode_injective heq)
  have key : ∀ {c : Bytes}, String.fromUTF8? c.toByteArray = some s' →
      s'.toByteArray = c.toByteArray := by
    intro c hc
    unfold String.fromUTF8? at hc
    split_ifs at hc with hv
    obtain rfl := Option.some.inj hc
    rfl
  exact List.toByteArray_inj.1 ((key hs).symm.trans (key hs'))

theorem text_ne_nil {rt : Runtime} {doc : Json} {text : JsString}
    (h : utf16? (jsonToString rt doc) = some text) : text ≠ [] := by
  rintro rfl
  exact jsonToString_ne_nil rt doc (utf16?_inj h (by decide))

theorem utf8Encode_ascii {cs : List Char} (h : ∀ c ∈ cs, c.toNat < 128) :
    cs.utf8Encode = (cs.map fun c => UInt8.ofNat c.toNat).toByteArray := by
  rw [List.utf8Encode]
  congr 1
  induction cs with
  | nil => rfl
  | cons c cs ih =>
    rw [List.map_cons, List.flatMap_cons, ih fun d hd => h d (List.mem_cons_of_mem _ hd)]
    have hc : c.val.toNat ≤ 0x7F := Nat.le_of_lt_succ (h c List.mem_cons_self)
    rw [String.utf8EncodeChar, if_pos hc]
    rfl

/-- A literal that reaches a client reads as the same literal. -/
theorem utf16?_lit (s : String) (h : (s.toList.all fun c => c.toNat < 128) = true) :
    utf16? (lit s) = some (js s) := by
  have h : ∀ c ∈ s.toList, c.toNat < 128 := by simpa using h
  have hbytes : (lit s).toByteArray = s.toByteArray := by
    rw [lit, ← utf8Encode_ascii h, String.utf8Encode_toList]
  have htext : String.fromUTF8? s.toByteArray = some s := by
    rw [String.fromUTF8?, dif_pos s.isValidUTF8]
    rfl
  have hunits : Utf16.encode s.toList = js s := by
    rw [Utf16.encode, js, List.map_eq_flatMap]
    refine List.flatMap_congr fun c hc => ?_
    have := h c hc
    rw [Utf16.units, if_pos (by omega)]
  rw [utf16?, hbytes, htext, Option.map_some, hunits]

theorem membersToJs?_isSome {l : List (Bytes × Json)} :
    (Json.membersToJs? l).isSome ↔ ∀ e ∈ l, (utf16? e.1).isSome ∧ e.2.toJs?.isSome := by
  induction l with
  | nil => simp [Json.membersToJs?]
  | cons e l ih =>
    obtain ⟨name, j⟩ := e
    rw [List.forall_mem_cons, ← ih]
    simp only [Json.membersToJs?]
    rcases utf16? name with _ | n
    · simp
    rcases j.toJs? with _ | v
    · simp
    simp

/-- What is read of the members comes from them, and of each of them something is. -/
theorem mem_membersToJs? {l : List (Bytes × Json)} {ms : List (JsString × JsValue)}
    (h : Json.membersToJs? l = some ms) {n : JsString} {v : JsValue} :
    (n, v) ∈ ms ↔ ∃ name j, (name, j) ∈ l ∧ utf16? name = some n ∧ j.toJs? = some v := by
  induction l generalizing ms with
  | nil =>
    obtain rfl : [] = ms := Option.some.inj h
    simp
  | cons e l ih =>
    obtain ⟨name, j⟩ := e
    simp only [Json.membersToJs?] at h
    obtain ⟨n', hn, h⟩ := Option.bind_eq_some_iff.1 h
    obtain ⟨v', hv, h⟩ := Option.bind_eq_some_iff.1 h
    obtain ⟨ms', hms, rfl⟩ := Option.map_eq_some_iff.1 h
    rw [List.mem_cons, ih hms]
    constructor
    · rintro (heq | ⟨name', j', hmem, hrest⟩)
      · obtain ⟨rfl, rfl⟩ := Prod.mk.inj heq
        exact ⟨name, j, List.mem_cons_self, hn, hv⟩
      · exact ⟨name', j', List.mem_cons_of_mem _ hmem, hrest⟩
    · rintro ⟨name', j', hmem, hn', hv'⟩
      rcases List.mem_cons.1 hmem with heq | hmem
      · obtain ⟨rfl, rfl⟩ := Prod.mk.inj heq
        rw [hn] at hn'
        rw [hv] at hv'
        exact .inl (Prod.ext (Option.some.inj hn').symm (Option.some.inj hv').symm)
      · exact .inr ⟨name', j', hmem, hn', hv'⟩

theorem toJs?_string {s : Bytes} {v : JsValue} :
    (Json.string s).toJs? = some v ↔ ∃ text, utf16? s = some text ∧ v = .str text := by
  simp only [Json.toJs?, Option.map_eq_some_iff]
  exact exists_congr fun text => and_congr_right fun _ => eq_comm

/-- A reply is read if the string it brings is text. -/
theorem toJs?_reply (id : ℤ) (s : Bytes) (field : String)
    (hf : (field.toList.all fun c => c.toNat < 128) = true) :
    (Json.object [(lit "jsonrpc", .string (lit "2.0")), (lit "id", .int id),
        (lit field, .string s)]).toJs?
      = (utf16? s).map fun text => .obj (Replica.replay [(js "jsonrpc", .str (js "2.0")),
        (js "id", .num id), (js field, .str text)] ∅).toPairs := by
  have hfield := utf16?_lit field hf
  simp (disch := decide) only [Json.toJs?, Json.membersToJs?, utf16?_lit, hfield,
    Option.map_some, Option.bind_some]
  rcases utf16? s with _ | text <;> rfl

end OcppServer
