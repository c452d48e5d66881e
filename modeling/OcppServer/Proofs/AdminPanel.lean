import OcppServer.AdminPanel
import OcppServer.JsonParse
import OcppServer.Proofs.Changes

/-!
# What stored strings do to the admin page

A string is put into the page's text as it is: twice between tags or in a literal as a key, and as
a value. It is harmless in each place if it is inert: no quote, backslash or line break, no
character reference, and read as HTML of its own it has no tag and leaves nothing open. Then the
tags depend on the number of entries alone and each button calls `editValue` with its entry.

It is needed too. A literal that denotes a string with an escape or a reference in it would be
longer than there is room for. And a string with a tag, or one that leaves a tag or a comment open,
is read with one tag behind it as a key and another as a value, where the page with a string of the
server's own in the same place has the tags `</label>` and `</span>`.
-/

namespace OcppServer

open HtmlTags JsLiteral Utf16

namespace AdminPanel

/-- The tokens up to the arguments of the call a button makes. -/
def editValue : List JsString := [js "adminPanel", js ".", js "editValue", js "("]

/-- The attribute is one call of `editValue`, with two literals that denote the key and value. -/
def CallsEditValue (d : ValueDecoder) (key value : JsString) : Prop :=
  call? editValue (d.attributeValue (onclickText key value)) = some (key, value)

def EntriesIn (T : Set JsString) (l : List (JsString × JsString)) : Prop :=
  ∀ e ∈ l, e.1 ∈ T ∧ e.2 ∈ T

/-- Whatever strings of the set the page shows: its tags depend on their number alone, and each
button calls `editValue` with its entry. -/
structure FixedStructure (d : ValueDecoder) (T : Set JsString) : Prop where
  tags_eq : ∀ l l', EntriesIn T l → EntriesIn T l' → l.length = l'.length →
    tags (html l) = tags (html l')
  calls : ∀ l, EntriesIn T l → ∀ e ∈ l, CallsEditValue d e.1 e.2

/-- Read as it stands in a quoted literal and in an attribute, and without effect on the tags. -/
structure Inert (d : ValueDecoder) (s : JsString) : Prop where
  plain : ∀ c ∈ s, Plain (unit '\'') c
  unquoted : unit '"' ∉ s
  decoded : d.decode s = s
  tagless : tagsFrom .data s = []
  closed : after .data s = .data ∨ after .data s = .tagOpen

/-! ## The call -/

section Call

variable {d : ValueDecoder} {key value : JsString}

/-- What follows the opening quote of the second literal. -/
def fromValue (value : JsString) : JsString :=
  value ++ unit '\'' :: (js ")" ++ unit '"' :: itemEnd.drop 3)

/-- What follows the opening quote of the first literal. -/
def fromKey (key value : JsString) : JsString :=
  key ++ unit '\'' :: (js ", " ++ unit '\'' :: fromValue value)

theorem onclickText_eq (key value : JsString) :
    onclickText key value = js "adminPanel.editValue(" ++ unit '\'' :: fromKey key value := by
  have h1 : callStart = js "adminPanel.editValue(" ++ [unit '\''] := by decide
  have h2 : callComma = unit '\'' :: (js ", " ++ [unit '\'']) := by decide
  have h3 : itemEnd = unit '\'' :: (js ")" ++ unit '"' :: itemEnd.drop 3) := by decide +kernel
  rw [onclickText, fromKey, fromValue, ← h3, h1, h2]
  simp only [List.append_assoc, List.cons_append, List.nil_append]

theorem call?_editValue (s : JsString) :
    call? editValue (js "adminPanel.editValue(" ++ s) = arguments? s := by
  have hname : js "adminPanel.editValue(" = editValue.flatten := by decide
  rw [hname]
  exact call?_flatten s (by decide)

theorem attributeValue_onclickText (d : ValueDecoder) (key value : JsString) :
    d.attributeValue (onclickText key value)
      = js "adminPanel.editValue(" ++ unit '\'' :: d.attributeValue (fromKey key value) := by
  have hname : d.decode (js "adminPanel.editValue(") = js "adminPanel.editValue(" :=
    d.decode_eq _ (by decide) (by decide) (by decide)
  rw [onclickText_eq, attributeValue_apostrophe d (by decide), hname]

theorem attributeValue_fromKey (hkey : unit '"' ∉ key) :
    d.attributeValue (fromKey key value) = d.decode key ++ unit '\'' ::
      (js ", " ++ unit '\'' :: d.attributeValue (fromValue value)) := by
  have hcomma : d.decode (js ", ") = js ", " :=
    d.decode_eq _ (by decide) (by decide) (by decide)
  rw [fromKey, attributeValue_apostrophe d hkey, attributeValue_apostrophe d (by decide), hcomma]

theorem attributeValue_fromValue (hvalue : unit '"' ∉ value) :
    d.attributeValue (fromValue value) = d.decode value ++ [unit '\'', unit ')'] := by
  have hclose : d.decode (js ")") = js ")" := d.decode_eq _ (by decide) (by decide) (by decide)
  rw [fromValue, attributeValue_apostrophe d hvalue, attributeValue_quote d (by decide), hclose]
  rfl

/-- Without double quotes the arguments are as they are spelled. -/
theorem attributeValue_spelled (hkey : unit '"' ∉ key) (hvalue : unit '"' ∉ value) :
    d.attributeValue (onclickText key value)
      = js "adminPanel.editValue(" ++ spelled (d.decode key) (d.decode value) := by
  rw [attributeValue_onclickText, attributeValue_fromKey hkey, attributeValue_fromValue hvalue]
  rfl

theorem Inert.calls (hkey : Inert d key) (hvalue : Inert d value) :
    CallsEditValue d key value := by
  rw [CallsEditValue, attributeValue_spelled hkey.unquoted hvalue.unquoted, call?_editValue,
    hkey.decoded, hvalue.decoded]
  exact arguments?_spelled hkey.plain hvalue.plain

/-- A double quote ends the attribute before there is room for both literals. -/
theorem CallsEditValue.unquoted (h : CallsEditValue d key value) :
    unit '"' ∉ key ∧ unit '"' ∉ value := by
  rw [CallsEditValue, attributeValue_onclickText, call?_editValue] at h
  have hroom := arguments?_length h
  rw [List.length_cons] at hroom
  have hkey : unit '"' ∉ key := by
    intro hq
    have hcut : (d.attributeValue (fromKey key value)).length < key.length :=
      attributeValue_length_lt d hq _
    omega
  refine ⟨hkey, fun hq => ?_⟩
  have hcut : (d.attributeValue (fromValue value)).length < value.length :=
    attributeValue_length_lt d hq _
  have hdecode := d.length_decode key
  have hcomma : (js ", ").length = 2 := by decide
  rw [attributeValue_fromKey hkey] at hroom
  simp only [List.length_cons, List.length_append, hcomma] at hroom
  omega

/-- What a literal denotes has no room to be spelled otherwise. -/
theorem CallsEditValue.plain (h : CallsEditValue d key value) :
    (d.decode key = key ∧ ∀ c ∈ key, Plain (unit '\'') c)
      ∧ d.decode value = value ∧ ∀ c ∈ value, Plain (unit '\'') c := by
  obtain ⟨hkey, hvalue⟩ := h.unquoted
  rw [CallsEditValue, attributeValue_spelled hkey hvalue, call?_editValue] at h
  exact plain_of_arguments? h (d.length_decode key) (d.length_decode value)

end Call

/-! ## The tags of a page of inert strings -/

section Tags

def endLabel : Tag := ⟨true, js "label"⟩

def endSpan : Tag := ⟨true, js "span"⟩

/-- The tags of an entry. -/
def itemTags : List Tag :=
  [⟨false, js "div"⟩, ⟨false, js "label"⟩, ⟨true, js "label"⟩, ⟨false, js "span"⟩,
    ⟨true, js "span"⟩, ⟨false, js "button"⟩, ⟨true, js "button"⟩, ⟨true, js "div"⟩]

/-- An entry's text from the value between tags to the key in the call. -/
def buttonStart : JsString := afterSpan ++ callStart

/-- What stands of an entry in the call. -/
def callText (key value : JsString) : JsString := key ++ (callComma ++ value)

theorem item_eq (key value : JsString) : item key value = itemStart ++ (key ++ (afterLabel ++
    (value ++ (buttonStart ++ (callText key value ++ itemEnd))))) := by
  simp only [item, onclickText, buttonStart, callText, List.append_assoc]

def inButton : State := .inTag ⟨false, js "button"⟩ .doubleQuoted

/-- The pieces of the template, each from where it is read. -/
theorem tagsFrom_template :
    (tagsFrom .data itemStart = [⟨false, js "div"⟩, ⟨false, js "label"⟩]
      ∧ after .data itemStart = .data)
    ∧ (∀ σ ∈ [State.data, .tagOpen], tagsFrom σ afterLabel = [endLabel, ⟨false, js "span"⟩]
      ∧ after σ afterLabel = .data)
    ∧ (∀ σ ∈ [State.data, .tagOpen], tagsFrom σ buttonStart = [endSpan]
      ∧ after σ buttonStart = inButton)
    ∧ (tagsFrom inButton itemEnd
        = [⟨false, js "button"⟩, ⟨true, js "button"⟩, ⟨true, js "div"⟩]
      ∧ after inButton itemEnd = .data)
    ∧ after .data sectionStart = .data := by decide +kernel

variable {d : ValueDecoder} {key value : JsString}

/-- In the attribute's value nothing of an entry counts. -/
theorem tagsFrom_call (hkey : unit '"' ∉ key) (hvalue : unit '"' ∉ value) :
    tagsFrom inButton (callText key value) = []
      ∧ after inButton (callText key value) = inButton := by
  have hcomma : unit '"' ∉ callComma := by decide
  refine tagsFrom_doubleQuoted _ ?_
  rw [callText, List.mem_append, List.mem_append, not_or, not_or]
  exact ⟨hkey, hcomma, hvalue⟩

theorem Inert.tagsFrom_item (hkey : Inert d key) (hvalue : Inert d value) :
    tagsFrom .data (item key value) = itemTags ∧ after .data (item key value) = .data := by
  obtain ⟨⟨hstart, hstart'⟩, hlabel, hspan, ⟨hend, hend'⟩, -⟩ := tagsFrom_template
  obtain ⟨hlabel, hlabel'⟩ := hlabel _ (by simpa using hkey.closed)
  obtain ⟨hspan, hspan'⟩ := hspan _ (by simpa using hvalue.closed)
  obtain ⟨hcall, hcall'⟩ := tagsFrom_call hkey.unquoted hvalue.unquoted
  rw [item_eq]
  simp only [tagsFrom_append, after_append, hstart', hlabel', hspan', hcall', hend', and_true]
  rw [hstart, hkey.tagless, hlabel, hvalue.tagless, hspan, hcall, hend]
  decide

theorem tags_items : ∀ {l : List (JsString × JsString)},
    (∀ e ∈ l, Inert d e.1 ∧ Inert d e.2) →
      tagsFrom .data (l.flatMap fun e => item e.1 e.2) = (List.replicate l.length itemTags).flatten
        ∧ after .data (l.flatMap fun e => item e.1 e.2) = .data
  | [], _ => ⟨rfl, rfl⟩
  | e :: l, h => by
    obtain ⟨hkey, hvalue⟩ := h e (by simp)
    obtain ⟨htags, hafter⟩ := hkey.tagsFrom_item hvalue
    obtain ⟨ih, ih'⟩ := tags_items fun f hf => h f (List.mem_cons_of_mem _ hf)
    rw [List.flatMap_cons, tagsFrom_append, after_append, hafter, htags, ih, ih', List.length_cons,
      List.replicate_succ, List.flatten_cons]
    exact ⟨rfl, rfl⟩

theorem fixedStructure_of_inert {T : Set JsString} (h : ∀ s ∈ T, Inert d s) :
    FixedStructure d T where
  tags_eq := by
    obtain ⟨-, -, -, -, hstart⟩ := tagsFrom_template
    have hall : ∀ {l}, EntriesIn T l → ∀ e ∈ l, Inert d e.1 ∧ Inert d e.2 :=
      fun hl e he => ⟨h _ (hl e he).1, h _ (hl e he).2⟩
    intro l l' hl hl' hlen
    simp only [tags, html, tagsFrom_append, hstart, (tags_items (hall hl)).1,
      (tags_items (hall hl)).2, (tags_items (hall hl')).1, (tags_items (hall hl')).2, hlen]
  calls := fun _ hl e he => (h _ (hl e he).1).calls (h _ (hl e he).2)

end Tags

/-! ## A page with one string that is not the server's -/

section Needed

/-- A value the server starts with. -/
def harmless : JsString := js "running"

def pageEnd : JsString := itemEnd ++ sectionEnd

/-- What follows a string that is the key of the only entry. -/
def behindKey (s : JsString) : JsString :=
  afterLabel ++ harmless ++ buttonStart ++ (s ++ (callComma ++ (harmless ++ pageEnd)))

/-- What follows it if it is the value. -/
def behindValue (s : JsString) : JsString :=
  buttonStart ++ harmless ++ callComma ++ (s ++ pageEnd)

theorem html_single (key value : JsString) : html [(key, value)] = sectionStart ++ itemStart ++
    (key ++ (afterLabel ++ (value ++ (buttonStart ++ (key ++ (callComma ++ (value ++
      pageEnd))))))) := by
  simp only [html, List.flatMap_singleton, item_eq, callText, pageEnd, List.append_assoc]

/-- And where a string has left something open. -/
theorem tagsFrom_template_open :
    (tagsFrom (.inComment .body) (afterLabel ++ harmless ++ buttonStart) = []
      ∧ after (.inComment .body) (afterLabel ++ harmless ++ buttonStart) = .inComment .body)
    ∧ (tagsFrom (.inComment .body) (buttonStart ++ harmless ++ callComma) = []
      ∧ after (.inComment .body) (buttonStart ++ harmless ++ callComma) = .inComment .body)
    ∧ (tagsFrom (.inComment .body) (callComma ++ harmless) = []
      ∧ after (.inComment .body) (callComma ++ harmless) = .inComment .body)
    ∧ (∀ σ ∈ [State.endTagOpen, .markupDeclarationOpen, .markupDeclarationDash, .bogusComment],
      (tagsFrom σ afterLabel).head? = some ⟨false, js "span"⟩)
    ∧ ∀ σ ∈ [State.data, .tagOpen, .endTagOpen, .markupDeclarationOpen, .markupDeclarationDash,
        .bogusComment],
      (tagsFrom σ (callComma ++ harmless ++ itemEnd)).head? = some ⟨true, js "button"⟩ := by
  decide +kernel

theorem after_pageStart : after .data (sectionStart ++ itemStart) = .data := by
  obtain ⟨⟨-, hitem⟩, -, -, -, hsection⟩ := tagsFrom_template
  rw [after_append, hsection, hitem]

theorem tagsFrom_harmless : tagsFrom .data harmless = [] ∧ after .data harmless = .data :=
  tagsFrom_data (by decide)

theorem first_behindKey {s : JsString}
    (h : tags (html [(s, harmless)]) = tags (html [(harmless, harmless)])) :
    (tagsFrom .data (s ++ behindKey s)).head? = some endLabel := by
  have hsplit : ∀ t, html [(t, harmless)] = sectionStart ++ itemStart ++ (t ++ behindKey t) := by
    intro t
    rw [html_single, behindKey]
    simp only [List.append_assoc]
  rw [tags, tags, hsplit, hsplit] at h
  have h' := tagsFrom_append_inj h
  rw [after_pageStart] at h'
  obtain ⟨-, hlabel, -⟩ := tagsFrom_template
  rw [h', behindKey, List.append_assoc, List.append_assoc, tagsFrom_append, tagsFrom_harmless.1,
    tagsFrom_harmless.2, List.nil_append, tagsFrom_append, (hlabel .data (by simp)).1]
  rfl

theorem after_labelled {s : JsString} (h : unit '<' ∉ s) :
    after .data (s ++ afterLabel) = .data := by
  obtain ⟨-, hlabel, -⟩ := tagsFrom_template
  rw [after_append, (tagsFrom_data h).2, (hlabel .data (by simp)).2]

theorem first_behindValue {s : JsString}
    (h : tags (html [(harmless, s)]) = tags (html [(harmless, harmless)])) :
    (tagsFrom .data (s ++ behindValue s)).head? = some endSpan := by
  have hsplit : ∀ t, html [(harmless, t)] = sectionStart ++ itemStart ++ (harmless ++ afterLabel
      ++ (t ++ behindValue t)) := by
    intro t
    rw [html_single, behindValue]
    simp only [List.append_assoc]
  rw [tags, tags, hsplit, hsplit] at h
  have h' := tagsFrom_append_inj h
  rw [after_pageStart] at h'
  have h'' := tagsFrom_append_inj h'
  rw [after_labelled (by decide)] at h''
  obtain ⟨-, -, hspan, -⟩ := tagsFrom_template
  rw [h'', behindValue, List.append_assoc, List.append_assoc, tagsFrom_append, tagsFrom_harmless.1,
    tagsFrom_harmless.2, List.nil_append, tagsFrom_append, (hspan .data (by simp)).1]
  rfl

/-- A comment goes on through what stands between the two places of the string. -/
theorem inComment_keyToCall (p : CommentPlace) :
    tagsFrom (.inComment p) (afterLabel ++ harmless ++ buttonStart) = []
      ∧ after (.inComment p) (afterLabel ++ harmless ++ buttonStart) = .inComment .body := by
  have hfirst : (afterLabel ++ (harmless ++ buttonStart)).head? = some (unit ':') := by
    have hcolon : afterLabel.head? = some (unit ':') := by decide
    rw [List.head?_append, hcolon, Option.some_or]
  have hnext : p.next (unit ':') = CommentPlace.body.next (unit ':') := by cases p <;> decide
  obtain ⟨hkey, -⟩ := tagsFrom_template_open
  rw [List.append_assoc] at hkey ⊢
  rwa [(tagsFrom_inComment hnext hfirst).1, (tagsFrom_inComment hnext hfirst).2]

theorem inComment_valueToCall (p : CommentPlace) :
    tagsFrom (.inComment p) (buttonStart ++ harmless ++ callComma) = []
      ∧ after (.inComment p) (buttonStart ++ harmless ++ callComma) = .inComment .body := by
  have hfirst : (buttonStart ++ (harmless ++ callComma)).head? = some (unit '<') := by
    have hless : buttonStart.head? = some (unit '<') := by decide
    rw [List.head?_append, hless, Option.some_or]
  have hnext : p.next (unit '<') = CommentPlace.body.next (unit '<') := by cases p <;> decide
  obtain ⟨-, hvalue, -⟩ := tagsFrom_template_open
  rw [List.append_assoc] at hvalue ⊢
  rwa [(tagsFrom_inComment hnext hfirst).1, (tagsFrom_inComment hnext hfirst).2]

theorem callComma_first (s : JsString) : (callComma ++ s).head? = some (unit '\'') := by
  have hfirst : callComma.head? = some (unit '\'') := by decide
  rw [List.head?_append, hfirst, Option.some_or]

/-- And in the same way from either literal of the call. -/
theorem inComment_call (p : CommentPlace) :
    tagsFrom (.inComment p) (callComma ++ (harmless ++ pageEnd))
      = tagsFrom (.inComment p) pageEnd := by
  have hnext : p.next (unit '\'') = CommentPlace.body.next (unit '\'') := by cases p <;> decide
  have hend : pageEnd.head? = some (unit '\'') := by
    have hquote : itemEnd.head? = some (unit '\'') := by decide
    rw [pageEnd, List.head?_append, hquote, Option.some_or]
  obtain ⟨-, -, hvalue, -⟩ := tagsFrom_template_open
  rw [(tagsFrom_inComment hnext (callComma_first _)).1, (tagsFrom_inComment hnext hend).1,
    ← List.append_assoc, tagsFrom_append, hvalue.1, hvalue.2, List.nil_append]

/-- A string that opens a comment cannot close it in the call so that a label and a span end
first. -/
theorem not_inComment {s : JsString} {p : CommentPlace}
    (h₁ : (tagsFrom (.inComment p) (behindKey s)).head? = some endLabel)
    (h₂ : (tagsFrom (.inComment p) (behindValue s)).head? = some endSpan) : False := by
  obtain ⟨hkey, hkey'⟩ := inComment_keyToCall p
  obtain ⟨hvalue, hvalue'⟩ := inComment_valueToCall p
  rw [behindKey, tagsFrom_append, hkey, hkey', List.nil_append] at h₁
  rw [behindValue, tagsFrom_append, hvalue, hvalue', List.nil_append] at h₂
  obtain ⟨-, h₁, h₂⟩ := tagsFrom_eq_nil_of_two h₁ h₂ (by decide)
  -- Outside of tags and comments the button ends first.
  have hbutton : ∀ σ ∈ [State.data, .tagOpen, .endTagOpen, .markupDeclarationOpen,
      .markupDeclarationDash, .bogusComment],
      (tagsFrom σ (callComma ++ (harmless ++ pageEnd))).head? ≠ some endLabel := by
    obtain ⟨-, -, -, -, hbutton⟩ := tagsFrom_template_open
    intro σ hσ
    rw [pageEnd, ← List.append_assoc, ← List.append_assoc, head?_tagsFrom_append, hbutton σ hσ,
      Option.some_or]
    decide
  generalize after (.inComment .body) s = σ at h₁ h₂
  rcases σ with _ | _ | _ | _ | _ | _ | ⟨t, p⟩ | p
  iterate 6 exact hbutton _ (by simp) h₁
  · exact not_inTag_of_two h₁ h₂ (by decide) (callComma_first _) (by decide) (by decide)
  · rw [inComment_call, h₂] at h₁
    exact absurd h₁ (by decide)

/-- A string that lets the label and the span end first has no tag and leaves nothing open. -/
theorem tagless_of_first {s : JsString}
    (h₁ : (tagsFrom .data (s ++ behindKey s)).head? = some endLabel)
    (h₂ : (tagsFrom .data (s ++ behindValue s)).head? = some endSpan) :
    tagsFrom .data s = [] ∧ (after .data s = .data ∨ after .data s = .tagOpen) := by
  obtain ⟨htags, h₁, h₂⟩ := tagsFrom_eq_nil_of_two h₁ h₂ (by decide)
  refine ⟨htags, ?_⟩
  -- A bogus comment goes on to the end of `</label>`.
  obtain ⟨-, -, -, hbogus, -⟩ := tagsFrom_template_open
  have hopen : ∀ σ ∈ [State.endTagOpen, .markupDeclarationOpen, .markupDeclarationDash,
      .bogusComment], (tagsFrom σ (behindKey s)).head? ≠ some endLabel := by
    intro σ hσ
    rw [behindKey, List.append_assoc, List.append_assoc, head?_tagsFrom_append, hbogus σ hσ,
      Option.some_or]
    decide
  generalize after .data s = σ at h₁ h₂
  rcases σ with _ | _ | _ | _ | _ | _ | ⟨t, p⟩ | p
  · exact .inl rfl
  · exact .inr rfl
  iterate 4 exact absurd h₁ (hopen _ (by simp))
  · have hcolon : (behindKey s).head? = some (unit ':') := by
      have hfirst : afterLabel.head? = some (unit ':') := by decide
      rw [behindKey, List.append_assoc, List.append_assoc, List.head?_append, hfirst,
        Option.some_or]
    exact (not_inTag_of_two h₁ h₂ (by decide) hcolon (by decide) (by decide)).elim
  · exact (not_inComment h₁ h₂).elim

theorem inert_of_fixedStructure {d : ValueDecoder} {T : Set JsString} (h : FixedStructure d T)
    (hharmless : harmless ∈ T) {s : JsString} (hs : s ∈ T) : Inert d s := by
  have hin : ∀ {key value}, key ∈ T → value ∈ T → EntriesIn T [(key, value)] := by
    intro key value hkey hvalue e he
    obtain rfl := List.mem_singleton.1 he
    exact ⟨hkey, hvalue⟩
  have hcalls : CallsEditValue d s s := h.calls _ (hin hs hs) (s, s) (List.mem_singleton_self _)
  obtain ⟨⟨hdecoded, hplain⟩, -⟩ := hcalls.plain
  have hkey := h.tags_eq [(s, harmless)] [(harmless, harmless)] (hin hs hharmless)
    (hin hharmless hharmless) rfl
  have hvalue := h.tags_eq [(harmless, s)] [(harmless, harmless)] (hin hharmless hs)
    (hin hharmless hharmless) rfl
  obtain ⟨htagless, hclosed⟩ := tagless_of_first (first_behindKey hkey) (first_behindValue hvalue)
  exact ⟨hplain, hcalls.unquoted.1, hdecoded, htagless, hclosed⟩

end Needed

/-! ## What clients store -/

section Stored

/-- The texts a client can store: a C string ends before a NUL. -/
def Storable : Set JsString := {t | ∃ b : Bytes, (0 : UInt8) ∉ b ∧ utf16? b = some t}

/-- A client stores any two of them as a key and its value. -/
theorem exists_setValue {k v : JsString} (hk : k ∈ Storable) (hv : v ∈ Storable) :
    ∃ (params : Json) (key value : Bytes), utf16? key = some k ∧ utf16? value = some v
      ∧ ∀ rt (s : WebServer), (s.handleSetValue rt params).2.data.values.lookup key
        = some value := by
  obtain ⟨key, hkey, hk⟩ := hk
  obtain ⟨value, hvalue, hv⟩ := hv
  refine ⟨.object [(lit "key", .string key), (lit "value", .string value)], key, value, hk, hv,
    fun rt s => ?_⟩
  have hdata : (s.handleSetValue rt (.object [(lit "key", .string key),
      (lit "value", .string value)])).2.data = s.data.assign [(cstr key, cstr value)] := by
    rw [WebServer.handleSetValue_eq]
    rfl
  rw [hdata, cstr_of_notMem hkey, cstr_of_notMem hvalue]
  exact AList.lookup_insert _

/-- The keys and values the server starts with. -/
def initialTexts : Set JsString :=
  {t | ∃ e ∈ initialValues, utf16? e.1 = some t ∨ utf16? e.2 = some t}

/-- What a quoted literal, an attribute or the tokenizer might take for something else. -/
def special : List UInt16 :=
  [unit '\'', unit '"', unit '\\', 10, 13, 0, unit '&', unit '<']

variable {d : ValueDecoder} {s : JsString}

theorem inert_of_not_special (h : (special.all fun c => c ∉ s) = true) : Inert d s := by
  simp only [special, List.all_cons, List.all_nil, Bool.and_true, Bool.and_eq_true,
    decide_eq_true_eq] at h
  obtain ⟨hapostrophe, hquote, hbackslash, hlf, hcr, hnul, hampersand, hless⟩ := h
  obtain ⟨htagless, hclosed⟩ := tagsFrom_data hless
  refine ⟨?_, hquote, d.decode_eq s hampersand hcr hnul, htagless, .inl hclosed⟩
  rintro c hc
  refine ⟨?_, ?_, ?_, ?_⟩ <;> rintro rfl
  · exact hapostrophe hc
  · exact hlf hc
  · exact hcr hc
  · exact hbackslash hc

theorem inert_of_initialTexts (hs : s ∈ initialTexts) : Inert d s := by
  obtain ⟨e, he, ht⟩ := hs
  have hword : ∃ word : String, s = js word ∧ (special.all fun c => c ∉ js word) = true := by
    have hread : ∀ {word : String} {b : Bytes}, b = lit word →
        (word.toList.all fun c => c.toNat < 128) = true → utf16? b = some s → s = js word := by
      rintro word b rfl hascii hb
      rw [utf16?_lit word hascii, Option.some.injEq] at hb
      exact hb.symm
    simp only [initialValues, List.mem_cons, List.not_mem_nil, or_false] at he
    rcases he with rfl | rfl | rfl | rfl | rfl | rfl | rfl <;> rcases ht with ht | ht <;>
      exact ⟨_, hread rfl (by decide) ht, by decide⟩
  obtain ⟨word, rfl, hplain⟩ := hword
  exact inert_of_not_special hplain

theorem harmless_mem : harmless ∈ initialTexts :=
  ⟨(lit "systemStatus", lit "running"), by simp [initialValues],
    .inr (utf16?_lit "running" (by decide))⟩

/-- If clients store strings of a set, the page has one structure, whichever of them and of the
server's own it shows, exactly if each string of the set is inert. -/
theorem fixedStructure_iff (d : ValueDecoder) (stored : Set JsString) :
    FixedStructure d (stored ∪ initialTexts) ↔ ∀ s ∈ stored, Inert d s := by
  constructor
  · intro h s hs
    exact inert_of_fixedStructure h (.inr harmless_mem) (.inl hs)
  · intro h
    refine fixedStructure_of_inert fun s hs => ?_
    rcases hs with hs | hs
    · exact h s hs
    · exact inert_of_initialTexts hs

theorem storable_lit {s : String} (hascii : (s.toList.all fun c => c.toNat < 128) = true)
    (hnul : (0 : UInt8) ∉ lit s) : js s ∈ Storable := ⟨lit s, hnul, utf16?_lit s hascii⟩

/-- A page with a bold note has one tag more than a page with another. -/
theorem bold_note_adds_tag : ¬ FixedStructure .verbatim Storable := by
  intro h
  have hnote : js "note" ∈ Storable := storable_lit (by decide) (by decide)
  have hbold : js "<b>" ∈ Storable := storable_lit (by decide) (by decide)
  have hplain : harmless ∈ Storable := storable_lit (by decide) (by decide)
  have hentries : ∀ v ∈ Storable, EntriesIn Storable [(js "note", v)] := by
    intro v hv e he
    obtain rfl := List.mem_singleton.1 he
    exact ⟨hnote, hv⟩
  have hsplit : ∀ v, html [(js "note", v)] = sectionStart ++ itemStart ++ (js "note" ++ afterLabel)
      ++ (v ++ (buttonStart ++ (js "note" ++ (callComma ++ (v ++ pageEnd))))) := by
    intro v
    rw [html_single]
    simp only [List.append_assoc]
  have htags := h.tags_eq _ _ (hentries _ hbold) (hentries _ hplain) rfl
  rw [tags, tags, hsplit, hsplit] at htags
  have hfirst := congrArg List.head? (tagsFrom_append_inj htags)
  have hb : (tagsFrom .data (js "<b>")).head? = some ⟨false, js "b"⟩ := by decide
  obtain ⟨-, -, hspan, -⟩ := tagsFrom_template
  rw [after_append, after_pageStart, after_labelled (by decide), head?_tagsFrom_append, hb,
    Option.some_or, tagsFrom_append, tagsFrom_harmless.1, tagsFrom_harmless.2, List.nil_append,
    tagsFrom_append, (hspan .data (by simp)).1] at hfirst
  exact absurd hfirst (by decide)

end Stored

end AdminPanel

end OcppServer
