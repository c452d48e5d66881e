import Mathlib.Data.List.Infix
import OcppServer.Lib.Utf16

/-!
# The tags of an HTML text

The tokenizer of the HTML standard as far as it decides which tags a text has: their names, and
whether they are end tags. It starts in the data state; what the tree builder would have it read as
raw text after some tags is left out. Character references play no part, for a reference in a text
or in an attribute's value never ends it, and a DOCTYPE or a CDATA section ends at the first `>` as
a bogus comment does. A line break may be CR as well as LF.
-/

namespace HtmlTags

open Utf16 (unit)

def IsSpace (c : UInt16) : Prop :=
  c.toNat = 32 ∨ c.toNat = 9 ∨ c.toNat = 10 ∨ c.toNat = 12 ∨ c.toNat = 13

instance (c : UInt16) : Decidable (IsSpace c) := inferInstanceAs (Decidable (_ ∨ _))

def IsLetter (c : UInt16) : Prop := 65 ≤ c.toNat ∧ c.toNat ≤ 90 ∨ 97 ≤ c.toNat ∧ c.toNat ≤ 122

instance (c : UInt16) : Decidable (IsLetter c) := inferInstanceAs (Decidable (_ ∨ _))

structure Tag where
  isEnd : Bool
  name : List UInt16
deriving DecidableEq

/-- A unit of a tag's name: in lower case, and a replacement character for NUL. -/
def nameUnit (c : UInt16) : UInt16 :=
  if 65 ≤ c.toNat ∧ c.toNat ≤ 90 then c + 32 else if c = 0 then 0xFFFD else c

def Tag.push (t : Tag) (c : UInt16) : Tag := { t with name := t.name ++ [nameUnit c] }

/-- The states within a tag, from its name on. -/
inductive Place where
  | tagName
  | beforeAttributeName
  | attributeName
  | afterAttributeName
  | beforeAttributeValue
  | doubleQuoted
  | singleQuoted
  | unquoted
  | afterQuoted
  | selfClosing
deriving DecidableEq

/-- The states from `<!--` to `-->`. -/
inductive CommentPlace where
  | start
  | startDash
  | body
  | lessThan
  | lessThanBang
  | lessThanBangDash
  | lessThanBangDashDash
  | closingDash
  | closing
  | closingBang
deriving DecidableEq

inductive State where
  | data
  | tagOpen
  | endTagOpen
  | markupDeclarationOpen
  | markupDeclarationDash
  | bogusComment
  | inTag (tag : Tag) (place : Place)
  | inComment (place : CommentPlace)
deriving DecidableEq

/-- Where an attribute or the end of the tag may come; `none` is the end. -/
def Place.attributeOrEnd (c : UInt16) : Option Place :=
  if IsSpace c then some .beforeAttributeName
  else if c = unit '/' then some .selfClosing
  else if c = unit '>' then none
  else some .attributeName

/-- The next state within the tag, or `none` if the unit ends it. -/
def Place.next (c : UInt16) : Place → Option Place
  | .tagName =>
    if IsSpace c then some .beforeAttributeName
    else if c = unit '/' then some .selfClosing
    else if c = unit '>' then none
    else some .tagName
  | .attributeName | .afterAttributeName =>
    if IsSpace c then some .afterAttributeName
    else if c = unit '/' then some .selfClosing
    else if c = unit '=' then some .beforeAttributeValue
    else if c = unit '>' then none
    else some .attributeName
  | .beforeAttributeValue =>
    if IsSpace c then some .beforeAttributeValue
    else if c = unit '"' then some .doubleQuoted
    else if c = unit '\'' then some .singleQuoted
    else if c = unit '>' then none
    else some .unquoted
  | .doubleQuoted => if c = unit '"' then some .afterQuoted else some .doubleQuoted
  | .singleQuoted => if c = unit '\'' then some .afterQuoted else some .singleQuoted
  | .unquoted =>
    if IsSpace c then some .beforeAttributeName
    else if c = unit '>' then none
    else some .unquoted
  | .beforeAttributeName | .afterQuoted | .selfClosing => attributeOrEnd c

/-- The next state within the comment, or `none` if the unit ends it. -/
def CommentPlace.next (c : UInt16) : CommentPlace → Option CommentPlace
  | .start => if c = unit '-' then some .startDash else if c = unit '>' then none else inBody c
  | .startDash => if c = unit '-' then some .closing else if c = unit '>' then none else inBody c
  | .body => inBody c
  | .lessThan => if c = unit '!' then some .lessThanBang else inBody c
  | .lessThanBang => if c = unit '-' then some .lessThanBangDash else inBody c
  | .lessThanBangDash => if c = unit '-' then some .lessThanBangDashDash else inDash c
  | .closingDash => inDash c
  | .lessThanBangDashDash | .closing =>
    if c = unit '>' then none
    else if c = unit '!' then some .closingBang
    else if c = unit '-' then some .closing
    else inBody c
  | .closingBang =>
    if c = unit '-' then some .closingDash else if c = unit '>' then none else inBody c
where
  inBody (c : UInt16) : Option CommentPlace :=
    if c = unit '<' then some .lessThan
    else if c = unit '-' then some .closingDash
    else some .body
  inDash (c : UInt16) : Option CommentPlace :=
    if c = unit '-' then some .closing else inBody c

def State.inData (c : UInt16) : State := if c = unit '<' then .tagOpen else .data

def State.inBogusComment (c : UInt16) : State := if c = unit '>' then .data else .bogusComment

/-- The name's first letter. -/
def State.openTag (isEnd : Bool) (c : UInt16) : State := .inTag (Tag.push ⟨isEnd, []⟩ c) .tagName

def State.next (c : UInt16) : State → State
  | .data => inData c
  | .tagOpen =>
    if c = unit '!' then .markupDeclarationOpen
    else if c = unit '/' then .endTagOpen
    else if IsLetter c then openTag false c
    else if c = unit '?' then .bogusComment
    else inData c
  | .endTagOpen =>
    if IsLetter c then openTag true c
    else if c = unit '>' then .data
    else .bogusComment
  | .markupDeclarationOpen => if c = unit '-' then .markupDeclarationDash else inBogusComment c
  | .markupDeclarationDash => if c = unit '-' then .inComment .start else inBogusComment c
  | .bogusComment => inBogusComment c
  | .inTag tag place =>
    match place.next c with
    | none => .data
    | some .tagName => .inTag (tag.push c) .tagName
    | some next => .inTag tag next
  | .inComment place =>
    match place.next c with
    | none => .data
    | some next => .inComment next

/-- The tag the unit ends. -/
def State.emit (c : UInt16) : State → Option Tag
  | .inTag tag place => if place.next c = none then some tag else none
  | _ => none

/-- The state after a text. -/
def after (σ : State) (s : List UInt16) : State := s.foldl (fun σ c => σ.next c) σ

/-- The tags a text ends. -/
def tagsFrom : State → List UInt16 → List Tag
  | _, [] => []
  | σ, c :: s => (σ.emit c).toList ++ tagsFrom (σ.next c) s

def tags (s : List UInt16) : List Tag := tagsFrom .data s

theorem after_append (σ : State) (s t : List UInt16) : after σ (s ++ t) = after (after σ s) t :=
  List.foldl_append

theorem tagsFrom_append : ∀ (σ : State) (s t : List UInt16),
    tagsFrom σ (s ++ t) = tagsFrom σ s ++ tagsFrom (after σ s) t
  | _, [], _ => rfl
  | σ, c :: s, t => by
    rw [List.cons_append, tagsFrom, tagsFrom, tagsFrom_append (σ.next c) s t, List.append_assoc]
    rfl

/-- The first tag a text ends, in the texts that begin with it. -/
theorem head?_tagsFrom_append (σ : State) (s t : List UInt16) :
    (tagsFrom σ (s ++ t)).head? = (tagsFrom σ s).head?.or (tagsFrom (after σ s) t).head? := by
  rw [tagsFrom_append, List.head?_append]

/-- Behind a common beginning, what differs is read from the same state. -/
theorem tagsFrom_append_inj {σ : State} {p s t : List UInt16}
    (h : tagsFrom σ (p ++ s) = tagsFrom σ (p ++ t)) :
    tagsFrom (after σ p) s = tagsFrom (after σ p) t := by
  rwa [tagsFrom_append, tagsFrom_append, List.append_right_inj] at h

/-- In a comment the first unit of a text may be all that its place decides. -/
theorem tagsFrom_inComment {c : UInt16} {p q : CommentPlace} (h : p.next c = q.next c) :
    ∀ {s : List UInt16}, s.head? = some c →
      tagsFrom (.inComment p) s = tagsFrom (.inComment q) s
        ∧ after (.inComment p) s = after (.inComment q) s
  | _ :: s, rfl => by
    have hstate : (State.inComment p).next c = (State.inComment q).next c := by
      simp only [State.next, h]
    rw [tagsFrom, tagsFrom, after, after, List.foldl_cons, List.foldl_cons, hstate]
    exact ⟨rfl, rfl⟩

/-! ## Within a tag -/

theorem Place.next_ne_tagName {c : UInt16} {p : Place} (hp : p ≠ .tagName) :
    p.next c ≠ some .tagName := by
  cases p <;> simp only [Place.next, Place.attributeOrEnd] <;> first | exact absurd rfl hp | skip
  all_goals split_ifs <;> simp

theorem State.next_inTag {c : UInt16} {p next : Place} {t : Tag} (hp : p ≠ .tagName)
    (h : p.next c = some next) :
    (State.inTag t p).next c = .inTag t next ∧ next ≠ .tagName := by
  have hnext : next ≠ .tagName := by
    rintro rfl
    exact Place.next_ne_tagName hp h
  refine ⟨?_, hnext⟩
  rw [State.next, h]
  cases next <;> first | exact absurd rfl hnext | rfl

/-- The first tag to end is the one the text begins in. -/
theorem eq_of_head?_inTag {t t' : Tag} : ∀ {s : List UInt16} {p : Place}, p ≠ .tagName →
    (tagsFrom (.inTag t p) s).head? = some t' → t' = t
  | c :: s, p, hp, h => by
    rw [tagsFrom, State.emit] at h
    rcases hc : p.next c with _ | next
    · rw [if_pos hc] at h
      exact (Option.some.inj h).symm
    · obtain ⟨hstate, hnext⟩ := State.next_inTag (t := t) hp hc
      rw [if_neg (by rw [hc]; simp), hstate] at h
      exact eq_of_head?_inTag hnext h

/-- The first tag to end has a name that begins with what there is of it. -/
theorem prefix_of_head?_tagName {t' : Tag} : ∀ {s : List UInt16} {t : Tag},
    (tagsFrom (.inTag t .tagName) s).head? = some t' → t.name <+: t'.name
  | c :: s, t, h => by
    rw [tagsFrom, State.emit] at h
    rcases hc : Place.next c .tagName with _ | next
    · rw [if_pos hc] at h
      rw [Option.some.inj h]
    · rw [if_neg (by rw [hc]; simp)] at h
      simp only [State.next, hc] at h
      by_cases hnext : next = .tagName
      · subst hnext
        exact (List.prefix_append _ _).trans (prefix_of_head?_tagName h)
      · have hstate : (tagsFrom (.inTag t next) s).head? = some t' := by
          cases next <;> first | exact absurd rfl hnext | exact h
        rw [eq_of_head?_inTag hnext hstate]

theorem tagsFrom_doubleQuoted (t : Tag) : ∀ {s : List UInt16}, unit '"' ∉ s →
    tagsFrom (.inTag t .doubleQuoted) s = [] ∧ after (.inTag t .doubleQuoted) s
      = .inTag t .doubleQuoted
  | [], _ => ⟨rfl, rfl⟩
  | c :: s, h => by
    rw [List.mem_cons, not_or] at h
    have hc : Place.next c .doubleQuoted = some .doubleQuoted := if_neg (Ne.symm h.1)
    have hstate : (State.inTag t .doubleQuoted).next c = .inTag t .doubleQuoted := by
      simp only [State.next, hc]
    have ih := tagsFrom_doubleQuoted t h.2
    rw [tagsFrom, State.emit, if_neg (by rw [hc]; simp), after, List.foldl_cons, hstate]
    exact ih

theorem tagsFrom_data : ∀ {s : List UInt16}, unit '<' ∉ s →
    tagsFrom .data s = [] ∧ after .data s = .data
  | [], _ => ⟨rfl, rfl⟩
  | c :: s, h => by
    rw [List.mem_cons, not_or] at h
    have hstate : State.data.next c = .data := if_neg (Ne.symm h.1)
    rw [tagsFrom, after, List.foldl_cons, hstate]
    exact tagsFrom_data h.2

/-! ## Two continuations -/

section Two

variable {t₁ t₂ : Tag} {r₁ r₂ : List UInt16}

/-- A text ends no tag if the first tag depends on what follows the text. -/
theorem tagsFrom_eq_nil_of_two {σ : State} {s : List UInt16}
    (h₁ : (tagsFrom σ (s ++ r₁)).head? = some t₁) (h₂ : (tagsFrom σ (s ++ r₂)).head? = some t₂)
    (hne : t₁ ≠ t₂) :
    tagsFrom σ s = [] ∧ (tagsFrom (after σ s) r₁).head? = some t₁
      ∧ (tagsFrom (after σ s) r₂).head? = some t₂ := by
  rw [head?_tagsFrom_append] at h₁ h₂
  rcases htags : tagsFrom σ s with _ | ⟨t, ts⟩
  · rw [htags] at h₁ h₂
    exact ⟨rfl, h₁, h₂⟩
  · rw [htags] at h₁ h₂
    exact absurd (h₁.symm.trans h₂) (by simpa using hne)

/-- Within a tag the first tag does not depend on what follows, save for the rest of its name. -/
theorem not_inTag_of_two {t : Tag} {p : Place} {c : UInt16}
    (h₁ : (tagsFrom (.inTag t p) r₁).head? = some t₁)
    (h₂ : (tagsFrom (.inTag t p) r₂).head? = some t₂) (hne : t₁ ≠ t₂) (hr : r₁.head? = some c)
    (hc : Place.next c .tagName = some .tagName) (hname : nameUnit c ∉ t₁.name) : False := by
  by_cases hp : p = .tagName
  · subst hp
    obtain ⟨r, rfl⟩ := List.head?_eq_some_iff.1 hr
    rw [tagsFrom, State.emit, if_neg (by rw [hc]; simp)] at h₁
    simp only [State.next, hc] at h₁
    have hpre := prefix_of_head?_tagName h₁
    exact hname (hpre.subset (by simp [Tag.push]))
  · exact hne ((eq_of_head?_inTag hp h₁).trans (eq_of_head?_inTag hp h₂).symm)

end Two

/-! ## Attribute values -/

/-- What the browser makes of the text of an attribute's value: it normalises line breaks, replaces
NUL and decodes the character references, from a table of its own. A reference begins with an
ampersand, is longer than what it stands for and does not reach over an apostrophe. -/
structure ValueDecoder where
  decode : List UInt16 → List UInt16
  length_decode : ∀ s, (decode s).length ≤ s.length
  decode_apostrophe : ∀ s t, decode (s ++ unit '\'' :: t) = decode s ++ unit '\'' :: decode t
  decode_eq : ∀ s, unit '&' ∉ s → unit '\r' ∉ s → 0 ∉ s → decode s = s

/-- A decoder for texts in which there is nothing to decode. -/
def ValueDecoder.verbatim : ValueDecoder where
  decode s := s
  length_decode _ := le_rfl
  decode_apostrophe _ _ := rfl
  decode_eq _ _ _ _ := rfl

/-- The value of an attribute, from the text behind its opening double quote. -/
def ValueDecoder.attributeValue (d : ValueDecoder) (s : List UInt16) : List UInt16 :=
  d.decode (s.takeWhile (· ≠ unit '"'))

section Values

variable (d : ValueDecoder) {s : List UInt16}

theorem attributeValue_apostrophe (h : unit '"' ∉ s) (t : List UInt16) :
    d.attributeValue (s ++ unit '\'' :: t) = d.decode s ++ unit '\'' :: d.attributeValue t := by
  have hs : ∀ c ∈ s, decide (c ≠ unit '"') = true := fun c hc => by
    simpa using fun he : c = unit '"' => h (he ▸ hc)
  rw [ValueDecoder.attributeValue, List.takeWhile_append_of_pos hs, List.takeWhile_cons_of_pos
    (by decide), d.decode_apostrophe]
  rfl

theorem attributeValue_quote (h : unit '"' ∉ s) (t : List UInt16) :
    d.attributeValue (s ++ unit '"' :: t) = d.decode s := by
  have hs : ∀ c ∈ s, decide (c ≠ unit '"') = true := fun c hc => by
    simpa using fun he : c = unit '"' => h (he ▸ hc)
  rw [ValueDecoder.attributeValue, List.takeWhile_append_of_pos hs, List.takeWhile_cons_of_neg
    (by decide), List.append_nil]

theorem attributeValue_length_lt (h : unit '"' ∈ s) (t : List UInt16) :
    (d.attributeValue (s ++ t)).length < s.length := by
  have hlen := d.length_decode ((s ++ t).takeWhile (· ≠ unit '"'))
  obtain ⟨pre, post, rfl⟩ := List.append_of_mem h
  have hcut : (pre ++ unit '"' :: post ++ t).takeWhile (· ≠ unit '"')
      = pre.takeWhile (· ≠ unit '"') := by
    rw [List.append_assoc, List.takeWhile_append]
    split_ifs with hall
    · rw [List.cons_append, List.takeWhile_cons_of_neg (by decide), List.append_nil]
      exact (List.takeWhile_prefix _).eq_of_length hall |>.symm
    · rfl
  have hpre := (List.takeWhile_prefix (p := fun c => decide (c ≠ unit '"')) (l := pre)).length_le
  rw [hcut] at hlen
  rw [ValueDecoder.attributeValue, hcut, List.length_append, List.length_cons]
  omega

end Values

end HtmlTags
