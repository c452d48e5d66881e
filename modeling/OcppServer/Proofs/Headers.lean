import OcppServer.Headers
import OcppServer.Lib.Replica

/-!
# Header blocks, written and parsed

A header is written as its name, a colon and its value between blanks, and the line ends in CR LF.
The parser takes the line up to LF and trims spaces and tabs only, so CR stays: it is the last byte
of every value, and it keeps the blanks in front of it from being trimmed. No value is read back,
and the map is read back exactly when it is empty (`agree_parseHeaders_iff`). From lines that end
in LF alone every map is (`agree_parseHeaders_lf`).
-/

namespace OcppServer

/-- No blank at either end. -/
def Trimmed (s : Bytes) : Prop :=
  (∀ c, s.head? = some c → ¬ IsBlank c) ∧ ∀ c, s.getLast? = some c → ¬ IsBlank c

/-- A part of a header's line. -/
def OneLine (s : Bytes) : Prop := '\r'.toUInt8 ∉ s ∧ '\n'.toUInt8 ∉ s

instance (s : Bytes) : Decidable (OneLine s) := inferInstanceAs (Decidable (_ ∧ _))

/-- A header and the blanks it is written with. -/
structure HeaderLine where
  name : Bytes
  value : Bytes
  before : Bytes
  after : Bytes
  name_ne_nil : name ≠ []
  colon_notMem : ':'.toUInt8 ∉ name
  name_trimmed : Trimmed name
  name_oneLine : OneLine name
  value_trimmed : Trimmed value
  value_oneLine : OneLine value
  before_blank : ∀ c ∈ before, IsBlank c
  after_blank : ∀ c ∈ after, IsBlank c

namespace HeaderLine

/-- What stands behind the colon. -/
def field (l : HeaderLine) : Bytes := l.before ++ (l.value ++ l.after)

def render (eol : Bytes) (l : HeaderLine) : Bytes := l.name ++ (lit ":" ++ (l.field ++ eol))

/-- The text is the map's headers, each on a line, in some order. -/
def Renders (eol : Bytes) (headers : Dict Bytes Bytes) (text : Bytes) : Prop :=
  ∃ ls : List HeaderLine, (ls.map fun l => (l.name, l.value)).Perm headers.toPairs
    ∧ text = ls.flatMap (render eol)

end HeaderLine

/-! ## Trimming -/

section Trim

variable {c : UInt8} {s t blanks : Bytes}

theorem eraseLeading_cons (c : UInt8) (s : Bytes) :
    eraseLeading (c :: s) = if IsBlank c then eraseLeading s else c :: s := by
  unfold eraseLeading
  rw [findFirstNotBlank]
  split_ifs
  · rcases findFirstNotBlank s with _ | pos <;> rfl
  · rfl

theorem eraseLeading_blanks (s : Bytes) :
    ∀ {blanks : Bytes}, (∀ c ∈ blanks, IsBlank c) → eraseLeading (blanks ++ s) = eraseLeading s
  | [], _ => rfl
  | c :: blanks, h => by
    rw [List.cons_append, eraseLeading_cons, if_pos (h c (by simp)),
      eraseLeading_blanks s fun d hd => h d (List.mem_cons_of_mem _ hd)]

theorem eraseLeading_eq (h : ∀ c, s.head? = some c → ¬ IsBlank c) : eraseLeading s = s := by
  rcases s with _ | ⟨c, s⟩
  · rfl
  · rw [eraseLeading_cons, if_neg (h c rfl)]

theorem findLastNotBlank_blanks :
    ∀ {blanks : Bytes}, (∀ c ∈ blanks, IsBlank c) → findLastNotBlank blanks = none
  | [], _ => rfl
  | c :: blanks, h => by
    rw [findLastNotBlank, findLastNotBlank_blanks fun d hd => h d (List.mem_cons_of_mem _ hd),
      if_pos (h c (by simp))]
    rfl

theorem findLastNotBlank_append (hc : ¬ IsBlank c) (hb : ∀ d ∈ blanks, IsBlank d) :
    ∀ s : Bytes, findLastNotBlank (s ++ c :: blanks) = some s.length
  | [] => by
    rw [List.nil_append, findLastNotBlank, findLastNotBlank_blanks hb, if_neg hc]
    rfl
  | d :: s => by
    rw [List.cons_append, findLastNotBlank, findLastNotBlank_append hc hb s]
    rfl

theorem eraseTrailing_blanks (hs : ∀ c, s.getLast? = some c → ¬ IsBlank c)
    (hb : ∀ c ∈ blanks, IsBlank c) : eraseTrailing (s ++ blanks) = s := by
  rcases List.eq_nil_or_concat s with rfl | ⟨init, c, rfl⟩
  · rw [List.nil_append, eraseTrailing, findLastNotBlank_blanks hb]
  · have hc := hs c (by simp)
    rw [List.concat_eq_append, List.append_assoc, List.singleton_append, eraseTrailing,
      findLastNotBlank_append hc hb]
    simp [List.take_append]

theorem trim_blanks {before after : Bytes} (ht : Trimmed s) (hb : ∀ c ∈ before, IsBlank c)
    (ha : ∀ c ∈ after, IsBlank c) :
    eraseTrailing (eraseLeading (before ++ (s ++ after))) = s := by
  rw [eraseLeading_blanks _ hb]
  rcases s with _ | ⟨c, s⟩
  · have h := eraseLeading_blanks [] ha
    rw [List.append_nil] at h
    rw [List.nil_append, h]
    rfl
  · rw [eraseLeading_eq (by simpa using ht.1), eraseTrailing_blanks ht.2 ha]

end Trim

/-! ## The lines -/

namespace HeaderLine

theorem field_newline (l : HeaderLine) : '\n'.toUInt8 ∉ l.field := by
  have hblank : ¬ IsBlank '\n'.toUInt8 := by decide
  rw [field, List.mem_append, List.mem_append, not_or, not_or]
  exact ⟨fun h => hblank (l.before_blank _ h), l.value_oneLine.2,
    fun h => hblank (l.after_blank _ h)⟩

theorem parseHeaderLine_render (result : Dict Bytes Bytes) (eol : Bytes) (l : HeaderLine) :
    parseHeaderLine result (l.render eol)
      = result.insert l.name (eraseTrailing (eraseLeading (l.field ++ eol))) := by
  have hcut : Delimited.cutAt (lit ":") (l.render eol) = some (l.name, l.field ++ eol) :=
    Delimited.cutAt_append [] (l.field ++ eol) l.colon_notMem
  have hname : eraseTrailing (eraseLeading ([] ++ (l.name ++ []))) = l.name :=
    trim_blanks l.name_trimmed (by simp) (by simp)
  rw [List.nil_append, List.append_nil] at hname
  rw [parseHeaderLine, hcut]
  dsimp only
  rw [hname]

/-- Each line assigns to its name what is left of its field and of what stands before LF. -/
theorem parseHeaders_render (eol : Bytes) (heol : '\n'.toUInt8 ∉ eol) (ls : List HeaderLine) :
    parseHeaders (ls.flatMap (render (eol ++ lit "\n")))
      = Replica.replay (ls.map fun l => (l.name, eraseTrailing (eraseLeading (l.field ++ eol))))
        ∅ := by
  have htext : ls.flatMap (render (eol ++ lit "\n"))
      = (ls.map (render eol)).flatMap (· ++ ['\n'.toUInt8]) := by
    rw [List.flatMap_map]
    have hlf : lit "\n" = ['\n'.toUInt8] := rfl
    exact List.flatMap_congr fun l _ => by simp only [render, hlf, List.append_assoc]
  have hlines : ∀ line ∈ ls.map (render eol), '\n'.toUInt8 ∉ line := by
    intro line hline
    obtain ⟨l, -, rfl⟩ := List.mem_map.1 hline
    have hcolon : '\n'.toUInt8 ∉ lit ":" := by decide
    simp only [render, List.mem_append, not_or]
    exact ⟨l.name_oneLine.2, hcolon, l.field_newline, heol⟩
  rw [parseHeaders, htext, Delimited.lines_flatMap hlines, Replica.replay, List.foldl_map,
    List.foldl_map]
  simp only [parseHeaderLine_render]

/-- The value as it comes out of a line that ends in CR LF. -/
def kept (l : HeaderLine) : Bytes :=
  (if l.value = [] then [] else l.value ++ l.after) ++ lit "\r"

theorem trim_field_cr (l : HeaderLine) :
    eraseTrailing (eraseLeading (l.field ++ lit "\r")) = l.kept := by
  have hcr : ∀ s : Bytes, eraseTrailing (s ++ lit "\r") = s ++ lit "\r" := by
    intro s
    have hlast : ∀ c, (s ++ lit "\r").getLast? = some c → ¬ IsBlank c := by
      intro c hc
      have hcr : lit "\r" = ['\r'.toUInt8] := rfl
      rw [hcr, List.getLast?_concat, Option.some.injEq] at hc
      rw [← hc]
      decide
    have htrim : eraseTrailing (s ++ lit "\r" ++ []) = s ++ lit "\r" :=
      eraseTrailing_blanks hlast (by simp)
    rwa [List.append_nil] at htrim
  rw [field, List.append_assoc, eraseLeading_blanks _ l.before_blank, kept]
  split_ifs with h
  · rw [h, List.nil_append, eraseLeading_blanks _ l.after_blank]
    decide
  · obtain ⟨c, v, hv⟩ := List.exists_cons_of_ne_nil h
    have hfirst : ∀ d, (l.value ++ l.after ++ lit "\r").head? = some d → ¬ IsBlank d := by
      have hhead := l.value_trimmed.1
      rw [hv] at hhead ⊢
      exact hhead
    rw [eraseLeading_eq hfirst, hcr]

theorem kept_ne_value (l l' : HeaderLine) : l.kept ≠ l'.value := by
  intro h
  exact l'.value_oneLine.1 (h ▸ List.mem_append_right _ (by decide))

variable {headers : Dict Bytes Bytes} {text : Bytes}

/-- A header block with lines that end in LF alone is read back. -/
theorem agree_parseHeaders_lf (h : Renders (lit "\n") headers text) :
    Replica.Agree (parseHeaders text) headers := by
  obtain ⟨ls, hperm, rfl⟩ := h
  have hparse := parseHeaders_render [] (by simp) ls
  rw [List.nil_append] at hparse
  have htrim : (fun l : HeaderLine => (l.name, eraseTrailing (eraseLeading (l.field ++ []))))
      = fun l => (l.name, l.value) := by
    funext l
    rw [List.append_nil, field, trim_blanks l.value_trimmed l.before_blank l.after_blank]
  rw [hparse, htrim]
  exact Replica.agree_replay_of_perm hperm

/-- A header block as HTTP writes it is read back exactly when it has no header. -/
theorem agree_parseHeaders_iff (h : Renders (lit "\r\n") headers text) :
    Replica.Agree (parseHeaders text) headers ↔ headers = ∅ := by
  obtain ⟨ls, hperm, rfl⟩ := h
  have hparse : parseHeaders (ls.flatMap (render (lit "\r\n")))
      = Replica.replay (ls.map fun l => (l.name, l.kept)) ∅ := by
    have := parseHeaders_render (lit "\r") (by decide) ls
    simp only [trim_field_cr] at this
    exact this
  rw [hparse]
  constructor
  · intro hagree
    rcases ls with _ | ⟨l, ls⟩
    · have hnil : headers.toPairs = [] := List.nil_perm.1 hperm
      exact AList.ext (List.map_eq_nil_iff.1 hnil)
    · have hl : headers.lookup l.name = some l.value :=
        Dict.mem_toPairs.1 (hperm.mem_iff.1 (by simp))
      have hmem := Replica.mem_of_lookup_replay ((hagree l.name).trans hl)
      obtain ⟨l', -, he⟩ := List.mem_map.1 hmem
      exact absurd (congrArg Prod.snd he) (kept_ne_value l' l)
  · rintro rfl
    have hnil : ls = [] := List.map_eq_nil_iff.1 (List.perm_nil.1 hperm)
    rw [hnil]
    exact Replica.Agree.refl _

/-- One header, `Host: a`. -/
def hostLine : HeaderLine where
  name := lit "Host"
  value := lit "a"
  before := lit " "
  after := []
  name_ne_nil := by decide
  colon_notMem := by decide
  name_trimmed := by
    refine ⟨?_, ?_⟩ <;> · rintro c ⟨⟩; decide
  name_oneLine := by decide
  value_trimmed := by
    refine ⟨?_, ?_⟩ <;> · rintro c ⟨⟩; decide
  value_oneLine := by decide
  before_blank := by
    rintro c hc
    obtain rfl := List.mem_singleton.1 hc
    decide
  after_blank := by simp

def hostHeaders : Dict Bytes Bytes := AList.singleton (lit "Host") (lit "a")

theorem hostHeaders_renders : Renders (lit "\r\n") hostHeaders (lit "Host: a\r\n") :=
  ⟨[hostLine], List.Perm.refl _, by decide⟩

theorem not_agree_hostHeaders : ¬ Replica.Agree (parseHeaders (lit "Host: a\r\n")) hostHeaders := by
  rw [agree_parseHeaders_iff hostHeaders_renders]
  intro h
  cases congrArg AList.entries h

/-- The value comes back as `a` and CR. -/
theorem parseHeaders_keeps_cr :
    ¬ ∀ headers text, Renders (lit "\r\n") headers text →
      Replica.Agree (parseHeaders text) headers := by
  intro h
  have hhost := h hostHeaders _ hostHeaders_renders (lit "Host")
  exact absurd hhost (by decide)

end HeaderLine

end OcppServer
