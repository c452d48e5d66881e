import Mathlib.Data.List.AList
import Mathlib.Data.List.Perm.Basic

/-!
# Finite maps

`Dict κ α` is Mathlib's association list without duplicate keys at a fixed value type, with the
operations that rewrite values in place and the search for a value.
-/

/-- A finite map from keys to values. -/
abbrev Dict (κ α : Type*) := AList fun _ : κ => α

namespace Dict

variable {κ α β : Type*}

/-- Every value rewritten, in place. -/
def mapVal (f : κ → α → β) (d : Dict κ α) : Dict κ β where
  entries := d.entries.map fun e => ⟨e.1, f e.1 e.2⟩
  nodupKeys := by
    have h : (d.entries.map fun e => (⟨e.1, f e.1 e.2⟩ : Sigma fun _ : κ => β)).keys
        = d.entries.keys := by simp [List.keys, Function.comp_def]
    rw [List.NodupKeys, h]
    exact d.nodupKeys

theorem keys_mapVal (f : κ → α → β) (d : Dict κ α) : (mapVal f d).keys = d.keys := by
  simp [AList.keys, mapVal, List.keys, Function.comp_def]

theorem mapVal_mapVal {γ : Type*} (f : κ → α → β) (g : κ → β → γ) (d : Dict κ α) :
    mapVal g (mapVal f d) = mapVal (fun k a => g k (f k a)) d := by
  simp [mapVal, Function.comp_def]

theorem mapVal_congr {f g : κ → α → β} {d : Dict κ α}
    (h : ∀ e ∈ d.entries, f e.1 e.2 = g e.1 e.2) : mapVal f d = mapVal g d := by
  apply AList.ext
  simp only [mapVal]
  exact List.map_congr_left fun e he => by rw [h e he]

theorem mapVal_id (d : Dict κ α) : mapVal (fun _ a => a) d = d := by
  apply AList.ext
  simp [mapVal]

@[simp] theorem mem_mapVal {f : κ → α → β} {d : Dict κ α} {k : κ} :
    k ∈ mapVal f d ↔ k ∈ d := by
  rw [AList.mem_keys, keys_mapVal, ← AList.mem_keys]

/-- The entries as pairs. -/
def toPairs (d : Dict κ α) : List (κ × α) := d.entries.map fun e => (e.1, e.2)

/-- Two tables with the same names and related entries, searched for the same name. -/
theorem lookup_forall₂ [BEq κ] [LawfulBEq κ] {R : α → β → Prop} {k : κ} :
    ∀ {l : List (κ × α)} {l' : List (κ × β)},
      List.Forall₂ (fun c e => c.1 = e.1 ∧ R c.2 e.2) l l' →
        (l.lookup k = none ∧ l'.lookup k = none) ∨
          ∃ c e, l.lookup k = some c ∧ l'.lookup k = some e ∧ R c e
  | [], [], .nil => .inl ⟨rfl, rfl⟩
  | (j, c) :: l, (_, e) :: l', .cons ⟨rfl, hR⟩ h => by
    by_cases hk : k = j
    · subst hk
      exact .inr ⟨c, e, by simp, by simp, hR⟩
    · have hb : (k == j) = false := by simpa using hk
      rw [List.lookup_cons, List.lookup_cons, hb]
      exact lookup_forall₂ h

theorem exists_of_forall₂ {γ δ : Type*} {R : γ → δ → Prop} {c : γ} :
    ∀ {l : List γ} {l' : List δ}, List.Forall₂ R l l' → c ∈ l → ∃ e ∈ l', R c e
  | _ :: _, e :: _, .cons hR h, hc => by
    rcases List.mem_cons.1 hc with rfl | hc
    · exact ⟨e, List.mem_cons_self, hR⟩
    · obtain ⟨e, he, hR⟩ := exists_of_forall₂ h hc
      exact ⟨e, List.mem_cons_of_mem _ he, hR⟩

theorem mem_of_lookup [BEq κ] [LawfulBEq κ] {l : List (κ × α)} {k : κ} {a : α}
    (h : l.lookup k = some a) : (k, a) ∈ l := by
  obtain ⟨l₁, l₂, rfl, -⟩ := List.lookup_eq_some_iff.1 h
  simp

variable [DecidableEq κ]

@[simp] theorem lookup_mapVal (f : κ → α → β) (d : Dict κ α) (k : κ) :
    (mapVal f d).lookup k = (d.lookup k).map (f k) := by
  obtain ⟨l, hl⟩ := d
  simp only [AList.lookup, mapVal]
  clear hl
  induction l with
  | nil => rfl
  | cons e l ih =>
    obtain ⟨j, a⟩ := e
    by_cases h : k = j
    · subst h; simp
    · simp only [List.map_cons]
      rw [List.dlookup_cons_ne _ _ (by simpa using h), List.dlookup_cons_ne _ _ (by simpa using h)]
      exact ih

/-- The value at `k` rewritten; nothing happens without one. -/
def modify (k : κ) (f : α → α) (d : Dict κ α) : Dict κ α :=
  mapVal (fun j a => if j = k then f a else a) d

@[simp] theorem lookup_modify (k j : κ) (f : α → α) (d : Dict κ α) :
    (modify k f d).lookup j = (d.lookup j).map fun a => if j = k then f a else a := by
  simp [modify]

theorem mem_entries_iff {d : Dict κ α} {k : κ} {a : α} :
    (⟨k, a⟩ : Sigma fun _ : κ => α) ∈ d.entries ↔ d.lookup k = some a := by
  rw [← Option.mem_def, AList.mem_lookup_iff]

theorem mem_toPairs {d : Dict κ α} {k : κ} {a : α} : (k, a) ∈ d.toPairs ↔ d.lookup k = some a := by
  rw [← mem_entries_iff, toPairs, List.mem_map]
  constructor
  · rintro ⟨⟨j, b⟩, he, h⟩
    obtain ⟨rfl, rfl⟩ := Prod.mk.inj h
    exact he
  · exact fun h => ⟨⟨k, a⟩, h, rfl⟩

theorem lookup_insert_eq (d : Dict κ α) (k j : κ) (a : α) :
    (d.insert k a).lookup j = if j = k then some a else d.lookup j := by
  split_ifs with h
  · subst h; exact AList.lookup_insert d
  · exact AList.lookup_insert_ne h

theorem lookup_erase_eq (d : Dict κ α) (k j : κ) :
    (d.erase k).lookup j = if j = k then none else d.lookup j := by
  split_ifs with h
  · subst h; exact AList.lookup_erase j d
  · exact AList.lookup_erase_ne h

theorem mem_iff_exists {d : Dict κ α} {k : κ} : k ∈ d ↔ ∃ a, d.lookup k = some a := by
  rw [← AList.lookup_isSome, Option.isSome_iff_exists]

theorem length_keys_insert {d : Dict κ α} {k : κ} (h : k ∉ d)
    (a : α) : (d.insert k a).keys.length = d.keys.length + 1 := by
  rw [AList.keys_insert, List.length_cons,
    List.erase_of_not_mem fun hk => h (AList.mem_keys.2 hk)]

theorem length_keys_erase {d : Dict κ α} {k : κ} (h : k ∈ d) :
    (d.erase k).keys.length + 1 = d.keys.length := by
  have hk := AList.mem_keys.1 h
  rw [AList.keys_erase, List.length_erase_of_mem hk]
  have := List.length_pos_of_mem hk
  omega

theorem erase_of_notMem {d : Dict κ α} {k : κ} (h : k ∉ d) :
    d.erase k = d :=
  AList.ext (List.kerase_of_notMem_keys fun hk => h (AList.mem_keys.2 hk))

/-- The first entry whose value has the property. -/
def findVal (P : α → Prop) [DecidablePred P] (d : Dict κ α) : Option (Sigma fun _ : κ => α) :=
  d.entries.find? fun e => P e.2

theorem findVal_eq_some {P : α → Prop} [DecidablePred P] {d : Dict κ α} {k : κ} {a : α}
    (hk : d.lookup k = some a) (ha : P a)
    (huniq : ∀ j b, d.lookup j = some b → P b → j = k) : findVal P d = some ⟨k, a⟩ := by
  rcases hf : findVal P d with _ | ⟨j, b⟩
  · have := List.find?_eq_none.1 hf _ (mem_entries_iff.2 hk)
    simp [ha] at this
  · have hb := List.mem_of_find?_eq_some hf
    have hP : P b := by simpa using List.find?_some hf
    have hj := mem_entries_iff.1 hb
    obtain rfl := huniq j b hj hP
    rw [hk, Option.some.injEq] at hj
    rw [hj]

theorem findVal_spec {P : α → Prop} [DecidablePred P] {d : Dict κ α}
    {e : Sigma fun _ : κ => α} (h : findVal P d = some e) : d.lookup e.1 = some e.2 ∧ P e.2 :=
  ⟨mem_entries_iff.1 (List.mem_of_find?_eq_some h), by simpa using List.find?_some h⟩

end Dict
