import OcppServer.Proofs.Changes

/-!
# The store as a map of strings

Keys and values are read as C strings on their way in, so none in the store holds a NUL
(`Reachable.nulFree`). A value that is set is read back as it was unless it has a NUL itself, and
the value at another key stays unless the two keys are the same up to their first NUL: for the
store they are one key then (`setValue_law_iff`).
-/

namespace OcppServer

/-- No key and no value holds a NUL. -/
def NulFree (d : RpcData) : Prop :=
  ∀ k v, d.values.lookup k = some v → (0 : UInt8) ∉ k ∧ (0 : UInt8) ∉ v

theorem initialValues_nulFree : ∀ kv ∈ initialValues, (0 : UInt8) ∉ kv.1 ∧ (0 : UInt8) ∉ kv.2 := by
  have h : (initialValues.all fun kv => (0 : UInt8) ∉ kv.1 ∧ (0 : UInt8) ∉ kv.2) = true := by
    decide
  intro kv hkv
  simpa using List.all_eq_true.1 h kv hkv

section Entry

variable {rt : Runtime} {amb : Ambient}

/-- The pair is one a `setValue` with these parameters assigns. -/
def SetBy (rt : Runtime) (method : Bytes) (params : Json) (k v : Bytes) : Prop :=
  method = lit "setValue" ∧ ∃ key value, params.find? (lit "key") = some (.string key)
    ∧ params.find? (lit "value") = some value ∧ k = cstr key ∧ v = jsonValueToString rt value

theorem SetBy.nulFree {method : Bytes} {params : Json} {k v : Bytes}
    (h : SetBy rt method params k v) : (0 : UInt8) ∉ k ∧ (0 : UInt8) ∉ v := by
  obtain ⟨-, key, value, -, -, rfl, rfl⟩ := h
  exact ⟨zero_notMem_cstr key, zero_notMem_jsonValueToString rt value⟩

/-- What is in the store after a request was there before, or was set by it, or is at an initial
key; and then it holds no NUL. -/
theorem Change.entry {clients : ℕ} {d d' : RpcData} {method : Bytes} {params : Json}
    (hc : Change rt amb clients d method params d') {k v : Bytes}
    (h : d'.values.lookup k = some v) :
    d.values.lookup k = some v ∨ SetBy rt method params k v
      ∨ k ∈ initialValues.map Prod.fst ∧ (0 : UInt8) ∉ k ∧ (0 : UInt8) ∉ v := by
  have hassigned : ∀ {l : List (Bytes × Bytes)},
      (∀ kv ∈ l, kv.1 ∈ initialValues.map Prod.fst ∧ (0 : UInt8) ∉ kv.1 ∧ (0 : UInt8) ∉ kv.2) →
        (Replica.replay l d.values).lookup k = some v →
          d.values.lookup k = some v ∨ SetBy rt method params k v
            ∨ k ∈ initialValues.map Prod.fst ∧ (0 : UInt8) ∉ k ∧ (0 : UInt8) ∉ v := by
    intro l hl hlook
    rcases Replica.lookup_replay_cases hlook with hmem | hold
    · exact .inr (.inr (hl _ hmem))
    · exact .inl hold
  cases hc with
  | @setValue key value hm hk hv =>
    rcases Replica.lookup_replay_cases h with hmem | hold
    · obtain ⟨rfl, rfl⟩ := Prod.mk.inj (List.mem_singleton.1 hmem)
      exact .inr (.inl ⟨hm, key, value, hk, hv, rfl, rfl⟩)
    · exact .inl hold
  | @setMaxPower n =>
    refine hassigned (fun kv hkv => ?_) h
    obtain rfl := List.mem_singleton.1 hkv
    have hkey : lit "maxPower" ∈ initialValues.map Prod.fst ∧ (0 : UInt8) ∉ lit "maxPower" := by
      decide
    exact ⟨hkey.1, hkey.2, zero_notMem_decimal n⟩
  | startCharging | stopCharging =>
    refine hassigned (fun kv hkv => ?_) h
    rcases List.mem_pair.1 hkv with rfl | rfl <;> decide
  | resetSystem =>
    exact hassigned (fun kv hkv => ⟨List.mem_map_of_mem hkv, initialValues_nulFree kv hkv⟩) h
  | refresh =>
    simp only [updateMetrics, subscript] at h
    rcases hflag : d.values.lookup (lit "chargingEnabled") with _ | value
    · rw [hflag] at h
      rw [Dict.lookup_insert_eq] at h
      split_ifs at h with hk
      · obtain rfl := Option.some.inj h
        subst hk
        exact .inr (.inr (by decide))
      · exact .inl h
    · rw [hflag] at h
      exact .inl h
  | none => exact .inl h

theorem Change.nulFree {clients : ℕ} {d d' : RpcData} {method : Bytes} {params : Json}
    (hc : Change rt amb clients d method params d') (h : NulFree d) : NulFree d' := by
  intro k v hk
  rcases hc.entry hk with hold | hset | ⟨-, hnul⟩
  · exact h k v hold
  · exact hset.nulFree
  · exact hnul

end Entry

namespace System

variable (rt : Runtime) (handler : Option WebServer.MessageHandler)

theorem nulFree_init (now : ℤ) : NulFree (WebServer.init now).data := by
  intro k v hk
  rw [show (WebServer.init now).data = initializeValues now ⟨∅, ⟨0, 0, 0, 0⟩, 0⟩ from rfl,
    initializeValues_values] at hk
  exact initialValues_nulFree _ (Replica.mem_of_lookup_replay hk)

theorem Reachable.nulFree {sys : System} (h : Reachable rt handler sys) :
    NulFree sys.server.data := by
  obtain ⟨now, cbs, h⟩ := h
  refine (Runs.run_invariant (I := fun sys => Registered sys ∧ NulFree sys.server.data) _ ?_ cbs
    ⟨registered_init now, nulFree_init now⟩ h).2
  rintro sys cb sys' ⟨hr, hn⟩ hstep
  exact ⟨hr.step rt handler hstep,
    hr.step_data rt handler hstep hn fun _ _ _ _ _ hc => hc.nulFree hn⟩

end System

/-! ## The law -/

/-- The text a scalar is read back as. -/
def Json.scalarText? : Json → Option Bytes
  | .string s => some s
  | .int n => if -2 ^ 63 ≤ n ∧ n < 2 ^ 64 then some (decimal n) else none
  | .bool b => some (if b then lit "true" else lit "false")
  | .null => some (lit "null")
  | _ => none

/-- The writer puts out an integer of 64 bits and a `null` as they are. -/
structure WritesScalars (rt : Runtime) : Prop where
  int : ∀ n : ℤ, -2 ^ 63 ≤ n → n < 2 ^ 64 → rt.write (.int n) = decimal n
  null : rt.write .null = lit "null"

theorem jsonValueToString_scalar {rt : Runtime} (hrt : WritesScalars rt) {v : Json} {text : Bytes}
    (h : v.scalarText? = some text) : jsonValueToString rt v = cstr text := by
  cases v with
  | null =>
    obtain rfl := Option.some.inj h
    have hnull : jsonValueToString rt .null = cstr (rt.write .null) := rfl
    rw [hnull, hrt.null]
  | bool b =>
    obtain rfl := Option.some.inj h
    have hwords : cstr (lit "true") = lit "true" ∧ cstr (lit "false") = lit "false" := by decide
    cases b
    · exact hwords.2.symm
    · exact hwords.1.symm
  | int n =>
    simp only [Json.scalarText?] at h
    split_ifs at h with hn
    obtain rfl := Option.some.inj h
    rw [jsonValueToString, hrt.int n hn.1 hn.2, cstr_of_notMem (zero_notMem_decimal n), ite_self]
  | string s =>
    obtain rfl := Option.some.inj h
    rfl
  | double | array | object => cases h

/-- The reply to a `getValue` with the key. -/
def getValueReply (id : ℤ) (key : Bytes) (d : RpcData) : Message :=
  reply id (handleGetValue (.object [(lit "key", .string key)]) d)

/-- The reply that brings a text as its result. -/
def resultReply (id : ℤ) (text : Bytes) : Message :=
  .json (.object [(lit "jsonrpc", .string (lit "2.0")), (lit "id", .int id),
    (lit "result", .string text)])

/-- After the change the key has the text, and the other key still has what it had. -/
def StoreLaw (d d' : RpcData) (key text other : Bytes) : Prop :=
  (∀ id, getValueReply id key d' = resultReply id text)
    ∧ ∀ id, getValueReply id other d' = getValueReply id other d

section Law

variable {d : RpcData} {key : Bytes}

theorem getValueReply_eq (id : ℤ) :
    getValueReply id key d =
      match d.values.lookup (cstr key) with
      | some value => resultReply id (cstr value)
      | none => .json (.object [(lit "jsonrpc", .string (lit "2.0")), (lit "id", .int id),
          (lit "error", .string (cstr (lit "Key not found: " ++ cstr key)))]) := by
  have hkey : Json.stringMember? (lit "key") (.object [(lit "key", .string key)])
      = some (cstr key) := by simp [Json.stringMember?, Json.find?, Json.getString?]
  have herr : lit "Key not found: " ++ cstr key ≠ [] :=
    List.append_ne_nil_of_left_ne_nil (by decide) _
  simp only [getValueReply, handleGetValue, hkey]
  rcases d.values.lookup (cstr key) with _ | value
  · simp only [reply, serializeRpcResponse, if_pos herr]
  · rfl

theorem getValueReply_of_some {value : Bytes} (h : d.values.lookup (cstr key) = some value)
    (id : ℤ) : getValueReply id key d = resultReply id (cstr value) := by
  rw [getValueReply_eq, h]

theorem getValueReply_of_none (h : d.values.lookup (cstr key) = none) (id : ℤ) (text : Bytes) :
    getValueReply id key d ≠ resultReply id text := by
  have hname : lit "error" ≠ lit "result" := by decide
  rw [getValueReply_eq, h]
  simp only [resultReply, ne_eq, Message.json.injEq, Json.object.injEq, List.cons.injEq,
    Prod.mk.injEq, hname, false_and, and_false, not_false_eq_true]

theorem resultReply_inj {id : ℤ} {text text' : Bytes} :
    resultReply id text = resultReply id text' ↔ text = text' := by
  simp [resultReply]

/-- The reply tells the value in a store without NULs. -/
theorem getValueReply_eq_iff (hd : NulFree d) {text : Bytes} :
    (∀ id, resultReply id text = getValueReply id key d)
      ↔ d.values.lookup (cstr key) = some text := by
  rcases hold : d.values.lookup (cstr key) with _ | old
  · refine iff_of_false (fun h => ?_) (by simp)
    exact getValueReply_of_none hold 0 text (h 0).symm
  · simp only [getValueReply_of_some hold, resultReply_inj, forall_const,
      cstr_of_notMem (hd _ _ hold).2, Option.some.injEq]
    exact eq_comm

/-- Setting a text at a key of a store without NULs. -/
theorem storeLaw_assign_iff (hd : NulFree d) {text other : Bytes} :
    StoreLaw d (d.assign [(cstr key, cstr text)]) key text other
      ↔ (0 : UInt8) ∉ text
        ∧ (cstr other ≠ cstr key ∨ d.values.lookup (cstr key) = some text) := by
  have hnew : (d.assign [(cstr key, cstr text)]).values.lookup (cstr key) = some (cstr text) :=
    AList.lookup_insert _
  have hfirst : (∀ id, getValueReply id key (d.assign [(cstr key, cstr text)])
      = resultReply id text) ↔ (0 : UInt8) ∉ text := by
    simp only [getValueReply_of_some hnew, resultReply_inj, cstr_cstr, forall_const]
    exact ⟨fun h => h ▸ zero_notMem_cstr text, cstr_of_notMem⟩
  rw [StoreLaw, hfirst]
  refine and_congr_right fun htext => ?_
  by_cases hsame : cstr other = cstr key
  · rw [← hsame] at hnew
    have hreply : ∀ id, getValueReply id other (d.assign [(cstr other, cstr text)])
        = resultReply id text := by
      intro id
      rw [getValueReply_of_some hnew, cstr_cstr, cstr_of_notMem htext]
    rw [← hsame, ← getValueReply_eq_iff hd]
    simp only [hreply, ne_eq, not_true_eq_false, false_or]
  · have hkeep : (d.assign [(cstr key, cstr text)]).values.lookup (cstr other)
        = d.values.lookup (cstr other) := AList.lookup_insert_ne hsame
    refine iff_of_true (fun id => ?_) (.inl hsame)
    rw [getValueReply_eq, getValueReply_eq, hkeep]

end Law

namespace System

variable (rt : Runtime) (handler : Option WebServer.MessageHandler)

/-- A `setValue` received in a reachable state obeys the law at a scalar and another key exactly
where the scalar's text has no NUL, and the keys differ up to their first NULs or the value is the
one that was there. -/
theorem setValue_law_iff (hrt : WritesScalars rt) {sys : System} (h : Reachable rt handler sys)
    {cb : Callback} {amb : Ambient} {params v : Json} {key text other : Bytes}
    (hrec : Receives rt sys cb amb (lit "setValue") params)
    (hkey : params.find? (lit "key") = some (.string key))
    (hvalue : params.find? (lit "value") = some v) (htext : v.scalarText? = some text) :
    ∃ sys', sys.step rt handler cb = some sys'
      ∧ (StoreLaw sys.server.data sys'.server.data key text other
        ↔ (0 : UInt8) ∉ text ∧ (cstr other ≠ cstr key
          ∨ sys.server.data.values.lookup (cstr key) = some text)) := by
  obtain ⟨sys', hstep, hc⟩ := h.registered.step_change rt handler hrec
  have hd := hc.unique rt amb (.setValue rfl hkey hvalue)
  rw [jsonValueToString_scalar hrt htext] at hd
  refine ⟨sys', hstep, ?_⟩
  rw [hd]
  exact storeLaw_assign_iff (h.nulFree rt handler)

/-- A `setValue` of a key with a NUL, as text and as the document it parses to. -/
def setValueNul : Bytes × Json :=
  (lit "\x7b\"jsonrpc\":\"2.0\",\"method\":\"setValue\",\"id\":1,\"params\":" ++
      lit "\x7b\"key\":\"a\\u0000b\",\"value\":\"x\"\x7d\x7d",
    .object [(lit "jsonrpc", .string (lit "2.0")), (lit "method", .string (lit "setValue")),
      (lit "id", .int 1), (lit "params", .object [(lit "key", .string (lit "a\x00b")),
        (lit "value", .string (lit "x"))])])

theorem writesScalars_ofTable (table : List (Bytes × Json)) :
    WritesScalars (.ofTable table) := ⟨fun _ _ _ => rfl, rfl⟩

theorem receives_setValueNul :
    Receives (.ofTable [setValueNul])
      ((System.init 0).handleWebSocketConnect (.ofTable [setValueNul]) 0)
      (.receive 0 ⟨[], 0, 0, 0, 0, 0⟩ setValueNul.1) ⟨[], 0, 0, 0, 0, 0⟩ (lit "setValue")
      (.object [(lit "key", .string (lit "a\x00b")), (lit "value", .string (lit "x"))]) :=
  ⟨1, newEntry (.ofTable [setValueNul]) 0 (.init 0), setValueNul.1, 1, rfl, by decide, rfl,
    _, _, rfl, ⟨_, rfl⟩, rfl, by decide, rfl, by decide, rfl⟩

theorem setValue_law_other :
    ∃ sys', ((System.init 0).handleWebSocketConnect (.ofTable [setValueNul]) 0).step
        (.ofTable [setValueNul]) none (.receive 0 ⟨[], 0, 0, 0, 0, 0⟩ setValueNul.1) = some sys'
      ∧ (StoreLaw ((System.init 0).handleWebSocketConnect (.ofTable [setValueNul]) 0).server.data
          sys'.server.data (lit "a\x00b") (lit "x") (lit "b")
        ↔ (0 : UInt8) ∉ lit "x" ∧ (cstr (lit "b") ≠ cstr (lit "a\x00b")
          ∨ ((System.init 0).handleWebSocketConnect (.ofTable [setValueNul]) 0
              ).server.data.values.lookup (cstr (lit "a\x00b")) = some (lit "x"))) :=
  setValue_law_iff (.ofTable [setValueNul]) none (writesScalars_ofTable _)
    ⟨0, [.established 0], rfl⟩ receives_setValueNul rfl rfl rfl

/-- For the store both keys are `a`. -/
theorem setValue_law_fails :
    ¬ ∀ sys', ((System.init 0).handleWebSocketConnect (.ofTable [setValueNul]) 0).step
        (.ofTable [setValueNul]) none (.receive 0 ⟨[], 0, 0, 0, 0, 0⟩ setValueNul.1) = some sys' →
      StoreLaw ((System.init 0).handleWebSocketConnect (.ofTable [setValueNul]) 0).server.data
        sys'.server.data (lit "a\x00b") (lit "x") (lit "a") := by
  intro h
  have hlaw := (h _ rfl).2 0
  rw [@getValueReply_of_some _ _ (lit "x") (by decide +kernel)] at hlaw
  exact getValueReply_of_none (by decide +kernel) 0 _ hlaw.symm

end System

end OcppServer
