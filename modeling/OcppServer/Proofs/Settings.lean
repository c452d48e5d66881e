import OcppServer.Proofs.Changes

/-!
# The charging settings

`setMaxPower` checks its range and `startCharging`, `stopCharging` and `resetSystem` write
`chargingEnabled` and `systemStatus` together, so they keep the settings valid (`ValidSettings`).
`setValue` writes the same keys with no check. Assigning one key keeps them valid when the
assignment is sound by the other key (`ValidSettings.insert`) and only then
(`ValidSettings.sound`), so along a run they stay valid exactly when every `setValue` that is
received sets soundly.
-/

namespace OcppServer

/-- The settings are all there, the maximum power is a number from 1 to 100, and the status is
`charging` exactly while charging is enabled. -/
structure ValidSettings (values : Dict Bytes Bytes) : Prop where
  keys : ∀ kv ∈ initialValues, kv.1 ∈ values
  maxPower : ∃ n : ℤ, 1 ≤ n ∧ n ≤ 100 ∧ values.lookup (lit "maxPower") = some (decimal n)
  chargingEnabled : values.lookup (lit "chargingEnabled") = some (lit "true")
    ∨ values.lookup (lit "chargingEnabled") = some (lit "false")
  systemStatus : values.lookup (lit "systemStatus") = some (lit "charging")
    ↔ values.lookup (lit "chargingEnabled") = some (lit "true")

/-- An assignment that respects the range of the power and the other of the paired keys. -/
structure SoundAssignment (values : Dict Bytes Bytes) (key value : Bytes) : Prop where
  maxPower : key = lit "maxPower" → ∃ n : ℤ, 1 ≤ n ∧ n ≤ 100 ∧ value = decimal n
  chargingEnabled : key = lit "chargingEnabled" →
    (value = lit "true" ∧ values.lookup (lit "systemStatus") = some (lit "charging"))
      ∨ (value = lit "false" ∧ values.lookup (lit "systemStatus") ≠ some (lit "charging"))
  systemStatus : key = lit "systemStatus" →
    (value = lit "charging" ↔ values.lookup (lit "chargingEnabled") = some (lit "true"))

theorem power_ne_flag : lit "maxPower" ≠ lit "chargingEnabled" := by decide

theorem power_ne_status : lit "maxPower" ≠ lit "systemStatus" := by decide

theorem flag_ne_status : lit "chargingEnabled" ≠ lit "systemStatus" := by decide

theorem true_ne_false : lit "true" ≠ lit "false" := by decide

theorem ValidSettings.insert {values : Dict Bytes Bytes} (h : ValidSettings values)
    {key value : Bytes} (hs : SoundAssignment values key value) :
    ValidSettings (values.insert key value) := by
  refine ⟨fun kv hkv => (AList.mem_insert _).2 (.inr (h.keys kv hkv)), ?_, ?_, ?_⟩
  · rw [Dict.lookup_insert_eq]
    split_ifs with hk
    · obtain ⟨n, h1, h100, rfl⟩ := hs.maxPower hk.symm
      exact ⟨n, h1, h100, rfl⟩
    · exact h.maxPower
  · rw [Dict.lookup_insert_eq]
    split_ifs with hk
    · rcases hs.chargingEnabled hk.symm with ⟨rfl, -⟩ | ⟨rfl, -⟩
      · exact .inl rfl
      · exact .inr rfl
    · exact h.chargingEnabled
  · rw [Dict.lookup_insert_eq, Dict.lookup_insert_eq]
    split_ifs with hst hfl hfl
    · exact absurd (hfl.trans hst.symm) flag_ne_status
    · rw [Option.some.injEq]
      exact hs.systemStatus hst.symm
    · rcases hs.chargingEnabled hfl.symm with ⟨rfl, hc⟩ | ⟨rfl, hc⟩
      · exact iff_of_true hc rfl
      · exact iff_of_false hc fun he => true_ne_false (Option.some.inj he).symm
    · exact h.systemStatus

/-- An assignment that leaves the settings valid was sound. -/
theorem ValidSettings.sound {values : Dict Bytes Bytes} {key value : Bytes}
    (h : ValidSettings (values.insert key value)) : SoundAssignment values key value := by
  obtain ⟨-, hp, hf, hs⟩ := h
  refine ⟨?_, ?_, ?_⟩ <;> rintro rfl
  · obtain ⟨n, h1, h100, hn⟩ := hp
    rw [AList.lookup_insert, Option.some.injEq] at hn
    exact ⟨n, h1, h100, hn⟩
  · rw [AList.lookup_insert, AList.lookup_insert_ne flag_ne_status.symm, Option.some.injEq] at hs
    rw [AList.lookup_insert, Option.some.injEq, Option.some.injEq] at hf
    rcases hf with rfl | rfl
    · exact .inl ⟨rfl, hs.2 rfl⟩
    · exact .inr ⟨rfl, fun hc => true_ne_false (hs.1 hc).symm⟩
  · rw [AList.lookup_insert, AList.lookup_insert_ne flag_ne_status, Option.some.injEq] at hs
    exact hs

/-- The paired keys written together. -/
theorem ValidSettings.pair {values : Dict Bytes Bytes} (h : ValidSettings values)
    {flag status : Bytes} (hf : flag = lit "true" ∨ flag = lit "false")
    (hs : status = lit "charging" ↔ flag = lit "true") :
    ValidSettings (Replica.replay
      [(lit "chargingEnabled", flag), (lit "systemStatus", status)] values) := by
  simp only [Replica.replay_cons, Replica.replay_nil]
  refine ⟨fun kv hkv => ?_, ?_, ?_, ?_⟩
  · rw [AList.mem_insert, AList.mem_insert]
    exact .inr (.inr (h.keys kv hkv))
  · rw [AList.lookup_insert_ne power_ne_status, AList.lookup_insert_ne power_ne_flag]
    exact h.maxPower
  · rw [AList.lookup_insert_ne flag_ne_status, AList.lookup_insert, Option.some.injEq,
      Option.some.injEq]
    exact hf
  · rw [AList.lookup_insert, AList.lookup_insert_ne flag_ne_status, AList.lookup_insert,
      Option.some.injEq, Option.some.injEq]
    exact hs

theorem validSettings_initializeValues (now : ℤ) (d : RpcData) :
    ValidSettings (initializeValues now d).values := by
  have hpower : initialValues.reverse.lookup (lit "maxPower") = some (decimal 50) := by decide
  have hflag : initialValues.reverse.lookup (lit "chargingEnabled") = some (lit "false") := by
    decide
  have hstatus : initialValues.reverse.lookup (lit "systemStatus") = some (lit "running") := by
    decide
  have hkeys : ∀ kv ∈ initialValues, (initialValues.reverse.lookup kv.1).isSome = true := by decide
  refine ⟨fun kv hkv => ?_, ⟨50, by omega, by omega, ?_⟩, .inr ?_, ?_⟩
  · obtain ⟨v, hv⟩ := Option.isSome_iff_exists.1 (hkeys kv hkv)
    exact Dict.mem_iff_exists.2 ⟨v, by rw [lookup_initializeValues, hv]; rfl⟩
  · rw [lookup_initializeValues, hpower, Option.some_or]
  · rw [lookup_initializeValues, hflag, Option.some_or]
  · rw [lookup_initializeValues, lookup_initializeValues, hflag, hstatus,
      Option.some_or, Option.some_or]
    decide

theorem ValidSettings.hasFlag {d : RpcData} (h : ValidSettings d.values) : HasFlag d :=
  h.keys (lit "chargingEnabled", lit "false") (by decide)

theorem Change.validSettings {rt : Runtime} {amb : Ambient} {clients : ℕ} {d d' : RpcData}
    {method : Bytes} {params : Json} (hc : Change rt amb clients d method params d')
    (h : ValidSettings d.values)
    (hset : method = lit "setValue" → ∀ key value, params.find? (lit "key") = some (.string key) →
      params.find? (lit "value") = some value →
        SoundAssignment d.values (cstr key) (jsonValueToString rt value)) :
    ValidSettings d'.values := by
  cases hc with
  | @setValue key value hm hk hv => exact h.insert (hset hm key value hk hv)
  | @setMaxPower n hm hv h1 h100 =>
    refine h.insert ⟨fun _ => ⟨n, h1, h100, rfl⟩, fun he => ?_, fun he => ?_⟩
    · exact absurd he power_ne_flag
    · exact absurd he power_ne_status
  | startCharging => exact h.pair (.inl rfl) (iff_of_true rfl rfl)
  | stopCharging => exact h.pair (.inr rfl) (iff_of_false (by decide) (by decide))
  | resetSystem => exact validSettings_initializeValues _ _
  | refresh =>
    rw [values_updateMetrics rt amb clients h.hasFlag]
    exact h
  | none => exact h

namespace System

variable (rt : Runtime) (handler : Option WebServer.MessageHandler)

/-- A `setValue` that is received makes a sound assignment. -/
def SetsSoundly (sys : System) (cb : Callback) : Prop :=
  ∀ amb params key value, Receives rt sys cb amb (lit "setValue") params →
    params.find? (lit "key") = some (.string key) → params.find? (lit "value") = some value →
      SoundAssignment sys.server.data.values (cstr key) (jsonValueToString rt value)

theorem validSettings_step {sys sys' : System} (hr : Registered sys)
    (h : ValidSettings sys.server.data.values) {cb : Callback} (hset : SetsSoundly rt sys cb)
    (hstep : sys.step rt handler cb = some sys') : ValidSettings sys'.server.data.values := by
  refine hr.step_data rt handler hstep h fun amb method params d' hrec hc => hc.validSettings h ?_
  rintro rfl key value
  exact hset amb params key value hrec

/-- In every run of a fresh server the settings are valid after each callback exactly when each
`setValue` received makes a sound assignment. -/
theorem validSettings_iff (now : ℤ) (cbs : List Callback) :
    (∀ pre, pre <+: cbs → ∀ sys, run rt handler (.init now) pre = some sys →
        ValidSettings sys.server.data.values)
      ↔ Runs.AtEvery (System.step rt handler) (SetsSoundly rt) (.init now) cbs := by
  refine Runs.forall_run_iff _ (D := fun _ => True)
    (I := fun sys => Registered sys ∧ ValidSettings sys.server.data.values) (fun _ h => h.2) ?_ ?_
    cbs ⟨registered_init now, validSettings_initializeValues now _⟩ (by simp)
  · rintro sys cb sys' ⟨hr, h⟩ - hset hstep
    exact ⟨hr.step rt handler hstep, validSettings_step rt handler hr h hset hstep⟩
  · rintro sys cb ⟨hr, h⟩ hset
    simp only [SetsSoundly, not_forall] at hset
    obtain ⟨amb, params, key, value, hrec, hk, hv, hns⟩ := hset
    obtain ⟨sys', hstep, hc⟩ := hr.step_change rt handler hrec
    have hd := hc.unique rt amb (.setValue rfl hk hv)
    refine ⟨sys', hstep, fun hvalid => hns ?_⟩
    rw [hd] at hvalid
    exact ValidSettings.sound hvalid

/-- A `setValue` of the maximum power, as text and as the document it parses to. -/
def setMaxPower500 : Bytes × Json :=
  (lit "\x7b\"jsonrpc\":\"2.0\",\"method\":\"setValue\",\"id\":1,\"params\":" ++
      lit "\x7b\"key\":\"maxPower\",\"value\":500\x7d\x7d",
    .object [(lit "jsonrpc", .string (lit "2.0")), (lit "method", .string (lit "setValue")),
      (lit "id", .int 1), (lit "params", .object [(lit "key", .string (lit "maxPower")),
        (lit "value", .int 500)])])

/-- `setValue` takes a maximum power that `setMaxPower` refuses. -/
theorem setValue_unchecked :
    ¬ ∀ sys, run (.ofTable [setMaxPower500]) none (.init 0)
        [.established 0, .receive 0 ⟨[], 0, 0, 0, 0, 0⟩ setMaxPower500.1] = some sys →
      ValidSettings sys.server.data.values := by
  intro h
  obtain ⟨n, h1, h100, hn⟩ := (h _ rfl).maxPower
  have hne : ∀ m : Fin 101, lit "500" ≠ decimal m.val := by decide +kernel
  refine hne ⟨n.toNat, by omega⟩ ?_
  have hv : (n.toNat : ℤ) = n := by omega
  simp only [hv]
  exact Option.some.inj hn

end System

end OcppServer
