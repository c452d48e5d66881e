import OcppServer.Lib.Runs
import OcppServer.Proofs.Page

/-!
# Commands go to the connector on screen

A command names the current station and connector, and the panel shows what was shown last. The
answer to a connector's request sets both the connector and the panel, but not the station, which
may be another by now; the answer to a station's request sets the station and the panel, but not
the connector, though it shows the first one. So what matters is the answer after which nothing is
outstanding (`Matches`). A notification is compared with a connector id the page does not have, and
is heeded if it names none.
-/

namespace OcppServer

namespace Web

namespace CentralSystem

def Shows (page : CentralSystem) (s : JsString) (c : ℤ) : Prop :=
  page.connector.shown = some (some s, c)

instance (page : CentralSystem) (s : JsString) (c : ℤ) : Decidable (Shows page s c) :=
  inferInstanceAs (Decidable (_ = _))

/-- With nothing outstanding the commands go to the connector on screen. -/
def Aims (page : CentralSystem) : Prop :=
  ∀ s c, page.outstanding = [] → Shows page s c →
    page.requestStartTransaction = some ⟨js "RequestStartTransaction", s, some c⟩
      ∧ page.requestStopTransaction = some ⟨js "RequestStopTransaction", s, some c⟩
      ∧ page.unlockConnector = some ⟨js "UnlockConnector", s, some c⟩

/-- The notification names the connector. -/
def Names (data : EventData) (s : JsString) (c : ℤ) : Prop :=
  data.member? (js "station_id") = some (.str s) ∧ data.member? (js "connector_id") = some (.num c)

/-- With nothing outstanding a notification sets the status on screen if it names the connector
there, and only then. -/
def Follows (page : CentralSystem) (data : EventData) : Prop :=
  ∀ s c, page.outstanding = [] → Shows page s c →
    ((page.handleStatusNotification data).connector.statusWrites ≠ page.connector.statusWrites
      ↔ Names data s c)

/-- The event leaves the commands aimed, and if it is a notification, it is followed. -/
structure OnScreen (page : CentralSystem) (e : PageEvent) : Prop where
  aims : Aims (page.step e)
  follows : ∀ data, e = .emitted (.str (js "StatusNotification")) data → Follows page data

/-- The connector on screen is the current one. -/
def Matches (page : CentralSystem) : Prop :=
  ∀ s c, Shows page s c → page.currentStation = some s ∧ page.currentConnector = some c

/-- The notification names the station, no connector, and statuses that can be shown. -/
def Unaddressed (data : EventData) (s : JsString) : Prop :=
  data.member? (js "station_id") = some (.str s) ∧ data.member? (js "connector_id") = none
    ∧ (∃ status, data.member? (js "status") = some (.str status))
    ∧ ((data.member? (js "connectorStatus")).map JsValue.toStringThrows).getD false = false

/-- The answer to the last outstanding request leaves the panel with the current connector. -/
def Lands (page : CentralSystem) (answers : Answers) : Request → Prop
  | .getStations => Matches page
  | .getStationStatus stationId => match answers.station with
    | none => Matches page
    | some data => match data.connectors with
      | some (first :: _) => page.currentConnector = some first.1
      | _ => ∀ s c, Shows page s c → stationId = s ∧ page.currentConnector = some c
  | .getConnectorStatus stationId _ => match answers.connector with
    | none => Matches page
    | some _ => ∀ s, stationId = some s → page.currentStation = some s

/-- The last answer lands, and a notification that comes with nothing outstanding neither names
the connector on screen nor its station alone. -/
def Sound (page : CentralSystem) : PageEvent → Prop
  | .reply answers => ∀ r, page.outstanding = [r] → Lands page answers r
  | .emitted event data => event = .str (js "StatusNotification") → page.outstanding = [] →
    ∀ s c, Shows page s c → ¬ Names data s c ∧ ¬ Unaddressed data s
  | _ => True

/-- The stations the page knows of have a name. -/
structure Named (page : CentralSystem) : Prop where
  current : page.currentStation ≠ some []
  requested : ∀ s, .getStationStatus s ∈ page.outstanding → s ≠ []

variable {page page' : CentralSystem}

theorem Matches.congr (h : page'.aim = page.aim) : Matches page' ↔ Matches page := by
  obtain ⟨hs, hc, hp⟩ := aim_eq h
  unfold Matches Shows
  rw [hs, hc, hp]

theorem connectorCommand_eq_iff (hn : page.currentStation ≠ some []) (method : JsString)
    (s : JsString) (c : ℤ) : page.connectorCommand method = some ⟨method, s, some c⟩
      ↔ page.currentStation = some s ∧ page.currentConnector = some c := by
  unfold connectorCommand
  rcases hs : page.currentStation with _ | t
  · simp
  · have ht : t ≠ [] := by
      rintro rfl
      exact hn hs
    simp only [if_neg ht, Option.some.injEq, Command.mk.injEq, true_and]

/-- The commands are aimed exactly if the connector on screen is the current one. -/
theorem aims_iff (hn : Named page) : Aims page ↔ (page.outstanding = [] → Matches page) := by
  have heq := connectorCommand_eq_iff hn.current
  constructor
  · intro h hq s c hs
    exact (heq _ s c).1 (h s c hq hs).1
  · intro h s c hq hs
    have hm := h hq s c hs
    exact ⟨(heq _ s c).2 hm, (heq _ s c).2 hm, (heq _ s c).2 hm⟩

/-! ## Notifications -/

theorem isCurrentStation_iff {s : JsString} (h : page.currentStation = some s)
    (value : Option JsValue) : page.isCurrentStation value = true ↔ value = some (.str s) := by
  unfold isCurrentStation
  rw [h]
  rcases value with _ | v
  · simp
  · cases v <;> simp

/-- A notification sets the status on screen exactly if it names the station and no connector. -/
theorem statusWrites_iff {s : JsString} (h : page.currentStation = some s) (data : EventData) :
    (page.handleStatusNotification data).connector.statusWrites ≠ page.connector.statusWrites
      ↔ Unaddressed data s := by
  unfold handleStatusNotification Unaddressed
  by_cases hst : data.member? (js "station_id") = some (.str s)
  · rw [if_pos ((isCurrentStation_iff h _).2 hst)]
    by_cases hstr : ∃ status, data.member? (js "status") = some (.str status)
    · obtain ⟨status, hstatus⟩ := hstr
      rw [hstatus]
      simp only [updateStationStatus]
      rcases hc : data.member? (js "connector_id") with _ | value
      · simp only [Option.isNone_none, if_true, updateConnectorStatus]
        split_ifs with ht
        · exact iff_of_false (fun hne => hne rfl) fun hu => by simp [ht] at hu
        · exact iff_of_true (Nat.succ_ne_self _) ⟨hst, trivial, ⟨status, rfl⟩, by simpa using ht⟩
      · exact iff_of_false (fun hne => hne rfl) fun hu => by cases hu.2.1
    · rw [updateStationStatus_error fun s hs => hstr ⟨s, hs⟩]
      exact iff_of_false (fun hne => hne rfl) fun hu => hstr hu.2.2.1
  · rw [if_neg fun hc => hst ((isCurrentStation_iff h _).1 hc)]
    exact iff_of_false (fun hne => hne rfl) fun hu => hst hu.1

theorem followed_iff (h : page.outstanding = [] → Matches page) (data : EventData) :
    Follows page data ↔ (page.outstanding = [] →
      ∀ s c, Shows page s c → ¬ Names data s c ∧ ¬ Unaddressed data s) := by
  have key : ∀ s c, page.outstanding = [] → Shows page s c →
      (((page.handleStatusNotification data).connector.statusWrites ≠ page.connector.statusWrites
        ↔ Names data s c) ↔ ¬ Names data s c ∧ ¬ Unaddressed data s) := by
    intro s c hq hs
    rw [statusWrites_iff (h hq s c hs).1]
    -- No notification names the connector and names none.
    have hex : Unaddressed data s → ¬ Names data s c := fun hu hn => by
      have := hn.2
      rw [hu.2.1] at this
      cases this
    constructor
    · intro hiff
      exact ⟨fun hn => hex (hiff.2 hn) hn, fun hu => hex hu (hiff.1 hu)⟩
    · rintro ⟨hn, hu⟩
      exact iff_of_false hu hn
  constructor
  · exact fun hf hq s c hs => (key s c hq hs).1 (hf s c hq hs)
  · exact fun hf s c hq hs => (key s c hq hs).2 (hf hq s c hs)

/-! ## Answers -/

/-- When a connector's data was just shown, it is on screen. -/
theorem matches_updateConnectorInfo (stationId : Option JsString) (connectorId : ℤ)
    (data : ConnectorData) (page : CentralSystem) :
    Matches (page.updateConnectorInfo (stationId, connectorId) data)
      ↔ ∀ s, stationId = some s →
        page.currentStation = some s ∧ page.currentConnector = some connectorId := by
  have hshown : (page.updateConnectorInfo (stationId, connectorId) data).connector.shown
      = some (stationId, connectorId) := rfl
  constructor
  · intro h s hs
    exact h s connectorId (hs ▸ rfl)
  · intro h s c hs
    rw [Shows, hshown, Option.some.injEq, Prod.mk.injEq] at hs
    obtain ⟨rfl, rfl⟩ := hs
    exact h s rfl

/-- The connector on screen is the current one after an answer exactly if the answer lands. -/
theorem matches_answered (r : Request) (answers : Answers) (page : CentralSystem) :
    Matches (page.answered r answers) ↔ Lands page answers r := by
  unfold answered
  cases r with
  | getStations =>
    rcases answers.stations with _ | stations
    · rfl
    · exact Matches.congr rfl
  | getStationStatus stationId =>
    simp only [Lands]
    rcases answers.station with _ | data
    · rfl
    · simp only [stationChanged]
      -- Without connectors the panel is left as it was.
      rcases data.connectors with _ | _ | ⟨first, rest⟩
      · exact forall_congr' fun s => forall_congr' fun c => by
          simp [Shows, updateStationInfo, updateConnectorsDropdown]
      · exact forall_congr' fun s => forall_congr' fun c => by
          simp [Shows, updateStationInfo, updateConnectorsDropdown]
      · simp only [matches_updateConnectorInfo]
        constructor
        · exact fun h => (h stationId rfl).2
        · intro h s hs
          exact ⟨hs, h⟩
  | getConnectorStatus stationId connectorId =>
    simp only [Lands]
    rcases answers.connector with _ | data
    · rfl
    · refine (matches_updateConnectorInfo _ _ _ _).trans (forall_congr' fun s => ?_)
      exact imp_congr Iff.rfl (and_iff_left rfl)

/-! ## Steps -/

/-- An answer makes the station it was asked for the current one, or none. -/
theorem currentStation_answered (r : Request) (answers : Answers) (page : CentralSystem) :
    (page.answered r answers).currentStation = page.currentStation
      ∨ ∃ s, r = .getStationStatus s ∧ (page.answered r answers).currentStation = some s := by
  unfold answered
  cases r with
  | getStations => cases answers.stations <;> exact .inl rfl
  | getStationStatus stationId =>
    rcases answers.station with _ | data
    · exact .inl rfl
    · refine .inr ⟨stationId, rfl, ?_⟩
      simp only [stationChanged]
      split <;> rfl
  | getConnectorStatus stationId connectorId => cases answers.connector <;> exact .inl rfl

theorem Named.request (h : Named page) {r : Request} (hr : r ≠ .getStationStatus []) :
    Named (page.request r) where
  current := h.current
  requested := by
    rintro s hs rfl
    rcases List.mem_append.1 hs with hs | hs
    · exact h.requested [] hs rfl
    · exact hr (List.mem_singleton.1 hs).symm

theorem Named.congr (h : Named page) (ha : page'.aim = page.aim) (hc : page'.calls = page.calls) :
    Named page' where
  current := by
    rw [(aim_eq ha).1]
    exact h.current
  requested := by
    rw [(calls_eq hc).2]
    exact h.requested

theorem Named.step (h : Named page) (e : PageEvent) : Named (page.step e) := by
  have hturn := turn page e
  generalize page.step e = page' at hturn ⊢
  cases hturn with
  | kept _ _ ha hc => exact h.congr ha hc
  | asked _ _ hs ha hc => exact (h.request hs).congr ha hc
  | @answered answers r rest ho =>
    constructor
    · rcases currentStation_answered r answers { page with outstanding := rest } with hs | hs
      · rw [hs]
        exact h.current
      · obtain ⟨s, rfl, hs⟩ := hs
        rw [hs]
        intro heq
        exact h.requested s (by rw [ho]; exact List.mem_cons_self) (Option.some.inj heq)
    · rw [(calls_eq (calls_answered r answers _)).2]
      intro s hs
      exact h.requested s (by rw [ho]; exact List.mem_cons_of_mem _ hs)

/-- What holds all along: the stations are named, and with nothing outstanding the connector on
screen is the current one. -/
structure Settled (page : CentralSystem) : Prop where
  named : Named page
  matched : page.outstanding = [] → Matches page

theorem request_outstanding (r : Request) (page : CentralSystem) :
    (page.request r).outstanding ≠ [] := by
  simp [CentralSystem.request]

/-- After an event the connector on screen is the current one exactly if the event, where it is
the last answer, lands. -/
theorem matched_step (h : Settled page) (e : PageEvent) :
    ((page.step e).outstanding = [] → Matches (page.step e))
      ↔ ∀ answers r, e = .reply answers → page.outstanding = [r] → Lands page answers r := by
  have hturn := turn page e
  generalize page.step e = page' at hturn ⊢
  cases hturn with
  | kept _ hr ha hc =>
    refine iff_of_true (fun hq => (Matches.congr ha).2 (h.matched ?_)) fun answers r he hone => ?_
    · rwa [(calls_eq hc).2] at hq
    · rw [hr answers he] at hone
      cases hone
  | @asked _ _ r _ hr _ _ hc =>
    refine iff_of_true (fun hq => ?_) fun answers _ he => absurd he (hr answers)
    rw [(calls_eq hc).2] at hq
    exact absurd hq (request_outstanding r page)
  | @answered answers r rest ho =>
    simp only [PageEvent.reply.injEq]
    rw [(calls_eq (calls_answered r answers _)).2, matches_answered, ho]
    constructor
    · rintro hl a r' rfl hr
      obtain ⟨rfl, rfl⟩ := List.cons.inj hr
      exact hl rfl
    · rintro hl rfl
      exact hl answers r rfl rfl

theorem onScreen_iff (h : Settled page) (e : PageEvent) : OnScreen page e ↔ Sound page e := by
  have haims := (aims_iff (h.named.step e)).trans (matched_step h e)
  constructor
  · intro ho
    cases e with
    | reply answers => exact fun r hr => haims.1 ho.aims answers r rfl hr
    | emitted event data =>
      intro he
      subst he
      exact (followed_iff h.matched data).1 (ho.follows data rfl)
    | _ => trivial
  · intro hs
    refine ⟨haims.2 fun answers r he hr => ?_, fun data he => ?_⟩
    · subst he
      exact hs r hr
    · subst he
      exact (followed_iff h.matched data).2 (hs rfl)

theorem Settled.step (h : Settled page) {e : PageEvent} (hs : Sound page e) :
    Settled (page.step e) where
  named := h.named.step e
  matched := (aims_iff (h.named.step e)).1 ((onScreen_iff h e).2 hs).aims

theorem settled_init (connected : Bool) : Settled (init connected) := by
  have hfresh : Settled {} := ⟨⟨by simp, by simp⟩, fun _ s c hs => by cases hs⟩
  unfold init loadInitialData
  split_ifs
  · have hs : Request.getStations ≠ .getStationStatus [] := fun h => by cases h
    exact ⟨hfresh.named.request hs, fun hq => absurd hq (request_outstanding _ _)⟩
  · exact hfresh

/-- In a run of the page the commands go to the connector on screen, and notifications are followed
there, exactly if every last answer lands and no notification that comes with nothing outstanding
names the connector on screen, or its station alone. -/
theorem onScreen_run_iff (connected : Bool) (events : List PageEvent) :
    Runs.Throughout step OnScreen (init connected) events
      ↔ Runs.Throughout step Sound (init connected) events :=
  Runs.throughout_iff step (I := Settled) (fun _ e h => onScreen_iff h e)
    (fun _ _ h hs => h.step hs) (settled_init connected) events

/-- What the server answers for the station `ST0001`, as far as its first connector. -/
def alarmed : StationData where
  status := js "alarm"
  connectors := some [(1, ⟨js "CHADEMO", js "charge", some (331 / 10), some (221 / 10)⟩)]
  maxPower := some 120

/-- A station is selected; its first connector is on screen, and no connector is commanded. -/
theorem first_connector_unaimed :
    ¬ Runs.Throughout step OnScreen (init false)
      [.emitted (.str (js "connected")) .undefined,
        .reply { stations := some [js "ST0000", js "ST0001", js "ST0002"] },
        .selectStation (js "ST0001"), .reply { station := some alarmed }] := by
  intro h
  have := (h [_, _, _] _ [] rfl).aims (js "ST0001") 1 (by decide) (by decide)
  exact absurd this.1 (by decide)

end CentralSystem

end Web

end OcppServer
