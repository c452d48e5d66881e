import OcppServer.CentralSystem

/-!
# What the page's handlers leave alone

The commands depend on the current station and connector and on the connector on screen (`aim`).
Only an answer changes these, and only a selection or a new connection makes a request (`calls`).
`Turn` says so once for all events.
-/

namespace OcppServer

namespace Web

namespace CentralSystem

/-- The current station and connector, and the connector on screen. -/
def aim (page : CentralSystem) : Option JsString × Option ℤ × Option (Option JsString × ℤ) :=
  (page.currentStation, page.currentConnector, page.connector.shown)

/-- The requests made, and those outstanding. -/
def calls (page : CentralSystem) : List Request × List Request := (page.requests, page.outstanding)

theorem aim_eq {page page' : CentralSystem} (h : page'.aim = page.aim) :
    page'.currentStation = page.currentStation
      ∧ page'.currentConnector = page.currentConnector
      ∧ page'.connector.shown = page.connector.shown := by
  simpa only [aim, Prod.mk.injEq] using h

theorem calls_eq {page page' : CentralSystem} (h : page'.calls = page.calls) :
    page'.requests = page.requests ∧ page'.outstanding = page.outstanding := by
  simpa only [calls, Prod.mk.injEq] using h

theorem kept_updateConnectorStatus (status : Option JsValue) (page : CentralSystem) :
    (page.updateConnectorStatus status).aim = page.aim
      ∧ (page.updateConnectorStatus status).calls = page.calls := by
  unfold updateConnectorStatus
  split_ifs <;> exact ⟨rfl, rfl⟩

theorem updateStationStatus_error {status : Option JsValue} (h : ∀ s, status ≠ some (.str s))
    (page : CentralSystem) : page.updateStationStatus status = .error page := by
  unfold updateStationStatus
  split
  · exact absurd rfl (h _)
  · rfl

theorem kept_handleStatusNotification (data : EventData) (page : CentralSystem) :
    (page.handleStatusNotification data).aim = page.aim
      ∧ (page.handleStatusNotification data).calls = page.calls := by
  unfold handleStatusNotification
  by_cases hstr : ∃ s, data.member? (js "status") = some (.str s)
  · obtain ⟨s, hs⟩ := hstr
    rw [hs]
    simp only [updateStationStatus]
    split_ifs
    · exact kept_updateConnectorStatus _ _
    · exact ⟨rfl, rfl⟩
    · exact ⟨rfl, rfl⟩
  · rw [updateStationStatus_error fun s hs => hstr ⟨s, hs⟩]
    split_ifs <;> exact ⟨rfl, rfl⟩

theorem calls_answered (r : Request) (answers : Answers) (page : CentralSystem) :
    (page.answered r answers).calls = page.calls := by
  unfold answered
  cases r with
  | getStations => cases answers.stations <;> rfl
  | getStationStatus stationId =>
    rcases answers.station with _ | data
    · rfl
    · simp only [stationChanged]
      split <;> rfl
  | getConnectorStatus stationId connectorId => cases answers.connector <;> rfl

/-- An event of the RPC client makes the page ask for the stations if it tells of a connection. -/
theorem kept_handle (event : JsValue) (data : EventData) (page : CentralSystem) :
    (page.handle event data).aim = page.aim
      ∧ (event = .str (js "connected")
          ∧ (page.handle event data).calls = (page.request .getStations).calls
        ∨ event ≠ .str (js "connected") ∧ (page.handle event data).calls = page.calls) := by
  by_cases hc : event = .str (js "connected")
  · subst hc
    exact ⟨rfl, .inl ⟨rfl, rfl⟩⟩
  have key : (page.handle event data).aim = page.aim
      ∧ (page.handle event data).calls = page.calls := by
    unfold handle
    split
    · rename_i name
      have hn : name ≠ js "connected" := fun h => hc (by rw [h])
      rw [if_neg hn]
      split_ifs
      · exact ⟨rfl, rfl⟩
      · exact kept_handleStatusNotification data page
      · exact ⟨rfl, rfl⟩
    · exact ⟨rfl, rfl⟩
  exact ⟨key.1, .inr ⟨hc, key.2⟩⟩

/-- The event tells of a connection. -/
def Connects (e : PageEvent) : Prop := ∃ data, e = .emitted (.str (js "connected")) data

/-- What an event does to the page, as far as commands and requests go. -/
inductive Turn (page : CentralSystem) : PageEvent → CentralSystem → Prop
  | kept {e : PageEvent} {page' : CentralSystem} (he : ¬ Connects e)
      (hr : ∀ answers, e = .reply answers → page.outstanding = [])
      (ha : page'.aim = page.aim) (hc : page'.calls = page.calls) : Turn page e page'
  | asked {e : PageEvent} {page' : CentralSystem} {r : Request}
      (he : r = .getStations ↔ Connects e) (hr : ∀ answers, e ≠ .reply answers)
      (hs : r ≠ .getStationStatus []) (ha : page'.aim = page.aim)
      (hc : page'.calls = (page.request r).calls) : Turn page e page'
  | answered {answers : Answers} {r : Request} {rest : List Request}
      (ho : page.outstanding = r :: rest) :
      Turn page (.reply answers) (CentralSystem.answered r answers { page with outstanding := rest })

theorem turn (page : CentralSystem) (e : PageEvent) : Turn page e (page.step e) := by
  cases e with
  | selectStation value =>
    have he : ¬ Connects (.selectStation value) := by
      rintro ⟨_, h⟩
      cases h
    simp only [step]
    split_ifs with hv
    · have hs : Request.getStationStatus value ≠ .getStationStatus [] := by
        simpa using hv.2
      exact .asked (iff_of_false (fun h => by cases h) he) (fun _ h => by cases h) hs rfl rfl
    · exact .kept he (fun _ h => by cases h) rfl rfl
  | selectConnector value =>
    have he : ¬ Connects (.selectConnector value) := by
      rintro ⟨_, h⟩
      cases h
    simp only [step]
    split_ifs
    · have hs : Request.getConnectorStatus page.currentStation value ≠ .getStationStatus [] :=
        fun h => by cases h
      exact .asked (iff_of_false (fun h => by cases h) he) (fun _ h => by cases h) hs rfl rfl
    · exact .kept he (fun _ h => by cases h) rfl rfl
  | reply answers =>
    have he : ¬ Connects (.reply answers) := by
      rintro ⟨_, h⟩
      cases h
    simp only [step]
    rcases ho : page.outstanding with _ | ⟨r, rest⟩
    · exact .kept he (fun _ _ => ho) rfl rfl
    · exact .answered ho
  | emitted event data =>
    rw [step]
    obtain ⟨ha, ⟨rfl, hc⟩ | ⟨hne, hc⟩⟩ := kept_handle event data page
    · exact .asked (iff_of_true rfl ⟨data, rfl⟩) (fun _ h => by cases h) (fun h => by cases h) ha hc
    · refine .kept ?_ (fun _ h => by cases h) ha hc
      rintro ⟨_, h⟩
      exact hne (PageEvent.emitted.inj h).1

end CentralSystem

end Web

end OcppServer
