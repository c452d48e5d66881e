import OcppServer.Proofs.Replies

/-!
# The connectors of a station, in two views

`GetStationStatus` lists as many connectors as it counts, numbered from 1, and the entry at a
position has the data `GetConnectorStatus` returns for the number. But that command reads the
station's identifier and does not use it: it answers for every number, with the data of a connector
of the first kind for the numbers no station lists. So the views agree exactly about the numbers
that are listed (`viewsAgree_iff`).
-/

namespace OcppServer

/-- Whatever the writer, the command returns its text of the document. -/
def RepliesWith (command : Runtime → Outcome) (doc : Json) : Prop :=
  ∀ rt, command rt = .ok (jsonToString rt doc)

def Succeeds (command : Runtime → Outcome) : Prop := ∀ rt, ∃ text, command rt = .ok text

theorem RepliesWith.succeeds {command : Runtime → Outcome} {doc : Json}
    (h : RepliesWith command doc) : Succeeds command := fun rt => ⟨_, h rt⟩

/-- Writers that tell the documents apart show that there is no other. -/
theorem RepliesWith.unique {command : Runtime → Outcome} {doc doc' : Json}
    (h : RepliesWith command doc) (h' : RepliesWith command doc') : doc = doc' := by
  classical
  let rt : Runtime :=
    { Runtime.ofTable [] with
      write := fun d => if d = doc then [1] else [2]
      zero_notMem_write := by
        intro d
        split_ifs <;> decide
      write_ne_nil := by
        intro d
        split_ifs <;> decide }
  have heq : jsonToString rt doc = jsonToString rt doc' := by
    have := (h rt).symm.trans (h' rt)
    exact Except.ok.inj this
  by_contra hne
  have hw : jsonToString rt doc = cstr [1] := by
    rw [jsonToString, show rt.write doc = [1] from if_pos rfl]
  have hw' : jsonToString rt doc' = cstr [2] := by
    rw [jsonToString, show rt.write doc' = [2] from if_neg (Ne.symm hne)]
  rw [hw, hw'] at heq
  exact absurd heq (by decide)

/-- The station's document lists the connectors: as many as it counts, numbered from 1. -/
structure Lists (station : Json) (connectors : List Json) : Prop where
  listed : station.find? (lit "connectors") = some (.array connectors)
  counted : station.find? (lit "connector_count") = some (.int connectors.length)
  numbered : connectors.map (Json.find? (lit "id"))
    = (List.range connectors.length).map fun i => some (.int (i + 1))

/-- What both views tell of a connector. -/
def connectorFields : List Bytes := [lit "type", lit "status", lit "meter", lit "power"]

/-- The two documents tell the same of a connector, and all there is to tell. -/
def SameConnector (entry status : Json) : Prop :=
  ∀ name ∈ connectorFields, (entry.find? name).isSome ∧ status.find? name = entry.find? name

/-- For a station and a number, the station view lists its connectors properly, and the connector
view succeeds exactly if one of them has the number, and then with its data. -/
def ViewsAgree (s : Bytes) (c : Int32) : Prop :=
  ∀ ps pc : Json, ps.find? (lit "station_id") = some (.string s) →
    pc.find? (lit "station_id") = some (.string s) →
    pc.find? (lit "connector_id") = some (.int c.toInt) →
    ∃ station connectors, RepliesWith (handleGetStationStatus · ps) station
      ∧ Lists station connectors
      ∧ (Succeeds (handleGetConnectorStatus · pc)
        ↔ ∃ entry ∈ connectors, entry.find? (lit "id") = some (.int c.toInt))
      ∧ ∀ entry ∈ connectors, entry.find? (lit "id") = some (.int c.toInt) →
        ∃ status, RepliesWith (handleGetConnectorStatus · pc) status ∧ SameConnector entry status

/-- How many connectors a station has, by its identifier up to the first NUL. -/
def connectorCount (s : Bytes) : ℕ :=
  if cstr s = lit "ST0001" then 3 else if cstr s = lit "ST0002" then 4 else 2

/-- The entry at a position from 0. -/
def connectorEntry (i : ℕ) : Json :=
  .object [(lit "id", .int (i + 1)), (lit "type", .string (connectorAt i).1),
    (lit "status", .string (connectorAt i).2.1), (lit "meter", .double (connectorAt i).2.2.1),
    (lit "power", .double (connectorAt i).2.2.2)]

def connectorEntries (s : Bytes) : List Json := (List.range (connectorCount s)).map connectorEntry

/-- The document `GetStationStatus` returns the text of. -/
def stationDoc (s : Bytes) : Json :=
  .object [(lit "status", .string (if cstr s = lit "ST0001" then lit "alarm"
      else if cstr s = lit "ST0002" then lit "off" else lit "ok")),
    (lit "connector_count", .int (connectorCount s)),
    (lit "max_power", .int (if cstr s = lit "ST0001" then 120
      else if cstr s = lit "ST0002" then 180 else 150)),
    (lit "connectors", .array (connectorEntries s))]

/-- The document `GetConnectorStatus` returns the text of. -/
def connectorDoc (c : ℤ) : Json :=
  .object [(lit "status", .string (connectorAt (c - 1)).2.1),
    (lit "type", .string (connectorAt (c - 1)).1),
    (lit "meter", .double (connectorAt (c - 1)).2.2.1),
    (lit "power", .double (connectorAt (c - 1)).2.2.2)]

section Replies

variable {s : Bytes} {params : Json}

theorem getStationStatus_replies (h : params.find? (lit "station_id") = some (.string s)) :
    RepliesWith (handleGetStationStatus · params) (stationDoc s) := by
  intro rt
  simp only [handleGetStationStatus, Json.stringMember?_eq_some.2 ⟨s, h, rfl⟩]
  by_cases h1 : cstr s = lit "ST0001"
  · simp only [if_pos h1, stationDoc, connectorEntries, connectorCount]
    rfl
  · by_cases h2 : cstr s = lit "ST0002"
    · simp only [if_neg h1, if_pos h2, stationDoc, connectorEntries, connectorCount]
      rfl
    · simp only [if_neg h1, if_neg h2, stationDoc, connectorEntries, connectorCount]
      rfl

/-- Numbers from 1 and positions from 0 have the same data, listed or not. -/
theorem getConnectorStatus_replies {c : Int32}
    (hs : params.find? (lit "station_id") = some (.string s))
    (hc : params.find? (lit "connector_id") = some (.int c.toInt)) :
    RepliesWith (handleGetConnectorStatus · params) (connectorDoc c.toInt) := by
  intro rt
  have hdata : connectorAt (c.toInt - 1)
      = if c.toInt = 2 then (lit "CCS2", lit "alarm", 0, 0)
        else if c.toInt = 3 then (lit "GBT", lit "ok", 0, 0)
        else if c.toInt = 4 then (lit "TYPE2", lit "off", 0, 0)
        else (lit "CHADEMO", lit "charge", float33_1, float22_1) := by
    simp only [connectorAt, sub_eq_iff_eq_add, Int.reduceAdd]
  have hnum : Json.IsInt32 c.toInt := ⟨c.le_toInt, c.toInt_lt⟩
  simp only [handleGetConnectorStatus, Json.stringMember?_eq_some.2 ⟨s, hs, rfl⟩,
    Json.intMember?_eq_some.2 ⟨hc, hnum⟩, connectorDoc, hdata]

end Replies

theorem stationDoc_lists (s : Bytes) : Lists (stationDoc s) (connectorEntries s) where
  listed := rfl
  counted := by
    rw [connectorEntries, List.length_map, List.length_range]
    rfl
  numbered := by
    rw [connectorEntries, List.length_map, List.length_range, List.map_map]
    rfl

theorem exists_entry_iff (s : Bytes) (c : ℤ) :
    (∃ entry ∈ connectorEntries s, entry.find? (lit "id") = some (.int c))
      ↔ 1 ≤ c ∧ c ≤ connectorCount s := by
  have hid : ∀ i : ℕ, (connectorEntry i).find? (lit "id") = some (.int (i + 1)) := fun _ => rfl
  constructor
  · rintro ⟨entry, he, h⟩
    obtain ⟨i, hi, rfl⟩ := List.mem_map.1 he
    rw [hid, Option.some.injEq, Json.int.injEq] at h
    rw [List.mem_range] at hi
    omega
  · rintro ⟨h1, h2⟩
    refine ⟨connectorEntry (c - 1).toNat, List.mem_map_of_mem (List.mem_range.2 (by omega)), ?_⟩
    rw [hid, Option.some.injEq, Json.int.injEq]
    omega

/-- An entry has the data of its number. -/
theorem entry_sameConnector {s : Bytes} {c : ℤ} {entry : Json} (he : entry ∈ connectorEntries s)
    (h : entry.find? (lit "id") = some (.int c)) : SameConnector entry (connectorDoc c) := by
  obtain ⟨i, -, rfl⟩ := List.mem_map.1 he
  obtain rfl : (i : ℤ) + 1 = c := by
    have hid : (connectorEntry i).find? (lit "id") = some (.int (i + 1)) := rfl
    rw [hid, Option.some.injEq, Json.int.injEq] at h
    exact h
  have hpos : (i : ℤ) + 1 - 1 = i := by omega
  rw [connectorDoc, hpos]
  intro name hname
  simp only [connectorFields, List.mem_cons, List.not_mem_nil, or_false] at hname
  rcases hname with rfl | rfl | rfl | rfl <;> exact ⟨rfl, rfl⟩

/-- The connector view succeeds, so a number the views agree about is listed. -/
theorem ViewsAgree.listed {s : Bytes} {c : Int32} (h : ViewsAgree s c) :
    1 ≤ c.toInt ∧ c.toInt ≤ connectorCount s := by
  obtain ⟨station, connectors, hreply, hlists, hiff, -⟩ :=
    h (.object [(lit "station_id", .string s)])
      (.object [(lit "station_id", .string s), (lit "connector_id", .int c.toInt)]) rfl rfl rfl
  obtain rfl := hreply.unique (getStationStatus_replies rfl)
  have hlisted := hlists.listed.symm.trans (stationDoc_lists s).listed
  rw [Option.some.injEq, Json.array.injEq] at hlisted
  rw [← exists_entry_iff, ← hlisted]
  exact hiff.1 (getConnectorStatus_replies (s := s) (c := c) rfl rfl).succeeds

/-- The views agree about a station and a number exactly if the station lists the number. -/
theorem viewsAgree_iff (s : Bytes) (c : Int32) :
    ViewsAgree s c ↔ 1 ≤ c.toInt ∧ c.toInt ≤ connectorCount s := by
  refine ⟨ViewsAgree.listed, fun hc ps pc hps hpc hnum => ?_⟩
  have hreply := getConnectorStatus_replies hpc hnum
  refine ⟨stationDoc s, connectorEntries s, getStationStatus_replies hps, stationDoc_lists s,
    ⟨fun _ => (exists_entry_iff s c.toInt).2 hc, fun _ => hreply.succeeds⟩, fun entry he hid => ?_⟩
  exact ⟨_, hreply, entry_sameConnector he hid⟩

/-- No station has a connector 7, but each returns the status of one. -/
theorem connector_seven_not_listed : ¬ ∀ (s : Bytes) (c : Int32), ViewsAgree s c := by
  intro h
  exact absurd (h (lit "ST0000") 7).listed (by decide)

end OcppServer
