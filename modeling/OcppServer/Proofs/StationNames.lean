import OcppServer.CentralSystem
import OcppServer.Proofs.Decoding
import OcppServer.Proofs.Stations

/-!
# The names of the stations on their way to the page

The reply to `GetStations` is a document in a string of another one. The client takes the outer one
apart and `parseResponse` the inner one, so every name arrives as the text it is
(`stations_arrive`), whatever characters have to be escaped, once or twice.
-/

namespace OcppServer

namespace Web

/-- The document whose text `handleGetStations` returns. -/
def stationsDoc (names : List Bytes) : Json :=
  .object [(lit "stations", .array (names.map .string))]

theorem handleGetStations_of_ne_nil (rt : Runtime) {amb : Ambient} (h : amb.chargePointIds ≠ []) :
    handleGetStations rt amb = jsonToString rt (stationsDoc amb.chargePointIds) := by
  have hlen : amb.chargePointIds.length ≠ 0 := by simpa using h
  rw [handleGetStations_eq, stationsListed, if_neg hlen, stationsDoc]

/-- Texts in an array are read one by one. -/
theorem elemsToJs?_strings : ∀ {names : List Bytes} {texts : List JsString},
    List.Forall₂ (fun name text => utf16? name = some text) names texts →
      Json.elemsToJs? (names.map .string) = some (texts.map .str)
  | [], _, h => by
    obtain rfl := List.forall₂_nil_left_iff.1 h
    rfl
  | name :: names, _, h => by
    obtain ⟨text, texts, ht, hrest, rfl⟩ := List.forall₂_cons_left_iff.1 h
    rw [List.map_cons, Json.elemsToJs?, Json.toJs?, ht, elemsToJs?_strings hrest]
    rfl

theorem toJs?_stationsDoc {names : List Bytes} {texts : List JsString}
    (h : List.Forall₂ (fun name text => utf16? name = some text) names texts) :
    (stationsDoc names).toJs? = some (.obj [(js "stations", .arr (texts.map .str))]) := by
  have hname := utf16?_lit "stations" (by decide)
  simp only [stationsDoc, Json.toJs?, Json.membersToJs?, hname, elemsToJs?_strings h,
    Option.map_some, Option.bind_some]
  rfl

/-- The names arrive at the page as the texts they are, all of them and in their order. -/
theorem stations_arrive {lang : Js} {rt : Runtime} {amb : Ambient} {id : ℤ}
    {texts : List JsString} (hne : amb.chargePointIds ≠ [])
    (htexts : List.Forall₂ (fun name text => utf16? name = some text) amb.chargePointIds texts)
    (hdoc : ReadsBack lang.parse rt (stationsDoc amb.chargePointIds))
    (hreply : ReadsBack lang.parse rt (replyDoc rt id (stationsDoc amb.chargePointIds))) :
    ∃ response,
      settledBy lang .webJs ((reply id (.ok (handleGetStations rt amb))).bytes rt)
        = .resolved (some response)
      ∧ CentralSystem.stationsOf lang.parse response = some (.arr (texts.map .str)) := by
  have hvalue := toJs?_stationsDoc htexts
  rw [← hdoc] at hvalue
  obtain ⟨text, ht, hparse⟩ := Option.bind_eq_some_iff.1 hvalue
  refine ⟨replyValue id text, ?_, ?_⟩
  · rw [handleGetStations_of_ne_nil rt hne, reply_eq, Message.bytes, settledBy_reply _ hreply, ht]
    rfl
  · rw [CentralSystem.stationsOf, CentralSystem.parseResponse, (replyValue_get? id text).1]
    simp only [JsValue.truthy, decide_eq_true_eq, if_pos (text_ne_nil ht), hparse, Option.getD_some]
    rfl

/-- A name with characters to be escaped twice. -/
def oddName : List Bytes := [lit "CP\"1\"\\", [0, 10, 0xC3, 0xA9]]

/-- The browser, for the reply to a request with id 1. -/
def stationsBrowser : Js where
  parse := parseBoth (.ofTable []) (stationsDoc oddName)
    (replyDoc (.ofTable []) 1 (stationsDoc oddName))
  parseText _ := none
  extract _ := .null

theorem readsBack_oddName : ReadsBack stationsBrowser.parse (.ofTable []) (stationsDoc oddName)
    ∧ ReadsBack stationsBrowser.parse (.ofTable [])
      (replyDoc (.ofTable []) 1 (stationsDoc oddName)) :=
  readsBack_parseBoth (by decide +kernel) (by decide +kernel) (by decide +kernel)

theorem oddName_arrives :
    ∃ response,
      settledBy stationsBrowser .webJs
          ((reply 1 (.ok (handleGetStations (.ofTable []) { atRest with
            chargePointIds := oddName }))).bytes (.ofTable []))
        = .resolved (some response)
      ∧ CentralSystem.stationsOf stationsBrowser.parse response
        = some (.arr ([js "CP\"1\"\\", [0, 10, 0xE9]].map .str)) :=
  stations_arrive (by decide)
    (.cons (utf16?_lit _ (by decide)) (.cons (by decide +kernel) .nil))
    readsBack_oddName.1 readsBack_oddName.2

end Web

end OcppServer
