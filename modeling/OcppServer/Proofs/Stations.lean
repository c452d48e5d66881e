import OcppServer.Handlers
import OcppServer.Lib.Runs
import OcppServer.OcppManager

/-!
# The list of stations

While the manager is started its list of charge points should be the identifiers in the registry,
and the reply to `GetStations` should list no others. No function of the manager sets `m_start`, on
which the list, the count and `stop` depend: where it happens to be clear at first, the manager
reports nothing for good, and `GetStations` makes up for an empty list with three stations of its
own. Nor does the constructor clear `m_init`: where it happens to be set, `init` makes no stack, and
the calls that need one go through a null pointer. So all is well exactly where `m_start` was clear,
no start succeeds, and without a stack none is needed.
-/

namespace OcppServer

/-- The stations `handleGetStations` lists. -/
def stationsListed (amb : Ambient) : List Bytes :=
  if amb.chargePointIds.length = 0 then (List.range 3).map fun i => lit "ST000" ++ decimal i
  else amb.chargePointIds

theorem handleGetStations_eq (rt : Runtime) (amb : Ambient) :
    handleGetStations rt amb
      = jsonToString rt (.object [(lit "stations", .array ((stationsListed amb).map .string))]) :=
  rfl

namespace OcppHost

/-- The manager lists the registered identifiers, each once and in ascending order, counts them and
has `GetStations` list them; or, not started, it reports nothing. -/
structure ListsConnected (host : OcppHost) : Prop where
  listed : host.started = true → ∃ h ids, host.manager.eventHandler = some h
    ∧ host.manager.getChargePointIds = some ids
    ∧ (∀ i, i ∈ ids ↔ ∃ handler, h.chargepoints.find? i = some handler)
    ∧ ids.Pairwise (fun i j => compare i j = .lt)
    ∧ host.manager.getChargePointsCount = some ids.length
    ∧ ∀ amb, amb.chargePointIds = ids → stationsListed amb = ids
  idle : host.started = false → host.manager.getChargePointIds = some []
    ∧ host.manager.getChargePointsCount = some 0
  stops : host.started = true → ∃ m, host.manager.stop true = some (true, m)
    ∧ m.centralSystem = some { started := false }

/-- A start that succeeds. -/
def Starts (host : OcppHost) (call : ManagerCall) : Prop :=
  call = .start true ∧ host.manager.mInit = true ∧ host.manager.centralSystem.isSome = true

/-- Neither flag nor history says that the manager is started. -/
def Unstarted (host : OcppHost) : Prop := host.manager.mStart = false ∧ host.started = false

theorem Unstarted.listsConnected {host : OcppHost} (h : Unstarted host) : ListsConnected host := by
  obtain ⟨hs, hn⟩ := h
  refine ⟨fun hy => ?_, fun _ => ?_, fun hy => ?_⟩
  · rw [hn] at hy
    cases hy
  · simp only [OcppManager.getChargePointIds, OcppManager.getChargePointsCount, hs]
    exact ⟨rfl, rfl⟩
  · rw [hn] at hy
    cases hy

theorem call_mStart {f : CentralSystem → Bool × CentralSystem} {m : OcppManager}
    {result : Bool × OcppManager} (h : m.call f = some result) :
    result.2.mStart = m.mStart ∧ ∃ s, m.centralSystem = some s ∧ result.1 = (f s).1 := by
  obtain ⟨s, hs, rfl⟩ := Option.map_eq_some_iff.1 h
  exact ⟨rfl, s, hs, rfl⟩

theorem start_mStart {answer : Bool} {m : OcppManager} {result : Bool × OcppManager}
    (h : m.start answer = some result) : result.2.mStart = m.mStart
      ∧ (result.1 = true → answer = true ∧ m.mInit = true ∧ m.centralSystem.isSome = true) := by
  unfold OcppManager.start at h
  split_ifs at h with hi
  · obtain ⟨hm, s, hs, hr⟩ := call_mStart h
    refine ⟨hm, fun hy => ⟨?_, hi, by rw [hs]; rfl⟩⟩
    rwa [hr] at hy
  · rw [← Option.some.inj h]
    exact ⟨rfl, fun hy => by cases hy⟩

theorem stop_mStart {answer : Bool} {m : OcppManager} {result : Bool × OcppManager}
    (h : m.stop answer = some result) : result.2.mStart = m.mStart := by
  unfold OcppManager.stop at h
  split_ifs at h
  · exact (call_mStart h).1
  · rw [← Option.some.inj h]

theorem resetData_mStart {answer : Bool} {m : OcppManager} {result : Bool × OcppManager}
    (h : m.resetData answer = some result) : result.2.mStart = m.mStart := by
  unfold OcppManager.resetData at h
  split_ifs at h
  · exact (call_mStart h).1
  · rw [← Option.some.inj h]

theorem Unstarted.step {host host' : OcppHost} (h : Unstarted host) {call : ManagerCall}
    (hno : ¬ Starts host call) (hstep : host.step call = some host') : Unstarted host' := by
  obtain ⟨hs, hn⟩ := h
  cases call with
  | init config =>
    obtain rfl := Option.some.inj hstep
    refine ⟨?_, hn⟩
    unfold OcppManager.init
    split_ifs <;> exact hs
  | start answer =>
    obtain ⟨result, hr, rfl⟩ := Option.map_eq_some_iff.1 hstep
    obtain ⟨hm, hy⟩ := start_mStart hr
    refine ⟨hm.trans hs, ?_⟩
    rcases hres : result.1 with _ | _
    · simp only [hn, Bool.or_self]
    · obtain ⟨rfl, hi, hc⟩ := hy hres
      exact absurd ⟨rfl, hi, hc⟩ hno
  | stop answer =>
    obtain ⟨result, hr, rfl⟩ := Option.map_eq_some_iff.1 hstep
    exact ⟨(stop_mStart hr).trans hs, by simp only [hn, Bool.false_and]⟩
  | resetData answer =>
    obtain ⟨result, hr, rfl⟩ := Option.map_eq_some_iff.1 hstep
    exact ⟨(resetData_mStart hr).trans hs, hn⟩
  | stack e =>
    obtain rfl := Option.some.inj hstep
    unfold notify
    split
    · exact ⟨hs, hn⟩
    · exact ⟨hs, hn⟩

/-- Once started, the manager lists nothing, and `GetStations` three stations. -/
theorem Unstarted.starts {host : OcppHost} (h : Unstarted host) {call : ManagerCall}
    (hstart : Starts host call) :
    ∃ host', host.step call = some host' ∧ ¬ ListsConnected host' := by
  obtain ⟨rfl, hi, hc⟩ := hstart
  obtain ⟨s, hs⟩ := Option.isSome_iff_exists.1 hc
  have hstep : host.step (.start true) = some { host with
      manager := { host.manager with centralSystem := some { s with started := true } }
      started := true } := by
    simp only [OcppHost.step, OcppManager.start, hi, if_true, OcppManager.call, hs,
      Option.map_some, CentralSystem.start, Bool.or_true]
  refine ⟨_, hstep, fun hl => ?_⟩
  obtain ⟨-, ids, -, hids, -, -, -, hlisted⟩ := hl.listed rfl
  simp only [OcppManager.getChargePointIds, h.1] at hids
  obtain rfl : [] = ids := Option.some.inj hids
  exact absurd (hlisted ⟨[], 0, 0, 0, 0, 0⟩ rfl) (by decide)

/-- Whenever a run of the manager goes through, the list of stations is right in every state exactly
when the memory of `m_start` was clear at first and no start succeeds. -/
theorem listsConnected_whenever_iff (mInit mStart : Bool) (calls : List ManagerCall) :
    (∀ pre, pre <+: calls → ∀ host, Runs.run step (init mInit mStart) pre = some host →
        ListsConnected host)
      ↔ mStart = false
        ∧ Runs.AtEvery step (fun host call => ¬ Starts host call) (init mInit mStart) calls := by
  cases mStart with
  | true =>
    refine iff_of_false (fun h => ?_) fun h => by cases h.1
    have := (h [] List.nil_prefix _ rfl).idle rfl
    cases this.1
  | false =>
    rw [eq_self_iff_true, true_and]
    refine Runs.forall_run_iff _ (I := Unstarted) (D := fun _ => True)
      (fun host h => h.listsConnected) (fun host call host' h _ hno hstep => h.step hno hstep)
      (fun host call h hyes => h.starts (not_not.1 hyes)) calls ⟨rfl, rfl⟩ fun _ _ => trivial

/-! ## The memory of `m_init` -/

/-- With `m_init` set and `m_start` not, these calls go through `m_central_system`. -/
def UsesStack : ManagerCall → Prop
  | .start _ | .stop _ | .resetData _ => True
  | .init _ | .stack _ => False

/-- With `m_init` set there is a stack. -/
def Equipped (host : OcppHost) : Prop :=
  host.manager.mInit = true → host.manager.centralSystem.isSome = true

theorem Equipped.call {host : OcppHost} (h : Equipped host) (hi : host.manager.mInit = true)
    (f : CentralSystem → Bool × CentralSystem) : ∃ result, host.manager.call f = some result
      ∧ result.2.centralSystem.isSome = true := by
  obtain ⟨s, hs⟩ := Option.isSome_iff_exists.1 (h hi)
  exact ⟨_, by rw [OcppManager.call, hs, Option.map_some], rfl⟩

/-- With a stack to go to, every call has an outcome. -/
theorem Equipped.step {host : OcppHost} (h : Equipped host) (hs : host.manager.mStart = false)
    (call : ManagerCall) : ∃ host', host.step call = some host' ∧ Equipped host' := by
  cases call with
  | init config =>
    refine ⟨_, rfl, ?_⟩
    unfold Equipped OcppManager.init
    split_ifs
    · exact h
    · exact fun _ => rfl
  | stack e =>
    refine ⟨_, rfl, ?_⟩
    unfold notify
    split <;> exact h
  | start answer =>
    by_cases hi : host.manager.mInit = true
    · obtain ⟨result, hr, hc⟩ := h.call hi (CentralSystem.start answer)
      exact ⟨_, by rw [OcppHost.step, OcppManager.start, if_pos hi, hr, Option.map_some],
        fun _ => hc⟩
    · refine ⟨_, by rw [OcppHost.step, OcppManager.start, if_neg hi, Option.map_some], ?_⟩
      exact h
  | stop answer =>
    by_cases hi : host.manager.mInit = true
    · obtain ⟨result, hr, hc⟩ := h.call hi (CentralSystem.stop answer)
      exact ⟨_, by rw [OcppHost.step, OcppManager.stop, if_pos (by simp [hi, hs]), hr,
        Option.map_some], fun _ => hc⟩
    · refine ⟨_, by rw [OcppHost.step, OcppManager.stop, if_neg (by simp [hi]), Option.map_some],
        ?_⟩
      exact h
  | resetData answer =>
    by_cases hi : host.manager.mInit = true
    · obtain ⟨result, hr, hc⟩ := h.call hi (CentralSystem.resetData answer)
      exact ⟨_, by rw [OcppHost.step, OcppManager.resetData, if_pos hi, hr, Option.map_some],
        fun _ => hc⟩
    · refine ⟨_, by rw [OcppHost.step, OcppManager.resetData, if_neg hi, Option.map_some], ?_⟩
      exact h

/-- The manager takes itself for initialised and has nothing. -/
structure Blank (host : OcppHost) : Prop where
  unstarted : Unstarted host
  mInit : host.manager.mInit = true
  eventHandler : host.manager.eventHandler = none
  centralSystem : host.manager.centralSystem = none

theorem Blank.step_eq_none {host : OcppHost} (h : Blank host) {call : ManagerCall}
    (hu : UsesStack call) : host.step call = none := by
  have hcall (f : CentralSystem → Bool × CentralSystem) : host.manager.call f = none := by
    rw [OcppManager.call, h.centralSystem, Option.map_none]
  cases call with
  | start answer => rw [OcppHost.step, OcppManager.start, if_pos h.mInit, hcall, Option.map_none]
  | stop answer =>
    rw [OcppHost.step, OcppManager.stop, if_pos (by simp [h.mInit, h.unstarted.1]), hcall,
      Option.map_none]
  | resetData answer =>
    rw [OcppHost.step, OcppManager.resetData, if_pos h.mInit, hcall, Option.map_none]
  | init | stack => exact hu.elim

theorem Blank.step_eq_self {host : OcppHost} (h : Blank host) {call : ManagerCall}
    (hu : ¬ UsesStack call) : host.step call = some host := by
  cases call with
  | init config => rw [OcppHost.step, OcppManager.init, if_pos h.mInit]
  | stack e => rw [OcppHost.step, notify, h.eventHandler]
  | start | stop | resetData => exact absurd trivial hu

/-- A blank manager goes through a run exactly if nothing in it needs the stack. -/
theorem Blank.forall_run_iff {host : OcppHost} (h : Blank host) (calls : List ManagerCall) :
    (∀ pre, pre <+: calls → ∃ host', Runs.run OcppHost.step host pre = some host'
        ∧ ListsConnected host') ↔ ∀ call ∈ calls, ¬ UsesStack call := by
  constructor
  · intro hall call hmem hu
    obtain ⟨pre, post, rfl⟩ := List.append_of_mem hmem
    obtain ⟨host₁, h₁, -⟩ := hall pre (List.prefix_append _ _)
    obtain ⟨host₂, h₂, -⟩ := hall (pre ++ [call])
      ((List.prefix_append_right_inj pre).2 ⟨post, rfl⟩)
    have hblank : Blank host₁ := by
      refine Runs.run_invariant _ (fun t e t' ht hstep => ?_) pre h h₁
      by_cases he : UsesStack e
      · rw [ht.step_eq_none he] at hstep
        cases hstep
      · rw [ht.step_eq_self he] at hstep
        exact Option.some.inj hstep ▸ ht
    rw [Runs.run_snoc _ h₁, hblank.step_eq_none hu] at h₂
    cases h₂
  · intro hall pre hpre
    obtain ⟨host', hrun, hblank⟩ := Runs.run_of_atEvery OcppHost.step (I := Blank)
      (C := fun _ call => ¬ UsesStack call)
      (fun t e ht he => ⟨t, ht.step_eq_self he, ht⟩) pre h (by
        rintro a call b rfl t -
        exact hall call (hpre.subset (by simp)))
    exact ⟨host', hrun, hblank.unstarted.listsConnected⟩

/-- A run of the manager goes through with the list of stations right in every state exactly when
the memory of `m_start` was clear at first, no start succeeds, and, where the memory of `m_init` was
set, nothing is called that needs the stack. -/
theorem listsConnected_iff (mInit mStart : Bool) (calls : List ManagerCall) :
    (∀ pre, pre <+: calls → ∃ host, Runs.run step (init mInit mStart) pre = some host
        ∧ ListsConnected host)
      ↔ mStart = false ∧ (mInit = true → ∀ call ∈ calls, ¬ UsesStack call)
        ∧ Runs.AtEvery step (fun host call => ¬ Starts host call) (init mInit mStart) calls := by
  have hwhenever : (∀ pre, pre <+: calls → ∃ host, Runs.run step (init mInit mStart) pre = some host
      ∧ ListsConnected host) → mStart = false
        ∧ Runs.AtEvery step (fun host call => ¬ Starts host call) (init mInit mStart) calls := by
    intro h
    refine (listsConnected_whenever_iff mInit mStart calls).1 fun pre hpre host hrun => ?_
    obtain ⟨host', hrun', hl⟩ := h pre hpre
    exact Option.some.inj (hrun'.symm.trans hrun) ▸ hl
  constructor
  · intro h
    obtain ⟨rfl, hstarts⟩ := hwhenever h
    refine ⟨rfl, ?_, hstarts⟩
    rintro rfl
    exact (Blank.forall_run_iff ⟨⟨rfl, rfl⟩, rfl, rfl, rfl⟩ calls).1 h
  · rintro ⟨rfl, hstack, hstarts⟩ pre hpre
    cases mInit with
    | true =>
      exact (Blank.forall_run_iff ⟨⟨rfl, rfl⟩, rfl, rfl, rfl⟩ calls).2 (hstack rfl) pre hpre
    | false =>
      obtain ⟨host, hrun, hs, -⟩ := Runs.run_of_atEvery step
        (I := fun host => Unstarted host ∧ Equipped host) (fun host call hs hno => by
          obtain ⟨host', hstep, he⟩ := hs.2.step hs.1.1 call
          exact ⟨host', hstep, hs.1.step hno hstep, he⟩) pre ⟨⟨rfl, rfl⟩, by simp [Equipped, init]⟩
        (hstarts.of_isPrefix _ hpre)
      exact ⟨host, hrun, hs.listsConnected⟩

/-- The manager as the program runs it, with one charge point. -/
theorem started_lists_nothing :
    ¬ ∀ host, Runs.run step (init false false) [.init ⟨0, 0⟩, .start true,
        .stack (.chargePointConnected (lit "CP1"))] = some host → ListsConnected host := by
  intro h
  obtain ⟨handler, ids, hh, hids, hmem, -⟩ := (h _ rfl).listed rfl
  obtain rfl : [] = ids := Option.some.inj hids
  obtain rfl := Option.some.inj hh
  exact absurd ((hmem (lit "CP1")).2 ⟨⟨⟨0, lit "CP1"⟩⟩, rfl⟩) (by simp)

end OcppHost

end OcppServer
