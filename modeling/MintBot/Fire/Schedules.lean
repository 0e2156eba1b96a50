import MintBot.Fire.Fenced

/-!
# Schedules are claimed once

A schedule has at most one outcome row, and that is never touched again.  Whoever fires it has
won the claim, in a pass that read what the owner asked for.
-/

namespace MintBot

open Fallible Machine

abbrev FireOutcomes := OrderedMap String (FireScheduleOutcome × Time)

/-- Rows may have been added, each for a schedule of its own. -/
structure FireOutcomes.Extended (outcomes next : FireOutcomes) : Prop where
  distinct : (outcomes.map Prod.fst).Nodup → (next.map Prod.fst).Nodup
  kept : ∀ scheduleId row, outcomes.get scheduleId = some row → next.get scheduleId = some row

namespace FireOutcomes.Extended

theorem refl (outcomes : FireOutcomes) : Extended outcomes outcomes where
  distinct := id
  kept _ _ := id

theorem trans {first second third : FireOutcomes} (before : Extended first second)
    (after : Extended second third) : Extended first third where
  distinct := after.distinct ∘ before.distinct
  kept scheduleId row := after.kept scheduleId row ∘ before.kept scheduleId row

theorem set {outcomes : FireOutcomes} {scheduleId : String} {row : FireScheduleOutcome × Time}
    (absent : outcomes.get scheduleId = none) : Extended outcomes (outcomes.set scheduleId row) where
  distinct := OrderedMap.nodup_set
  kept other found held := by
    by_cases same : other = scheduleId
    · rw [same, absent] at held
      cases held
    · rwa [OrderedMap.get_set_other same]

end FireOutcomes.Extended

namespace FireStore

open FireOutcomes

variable {store : FireStore}

theorem claim_extended (scheduleId : String) (outcome : FireScheduleOutcome) :
    Extended store.outcomes (store.claim scheduleId outcome).2.outcomes := by
  rcases claim_cases store scheduleId outcome with lost | ⟨absent, won⟩
  · rw [lost]
    exact Extended.refl _
  · rw [won]
    exact Extended.set absent

theorem cancelAllOpen_extended : Extended store.outcomes store.cancelAllOpen.outcomes := by
  unfold cancelAllOpen
  generalize store.openSchedules none = schedules
  induction schedules generalizing store with
  | nil => exact Extended.refl _
  | cons schedule rest inductionHypothesis =>
      exact (claim_extended schedule.id .cancelled).trans inductionHypothesis

theorem cancel_extended (idOrShort : String) :
    Extended store.outcomes (store.cancel idOrShort).outcomes := by
  unfold cancel
  dsimp only
  split
  · exact claim_extended ..
  · exact Extended.refl _

end FireStore

/-- What a pass must have found to go on with a schedule. -/
structure Due (now : Time) (schedule : FireSchedule) (readings : ScheduleReadings) : Prop where
  begun : schedule.windowFrom ≤ now
  notEnded : now < schedule.windowUntil
  same : readings.digest = schedule.campaignDigest
  released : readings.killSwitchOn = false

namespace FireService

open FireOutcomes

variable {deps : FireServiceDeps} {state next : FireService} {number scheduler : Nat}
  {pass : SchedulerPass} {schedule : FireSchedule} {readings : ScheduleReadings}

/-- Every pass that waits for a mint found its schedule due. -/
def PassesDue (schedulers : Nat → Option SchedulerPass) : Prop :=
  ∀ scheduler pass schedule readings, schedulers scheduler = some pass →
    pass.stage = .reading schedule readings → Due pass.now schedule readings

/-- What a step can do to the schedules. -/
inductive ScheduleStep (state next : FireService) : Prop
  | passed (extended : Extended state.store.outcomes next.store.outcomes)
      (fired : next.fired = state.fired) (due : PassesDue state.schedulers → PassesDue next.schedulers)
  | fired (fire : ScheduledFire)
      (extended : Extended state.store.outcomes next.store.outcomes)
      (absent : state.store.outcomes.get fire.schedule.id = none)
      (won : next.store.outcomes.get fire.schedule.id = some (.started, fire.firedAt))
      (fired : next.fired = state.fired ++ [fire])
      (reads : PassesDue state.schedulers → Due fire.tickAt fire.schedule fire.readings)
      (due : PassesDue state.schedulers → PassesDue next.schedulers)

/-- The schedules, their outcomes and the passes are left alone. -/
theorem ScheduleStep.quiet (outcomes : next.store.outcomes = state.store.outcomes)
    (fired : next.fired = state.fired) (schedulers : next.schedulers = state.schedulers) :
    ScheduleStep state next := by
  refine .passed ?_ fired ?_
  · rw [outcomes]
    exact Extended.refl _
  · rw [schedulers]
    exact id

theorem PassesDue.update {schedulers : Nat → Option SchedulerPass} (due : PassesDue schedulers)
    {value : Option SchedulerPass}
    (new : ∀ pass schedule readings, value = some pass → pass.stage = .reading schedule readings →
      Due pass.now schedule readings) :
    PassesDue (Function.update schedulers scheduler value) := by
  intro other pass schedule readings found reading
  by_cases same : other = scheduler
  · rw [same, Function.update_self] at found
    exact new pass schedule readings found reading
  · rw [Function.update_of_ne same] at found
    exact due other pass schedule readings found reading

/-- Only the pass of one scheduler changes, to a stage in which it does not wait for a mint. -/
theorem ScheduleStep.setPass {value : Option SchedulerPass}
    (elsewhere : ∀ pass schedule readings, value = some pass →
      pass.stage ≠ .reading schedule readings) :
    ScheduleStep state (state.setPass scheduler value) := by
  refine .passed (Extended.refl _) rfl fun due => due.update ?_
  intro pass schedule readings found reading
  exact absurd reading (elsewhere pass schedule readings found)

theorem ScheduleStep.enter {input : FireInput} : ScheduleStep state (state.enter number input) := by
  unfold FireService.enter
  split
  · exact .quiet rfl rfl rfl
  split
  · exact .quiet rfl rfl rfl
  · exact .quiet rfl rfl rfl

theorem ScheduleStep.create {campaignId : CampaignId} {maxFeeGwei : Option Rat} :
    ScheduleStep state (state.create number campaignId maxFeeGwei) := by
  unfold FireService.create
  split
  · exact .quiet rfl rfl rfl
  · exact .quiet rfl rfl rfl

theorem ScheduleStep.resume {call : FireCall} {command : FireCommand}
    (resumed : state.resume number call command = .ok next) : ScheduleStep state next := by
  cases command with
  | ready other outcome =>
      simp only [FireService.resume, bind_eq_ok, refuse_eq_ok] at resumed
      obtain ⟨_, _, resumed⟩ := resumed
      split at resumed
      · obtain rfl := pure_eq_ok.mp resumed
        exact .enter
      · obtain rfl := pure_eq_ok.mp resumed
        exact .quiet rfl rfl rfl
  | simulated other outcome =>
      simp only [FireService.resume, bind_eq_ok, refuse_eq_ok] at resumed
      obtain ⟨_, _, resumed⟩ := resumed
      split at resumed
      all_goals
        obtain rfl := pure_eq_ok.mp resumed
        exact .quiet rfl rfl rfl
  | approved other outcome =>
      simp only [FireService.resume] at resumed
      split at resumed
      · simp only [bind_eq_ok, refuse_eq_ok, pure_eq_ok] at resumed
        obtain ⟨_, _, rfl⟩ := resumed
        exact .quiet rfl rfl rfl
      · cases resumed
        exact .quiet rfl rfl rfl
      · cases resumed
  | _ => cases resumed

theorem ScheduleStep.resumeSend {send : SendCall} {command : FireCommand}
    (resumed : state.resumeSend number send command = .ok next) : ScheduleStep state next := by
  cases command with
  | previewed other outcome =>
      simp only [FireService.resumeSend] at resumed
      split at resumed
      · split at resumed
        · cases resumed
          exact .quiet rfl rfl rfl
        · cases resumed
          exact .create
      · cases resumed
        exact .quiet rfl rfl rfl
      · cases resumed
  | chosen other outcome =>
      simp only [FireService.resumeSend] at resumed
      split at resumed
      · cases resumed
        exact .quiet rfl rfl rfl
      · cases resumed
        exact .quiet rfl rfl rfl
      · cases resumed
  | sendApproved other outcome =>
      simp only [FireService.resumeSend] at resumed
      split at resumed
      · simp only [bind_eq_ok, refuse_eq_ok, pure_eq_ok] at resumed
        obtain ⟨_, _, rfl⟩ := resumed
        exact .quiet rfl rfl rfl
      · cases resumed
        exact .quiet rfl rfl rfl
      · cases resumed
  | _ => cases resumed

theorem ScheduleStep.expire : ScheduleStep state (state.expire scheduler pass schedule) := by
  refine .passed (FireStore.claim_extended ..) rfl fun due => due.update ?_
  rintro changed other readings ⟨⟩ reading
  dsimp only at reading
  split at reading
  · cases reading
  · cases reading

/-- A pass that goes on to ask for the mint has found its schedule due. -/
theorem ScheduleStep.consider (looping : pass.stage = .looping) :
    ScheduleStep state (state.consider deps scheduler pass schedule) := by
  unfold FireService.consider
  split
  · refine .setPass ?_
    rintro other _ _ ⟨⟩
    rw [looping]
    exact PassStage.noConfusion
  rename_i begun
  split
  · exact .expire
  rename_i notEnded
  split
  · exact .expire
  rename_i campaign found
  dsimp only
  split
  · exact .expire
  rename_i same
  split
  · exact .setPass (by rintro other _ _ ⟨⟩ ⟨⟩)
  · rename_i released
    refine .passed (Extended.refl _) rfl fun due => due.update ?_
    rintro other _ _ ⟨⟩ ⟨⟩
    exact
      { begun := Int.not_lt.mp begun
        notEnded := Int.not_le.mp notEnded
        same := by simpa using same
        released := by simpa using released }

theorem ScheduleStep.fire (found : state.schedulers scheduler = some pass)
    (reading : pass.stage = .reading schedule readings) :
    ScheduleStep state (state.fire deps scheduler pass schedule readings) := by
  unfold FireService.fire
  dsimp only
  rcases FireStore.claim_cases state.store schedule.id .started with lost | ⟨absent, won⟩
  · rw [lost]
    exact .setPass (by rintro other _ _ ⟨⟩ ⟨⟩)
  · rw [won]
    dsimp only
    rw [if_pos rfl]
    let fire : ScheduledFire :=
      { schedule := schedule
        tickAt := pass.now
        firedAt := state.store.clock
        readings := readings }
    have reads (due : PassesDue state.schedulers) : Due pass.now schedule readings :=
      due scheduler pass schedule readings found reading
    split
    · exact .fired fire (Extended.set absent) absent OrderedMap.get_set_same rfl reads
        fun due => due.update (by rintro other _ _ ⟨⟩ ⟨⟩)
    · exact .fired fire (Extended.set absent) absent OrderedMap.get_set_same rfl reads
        fun due => due.update (by rintro other _ _ ⟨⟩ ⟨⟩)

theorem ScheduleStep.proceed {command : FireCommand} (found : state.schedulers scheduler = some pass)
    (proceeded : state.proceed deps scheduler pass command = .ok next) :
    ScheduleStep state next := by
  cases command with
  | next other =>
      simp only [FireService.proceed] at proceeded
      split at proceeded
      · cases proceeded
        exact .setPass (by rintro other _ _ ⟨⟩)
      · rename_i looping queued
        cases proceeded
        exact .consider looping
      · cases proceeded
  | mintState other mint =>
      simp only [FireService.proceed] at proceeded
      split at proceeded
      · cases proceeded
        exact .expire
      · rename_i reading
        cases proceeded
        exact .fire found reading
      · cases proceeded
        exact .setPass (by rintro other _ _ ⟨⟩ ⟨⟩)
      · cases proceeded
  | returned other =>
      simp only [FireService.proceed] at proceeded
      split at proceeded
      · simp only [bind_eq_ok, refuse_eq_ok, pure_eq_ok] at proceeded
        obtain ⟨_, _, rfl⟩ := proceeded
        exact .setPass (by rintro other _ _ ⟨⟩ ⟨⟩)
      · cases proceeded
  | recorded other throws =>
      simp only [FireService.proceed] at proceeded
      split at proceeded
      · split at proceeded
        · cases proceeded
          exact .setPass (by rintro other _ _ ⟨⟩)
        · cases proceeded
          exact .setPass (by rintro other _ _ ⟨⟩ ⟨⟩)
      · cases proceeded
  | _ => cases proceeded

theorem ScheduleStep.of_step {command : FireCommand}
    (stepped : FireService.step deps command state = .ok next) : ScheduleStep state next := by
  cases command with
  | wait | setKillSwitch | setCampaign | removeCampaign | openRun | moveOtherRun | request
  | requestSend =>
      cases stepped
      exact .quiet rfl rfl rfl
  | requestCreate campaignId maxFeeGwei =>
      cases stepped
      unfold FireService.create
      split
      · exact .quiet rfl rfl rfl
      · exact .quiet rfl rfl rfl
  | previewed | chosen | sendApproved =>
      simp only [FireService.step, bind_eq_ok, require_eq_ok] at stepped
      obtain ⟨send, _, resumed⟩ := stepped
      exact .resumeSend resumed
  | submit request | schedule schedule | fireAutonomous campaignId wallets maxFeeGwei eventId =>
      simp only [FireService.step, bind_eq_ok, refuse_eq_ok, pure_eq_ok] at stepped
      obtain ⟨_, _, rfl⟩ := stepped
      exact .quiet rfl rfl rfl
  | cancel idOrShort =>
      cases stepped
      exact .passed (FireStore.cancel_extended idOrShort) rfl id
  | cancelAllOpen =>
      cases stepped
      exact .passed FireStore.cancelAllOpen_extended rfl id
  | fireNow campaignId wallets maxFeeGwei =>
      cases stepped
      unfold FireService.enter
      split
      · exact .quiet rfl rfl rfl
      split
      · exact .quiet rfl rfl rfl
      · exact .quiet rfl rfl rfl
  | ready | simulated | approved =>
      simp only [FireService.step, bind_eq_ok, require_eq_ok] at stepped
      obtain ⟨call, _, resumed⟩ := stepped
      exact .resume resumed
  | restart =>
      cases stepped
      refine .passed (Extended.refl _) rfl fun _ => ?_
      intro _ _ _ _ none
      cases none
  | tick other =>
      simp only [FireService.step, bind_eq_ok, refuse_eq_ok, pure_eq_ok] at stepped
      obtain ⟨_, _, rfl⟩ := stepped
      exact .setPass (by rintro pass _ _ ⟨⟩ ⟨⟩)
  | next | mintState | returned | recorded =>
      simp only [FireService.step, bind_eq_ok, require_eq_ok] at stepped
      obtain ⟨pass, found, proceeded⟩ := stepped
      exact .proceed found proceeded

theorem ScheduleStep.extended (stepped : ScheduleStep state next) :
    Extended state.store.outcomes next.store.outcomes := by
  cases stepped with
  | passed extended => exact extended
  | fired _ extended => exact extended

/-! ## Runs -/

/-- Each schedule has one outcome row at most and was fired at most once, by the winner of its
claim and when it was due. -/
structure ScheduledOnce (state : FireService) : Prop where
  rows : (state.store.outcomes.map Prod.fst).Nodup
  once : (state.fired.map fun fire => fire.schedule.id).Nodup
  won : ∀ fire ∈ state.fired,
    state.store.outcomes.get fire.schedule.id = some (.started, fire.firedAt)
  due : ∀ fire ∈ state.fired, Due fire.tickAt fire.schedule fire.readings

theorem ScheduledOnce.step (before : state.ScheduledOnce) (passes : PassesDue state.schedulers)
    (stepped : ScheduleStep state next) : next.ScheduledOnce := by
  cases stepped with
  | passed extended fired _ =>
      exact
        { rows := extended.distinct before.rows
          once := by rw [fired]; exact before.once
          won := by
            rw [fired]
            exact fun fire member => extended.kept _ _ (before.won fire member)
          due := by rw [fired]; exact before.due }
  | fired new extended absent won fired reads _ =>
      refine
        { rows := extended.distinct before.rows
          once := ?_
          won := ?_
          due := ?_ }
      · rw [fired, List.map_append, List.nodup_append]
        refine ⟨before.once, List.pairwise_singleton .., ?_⟩
        rintro earlier member other isNew rfl
        obtain ⟨fire, fireMember, same⟩ := List.mem_map.mp member
        have row := before.won fire fireMember
        rw [same, List.mem_singleton.mp isNew, absent] at row
        cases row
      · rw [fired]
        intro fire member
        rcases List.mem_append.mp member with earlier | isNew
        · exact extended.kept _ _ (before.won fire earlier)
        · rwa [List.mem_singleton.mp isNew]
      · rw [fired]
        intro fire member
        rcases List.mem_append.mp member with earlier | isNew
        · exact before.due fire earlier
        · rw [List.mem_singleton.mp isNew]
          exact reads passes

variable {guard : FireService → FireCommand → Prop}

theorem scheduledOnce_of_reaches (run : Reaches (step deps) guard {} state) :
    state.ScheduledOnce := by
  have kept : PassesDue state.schedulers ∧ state.ScheduledOnce := by
    refine run.invariant (I := fun state => PassesDue state.schedulers ∧ state.ScheduledOnce) ?_ ?_
    · refine ⟨(fun _ _ _ _ none => nomatch none), ?_⟩
      exact
        { rows := List.nodup_nil
          once := List.nodup_nil
          won := fun _ none => nomatch none
          due := fun _ none => nomatch none }
    · rintro before command next ⟨passes, once⟩ _ stepped
      have effect := ScheduleStep.of_step stepped
      refine ⟨?_, once.step passes effect⟩
      cases effect with
      | passed _ _ due => exact due passes
      | fired _ _ _ _ _ _ due => exact due passes
  exact kept.2

/-- An outcome row stays as it was written. -/
theorem outcomes_extended (run : Reaches (step deps) guard state next) :
    Extended state.store.outcomes next.store.outcomes := by
  refine run.invariant (I := fun later => Extended state.store.outcomes later.store.outcomes)
    (Extended.refl _) ?_
  intro middle command later before _ stepped
  exact before.trans (ScheduleStep.of_step stepped).extended

end FireService
end MintBot
