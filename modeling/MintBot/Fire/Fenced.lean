import MintBot.Fire.OneAtATime

/-!
# The guard along every run

The steps of the calls take the guard, keep it and give it back; all other steps leave it
alone and let requests settle.
-/

namespace MintBot

open Fallible Machine StoredRequest

/-- The campaign that a call holds while the pipeline runs. -/
def FireCall.holds (call : FireCall) : Option CampaignId :=
  match call.stage with
  | .readying => none
  | _ => some call.input.campaignId

def FireService.holder (calls : Nat → Option FireCall) (number : Nat) : Option CampaignId :=
  (calls number).bind FireCall.holds

namespace FireStore

variable {store : FireStore}

/-- What a claim does: it wins, and then there was no outcome before, or it changes nothing. -/
theorem claim_cases (store : FireStore) (scheduleId : String) (outcome : FireScheduleOutcome) :
    store.claim scheduleId outcome = (false, store) ∨
      store.outcomes.get scheduleId = none ∧
        store.claim scheduleId outcome =
          (true, { store with
            outcomes := store.outcomes.set scheduleId (outcome, store.clock) }) := by
  unfold claim
  split
  · split
    · exact .inl rfl
    · rename_i unclaimed
      exact .inr ⟨by simpa using unclaimed, rfl⟩
  · exact .inl rfl

/-- Nothing but the outcomes of schedules differs. -/
def SameButOutcomes (store next : FireStore) : Prop :=
  next = { store with outcomes := next.outcomes }

theorem claim_same (scheduleId : String) (outcome : FireScheduleOutcome) :
    store.SameButOutcomes (store.claim scheduleId outcome).2 := by
  rcases claim_cases store scheduleId outcome with lost | ⟨-, won⟩
  · rw [lost]
    rfl
  · rw [won]
    rfl

theorem SameButOutcomes.trans {first second third : FireStore}
    (before : first.SameButOutcomes second) (after : second.SameButOutcomes third) :
    first.SameButOutcomes third := by
  unfold SameButOutcomes at *
  rw [after, before]

theorem cancelAllOpen_same : store.SameButOutcomes store.cancelAllOpen := by
  unfold cancelAllOpen
  generalize store.openSchedules none = schedules
  induction schedules generalizing store with
  | nil => exact rfl
  | cons schedule rest inductionHypothesis =>
      exact (claim_same schedule.id .cancelled).trans inductionHypothesis

theorem cancel_same (idOrShort : String) : store.SameButOutcomes (store.cancel idOrShort) := by
  unfold cancel
  dsimp only
  split
  · exact claim_same ..
  · rfl

/-- A fire that passes its checks has seen no conflict. -/
theorem checkFire_ok {input : FireInput} {campaign : FireCampaign}
    (passed : store.checkFire input = .ok campaign) :
    store.persistentConflict input.campaignId input.scheduleId = none := by
  simp only [checkFire, bind_eq_ok, refuse_eq_ok, require_eq_ok] at passed
  obtain ⟨_, _, _, _, _, _, _, _, _, _, passed⟩ := passed
  split at passed
  · cases passed
  · assumption

end FireStore

namespace FireService

theorem holder_update {calls : Nat → Option FireCall} {number : Nat} {call : Option FireCall} :
    holder (Function.update calls number call) =
      Function.update (holder calls) number (call.bind FireCall.holds) := by
  funext other
  by_cases same : other = number
  · subst same
    simp [holder]
  · simp [holder, Function.update_of_ne same]

/-- The guard is kept, and numbers of calls are not used before their turn. -/
def Fenced (origin : RequestOrigin) (state : FireService) : Prop :=
  OneAtATime origin state.store.clock state.store.requests (holder state.calls) state.inFlight ∧
    ∀ number, state.nextCall ≤ number → state.calls number = none

variable {origin : RequestOrigin} {state : FireService} {number : Nat}

theorem fenced_start : Fenced origin {} :=
  ⟨OneAtATime.start, fun _ _ => rfl⟩

/-- A store with the same clock and the same requests makes no difference. -/
theorem Fenced.store (fenced : state.Fenced origin) {store : FireStore}
    (same : state.store.SameButOutcomes store) : Fenced origin { state with store := store } := by
  rw [FireStore.SameButOutcomes] at same
  rw [same]
  exact fenced

theorem Fenced.known (fenced : state.Fenced origin) {call : FireCall}
    (found : state.calls number = some call) : number < state.nextCall := by
  by_contra late
  rw [fenced.2 number (Nat.le_of_not_lt late)] at found
  cases found

/-- The fresh numbers after the call with a known number was set. -/
theorem fresh_setCall (known : number < state.nextCall)
    (fresh : ∀ other, state.nextCall ≤ other → state.calls other = none)
    (call : Option FireCall) :
    ∀ other, state.nextCall ≤ other → (state.setCall number call).calls other = none := by
  intro other late
  have different : other ≠ number := by omega
  exact (Function.update_of_ne different ..).trans (fresh other late)

/-- A call outside the pipeline ends, or begins to wait for the host evidence. -/
theorem Fenced.idle (fenced : state.Fenced origin) (idle : holder state.calls number = none)
    (known : number < state.nextCall) {call : Option FireCall}
    (outside : call.bind FireCall.holds = none) : (state.setCall number call).Fenced origin := by
  refine ⟨?_, fresh_setCall known fenced.2 call⟩
  have same : holder (state.setCall number call).calls = holder state.calls := by
    rw [setCall, holder_update, outside, ← idle, Function.update_eq_self]
  rw [same]
  exact fenced.1

/-- A call goes on to another stage of the pipeline. -/
theorem Fenced.advance (fenced : state.Fenced origin) {campaignId : CampaignId}
    (holds : holder state.calls number = some campaignId) (known : number < state.nextCall)
    {call : FireCall} (still : call.holds = some campaignId) :
    (state.setCall number (some call)).Fenced origin := by
  refine ⟨?_, fresh_setCall known fenced.2 (some call)⟩
  have same : holder (state.setCall number (some call)).calls = holder state.calls := by
    rw [setCall, holder_update, Option.bind_some, still, ← holds, Function.update_eq_self]
  rw [same]
  exact fenced.1

/-- The call ends; what it held is free again. -/
theorem Fenced.leave (fenced : state.Fenced origin) {campaignId : CampaignId}
    (holds : holder state.calls number = some campaignId) (known : number < state.nextCall)
    (outcome : Except Error String) : (state.leave number campaignId outcome).Fenced origin := by
  refine ⟨?_, fresh_setCall known fenced.2 none⟩
  have freed : holder (Function.update state.calls number none) =
      Function.update (holder state.calls) number none := by
    rw [holder_update, Option.bind_none]
  have released := fenced.1.release holds
  rw [← freed] at released
  exact released

/-- A call that never took the guard leaves it as it is. -/
theorem Fenced.refused (fenced : state.Fenced origin) (idle : holder state.calls number = none)
    (known : number < state.nextCall) {campaignId : CampaignId}
    (free : campaignId ∉ state.inFlight) (outcome : Except Error String) :
    (state.leave number campaignId outcome).Fenced origin := by
  have same : (state.inFlight.filter fun held => held ≠ campaignId) = state.inFlight := by
    rw [List.filter_eq_self]
    intro held member
    simpa using fun equal : held = campaignId => free (equal ▸ member)
  have ended : (state.setCall number none).Fenced origin := fenced.idle idle known rfl
  unfold FireService.leave
  rw [same]
  exact ended

theorem Fenced.enter (fenced : state.Fenced origin) (idle : holder state.calls number = none)
    (known : number < state.nextCall) {input : FireInput}
    (seen : state.store.PendingSeen origin input.campaignId) (ours : origin ≠ .elsewhere) :
    (state.enter number input).Fenced origin := by
  unfold FireService.enter
  split
  · exact fenced.idle idle known rfl
  rename_i free
  split
  · exact fenced.refused idle known free _
  · rename_i campaign passed
    refine ⟨?_, fresh_setCall known fenced.2 _⟩
    have clear := FireStore.clear_of_persistentConflict (FireStore.checkFire_ok passed) seen ours
      fenced.1.proper
    let call : FireCall := { input := input, stage := .simulating }
    have taken : holder (Function.update state.calls number (some call)) =
        Function.update (holder state.calls) number (some input.campaignId) := by
      rw [holder_update, Option.bind_some]
      rfl
    have acquired := fenced.1.acquire idle free clear
    rw [← taken] at acquired
    exact acquired

/-- The request is written as the last step of the pipeline. -/
theorem Fenced.insert (fenced : state.Fenced origin) (row : StoredRequest)
    (holds : holder state.calls number = some row.request.campaignId)
    (known : number < state.nextCall) (wired : row.origin = .fireWiring) (proper : row.Proper)
    (outcome : Except Error String) :
    Fenced origin { state.leave number row.request.campaignId outcome with
      store := state.store.insert row } := by
  have left := fenced.leave holds known outcome
  refine ⟨left.1.insert ?_ ?_ proper, left.2⟩
  · intro _ other held
    have free : row.request.campaignId ∉
        (state.leave number row.request.campaignId outcome).inFlight := by
      simp [FireService.leave]
    exact free ((left.1.guarded.taken_iff _).mpr ⟨other, held⟩)
  · intro other member rivals same
    refine fenced.1.clear number row.request.campaignId holds other member ?_ same
    rcases rivals with ⟨otherWired, rowOurs⟩ | ⟨otherOurs, -⟩
    · rw [otherWired, ← wired, rowOurs]
    · exact otherOurs

/-! ## Steps -/

/-- At a conflict check the pending requests of the route are seen. -/
def ChecksSee (origin : RequestOrigin) (state : FireService) : FireCommand → Prop
  | .fireNow campaignId _ _ => state.store.PendingSeen origin campaignId
  | .ready number (.ok _) => ∀ call, state.calls number = some call →
      state.store.PendingSeen origin call.input.campaignId
  | _ => True

/-- When the request route writes a request, no fire of the campaign runs and no request of
one is unresolved. -/
def SendsApart (state : FireService) : FireCommand → Prop
  | .sendApproved number (.ok _) => ∀ send, state.sends number = some send →
      send.campaignId ∉ state.inFlight ∧
        Clear .fireWiring state.store.clock state.store.requests send.campaignId
  | _ => True

/-- A number that is given out for a new call. -/
theorem Fenced.reserve (fenced : state.Fenced origin) :
    Fenced origin { state with nextCall := state.nextCall + 1 } ∧
      holder state.calls state.nextCall = none := by
  refine ⟨⟨fenced.1, ?_⟩, ?_⟩
  · intro other late
    have later : state.nextCall + 1 ≤ other := late
    exact fenced.2 other (by omega)
  · rw [holder, fenced.2 state.nextCall (Nat.le_refl _), Option.bind_none]

theorem Fenced.await (fenced : state.Fenced origin) (input : FireInput) :
    (state.await input).Fenced origin :=
  Fenced.idle fenced.reserve.1 fenced.reserve.2 (Nat.lt_succ_self _) rfl

theorem Fenced.wait (fenced : state.Fenced origin) (milliseconds : Nat) :
    Fenced origin { state with
      store := { state.store with clock := state.store.clock + milliseconds } } := by
  refine ⟨?_, fenced.2⟩
  have passed : state.store.clock ≤ state.store.clock + milliseconds :=
    Int.le_add_of_nonneg_right (Int.natCast_nonneg _)
  have settled := fenced.1.settle (fun row => settles_later passed row) fenced.1.proper
  rwa [List.map_id'] at settled

theorem Fenced.deliver (fenced : state.Fenced origin) (requestId : String)
    (event : StoredRequest.Event) :
    Fenced origin { state with store := state.store.deliver requestId event } := by
  refine ⟨fenced.1.settle ?_ ?_, fenced.2⟩
  · intro row
    split
    · exact settles_receive ..
    · exact settles_later (Int.le_refl _) row
  · intro row member
    split
    · exact proper_receive (fenced.1.proper row member) ..
    · exact fenced.1.proper row member

theorem Fenced.submit (fenced : state.Fenced origin) (ours : origin ≠ .elsewhere)
    (request : LiveRunRequest) :
    Fenced origin { state with
      store := state.store.insert { request := request, origin := .elsewhere } } := by
  refine ⟨fenced.1.insert ?_ ?_ ?_, fenced.2⟩
  · intro same
    exact absurd same.symm ours
  · rintro other member (⟨-, same⟩ | ⟨-, same⟩)
    · exact absurd same.symm ours
    · cases same
  · exact { dated := fun elsewhere => absurd rfl elsewhere, ownRun := fun _ none => nomatch none }

/-- The request route writes its request. -/
theorem Fenced.send (fenced : state.Fenced origin) {send : SendCall}
    (apart : origin = .requestCreate → send.campaignId ∉ state.inFlight ∧
      Clear .fireWiring state.store.clock state.store.requests send.campaignId)
    (requestedAt : Time) (requestId : String) (wallets : List String) :
    Fenced origin { state with
      store := state.store.insert (sendRow send requestedAt requestId wallets) } := by
  refine ⟨fenced.1.insert ?_ ?_ ?_, fenced.2⟩
  · intro same number held
    exact (apart same.symm).1 ((fenced.1.guarded.taken_iff _).mpr ⟨number, held⟩)
  · rintro other member (⟨otherWired, same⟩ | ⟨-, wired⟩) sameCampaign
    · exact (apart same.symm).2 other member otherWired sameCampaign
    · cases wired
  · exact { dated := fun _ => rfl, ownRun := fun _ none => nomatch none }

theorem proper_wiredRow (input : FireInput) (requestedAt : Time) (requestId : String)
    (wallets : List String) : (wiredRow input requestedAt requestId wallets).Proper where
  dated _ := rfl
  ownRun _ none := by cases none

theorem Fenced.resume {call : FireCall} {command : FireCommand} {next : FireService}
    (fenced : state.Fenced origin) (ours : origin ≠ .elsewhere)
    (found : state.calls number = some call)
    (seen : ∀ other outcome, command = .ready other (.ok outcome) →
      state.store.PendingSeen origin call.input.campaignId)
    (resumed : state.resume number call command = .ok next) : next.Fenced origin := by
  have known := fenced.known found
  cases command with
  | ready other outcome =>
      simp only [FireService.resume, bind_eq_ok, refuse_eq_ok] at resumed
      obtain ⟨_, readying, resumed⟩ := resumed
      have idle : holder state.calls number = none := by
        simp [holder, found, FireCall.holds, not_not.mp readying]
      cases outcome with
      | ok =>
          obtain rfl := pure_eq_ok.mp resumed
          exact fenced.enter idle known (seen other _ rfl) ours
      | error error =>
          obtain rfl := pure_eq_ok.mp resumed
          exact fenced.idle idle known rfl
  | simulated other outcome =>
      simp only [FireService.resume, bind_eq_ok, refuse_eq_ok] at resumed
      obtain ⟨_, simulating, resumed⟩ := resumed
      have holds : holder state.calls number = some call.input.campaignId := by
        simp [holder, found, FireCall.holds, not_not.mp simulating]
      split at resumed
      · obtain rfl := pure_eq_ok.mp resumed
        exact fenced.leave holds known _
      · obtain rfl := pure_eq_ok.mp resumed
        exact fenced.advance holds known rfl
      · obtain rfl := pure_eq_ok.mp resumed
        exact fenced.leave holds known _
  | approved other outcome =>
      simp only [FireService.resume] at resumed
      split at resumed
      · rename_i requestedAt requestId wallets approving
        have holds : holder state.calls number = some call.input.campaignId := by
          simp [holder, found, FireCall.holds, approving]
        simp only [bind_eq_ok, refuse_eq_ok, pure_eq_ok] at resumed
        obtain ⟨_, _, rfl⟩ := resumed
        exact fenced.insert (wiredRow call.input requestedAt requestId wallets) holds known rfl
          (proper_wiredRow ..) _
      · rename_i requestedAt error approving
        have holds : holder state.calls number = some call.input.campaignId := by
          simp [holder, found, FireCall.holds, approving]
        cases resumed
        exact fenced.leave holds known _
      · cases resumed
  | _ => cases resumed

theorem Fenced.create (fenced : state.Fenced origin) (campaignId : CampaignId)
    (maxFeeGwei : Option Rat) : (state.create number campaignId maxFeeGwei).Fenced origin := by
  unfold FireService.create
  split
  · exact fenced
  · exact fenced

theorem Fenced.resumeSend {send : SendCall} {command : FireCommand} {next : FireService}
    (fenced : state.Fenced origin)
    (apart : ∀ other outcome, command = .sendApproved other (.ok outcome) →
      origin = .requestCreate → send.campaignId ∉ state.inFlight ∧
        Clear .fireWiring state.store.clock state.store.requests send.campaignId)
    (resumed : state.resumeSend number send command = .ok next) : next.Fenced origin := by
  cases command with
  | previewed other outcome =>
      simp only [FireService.resumeSend] at resumed
      split at resumed
      · split at resumed
        · cases resumed
          exact fenced
        · cases resumed
          exact fenced.create ..
      · cases resumed
        exact fenced
      · cases resumed
  | chosen other outcome =>
      simp only [FireService.resumeSend] at resumed
      split at resumed
      · cases resumed
        exact fenced
      · cases resumed
        exact fenced
      · cases resumed
  | sendApproved other outcome =>
      simp only [FireService.resumeSend] at resumed
      split at resumed
      · simp only [bind_eq_ok, refuse_eq_ok, pure_eq_ok] at resumed
        obtain ⟨_, _, rfl⟩ := resumed
        exact fenced.send (apart other _ rfl) ..
      · cases resumed
        exact fenced
      · cases resumed
  | _ => cases resumed

variable {deps : FireServiceDeps} {scheduler : Nat} {pass : SchedulerPass}
  {schedule : FireSchedule}

theorem Fenced.expire (fenced : state.Fenced origin) :
    (state.expire scheduler pass schedule).Fenced origin :=
  Fenced.store fenced (FireStore.claim_same ..)

theorem Fenced.consider (fenced : state.Fenced origin) :
    (state.consider deps scheduler pass schedule).Fenced origin := by
  unfold FireService.consider
  split
  · exact fenced
  split
  · exact fenced.expire
  split
  · exact fenced.expire
  dsimp only
  split
  · exact fenced.expire
  split
  · exact fenced
  · exact fenced

theorem Fenced.fire (fenced : state.Fenced origin) {readings : ScheduleReadings} :
    (state.fire deps scheduler pass schedule readings).Fenced origin := by
  unfold FireService.fire
  dsimp only
  split
  · have claimed := fenced.store (FireStore.claim_same schedule.id .started)
    split
    · exact claimed
    · exact Fenced.await claimed _
  · exact fenced

theorem Fenced.proceed {command : FireCommand} {next : FireService}
    (fenced : state.Fenced origin)
    (proceeded : state.proceed deps scheduler pass command = .ok next) : next.Fenced origin := by
  cases command with
  | next other =>
      simp only [FireService.proceed] at proceeded
      split at proceeded
      · cases proceeded
        exact fenced
      · cases proceeded
        exact fenced.consider
      · cases proceeded
  | mintState other mint =>
      simp only [FireService.proceed] at proceeded
      split at proceeded
      · cases proceeded
        exact fenced.expire
      · cases proceeded
        exact fenced.fire
      · cases proceeded
        exact fenced
      · cases proceeded
  | returned other =>
      simp only [FireService.proceed] at proceeded
      split at proceeded
      · simp only [bind_eq_ok, refuse_eq_ok, pure_eq_ok] at proceeded
        obtain ⟨_, _, rfl⟩ := proceeded
        exact fenced
      · cases proceeded
  | recorded other throws =>
      simp only [FireService.proceed] at proceeded
      split at proceeded
      · split at proceeded
        · cases proceeded
          exact fenced
        · cases proceeded
          exact fenced
      · cases proceeded
  | _ => cases proceeded

theorem Fenced.step {command : FireCommand} {next : FireService} (fenced : state.Fenced origin)
    (ours : origin ≠ .elsewhere) (see : state.ChecksSee origin command)
    (apart : origin = .requestCreate → state.SendsApart command)
    (stepped : FireService.step deps command state = .ok next) : next.Fenced origin := by
  cases command with
  | wait milliseconds =>
      cases stepped
      exact fenced.wait milliseconds
  | setKillSwitch | setCampaign | removeCampaign | openRun | moveOtherRun =>
      cases stepped
      exact fenced
  | requestSend campaignId maxFeeGwei expectedPhrase =>
      cases stepped
      exact fenced
  | requestCreate campaignId maxFeeGwei =>
      cases stepped
      have reserved : Fenced origin { state with nextSend := state.nextSend + 1 } := fenced
      exact reserved.create ..
  | previewed other outcome =>
      simp only [FireService.step, bind_eq_ok, require_eq_ok] at stepped
      obtain ⟨send, found, resumed⟩ := stepped
      exact fenced.resumeSend (by rintro _ _ ⟨⟩) resumed
  | chosen other outcome =>
      simp only [FireService.step, bind_eq_ok, require_eq_ok] at stepped
      obtain ⟨send, found, resumed⟩ := stepped
      exact fenced.resumeSend (by rintro _ _ ⟨⟩) resumed
  | sendApproved other outcome =>
      simp only [FireService.step, bind_eq_ok, require_eq_ok] at stepped
      obtain ⟨send, found, resumed⟩ := stepped
      refine fenced.resumeSend ?_ resumed
      rintro _ _ ⟨⟩ ours
      exact apart ours send found
  | submit request =>
      simp only [FireService.step, bind_eq_ok, refuse_eq_ok, pure_eq_ok] at stepped
      obtain ⟨_, _, rfl⟩ := stepped
      exact fenced.submit ours request
  | request requestId event =>
      cases stepped
      exact fenced.deliver requestId event
  | schedule schedule =>
      simp only [FireService.step, bind_eq_ok, refuse_eq_ok, pure_eq_ok] at stepped
      obtain ⟨_, _, rfl⟩ := stepped
      exact fenced
  | cancel idOrShort =>
      cases stepped
      exact fenced.store (FireStore.cancel_same idOrShort)
  | cancelAllOpen =>
      cases stepped
      exact fenced.store FireStore.cancelAllOpen_same
  | fireNow campaignId wallets maxFeeGwei =>
      cases stepped
      exact Fenced.enter fenced.reserve.1 fenced.reserve.2 (Nat.lt_succ_self _) see ours
  | fireAutonomous campaignId wallets maxFeeGwei eventId =>
      simp only [FireService.step, bind_eq_ok, refuse_eq_ok, pure_eq_ok] at stepped
      obtain ⟨_, _, rfl⟩ := stepped
      exact fenced.await _
  | ready other outcome =>
      simp only [FireService.step, bind_eq_ok, require_eq_ok] at stepped
      obtain ⟨call, found, resumed⟩ := stepped
      refine fenced.resume ours found ?_ resumed
      rintro _ _ ⟨⟩
      exact see call found
  | simulated other outcome =>
      simp only [FireService.step, bind_eq_ok, require_eq_ok] at stepped
      obtain ⟨call, found, resumed⟩ := stepped
      exact fenced.resume ours found (by rintro _ _ ⟨⟩) resumed
  | approved other outcome =>
      simp only [FireService.step, bind_eq_ok, require_eq_ok] at stepped
      obtain ⟨call, found, resumed⟩ := stepped
      exact fenced.resume ours found (by rintro _ _ ⟨⟩) resumed
  | restart =>
      cases stepped
      refine ⟨fenced.1.handOver KeyedGuard.Guarded.empty ?_, fun _ _ => rfl⟩
      intro _ _ none
      cases none
  | tick other =>
      simp only [FireService.step, bind_eq_ok, refuse_eq_ok, pure_eq_ok] at stepped
      obtain ⟨_, _, rfl⟩ := stepped
      exact fenced
  | next other | mintState other mint | returned other | recorded other throws =>
      simp only [FireService.step, bind_eq_ok, require_eq_ok] at stepped
      obtain ⟨pass, found, proceeded⟩ := stepped
      exact fenced.proceed proceeded

end FireService
end MintBot
