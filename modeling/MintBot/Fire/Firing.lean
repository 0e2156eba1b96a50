import Mathlib.Data.List.Pairwise
import MintBot.Fire.Schedules

/-!
# Firing once

What holds in every state of a service whose conflict checks see the requests that are being
started, and what goes wrong when they do not.
-/

namespace MintBot

open Fallible Machine

namespace FireService

variable {deps : FireServiceDeps} {state next : FireService}

/-- The live request processor arms every request that it claimed, or records a result for it,
before ten minutes have passed. -/
def ArmsPromptly (state : FireService) : FireCommand → Prop
  | .wait milliseconds =>
      ∀ row ∈ state.store.requests, row.Prompt (state.store.clock + milliseconds)
  | _ => True

/-- One firing at a time, and once per schedule. -/
structure FiresOnce (state : FireService) : Prop where
  single : state.store.requests.Pairwise fun row other =>
    row.origin = .fireWiring → other.origin = .fireWiring →
      row.request.campaignId = other.request.campaignId →
        ¬ (row.Unresolved state.store.clock ∧ other.Unresolved state.store.clock)
  scheduled : state.ScheduledOnce
  /-- The guard holds campaigns of calls that have not ended, and no others. -/
  released : ∀ campaignId ∈ state.inFlight, ∃ number call,
    state.calls number = some call ∧ call.Entered ∧ call.input.campaignId = campaignId

theorem fenced_of_reaches {origin : RequestOrigin} {guard : FireService → FireCommand → Prop}
    (ours : origin ≠ .elsewhere)
    (sees : ∀ state command, guard state command → state.ChecksSee origin command)
    (apart : ∀ state command, guard state command → origin = .requestCreate →
      state.SendsApart command)
    (run : Reaches (step deps) guard {} state) : state.Fenced origin := by
  refine run.invariant fenced_start ?_
  intro before command next fenced allowed stepped
  exact fenced.step ours (sees before command allowed) (apart before command allowed) stepped

theorem released_of_fenced {origin : RequestOrigin} (fenced : state.Fenced origin)
    {campaignId : CampaignId} (taken : campaignId ∈ state.inFlight) :
    ∃ number call, state.calls number = some call ∧ call.Entered ∧
      call.input.campaignId = campaignId := by
  obtain ⟨number, holds⟩ := (fenced.1.guarded.taken_iff campaignId).mp taken
  rw [holder, Option.bind_eq_some_iff] at holds
  obtain ⟨call, found, holds⟩ := holds
  refine ⟨number, call, found, ?_⟩
  unfold FireCall.holds at holds
  split at holds
  · cases holds
  · rename_i entered
    exact ⟨entered, Option.some.inj holds⟩

/-- When every conflict check sees the pending requests of the campaign, firing is exclusive;
each schedule fires once whatever the checks see. -/
theorem fires_once (run : Reaches (step deps) (ChecksSee .fireWiring) {} state) :
    FiresOnce state ∧
      ∀ later, Reaches (step deps) (fun _ _ => True) state later →
        ∀ scheduleId row, state.store.outcomes.get scheduleId = some row →
          later.store.outcomes.get scheduleId = some row := by
  have fenced : state.Fenced .fireWiring :=
    fenced_of_reaches (by decide) (fun _ _ => id) (fun _ _ _ impossible => nomatch impossible) run
  refine ⟨?_, fun later after => (outcomes_extended after).kept⟩
  exact
    { single := fenced.1.single.imp fun apart wired wiredOther =>
        apart (.inl ⟨wired, wiredOther⟩)
      scheduled := scheduledOnce_of_reaches run
      released := fun _ taken => released_of_fenced fenced taken }

/-- A host whose campaigns are told apart by their price. -/
def sampleDeps : FireServiceDeps where
  campaignDigest campaign := if campaign.campaign.mintPriceWei = 0 then "free" else "paid"
  assertUnattendedReady := true

/-- The owner taps, the test mint passes, and the request is written under an id. -/
def tap (number : Nat) (requestId : String) : List FireCommand :=
  [.fireNow LiveRequestState.sampleCampaign.id ["0xa"] (some 5), .simulated number (.ok ["0xa"]),
    .approved number (.ok (requestId, ["0xa"]))]

/-- A request that the owner types on the host. -/
def typed (number : Nat) : FireCommand :=
  .submit
    { id := toString number
      campaignId := "other"
      wallets := ["0xb"]
      maxFeeGwei := some 5
      requestedAt := some 0
      expiresAt := some 60000
      provenance := some .attended }

/-- The row of a tapped request. -/
def tappedRow (requestId : String) : StoredRequest :=
  wiredRow
    { campaignId := LiveRequestState.sampleCampaign.id
      wallets := ["0xa"]
      maxFeeGwei := some 5 } 0 requestId ["0xa"]

/-- The first request of the campaign is picked up; twenty others are written before the
second tap. -/
def outnumbered : List FireCommand :=
  [.setCampaign { campaign := LiveRequestState.sampleCampaign }] ++ tap 0 "first" ++
    [.request "first" .claim] ++ (List.range 20).map typed ++ tap 1 "second"

def noWait : FireCommand → Bool
  | .wait _ => false
  | _ => true

/-- While no time passes every claimed request is in time. -/
theorem allowed_noWait {commands : List FireCommand} (still : commands.all noWait = true) :
    Allowed (step deps) ArmsPromptly state commands := by
  induction commands generalizing state with
  | nil => trivial
  | cons command rest inductionHypothesis =>
      rw [List.all_cons, Bool.and_eq_true] at still
      refine ⟨?_, inductionHypothesis still.2⟩
      cases command with
      | wait milliseconds => cases still.1
      | _ => trivial

theorem fires_once_tapped : ∃ state : FireService, state.store.requests.length = 1 ∧
    FiresOnce state ∧
      ∀ later, Reaches (step sampleDeps) (fun _ _ => True) state later →
        ∀ scheduleId row, state.store.outcomes.get scheduleId = some row →
          later.store.outcomes.get scheduleId = some row := by
  have configured : Reaches (step sampleDeps) (ChecksSee .fireWiring) {} _ :=
    (Reaches.refl ({} : FireService)).tail (FireCommand.setCampaign { campaign := LiveRequestState.sampleCampaign }) trivial
  have entered := configured.tail (.fireNow LiveRequestState.sampleCampaign.id ["0xa"] (some 5))
    (fun _ none => nomatch none)
  have simulated := entered.tail (.simulated 0 (.ok ["0xa"])) trivial
  have approved := simulated.tail (.approved 0 (.ok ("first", ["0xa"]))) trivial
  exact ⟨_, by decide +kernel, fires_once approved⟩

/-- When twenty newer requests hide the one that is being started, the campaign is fired
again. -/
theorem second_fire_passes : ¬ ∀ (deps : FireServiceDeps) (state : FireService),
    Reaches (step deps) ArmsPromptly {} state → FiresOnce state := by
  intro claim
  have allowed : Allowed (step sampleDeps) ArmsPromptly {} outnumbered :=
    allowed_noWait (by decide)
  have once := claim sampleDeps _ ((Reaches.refl ({} : FireService)).applyAll allowed)
  have rows : [{ tappedRow "first" with claim := some (.started, 0) }, tappedRow "second"].Sublist
      (applyAll (step sampleDeps) {} outnumbered).store.requests := by
    decide +kernel
  have now : (applyAll (step sampleDeps) {} outnumbered).store.clock = 0 := by
    decide +kernel
  have apart := once.single.sublist rows
  rw [now, List.pairwise_pair] at apart
  exact apart rfl rfl rfl ⟨.inr (.inl ⟨⟨0, rfl⟩, rfl, rfl⟩), .inl ⟨rfl, rfl⟩⟩

/-- The owner sends a request while one of a fire is waiting. -/
def sentBeside : List FireCommand :=
  [.setCampaign { campaign := LiveRequestState.sampleCampaign }] ++ tap 0 "first" ++
    [.requestCreate LiveRequestState.sampleCampaign.id (some 5), .chosen 0 (.ok ()),
      .sendApproved 0 (.ok ("second", ["0xa"]))]

end FireService
end MintBot
