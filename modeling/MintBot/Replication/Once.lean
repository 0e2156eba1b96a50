import MintBot.Library.History
import MintBot.Library.Tokens
import MintBot.Replication.Automation

/-!
# Acting once and on live authority

A contract is claimed once, and only the process that stored the claim prepares it.  The ids of
prepared campaigns are tokens that ticks hold and that a fire spends.  A tick that may fire has
the authority it stored and the readings it made behind it in the log.
-/

namespace MintBot.Replication

open Fallible Machine

/-! ## What is counted -/

def Act.prepared? : Act → Option ContractOnChain
  | .prepare contract => some contract
  | _ => none

def Act.fired? : Act → Option CampaignId
  | .fire campaign _ _ _ => some campaign.id
  | _ => none

/-- The contracts that `prepare` was called for. -/
def preparedContracts (log : List Entry) : List ContractOnChain :=
  log.filterMap fun entry => entry.act.prepared?

/-- The campaigns that `fireAutonomous` was called for. -/
def firedCampaigns (log : List Entry) : List CampaignId :=
  log.filterMap fun entry => entry.act.fired?

/-- The campaigns that a tick may still fire. -/
def Stage.campaigns : Stage → List CampaignId
  | .simulating work | .storing work _ =>
      work.prepared.campaign.id :: work.rest.map fun one => one.campaign.id
  | .asserting authority | .requalifying authority =>
      authority.campaign.id :: authority.work.rest.map fun one => one.campaign.id
  | .announcing work _ => work.rest.map fun one => one.campaign.id
  | .firing authority | .requesting authority _ =>
      authority.work.rest.map fun one => one.campaign.id
  | _ => []

def Automations.held (state : Automations) (process : Nat) : List CampaignId :=
  match state.ticks process with
  | some tick => tick.stage.campaigns
  | none => []

/-- A stage outside `assertReady`. -/
def Stage.Idle : Stage → Prop
  | .asserting _ | .requalifying _ => False
  | _ => True

/-! ## What one answer does -/

/-- Events stay, and one may be added; a claim is added only under a new id. -/
def Grows (before after : List EventRecord) : Prop :=
  after = before ∨ ∃ event, after.Perm (event :: before) ∧
    (event.type = "replication_claim" → event.id ∉ before.map EventRecord.id)

/-- A tick goes on outside `assertReady` with no campaign that it did not have. -/
structure Follows (tick after : Tick) : Prop where
  number : after.number = tick.number
  less : after.stage.campaigns.Sublist tick.stage.campaigns
  idle : after.stage.Idle

variable {campaignInputDigest : CampaignInputDigest}

variable (campaignInputDigest) in
/-- What an answer can do to a tick and the store. -/
inductive Effect (store : AutomationStore) (tick : Tick) : Turn → Prop
  | quiet {after : AutomationStore} {next : Option Tick} {acts : List Act}
      (grows : Grows store.events after.events) (ids : after.campaignIds = store.campaignIds)
      (follows : ∀ going, next = some going → Follows tick going)
      (unmarked : ∀ act ∈ acts, act.prepared? = none ∧ act.fired? = none) :
      Effect store tick { store := after, tick := next, acts := acts }
  | prepares {after : AutomationStore} {going : Tick} (job : Job)
      (grows : Grows store.events after.events) (ids : after.campaignIds = store.campaignIds)
      (follows : Follows tick going)
      (fresh : job.key ∉ store.events.map EventRecord.id)
      (claimed : job.key ∈ after.events.map EventRecord.id) :
      Effect store tick
        { store := after, tick := some going, acts := [.prepare job.contract] }
  | draws {going : Tick} (ids : List CampaignId) (distinct : ids.Nodup)
      (fresh : ∀ campaignId ∈ ids, campaignId ∉ store.campaignIds)
      (number : going.number = tick.number) (drawn : going.stage.campaigns = ids)
      (idle : going.stage.Idle) :
      Effect store tick
        { store := { store with campaignIds := store.campaignIds ++ ids }, tick := some going }
  | stores {after : AutomationStore} (authority : Authority) (event : EventRecord)
      (grows : Grows store.events after.events) (ids : after.campaignIds = store.campaignIds)
      (same : authority.campaign.id :: (authority.work.rest.map fun one => one.campaign.id) =
        tick.stage.campaigns)
      (eventId : event.id = authority.eventId) (isAuthority : event.type = "replication_prepared")
      (named : event.data.campaignId = some authority.campaign.id) :
      Effect store tick
        { store := after, tick := some (tick.move (.asserting authority)), acts := [.stored event] }
  | checks (authority : Authority) (asserting : tick.stage = .asserting authority)
      (live : Live campaignInputDigest store authority.eventId authority.campaign)
      (free : authority.campaign.mintPriceWei = 0) :
      Effect store tick
        { store := store
          tick := some (tick.move (.requalifying authority))
          acts := [.unattendedReady, .authorityChecked authority.eventId authority.campaign store] }
  | fires (authority : Authority) (requalifying : tick.stage = .requalifying authority) :
      Effect store tick
        { store := store
          tick := some (tick.move (.firing authority))
          acts := [.fire authority.campaign authority.recorded
            authority.work.prepared.maxFeeGwei authority.eventId] }

variable {store : AutomationStore} {tick : Tick}

theorem grows_refl (events : List EventRecord) : Grows events events := .inl rfl

theorem perm_push (place : Nat) (event : EventRecord) :
    (store.push place event).events.Perm (event :: store.events) := by
  refine List.perm_middle.trans (List.Perm.cons event ?_)
  rw [List.take_append_drop]

theorem grows_push {event : EventRecord} (place : Nat)
    (claims : event.type = "replication_claim" → event.id ∉ store.events.map EventRecord.id) :
    Grows store.events (store.push place event).events :=
  .inr ⟨event, perm_push place event, claims⟩

theorem not_knows {eventId : String} (unknown : store.knows eventId = false) :
    eventId ∉ store.events.map EventRecord.id := by
  intro member
  obtain ⟨event, inside, rfl⟩ := List.mem_map.mp member
  have known : store.knows event.id = true := List.any_eq_true.mpr ⟨event, inside, by simp⟩
  rw [known] at unknown
  cases unknown

namespace Tick

variable {job : Job} {qualified : QualifiedSource} {error : Thrown}

@[simp]
theorem move_number (stage : Stage) : (tick.move stage).number = tick.number := rfl

@[simp]
theorem move_stage (stage : Stage) : (tick.move stage).stage = stage := rfl

theorem follows_empty {stage : Stage} (none : stage.campaigns = []) (idle : stage.Idle) :
    Follows tick (tick.move stage) where
  number := rfl
  less := by
    rw [move_stage, none]
    exact List.nil_sublist _
  idle := idle

theorem follows_stop (claimed : Bool) : Follows tick (tick.stop job claimed error) := by
  unfold stop
  split
  · exact follows_empty rfl trivial
  · exact follows_empty rfl trivial

theorem nextPrepared_stage (tick : Tick) (job : Job) (qualified : QualifiedSource)
    (rest : List Prepared) :
    (tick.nextPrepared job qualified rest).number = tick.number ∧
      (tick.nextPrepared job qualified rest).stage.campaigns =
        (rest.map fun one => one.campaign.id) ∧
      (tick.nextPrepared job qualified rest).stage.Idle := by
  cases rest with
  | nil => exact ⟨rfl, rfl, trivial⟩
  | cons prepared rest => exact ⟨rfl, rfl, trivial⟩

theorem follows_nextPrepared {rest : List Prepared}
    (less : (rest.map fun one => one.campaign.id).Sublist tick.stage.campaigns) :
    Follows tick (tick.nextPrepared job qualified rest) := by
  obtain ⟨number, campaigns, idle⟩ := nextPrepared_stage tick job qualified rest
  exact ⟨number, campaigns ▸ less, idle⟩

theorem follows_takeScore {now : Time} {watched : Except Thrown (List String)} {going : Tick}
    (looping : tick.stage = .looping) (taken : tick.takeScore now watched = some going) :
    Follows tick going := by
  have same : ∀ rest, Follows tick { tick with queue := rest } := by
    intro rest
    exact ⟨rfl, List.Sublist.refl _, by rw [looping]; trivial⟩
  unfold takeScore at taken
  split at taken
  · cases taken
  · split at taken
    · obtain rfl := Option.some.inj taken
      exact same _
    · dsimp only at taken
      split at taken
      · cases taken
      · obtain rfl := Option.some.inj taken
        exact same _
      · split at taken
        · obtain rfl := Option.some.inj taken
          exact same _
        · obtain rfl := Option.some.inj taken
          exact ⟨rfl, List.nil_sublist _, trivial⟩

end Tick

namespace Effect

variable {turn : Turn}

/-- A tick goes on, and nothing else happens. -/
theorem goesOn {going : Tick} (follows : Follows tick going) :
    Effect campaignInputDigest store tick { store := store, tick := some going } :=
  .quiet (grows_refl _) rfl (fun _ same => Option.some.inj same ▸ follows)
    (fun _ member => nomatch member)

/-- A tick goes on after an event was added that is no claim under a known id. -/
theorem writes {event : EventRecord} {place : Nat} {going : Tick} {acts : List Act}
    (claims : event.type = "replication_claim" → event.id ∉ store.events.map EventRecord.id)
    (follows : Follows tick going)
    (unmarked : ∀ act ∈ acts, act.prepared? = none ∧ act.fired? = none) :
    Effect campaignInputDigest store tick
      { store := store.push place event, tick := some going, acts := acts } :=
  .quiet (grows_push place claims) rfl (fun _ same => Option.some.inj same ▸ follows) unmarked

theorem of_claim (job : Job) (qualified : QualifiedSource) (ending : TransactionEnd)
    (place : Nat) :
    Effect campaignInputDigest store tick (claim store tick job qualified ending place) := by
  cases known : store.knows job.key with
  | true =>
      cases ending with
      | refused | rolledBack | lost =>
          simp only [claim, known, Bool.not_true, Bool.and_false, Bool.false_and,
            Bool.false_eq_true, if_false]
          exact goesOn (Tick.follows_stop _)
      | committed =>
          simp only [claim, known, Bool.not_true, Bool.and_false, Bool.false_and,
            Bool.false_eq_true, if_false]
          exact goesOn (Tick.follows_empty rfl trivial)
  | false =>
      have fresh := not_knows known
      cases ending with
      | refused | rolledBack =>
          simp only [claim, TransactionEnd.writes, Bool.and_false, Bool.false_eq_true, if_false]
          exact goesOn (Tick.follows_stop _)
      | lost error =>
          simp only [claim, known, TransactionEnd.ran, TransactionEnd.writes, Bool.not_false,
            Bool.and_self, if_true]
          exact writes (fun _ => fresh) (Tick.follows_stop _) (fun _ member => nomatch member)
      | committed =>
          simp only [claim, known, TransactionEnd.ran, TransactionEnd.writes, Bool.not_false,
            Bool.and_self, if_true]
          refine .prepares job (grows_push place fun _ => fresh) rfl
            ⟨rfl, List.nil_sublist _, trivial⟩ fresh ?_
          exact List.mem_map.mpr
            ⟨claimEvent store job, (perm_push place _).mem_iff.mpr List.mem_cons_self, rfl⟩

theorem of_store {work : Work} {recorded : List String}
    (storing : tick.stage = .storing work recorded) (ending : TransactionEnd) (eventId : String)
    (place : Nat) :
    Effect campaignInputDigest store tick
      (Replication.store campaignInputDigest store tick work recorded ending eventId place) := by
  have noClaim : (authorityEvent campaignInputDigest store work recorded eventId).type =
      "replication_claim" →
        (authorityEvent campaignInputDigest store work recorded eventId).id ∉
          store.events.map EventRecord.id := by
    intro claims
    exact absurd claims (show "replication_prepared" ≠ "replication_claim" by decide)
  have unmarked : ∀ act ∈ [Act.stored (authorityEvent campaignInputDigest store work recorded
      eventId)], act.prepared? = none ∧ act.fired? = none := by
    intro act member
    rw [List.mem_singleton.mp member]
    exact ⟨rfl, rfl⟩
  cases ending with
  | refused | rolledBack => exact goesOn (Tick.follows_stop _)
  | lost error => exact writes noClaim (Tick.follows_stop _) unmarked
  | committed =>
      simp only [Replication.store, TransactionEnd.writes, if_true]
      by_cases paid : 0 < work.prepared.campaign.mintPriceWei
      · rw [if_pos paid]
        refine writes noClaim ⟨rfl, ?_, trivial⟩ unmarked
        rw [storing]
        exact List.sublist_cons_self _ _
      · rw [if_neg paid]
        refine .stores _ _ (grows_push place noClaim) rfl ?_ rfl rfl rfl
        rw [storing]
        rfl

theorem of_assertAuthority {authority : Authority}
    (asserting : tick.stage = .asserting authority) :
    Effect campaignInputDigest store tick
      (assertAuthority campaignInputDigest store tick authority) := by
  unfold assertAuthority
  split
  · refine .quiet (grows_refl _) rfl
      (fun _ same => Option.some.inj same ▸ Tick.follows_stop _) ?_
    intro act member
    rw [List.mem_singleton.mp member]
    exact ⟨rfl, rfl⟩
  · rename_i passed
    obtain ⟨live, free⟩ := checkAuthority_live passed
    exact .checks authority asserting live free

/-- What an answer does is one of the effects. -/
theorem of_advance {stage : Stage} (current : tick.stage = stage) {answer : Answer}
    (success : advance campaignInputDigest store tick stage answer = .ok turn) :
    Effect campaignInputDigest store tick turn := by
  unfold advance at success
  split at success
  case h_1 watched =>
    cases success
    exact .quiet (grows_refl _) rfl (fun _ => Tick.follows_takeScore current)
      (fun _ member => nomatch member)
  case h_2 job outcome =>
    cases outcome with
    | error error => cases success; exact goesOn (Tick.follows_stop _)
    | ok wallets => cases success; exact goesOn (Tick.follows_empty rfl trivial)
  case h_3 job wallets outcome =>
    cases outcome with
    | error error => cases success; exact goesOn (Tick.follows_stop _)
    | ok qualified =>
        dsimp only at success
        split at success
        · cases success; exact goesOn (Tick.follows_empty rfl trivial)
        · cases success; exact goesOn (Tick.follows_empty rfl trivial)
  case h_4 job wallets qualified ending place =>
    cases success
    exact of_claim job qualified ending place
  case h_5 job qualified outcome =>
    cases outcome with
    | error error => cases success; exact goesOn (Tick.follows_stop _)
    | ok prepared =>
        simp only [bind_eq_ok, refuse_eq_ok, pure_eq_ok, not_or, not_not] at success
        obtain ⟨-, ⟨distinct, unknown⟩, rfl⟩ := success
        obtain ⟨number, drawn, idle⟩ := tick.nextPrepared_stage job qualified prepared
        exact .draws _ distinct
          (fun campaignId member already => unknown ⟨campaignId, member, already⟩)
          number drawn idle
  case h_6 work outcome =>
    split at success
    · cases success; exact goesOn (Tick.follows_stop _)
    · cases success; exact goesOn (Tick.follows_stop _)
    · cases success
      exact goesOn ⟨rfl, by rw [current]; exact List.Sublist.refl _, trivial⟩
  case h_7 work recorded ending uuid place =>
    cases success
    exact of_store current ending _ place
  case h_8 work notice outcome =>
    cases outcome with
    | error error => cases success; exact goesOn (Tick.follows_stop _)
    | ok =>
        cases success
        exact goesOn (Tick.follows_nextPrepared (by rw [current]; exact List.Sublist.refl _))
  case h_9 authority outcome =>
    cases outcome with
    | error error => cases success; exact goesOn (Tick.follows_stop _)
    | ok => cases success; exact of_assertAuthority current
  case h_10 authority outcome withinCaps =>
    split at success
    · cases success; exact goesOn (Tick.follows_stop _)
    · cases success; exact .fires authority current
  case h_11 authority outcome =>
    cases outcome with
    | error error => cases success; exact goesOn (Tick.follows_stop _)
    | ok requestId =>
        cases success
        exact goesOn ⟨rfl, by rw [current]; exact List.Sublist.refl _, trivial⟩
  case h_12 authority requestId ending uuid place =>
    have noClaim : ∀ eventId, (requestedEvent store authority requestId eventId).type =
        "replication_claim" → (requestedEvent store authority requestId eventId).id ∉
          store.events.map EventRecord.id := by
      intro eventId claims
      exact absurd claims (show "replication_requested" ≠ "replication_claim" by decide)
    have follows : Follows tick (tick.nextPrepared authority.work.job authority.work.qualified
        authority.work.rest) :=
      Tick.follows_nextPrepared (by rw [current]; exact List.Sublist.refl _)
    cases ending with
    | refused | rolledBack => cases success; exact goesOn (Tick.follows_stop _)
    | lost error =>
        cases success
        exact writes (noClaim _) (Tick.follows_stop _) (fun _ member => nomatch member)
    | committed =>
        cases success
        exact writes (noClaim _) follows (fun _ member => nomatch member)
  case h_13 => cases success; exact goesOn (Tick.follows_empty rfl trivial)
  case h_14 => cases success

end Effect

/-! ## What holds in every state -/

theorem Grows.mem {before after : List EventRecord} (grows : Grows before after) {eventId : String}
    (member : eventId ∈ before.map EventRecord.id) : eventId ∈ after.map EventRecord.id := by
  rcases grows with rfl | ⟨event, same, -⟩
  · exact member
  · rw [(same.map EventRecord.id).mem_iff, List.map_cons]
    exact List.mem_cons_of_mem _ member

/-- No claim is stored a second time. -/
theorem Grows.claims {before after : List EventRecord} (grows : Grows before after)
    (once : (claimIds before).Nodup) : (claimIds after).Nodup := by
  rcases grows with rfl | ⟨event, same, fresh⟩
  · exact once
  · have perm := (same.filter fun event => event.type = "replication_claim").map EventRecord.id
    unfold claimIds
    rw [perm.nodup_iff, List.filter_cons]
    split
    · rename_i isClaim
      rw [List.map_cons, List.nodup_cons]
      refine ⟨fun member => ?_, once⟩
      have stored := List.map_subset EventRecord.id (List.filter_subset_self _) member
      exact fresh (by simpa using isClaim) stored
    · exact once

/-- The authority of a campaign was stored in this tick. -/
def WasStored (log : List Entry) (process tick : Nat) (authority : Authority) : Prop :=
  ∃ event : EventRecord, event.id = authority.eventId ∧ event.type = "replication_prepared" ∧
    event.data.campaignId = some authority.campaign.id ∧
    [⟨process, tick, .stored event⟩].Sublist log

variable (campaignInputDigest) in
/-- A fire of a free campaign is allowed after its authority was stored, the unattended host
was checked and the readings showed the authority live, in this order and in one tick. -/
def Authorised (log : List Entry) (process tick : Nat) (campaign : AutomationCampaign)
    (eventId : String) : Prop :=
  campaign.mintPriceWei = 0 ∧ ∃ (event : EventRecord) (reading : AutomationStore),
    event.id = eventId ∧ event.type = "replication_prepared" ∧
    event.data.campaignId = some campaign.id ∧
    Live campaignInputDigest reading eventId campaign ∧
    [⟨process, tick, .stored event⟩, ⟨process, tick, .unattendedReady⟩,
      ⟨process, tick, .authorityChecked eventId campaign reading⟩].Sublist log

variable (campaignInputDigest) in
/-- What the log holds behind a stage. -/
def Ready (log : List Entry) (process tick : Nat) : Stage → Prop
  | .asserting authority => WasStored log process tick authority
  | .requalifying authority =>
      Authorised campaignInputDigest log process tick authority.campaign authority.eventId
  | _ => True

variable (campaignInputDigest) in
/-- An entry that is a fire was allowed by the entries before it. -/
def FiresAuthorised (before : List Entry) (entry : Entry) : Prop :=
  ∀ campaign wallets maxFeeGwei eventId, entry.act = .fire campaign wallets maxFeeGwei eventId →
    Authorised campaignInputDigest before entry.process entry.tick campaign eventId

namespace Automations

variable {state next : Automations}

variable (campaignInputDigest) in
structure Sound (state : Automations) : Prop where
  claims : (claimIds state.store.events).Nodup
  prepares : (preparedContracts state.log).Nodup
  claimed : ∀ contract ∈ preparedContracts state.log,
    claimKey contract.1 contract.2 ∈ state.store.events.map EventRecord.id
  tokens : Tokens state.held (firedCampaigns state.log) state.store.campaignIds
  ready : ∀ process tick, state.ticks process = some tick →
    Ready campaignInputDigest state.log process tick.number tick.stage
  authorised : History.Each (FiresAuthorised campaignInputDigest) state.log

theorem sound_start : Sound campaignInputDigest {} where
  claims := List.nodup_nil
  prepares := List.nodup_nil
  claimed _ member := nomatch member
  tokens := Tokens.start
  ready _ _ found := nomatch found
  authorised := History.Each.nil

theorem WasStored.later {log : List Entry} {process tick : Nat} {authority : Authority}
    (stored : WasStored log process tick authority) (more : List Entry) :
    WasStored (log ++ more) process tick authority := by
  obtain ⟨event, eventId, isAuthority, named, behind⟩ := stored
  exact ⟨event, eventId, isAuthority, named, behind.trans (List.sublist_append_left _ _)⟩

theorem Authorised.later {log : List Entry} {process tick : Nat}
    {campaign : AutomationCampaign} {eventId : String}
    (authorised : Authorised campaignInputDigest log process tick campaign eventId)
    (more : List Entry) :
    Authorised campaignInputDigest (log ++ more) process tick campaign eventId := by
  obtain ⟨free, event, reading, sameId, isAuthority, named, live, behind⟩ := authorised
  exact ⟨free, event, reading, sameId, isAuthority, named, live,
    behind.trans (List.sublist_append_left _ _)⟩

theorem ready_later {log : List Entry} {process tick : Nat} {stage : Stage}
    (ready : Ready campaignInputDigest log process tick stage) (more : List Entry) :
    Ready campaignInputDigest (log ++ more) process tick stage := by
  unfold Ready at *
  split
  · exact WasStored.later ready more
  · exact Authorised.later ready more
  · trivial

theorem ready_idle {log : List Entry} {process tick : Nat} {stage : Stage} (idle : stage.Idle) :
    Ready campaignInputDigest log process tick stage := by
  cases stage with
  | asserting | requalifying => exact idle.elim
  | _ => trivial

variable {process : Nat} {tick : Tick} {turn : Turn}

theorem held_other {other : Nat} (different : other ≠ process) :
    (state.take process tick turn).held other = state.held other := by
  simp [held, take, setTick, different]

theorem held_same {going : Tick} (goes : turn.tick = some going) :
    (state.take process tick turn).held process = going.stage.campaigns := by
  simp [held, take, setTick, goes]

theorem held_of_found (found : state.ticks process = some tick) :
    state.held process = tick.stage.campaigns := by
  rw [held, found]

/-- What a turn adds to the counts. -/
theorem counts_take :
    preparedContracts (state.take process tick turn).log =
        preparedContracts state.log ++ turn.acts.filterMap Act.prepared? ∧
      firedCampaigns (state.take process tick turn).log =
        firedCampaigns state.log ++ turn.acts.filterMap Act.fired? := by
  constructor
  · rw [preparedContracts, take, List.filterMap_append, List.filterMap_map]
    rfl
  · rw [firedCampaigns, take, List.filterMap_append, List.filterMap_map]
    rfl

/-- A turn keeps what holds when its own part of it does. -/
theorem Sound.take (sound : state.Sound campaignInputDigest)
    (grows : Grows state.store.events turn.store.events)
    (prepares : turn.acts.filterMap Act.prepared? = [] ∨ ∃ contract : ContractOnChain,
      turn.acts.filterMap Act.prepared? = [contract] ∧
        claimKey contract.1 contract.2 ∉ state.store.events.map EventRecord.id ∧
        claimKey contract.1 contract.2 ∈ turn.store.events.map EventRecord.id)
    (tokens : Tokens (state.take process tick turn).held
      (firedCampaigns state.log ++ turn.acts.filterMap Act.fired?) turn.store.campaignIds)
    (ready : ∀ going, turn.tick = some going →
      Ready campaignInputDigest (state.take process tick turn).log process going.number going.stage)
    (allowed : ∀ before act after, turn.acts = before ++ act :: after →
      FiresAuthorised campaignInputDigest
        (state.log ++ before.map fun act => ⟨process, tick.number, act⟩)
        ⟨process, tick.number, act⟩) :
    (state.take process tick turn).Sound campaignInputDigest where
  claims := grows.claims sound.claims
  prepares := by
    rw [counts_take.1]
    rcases prepares with none | ⟨contract, one, fresh, -⟩
    · rw [none, List.append_nil]
      exact sound.prepares
    · rw [one, List.nodup_append_comm, List.singleton_append, List.nodup_cons]
      exact ⟨fun already => fresh (sound.claimed contract already), sound.prepares⟩
  claimed := by
    intro contract member
    rw [counts_take.1, List.mem_append] at member
    rcases member with earlier | now
    · exact grows.mem (sound.claimed contract earlier)
    · rcases prepares with none | ⟨other, one, -, stored⟩
      · rw [none] at now
        cases now
      · rw [one, List.mem_singleton] at now
        rw [now]
        exact stored
  tokens := by
    rw [counts_take.2]
    exact tokens
  ready := by
    intro other going found
    by_cases same : other = process
    · subst same
      exact ready going (by simpa [Automations.take, setTick] using found)
    · have before : state.ticks other = some going := by
        simpa [Automations.take, setTick, same] using found
      exact ready_later (sound.ready other going before) _
  authorised := by
    refine sound.authorised.append ?_
    intro before entry after same
    obtain ⟨beforeActs, rest, split, rfl, others⟩ := List.map_eq_append_iff.mp same
    obtain ⟨act, afterActs, rfl, rfl, -⟩ := List.map_eq_cons_iff.mp others
    exact allowed beforeActs act afterActs split

/-- No fire among the acts of a turn. -/
theorem allowed_of_none (none : turn.acts.filterMap Act.fired? = []) {before after : List Act}
    {act : Act} (split : turn.acts = before ++ act :: after) {log : List Entry} :
    FiresAuthorised campaignInputDigest log ⟨process, tick.number, act⟩ := by
  intro campaign wallets maxFeeGwei eventId isFire
  dsimp only at isFire
  subst isFire
  rw [split, List.filterMap_append, List.filterMap_cons] at none
  simp [Act.fired?] at none

/-- The campaigns of the other ticks stay, those of this one become fewer. -/
theorem tokens_less (sound : state.Sound campaignInputDigest)
    (found : state.ticks process = some tick) (noFire : turn.acts.filterMap Act.fired? = [])
    (ids : turn.store.campaignIds = state.store.campaignIds)
    (less : ∀ going, turn.tick = some going →
      going.stage.campaigns.Sublist tick.stage.campaigns) :
    Tokens (state.take process tick turn).held
      (firedCampaigns state.log ++ turn.acts.filterMap Act.fired?) turn.store.campaignIds := by
  rw [noFire, List.append_nil, ids]
  refine sound.tokens.lose fun holder => ?_
  by_cases same : holder = process
  · subst same
    cases goes : turn.tick with
    | none =>
        simp [held, Automations.take, setTick, goes]
    | some going =>
        rw [held_same goes, held_of_found found]
        exact less going goes
  · rw [held_other same]

theorem Sound.answer (sound : state.Sound campaignInputDigest)
    (found : state.ticks process = some tick)
    (effect : Effect campaignInputDigest state.store tick turn) :
    (state.take process tick turn).Sound campaignInputDigest := by
  have ready := sound.ready process tick found
  cases effect with
  | @quiet after next acts grows ids follows unmarked =>
      have noPrepare : acts.filterMap Act.prepared? = [] :=
        List.filterMap_eq_nil_iff.mpr fun act member => (unmarked act member).1
      have noFire : acts.filterMap Act.fired? = [] :=
        List.filterMap_eq_nil_iff.mpr fun act member => (unmarked act member).2
      refine sound.take grows (.inl noPrepare) ?_ ?_ fun _ _ _ acts => allowed_of_none noFire acts
      · exact tokens_less sound found noFire ids fun going goes => (follows going goes).less
      · exact fun going goes => ready_idle (follows going goes).idle
  | @prepares after going job grows ids follows fresh claimed =>
      refine sound.take grows (.inr ⟨job.contract, rfl, fresh, claimed⟩) ?_ ?_
        fun _ _ _ acts => allowed_of_none rfl acts
      · exact tokens_less sound found rfl ids fun other goes => Option.some.inj goes ▸ follows.less
      · exact fun other goes => ready_idle (Option.some.inj goes ▸ follows.idle)
  | @draws going ids distinct fresh number drawn idle =>
      refine sound.take (grows_refl _) (.inl rfl) ?_ ?_ fun _ _ _ acts => allowed_of_none rfl acts
      · rw [show ([] : List Act).filterMap Act.fired? = [] from rfl, List.append_nil]
        exact sound.tokens.draw (fun other => held_other) ((held_same rfl).trans drawn) distinct
          fresh
      · exact fun other goes => ready_idle (Option.some.inj goes ▸ idle)
  | @stores after authority event grows ids same eventId isAuthority named =>
      refine sound.take grows (.inl rfl) ?_ ?_ fun _ _ _ acts => allowed_of_none rfl acts
      · refine tokens_less sound found rfl ids fun going goes => ?_
        rw [← Option.some.inj goes, ← same]
        exact List.Sublist.refl _
      · intro going goes
        rw [← Option.some.inj goes]
        exact ⟨event, eventId, isAuthority, named, List.sublist_append_right _ _⟩
  | @checks authority asserting live free =>
      refine sound.take (grows_refl _) (.inl rfl) ?_ ?_ fun _ _ _ acts => allowed_of_none rfl acts
      · refine tokens_less sound found rfl rfl fun going goes => ?_
        rw [← Option.some.inj goes, asserting]
        exact List.Sublist.refl _
      · intro going goes
        rw [← Option.some.inj goes]
        rw [asserting] at ready
        obtain ⟨event, eventId, isAuthority, named, behind⟩ := ready
        exact ⟨free, event, state.store, eventId, isAuthority, named, live,
          behind.append (List.Sublist.refl _)⟩
  | @fires authority requalifying =>
      refine sound.take (grows_refl _) (.inl rfl) ?_ ?_ ?_
      · refine sound.tokens.spend (fun other => held_other) ?_ (held_same rfl)
        rw [held_of_found found, requalifying]
        rfl
      · exact fun other goes => ready_idle (Option.some.inj goes ▸ trivial)
      · intro before act rest split
        rcases before with _ | ⟨first, before⟩
        · obtain ⟨rfl, rfl⟩ := List.cons_eq_cons.mp split
          rintro campaign wallets maxFeeGwei eventId ⟨⟩
          rw [requalifying] at ready
          rw [List.map_nil, List.append_nil]
          exact ready
        · simp at split

/-- Every command keeps what holds. -/
theorem Sound.step {command : Command} (sound : state.Sound campaignInputDigest)
    (success : step campaignInputDigest command state = .ok next) :
    next.Sound campaignInputDigest := by
  cases command with
  | append event place =>
      simp only [Automations.step, bind_eq_ok, refuse_eq_ok, pure_eq_ok] at success
      obtain ⟨-, other, rfl⟩ := success
      have grows : Grows state.store.events (state.store.push place event).events := by
        refine grows_push place fun isClaim => ?_
        rw [isClaim] at other
        exact absurd (by decide) other
      exact
        { sound with
          claims := grows.claims sound.claims
          claimed := fun contract member => grows.mem (sound.claimed contract member) }
  | setKillSwitch engaged => cases success; exact { sound with }
  | setClock now => cases success; exact { sound with }
  | createCampaign campaignId =>
      cases success
      exact { sound with tokens := sound.tokens.widen [campaignId] }
  | tick process =>
      simp only [Automations.step, bind_eq_ok, refuse_eq_ok, pure_eq_ok] at success
      obtain ⟨-, idle, rfl⟩ := success
      refine { sound with tokens := sound.tokens.lose fun holder => ?_, ready := ?_ }
      · by_cases same : holder = process
        · subst same
          simp [held, setTick, begin, Stage.campaigns]
        · simp [held, setTick, same]
      · intro other going found
        by_cases same : other = process
        · subst same
          obtain rfl : state.begin = going := by simpa [setTick] using found
          exact trivial
        · exact sound.ready other going (by simpa [setTick, same] using found)
  | answer process answer =>
      simp only [Automations.step, bind_eq_ok, require_eq_ok, pure_eq_ok] at success
      obtain ⟨tick, found, turn, advanced, rfl⟩ := success
      exact sound.answer found (Effect.of_advance rfl advanced)
  | crash process =>
      cases success
      refine { sound with tokens := sound.tokens.lose fun holder => ?_, ready := ?_ }
      · by_cases same : holder = process
        · subst same
          simp [held, setTick]
        · simp [held, setTick, same]
      · intro other going found
        by_cases same : other = process
        · subst same
          simp [setTick] at found
        · exact sound.ready other going (by simpa [setTick, same] using found)

/-- What the automation does at most once, and what a fire has behind it. -/
structure ActsOnce (campaignInputDigest : CampaignInputDigest) (state : Automations) : Prop where
  claims : ∀ chainId contract,
    (claimIds state.store.events).count (claimKey chainId contract) ≤ 1
  prepares : (preparedContracts state.log).Nodup
  fires : (firedCampaigns state.log).Nodup
  authorised : History.Each (FiresAuthorised campaignInputDigest) state.log

/-- In every run each contract is claimed and prepared once, each prepared campaign is fired
once, and only on live authority. -/
theorem replication_once (run : Reaches (step campaignInputDigest) (fun _ _ => True) {} state) :
    ActsOnce campaignInputDigest state := by
  have sound : state.Sound campaignInputDigest :=
    run.invariant sound_start fun before command next sound _ => sound.step
  exact ⟨fun _ _ => List.nodup_iff_count_le_one.mp sound.claims _, sound.prepares,
    sound.tokens.once, sound.authorised⟩

/-! ### A run of two processes -/

def sampleCampaign (id : CampaignId) (mintPriceWei : Wei) : AutomationCampaign where
  id := id
  chainId := .ethereum
  quantity := 1
  mintPriceWei := mintPriceWei
  broadcastMode := none
  spendPolicy := { maxRunWei := 0, dailyCapWei := 0, gasCeilingWei := 0 }
  feePolicy :=
    { kind := if mintPriceWei = 0 then .free else .paid
      configuredPriorityFeeWei := 0
      l2ExecutionGasBudgetWei := none
      l1DataGasBudgetWei := none
      totalFeeBudgetWei := none
      freeTotalSpendCapWei := none }
  contract := "0xNFT"
  strategy := "seadrop-v1-public"
  chainVerified := true

def sampleSource : QualifiedSource where
  hash := "0xhash"
  sender := "0xwhale"
  drop :=
    { chainId := .ethereum
      nftContract := "0xnft"
      mintPrice := 0
      strategyName := "seadrop-v1-public" }
  verdict := .replicable

/-- The events of a watched mint and of its score. -/
def sampleEvents : List EventRecord :=
  [{ id := "source"
     type := "watched_wallet_mint"
     instant := some 0
     data := { chainId := some 1, contract := some "0xnft", wallet := some "0xWhale" } },
    { id := "score"
      type := "opportunity_notified"
      instant := some 0
      data :=
        { chainId := some 1
          contract := some "0xnft"
          score := some (.number 70)
          expiresAt := some 900000 } }]

/-- Up to the transaction that stores the claim. -/
def sampleClaim (process : Nat) : List Command :=
  [.answer process (.watched (.ok ["0xwhale"])), .answer process (.wallets (.ok ["0xa"])),
    .answer process (.qualified (.ok sampleSource)), .answer process (.claimed .committed 2)]

/-- Two processes see the score; one of them prepares a free and a paid campaign, fires the free
one, and crashes over the paid one before it ticks again. -/
def sampleRun : List Command :=
  sampleEvents.map (fun event => .append event 2) ++ [.tick 0, .tick 1] ++
    sampleClaim 0 ++ sampleClaim 1 ++
    [.answer 0 (.prepared (.ok
        [⟨sampleCampaign "free" 0, ["0xa"], 5⟩, ⟨sampleCampaign "paid" 7, ["0xa"], 5⟩])),
      .answer 0 (.simulated (.ok ["0xa"])), .answer 0 (.stored .committed "1" 3),
      .answer 0 (.ready (.ok ())), .answer 0 (.requalified (.ok sampleSource) (.ok true)),
      .answer 0 (.fired (.ok "request")), .answer 0 (.requested .committed "1" 4),
      .answer 0 (.simulated (.ok ["0xa"])), .answer 0 (.stored .committed "2" 5),
      .crash 0, .tick 0, .answer 0 (.watched (.ok ["0xwhale"])),
      .answer 0 (.watched (.ok ["0xwhale"]))]

/-- The state after the run, on a host that tells campaigns apart by their ids. -/
def sampleState : Automations :=
  applyAll (step fun campaign => campaign.id) {} sampleRun

theorem sampleState_reached :
    Reaches (step fun campaign => campaign.id) (fun _ _ => True) {} sampleState :=
  (Reaches.refl _).applyAll (allowed_true _ _ _)

theorem sample_once :
    ActsOnce (fun campaign => campaign.id) sampleState ∧
      preparedContracts sampleState.log = [(some 1, "0xnft")] ∧
      firedCampaigns sampleState.log = ["free"] ∧
      (sampleState.ticks 0 = none ∧ (sampleState.ticks 1).isSome = true) ∧
      sampleState.store.events.map EventRecord.id =
        ["source", "score", "replication_claim:1:0xnft", "replication_prepared_1",
          "replication_requested_1", "replication_prepared_2"] :=
  ⟨replication_once sampleState_reached, by decide +kernel, by decide +kernel,
    by decide +kernel, by decide +kernel⟩

end Automations

end MintBot.Replication
