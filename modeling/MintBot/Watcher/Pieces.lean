import Mathlib.Data.List.Nodup
import MintBot.Watcher.JudgeAndAct

/-!
# What the pieces of a tick do

Apart from the loader and the accept scan, the watcher changes its state in a few
ways only: it reports, it writes events under unused identifiers, and it takes a
reading that it judged as a baseline.  `Pieces` lists these ways once; what they
leave alone is read off from the list.
-/

namespace MintBot

open Fallible

/-- `next` comes from `state` by reports, new events, and baselines of one wallet
that are readings. -/
inductive Pieces (target : WatchTarget) (state : WatchState) : WatchState → Prop
  | refl : Pieces target state state
  /-- Counters, the result of the tick, the readings of the tick. -/
  | scratch {middle next : WatchState} (before : Pieces target state middle)
      (events : next.events = middle.events) (baselines : next.baselines = middle.baselines)
      (watermark : next.lastAcceptSyncAt = middle.lastAcceptSyncAt)
      (history : next.history = middle.history) (reports : next.reports = middle.reports) :
      Pieces target state next
  | report {middle : WatchState} (before : Pieces target state middle) {sent : FindingReport}
      (other : ∀ eventId, sent.identity ≠ .accept eventId) : Pieces target state (middle.report sent)
  | note {middle : WatchState} (before : Pieces target state middle) {event : WatchEvent}
      (unused : middle.Unused event.id) (type : event.type ≠ .baseline ∧ event.type ≠ .accept) :
      Pieces target state (middle.push event none)
  | record {middle : WatchState} (before : Pieces target state middle)
      {baseline : WalletBaseline} (inUse : middle.baselines (keyOf target) = some baseline)
      {event : WatchEvent} (unused : middle.Unused event.id)
      (recorded : event.data = baseline.data (keyOf target)) :
      Pieces target state (middle.push event (middle.history.adoption (keyOf target)))
  | observe {middle : WatchState} (before : Pieces target state middle) (key : WatchKey)
      (reading : WalletReading) : Pieces target state (middle.observed key reading)
  | adopt {middle : WatchState} (before : Pieces target state middle)
      {baseline : WalletBaseline} {reading : WalletReading}
      (judged : (keyOf target, reading) ∈ middle.history.readings)
      (nonce : baseline.nonce = reading.nonce) :
      Pieces target state (middle.adopt (keyOf target) baseline (.read reading))
  | excess {middle : WatchState} (before : Pieces target state middle)
      {baseline : WalletBaseline} (inUse : middle.baselines (keyOf target) = some baseline)
      (after : Option ExcessState) :
      Pieces target state { middle with
        baselines := Function.update middle.baselines (keyOf target)
          (some { baseline with excess := after }) }

namespace Pieces

variable {target : WatchTarget} {state middle next : WatchState}

theorem trans (first : Pieces target state middle) (second : Pieces target middle next) : Pieces target state next := by
  induction second with
  | refl => exact first
  | scratch _ events baselines watermark history reports inductionHypothesis =>
      exact .scratch inductionHypothesis events baselines watermark history reports
  | report _ other inductionHypothesis => exact .report inductionHypothesis other
  | note _ unused type inductionHypothesis => exact .note inductionHypothesis unused type
  | record _ inUse unused recorded inductionHypothesis =>
      exact .record inductionHypothesis inUse unused recorded
  | observe _ key reading inductionHypothesis => exact .observe inductionHypothesis key reading
  | adopt _ judged nonce inductionHypothesis => exact .adopt inductionHypothesis judged nonce
  | excess _ inUse after inductionHypothesis => exact .excess inductionHypothesis inUse after

theorem keepFinding (pieces : Pieces target state next) (key : WatchKey)
    (findingKey : FleetWatchFinding × Int × Wei) :
    Pieces target state (next.keepFinding key findingKey) :=
  .scratch pieces rfl rfl rfl rfl rfl

theorem forgetFinding (pieces : Pieces target state next) (key : WatchKey) :
    Pieces target state (next.forgetFinding key) :=
  .scratch pieces rfl rfl rfl rfl rfl

/-- A finding event is written, or the store does not take it. -/
theorem persist_note (pieces : Pieces target state next) (write : StoreWrite) {type : WatchEventType}
    (data : FleetWatchData) (noBaseline : type ≠ .baseline ∧ type ≠ .accept) :
    Pieces target state (next.persist write type data none) := by
  unfold WatchState.persist
  split
  next commits => exact .note pieces commits.2 noBaseline
  next => exact pieces

/-- The baseline in use is written as an event, or the store does not take it. -/
theorem persist_record (pieces : Pieces target state next) (write : StoreWrite)
    {baseline : WalletBaseline} (inUse : next.baselines (keyOf target) = some baseline) :
    Pieces target state (next.persist write .baseline (baseline.data (keyOf target))
      (next.history.adoption (keyOf target))) := by
  unfold WatchState.persist
  split
  next commits => exact .record pieces inUse commits.2 rfl
  next => exact pieces

end Pieces

/-! ## The pieces -/

section Tick

variable (options : FleetWatcherOptions) (state : WatchState)

theorem observeWallet_pieces (target : WatchTarget) (now : Time) (read : WatchTarget)
    (answer : Option WalletReading) : Pieces target state (observeWallet now state read answer) := by
  unfold observeWallet
  split
  · exact .scratch .refl rfl rfl rfl rfl rfl
  · dsimp only
    split
    · refine .report ?_ (by simp)
      exact .scratch .refl rfl rfl rfl rfl rfl
    · exact .scratch .refl rfl rfl rfl rfl rfl

/-- After the loader, the opening of a tick only reads; `target` may be any wallet. -/
theorem openTick_pieces (target : WatchTarget) (now : Time) (answers : List (Option WalletReading)) :
    Pieces target (load options state) (openTick options now answers state) := by
  have observe (observed : List (WatchTarget × Option WalletReading)) (middle : WatchState)
      (pieces : Pieces target (load options state) middle) :
      Pieces target (load options state) (observed.foldl (fun state read =>
        observeWallet now state read.1 read.2) middle) := by
    induction observed generalizing middle with
    | nil => exact pieces
    | cons first rest inductionHypothesis =>
        exact inductionHypothesis _ (pieces.trans (observeWallet_pieces middle target now _ _))
  exact observe _ _ (.scratch .refl rfl rfl rfl rfl rfl)

variable {state}

theorem remember_pieces {target : WatchTarget} {effective : WalletReading} (write : StoreWrite)
    (judged : (keyOf target, effective) ∈ state.history.readings) :
    Pieces target state (remember target effective write state) := by
  have adopted : (state.adopt (keyOf target)
      (baselineOf effective state.now (state.baselines (keyOf target)))
      (.read effective)).history.adoption (keyOf target) = some (.read effective) :=
    Function.update_self _ _ _
  unfold remember
  dsimp only
  rw [← adopted]
  exact (Pieces.adopt .refl judged rfl).persist_record write (Function.update_self _ _ _)

theorem takeReturn_pieces {target : WatchTarget} {baseline : WalletBaseline}
    {reading : WalletReading} {answers : JudgeAnswers} {next : WatchState}
    (judged : (keyOf target, reading) ∈ state.history.readings)
    (taken : takeReturn options target baseline reading answers state = some next) :
    Pieces target state next := by
  unfold takeReturn at taken
  split at taken
  · cases taken
  · dsimp only at taken
    split at taken
    · cases taken
    · split at taken
      next commits =>
        obtain ⟨⟨-, verifiedUnused⟩, ⟨-, baselineUnused⟩, differ⟩ := commits
        cases taken
        have verified : Pieces target state (state.push (verifiedEvent target answers) none) :=
          .note .refl verifiedUnused (by simp [verifiedEvent])
        set next := baselineOf reading answers.returnedAt (some baseline) with nextEq
        have adopted : Pieces target state ((state.push (verifiedEvent target answers) none).adopt
            (keyOf target) next (.read reading)) := .adopt verified judged rfl
        have unused : ((state.push (verifiedEvent target answers) none).adopt (keyOf target) next
            (.read reading)).Unused (returnedEvent target next answers).id := by
          intro event member
          rcases List.mem_append.mp member with old | new
          · exact baselineUnused event old
          · rw [List.mem_singleton.mp new]
            exact differ
        have recorded := Pieces.record adopted (Function.update_self _ _ _) unused rfl
        have adoption : ((state.push (verifiedEvent target answers) none).adopt (keyOf target) next
            (.read reading)).history.adoption (keyOf target) = some (.read reading) :=
          Function.update_self _ _ _
        rw [adoption] at recorded
        exact recorded.forgetFinding (keyOf target)
      next =>
        cases taken
        exact .refl

theorem actOnRise_pieces (records : WatchedRecords) {target : WatchTarget}
    {effective : WalletReading} (answers : JudgeAnswers)
    (judged : (keyOf target, effective) ∈ state.history.readings) :
    Pieces target state (actOnRise options records target effective answers state) := by
  have remembered := remember_pieces answers.write judged
  unfold actOnRise
  dsimp only
  split
  · exact .report remembered (by simp)
  · exact remembered

theorem actOnInconsistency_pieces (target : WatchTarget) :
    Pieces target state (actOnInconsistency target state) := by
  unfold actOnInconsistency
  dsimp only
  split
  · refine .report (.report ?_ (by simp)) (by simp)
    exact .scratch .refl rfl rfl rfl rfl rfl
  · refine .report ?_ (by simp)
    exact .scratch .refl rfl rfl rfl rfl rfl

theorem actOnStop_pieces (target : WatchTarget) (finding : FleetWatchFinding)
    (effective : WalletReading) (answers : JudgeAnswers) :
    Pieces target state (actOnStop target finding effective answers state) := by
  unfold actOnStop
  dsimp only
  split
  · refine .report ?_ (by simp)
    exact .scratch .refl rfl rfl rfl rfl rfl
  · refine Pieces.persist_note (Pieces.keepFinding (.report ?_ (by simp)) _ _) _ _ (by simp)
    exact .scratch .refl rfl rfl rfl rfl rfl

theorem act_pieces (records : WatchedRecords) {target : WatchTarget} (verdict : WalletVerdict)
    {effective : WalletReading} (answers : JudgeAnswers)
    (judged : (keyOf target, effective) ∈ state.history.readings) :
    Pieces target state (act options records target verdict effective answers state) := by
  have consistent : Pieces target state
      { state with inconsistent := Function.update state.inconsistent (keyOf target) 0 } :=
    .scratch .refl rfl rfl rfl rfl rfl
  unfold act
  cases verdict with
  | baseline => exact consistent.trans (remember_pieces _ judged)
  | ok =>
      have settled := consistent.forgetFinding (keyOf target)
      dsimp only
      split
      · exact settled.trans (remember_pieces _ judged)
      · exact settled
  | rise => exact consistent.trans (actOnRise_pieces _ _ _ judged)
  | unknownActivity observed expected => exact consistent.trans (actOnStop_pieces _ _ _ _)
  | unexplainedFall fall allowed => exact consistent.trans (actOnStop_pieces _ _ _ _)
  | rpcInconsistent => exact actOnInconsistency_pieces target

/-- The reading that is acted on was judged. -/
theorem noteReadings_pieces (target : WatchTarget) (reading : WalletReading)
    (verdict : WalletVerdict) (answers : JudgeAnswers) (baseline : Option WalletBaseline) :
    Pieces target state (noteReadings target reading verdict answers state) ∧
      (keyOf target, (confirm target baseline reading verdict answers).2) ∈
        (noteReadings target reading verdict answers state).history.readings := by
  have noted : Pieces target state (state.observed (keyOf target) reading) := .observe .refl _ _
  by_cases stops : verdict.IsKillClass
  · simp only [noteReadings, confirm, stops, not_true, if_false, if_true]
    cases answers.second with
    | none => exact ⟨noted, by simp [WatchState.observed]⟩
    | some second =>
        refine ⟨.observe noted _ _, ?_⟩
        dsimp only
        split
        · simp [WatchState.observed]
        · split <;> simp [WatchState.observed]
  · simp only [noteReadings, confirm, stops, not_false_eq_true, if_true, if_false]
    cases answers.second <;> exact ⟨noted, by simp [WatchState.observed]⟩

theorem judgeAndAct_pieces {records : WatchedRecords} {target : WatchTarget}
    {reading : WalletReading} {answers : JudgeAnswers} {next : WatchState}
    (success : judgeAndAct options records target reading answers state = .ok next) :
    Pieces target state next := by
  simp only [judgeAndAct, bind_eq_ok] at success
  obtain ⟨first, -, success⟩ := success
  obtain ⟨noted, judged⟩ := @noteReadings_pieces state target reading first answers
    (state.baselines (keyOf target))
  refine noted.trans ?_
  split at success
  next taken returns =>
    obtain rfl := pure_eq_ok.mp success
    unfold returned at returns
    split at returns
    · exact takeReturn_pieces options judged returns
    · cases returns
  next =>
    obtain rfl := pure_eq_ok.mp success
    exact act_pieces _ _ _ _ judged

theorem trackExcess_pieces (target : WatchTarget) (after : Option ExcessState)
    (write : StoreWrite) : Pieces target state (trackExcess target after write state) := by
  unfold trackExcess
  dsimp only
  split
  · exact .refl
  next baseline inUse =>
    split
    · exact .refl
    · exact (Pieces.excess .refl inUse after).persist_record write (Function.update_self _ _ _)

end Tick

/-! ## What they leave alone -/

/-- How often a finding on an accept event was reported. -/
def WatchState.timesReported (state : WatchState) (finding : FleetWatchFinding)
    (eventId : String) : Nat :=
  state.reports.countP fun sent => sent.finding = finding ∧ sent.identity = .accept eventId

/-- How often an accept event was adopted or rejected. -/
def WatchState.timesTaken (state : WatchState) (eventId : String) : Nat :=
  state.timesReported .baselineAccepted eventId + state.timesReported .acceptRejected eventId

/-- No two events of the store have one identifier. -/
def WatchState.Distinct (state : WatchState) : Prop :=
  (state.events.map WatchEvent.id).Nodup

theorem WatchState.Distinct.push {state : WatchState} (distinct : state.Distinct)
    {event : WatchEvent} (unused : state.Unused event.id) (adoption : Option Adoption) :
    (state.push event adoption).Distinct := by
  unfold WatchState.Distinct at distinct ⊢
  rw [WatchState.push, List.map_append, List.map_singleton, List.nodup_append]
  refine ⟨distinct, List.nodup_singleton _, ?_⟩
  intro old oldMember new newMember same
  obtain ⟨stored, member, rfl⟩ := List.mem_map.mp oldMember
  rw [List.mem_singleton.mp newMember] at same
  exact unused stored member same

/-- The step adds events under new identifiers and reports, but none of its
reports is about an accept, and the scan stays where it was. -/
structure Quiet (state next : WatchState) : Prop where
  events : state.events <+: next.events
  distinct : state.Distinct → next.Distinct
  watermark : next.lastAcceptSyncAt = state.lastAcceptSyncAt
  synced : next.history.synced = state.history.synced
  reported : ∀ finding eventId,
    next.timesReported finding eventId = state.timesReported finding eventId
  origins : ∀ event ∈ state.events,
    next.history.origin event.id = state.history.origin event.id

namespace Quiet

variable {state middle next : WatchState}

theorem refl (state : WatchState) : Quiet state state :=
  ⟨List.prefix_refl _, id, rfl, rfl, fun _ _ => rfl, fun _ _ => rfl⟩

theorem trans (first : Quiet state middle) (second : Quiet middle next) : Quiet state next where
  events := first.events.trans second.events
  distinct := fun distinct => second.distinct (first.distinct distinct)
  watermark := second.watermark.trans first.watermark
  synced := second.synced.trans first.synced
  reported := fun finding eventId =>
    (second.reported finding eventId).trans (first.reported finding eventId)
  origins := fun event member =>
    (second.origins event (first.events.subset member)).trans (first.origins event member)

theorem push (quiet : Quiet state next) {event : WatchEvent} {adoption : Option Adoption}
    (unused : next.Unused event.id) : Quiet state (next.push event adoption) where
  events := quiet.events.trans (List.prefix_append _ _)
  distinct := fun distinct => (quiet.distinct distinct).push unused adoption
  watermark := quiet.watermark
  synced := quiet.synced
  reported := quiet.reported
  origins := by
    intro old member
    have differ := unused old (quiet.events.subset member)
    exact (Function.update_of_ne differ _ _).trans (quiet.origins old member)

theorem timesTaken (quiet : Quiet state next) (eventId : String) :
    next.timesTaken eventId = state.timesTaken eventId := by
  rw [WatchState.timesTaken, quiet.reported, quiet.reported]
  rfl

end Quiet

theorem timesReported_report_other {state : WatchState} {sent : FindingReport}
    (other : ∀ eventId, sent.identity ≠ .accept eventId) (finding : FleetWatchFinding)
    (eventId : String) :
    (state.report sent).timesReported finding eventId =
      state.timesReported finding eventId := by
  simp [WatchState.report, WatchState.timesReported, other eventId]

theorem Pieces.quiet {target : WatchTarget} {state next : WatchState}
    (pieces : Pieces target state next) : Quiet state next := by
  induction pieces with
  | refl => exact .refl state
  | @scratch middle next _ events baselines watermark history reports inductionHypothesis =>
      refine inductionHypothesis.trans ⟨?_, ?_, watermark, ?_, ?_, ?_⟩
      · exact events ▸ List.prefix_refl _
      · intro distinct
        unfold WatchState.Distinct
        rwa [events]
      · rw [history]
      · intro finding eventId
        rw [WatchState.timesReported, reports]
        rfl
      · intro event _
        rw [history]
  | report _ other inductionHypothesis =>
      exact inductionHypothesis.trans ⟨List.prefix_refl _, id, rfl, rfl,
        timesReported_report_other other, fun _ _ => rfl⟩
  | note _ unused _ inductionHypothesis => exact inductionHypothesis.push unused
  | record _ _ unused _ inductionHypothesis => exact inductionHypothesis.push unused
  | observe _ key reading inductionHypothesis =>
      exact inductionHypothesis.trans ⟨List.prefix_refl _, id, rfl, rfl, fun _ _ => rfl,
        fun _ _ => rfl⟩
  | adopt _ _ _ inductionHypothesis =>
      exact inductionHypothesis.trans ⟨List.prefix_refl _, id, rfl, rfl, fun _ _ => rfl,
        fun _ _ => rfl⟩
  | excess _ _ _ inductionHypothesis =>
      exact inductionHypothesis.trans ⟨List.prefix_refl _, id, rfl, rfl, fun _ _ => rfl,
        fun _ _ => rfl⟩

/-- The baselines of other wallets are left alone. -/
theorem Pieces.baselines_other {target : WatchTarget} {state next : WatchState}
    (pieces : Pieces target state next) {key : WatchKey} (other : key ≠ keyOf target) :
    next.baselines key = state.baselines key := by
  induction pieces with
  | refl => rfl
  | scratch _ _ baselines _ _ _ inductionHypothesis => rw [baselines, inductionHypothesis]
  | report _ _ inductionHypothesis => exact inductionHypothesis
  | note _ _ _ inductionHypothesis => exact inductionHypothesis
  | record _ _ _ _ inductionHypothesis => exact inductionHypothesis
  | observe _ _ _ inductionHypothesis => exact inductionHypothesis
  | adopt _ _ _ inductionHypothesis =>
      exact (Function.update_of_ne other _ _).trans inductionHypothesis
  | excess _ _ _ inductionHypothesis =>
      exact (Function.update_of_ne other _ _).trans inductionHypothesis

theorem load_quiet (options : FleetWatcherOptions) (state : WatchState) :
    Quiet state (load options state) := by
  unfold load
  split
  · exact .refl state
  · exact ⟨List.prefix_refl _, id, rfl, rfl, fun _ _ => rfl, fun _ _ => rfl⟩

/-- Every command but the accept scan is quiet, a restart apart. -/
theorem watchStep_quiet {options : FleetWatcherOptions} {state next : WatchState}
    {command : WatchCommand} (stays : command ≠ .restart) (other : command ≠ .syncAccepts)
    (success : watchStep options command state = .ok next) : Quiet state next := by
  cases command with
  | commit event =>
      simp only [watchStep, bind_eq_ok, refuse_eq_ok, pure_eq_ok, not_not] at success
      obtain ⟨-, unused, rfl⟩ := success
      exact (Quiet.refl state).push unused
  | restart => exact absurd rfl stays
  | openTick now answers =>
      cases success
      exact (load_quiet options state).trans (openTick_pieces options state ⟨.ethereum, ""⟩ now answers).quiet
  | syncAccepts => exact absurd rfl other
  | judgeAndAct records target reading answers =>
      simp only [watchStep, bind_eq_ok, refuse_eq_ok] at success
      obtain ⟨-, -, success⟩ := success
      exact (judgeAndAct_pieces options success).quiet
  | trackExcess target after write =>
      cases success
      exact (trackExcess_pieces target after write).quiet

end MintBot
