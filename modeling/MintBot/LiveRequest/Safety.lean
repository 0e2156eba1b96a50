import MintBot.LiveRequest.Handling

/-!
# What a processor does for one request

Every call fits the calls before it: `arm` comes after the checks, `run` after the checks were
made again, the record after the run was closed.  What the calls so far are is read off from
the stage.
-/

namespace MintBot

open Fallible

namespace LiveCall

/-- Calls that come before `arm`. -/
def isPreparing : LiveCall → Bool
  | .claim _ | .check _ _ => true
  | _ => false

def isArm : LiveCall → Bool
  | .arm _ _ _ => true
  | _ => false

def isRun : LiveCall → Bool
  | .run _ _ => true
  | _ => false

def isRecord : LiveCall → Bool
  | .record _ => true
  | _ => false

end LiveCall

/-- All required checks have passed among the calls. -/
def ChecksPassed (deps : LiveProcessorDeps) (request : LiveRunRequest) (calls : List LiveCall) :
    Prop :=
  ∀ check ∈ requiredChecks deps request, .check check true ∈ calls

/-- A request may be armed with this campaign when it was taken at this time: it was not
expired, not dated more than a minute ahead, not of legacy provenance and not a scheduled
request for a paid campaign. -/
structure MayArm (request : LiveRunRequest) (takenAt : Time) (campaign : Campaign) : Prop where
  dated : ∃ requestedAt, request.requestedAt = some requestedAt ∧
    requestedAt ≤ takenAt + maxClockSkewMs
  unexpired : ∀ expiresAt ∈ request.expiresAt, takenAt < expiresAt
  known : request.provenance ≠ some .legacy
  free : request.isScheduled = true → campaign.mintPriceWei ≤ 0

/-- A call follows from the calls before it. -/
def Fits (deps : LiveProcessorDeps) (request : LiveRunRequest) (takenAt : Time)
    (before : List LiveCall) : LiveCall → Prop
  | .claim _ => before = []
  | .check _ _ => True
  | .arm campaign wallets _ =>
      .claim .started ∈ before ∧ (∀ call ∈ before, call.isArm = false) ∧
        MayArm request takenAt campaign ∧ wallets = request.wallets ∧
        ChecksPassed deps request before
  | .setFeeCeiling _ _ => True
  | .run run wallets =>
      wallets = request.wallets ∧ (∀ call ∈ before, call.isRun = false) ∧
        ∃ first campaign last fee,
          before = first ++ .arm campaign request.wallets (some run) :: last ∧
            ChecksPassed deps request first ∧ ChecksPassed deps request last ∧
            .setFeeCeiling request.campaignId (some fee) ∈ last ∧
            .setFeeCeiling request.campaignId none ∉ last
  | .closeRun run => ∃ campaign, .arm campaign request.wallets (some run) ∈ before
  | .record record =>
      (∀ call ∈ before, call.isRecord = false) ∧
        (record.state = .stopped → deps.closeRun = true → ∀ campaign wallets run,
          .arm campaign wallets (some run) ∈ before → .closeRun run ∈ before)

/-- Every call follows from those before it. -/
def CallsFit (deps : LiveProcessorDeps) (request : LiveRunRequest) (takenAt : Time)
    (calls : List LiveCall) : Prop :=
  ∀ before call after, calls = before ++ call :: after → Fits deps request takenAt before call

/-- A fee ceiling that was set is cleared later. -/
def CeilingCleared (request : LiveRunRequest) (calls : List LiveCall) : Prop :=
  ∀ before fee after, calls = before ++ .setFeeCeiling request.campaignId (some fee) :: after →
    .setFeeCeiling request.campaignId none ∈ after

variable {deps : LiveProcessorDeps} {request : LiveRunRequest} {takenAt : Time}
  {calls : List LiveCall} {call : LiveCall}

theorem callsFit_nil : CallsFit deps request takenAt [] := by
  intro before call after split
  simp at split

theorem CallsFit.snoc (fit : CallsFit deps request takenAt calls)
    (last : Fits deps request takenAt calls call) :
    CallsFit deps request takenAt (calls ++ [call]) := by
  intro before middle after split
  rcases List.eq_nil_or_concat after with rfl | ⟨rest, final, rfl⟩
  · obtain ⟨rfl, same⟩ := List.append_inj' split rfl
    cases same
    exact last
  · rw [List.concat_eq_append, ← List.cons_append, ← List.append_assoc] at split
    obtain ⟨same, -⟩ := List.append_inj' split rfl
    exact fit before middle rest same

/-- A fee ceiling is only set by a call that sets one. -/
theorem CeilingCleared.snoc (cleared : CeilingCleared request calls)
    (another : ∀ fee, call ≠ .setFeeCeiling request.campaignId (some fee)) :
    CeilingCleared request (calls ++ [call]) := by
  intro before fee after split
  rcases List.eq_nil_or_concat after with rfl | ⟨rest, final, rfl⟩
  · obtain ⟨-, same⟩ := List.append_inj' split rfl
    cases same
    exact absurd rfl (another fee)
  · rw [List.concat_eq_append, ← List.cons_append, ← List.append_assoc] at split
    obtain ⟨same, -⟩ := List.append_inj' split rfl
    rw [List.concat_eq_append]
    exact List.mem_append_left _ (cleared before fee rest same)

/-- Clearing the ceiling clears whatever was set before. -/
theorem ceilingCleared_clear :
    CeilingCleared request (calls ++ [.setFeeCeiling request.campaignId none]) := by
  intro before fee after split
  rcases List.eq_nil_or_concat after with rfl | ⟨rest, final, rfl⟩
  · obtain ⟨-, same⟩ := List.append_inj' split rfl
    cases same
  · rw [List.concat_eq_append, ← List.cons_append, ← List.append_assoc] at split
    obtain ⟨-, same⟩ := List.append_inj' split rfl
    cases same
    simp

theorem ceilingCleared_of_none (none : ∀ fee, .setFeeCeiling request.campaignId (some fee) ∉ calls) :
    CeilingCleared request calls := by
  intro before fee after split
  exact absurd (by simp [split]) (none fee)

/-! ## The calls at a stage -/

/-- Calls between setting the ceiling and `run`. -/
def LiveCall.isLimiting : LiveCall → Bool
  | .setFeeCeiling _ (some _) | .check _ _ => true
  | _ => false

/-- The calls up to `arm` and those after it. -/
structure ArmedCalls (deps : LiveProcessorDeps) (request : LiveRunRequest) (campaign : Campaign)
    (run : RunId) (calls last : List LiveCall) : Prop where
  split : ∃ first, calls = first ++ .arm campaign request.wallets (some run) :: last ∧
    (∀ call ∈ first, call.isPreparing = true) ∧ ChecksPassed deps request first
  once : ∀ call ∈ last, call.isArm = false
  open_ : ∀ call ∈ last, call.isRecord = false

/-- What the calls of a handling are at each of its stages. -/
def StageCalls (deps : LiveProcessorDeps) (request : LiveRunRequest) (takenAt : Time)
    (calls : List LiveCall) : LiveStage → Prop
  | .expiring _ => calls = [.claim .expired]
  | .starting =>
      calls = [.claim .started] ∧ request.isFuture takenAt = false ∧
        request.isExpired takenAt = false
  | .checking campaign _ left =>
      .claim .started ∈ calls ∧ (∀ call ∈ calls, call.isPreparing = true) ∧
        MayArm request takenAt campaign ∧
        ∀ check ∈ requiredChecks deps request, check ∈ left ∨ .check check true ∈ calls
  | .limiting campaign _ run => ArmedCalls deps request campaign run.id calls []
  | .rechecking campaign run left =>
      ∃ last fee, ArmedCalls deps request campaign run.id calls last ∧
        .setFeeCeiling request.campaignId (some fee) ∈ last ∧
        (∀ call ∈ last, call.isLimiting = true) ∧
        ∀ check ∈ requiredChecks deps request, check ∈ left ∨ .check check true ∈ last
  | .clearing run _ => ∃ campaign last, ArmedCalls deps request campaign run.id calls last
  | .counting run _ | .closing run _ =>
      ∃ campaign last, ArmedCalls deps request campaign run.id calls last ∧
        CeilingCleared request calls
  | .recording record =>
      (∀ call ∈ calls, call.isRecord = false) ∧ CeilingCleared request calls ∧
        (record.state = .stopped → deps.closeRun = true → ∀ campaign wallets run,
          .arm campaign wallets (some run) ∈ calls → .closeRun run ∈ calls)
  | .done => (calls.filter LiveCall.isRecord).length = 1 ∧ CeilingCleared request calls

variable {campaign : Campaign} {run : RunId} {last : List LiveCall}

theorem not_record_of_preparing (preparing : call.isPreparing = true) : call.isRecord = false := by
  cases call <;> first | rfl | cases preparing

theorem not_arm_of_preparing (preparing : call.isPreparing = true) : call.isArm = false := by
  cases call <;> first | rfl | cases preparing

theorem not_run_of_preparing (preparing : call.isPreparing = true) : call.isRun = false := by
  cases call <;> first | rfl | cases preparing

theorem not_run_of_limiting (limiting : call.isLimiting = true) : call.isRun = false := by
  cases call <;> first | rfl | cases limiting

theorem cleared_of_preparing (preparing : ∀ call ∈ calls, call.isPreparing = true) :
    CeilingCleared request calls :=
  ceilingCleared_of_none fun _ member => nomatch preparing _ member

/-- A call after `arm` that is neither another `arm` nor the record. -/
theorem ArmedCalls.snoc (armed : ArmedCalls deps request campaign run calls last)
    (call : LiveCall) (once : call.isArm = false) (open_ : call.isRecord = false) :
    ArmedCalls deps request campaign run (calls ++ [call]) (last ++ [call]) := by
  obtain ⟨first, split, preparing, passed⟩ := armed.split
  refine ⟨⟨first, ?_, preparing, passed⟩, fun other member => ?_, fun other member => ?_⟩
  · rw [split, List.append_assoc, List.cons_append]
  · rcases List.mem_append.mp member with before | now
    · exact armed.once other before
    · rw [List.mem_singleton.mp now]
      exact once
  · rcases List.mem_append.mp member with before | now
    · exact armed.open_ other before
    · rw [List.mem_singleton.mp now]
      exact open_

theorem ArmedCalls.arm_mem (armed : ArmedCalls deps request campaign run calls last) :
    .arm campaign request.wallets (some run) ∈ calls := by
  obtain ⟨first, split, -⟩ := armed.split
  simp [split]

theorem ArmedCalls.unrecorded (armed : ArmedCalls deps request campaign run calls last) :
    ∀ call ∈ calls, call.isRecord = false := by
  obtain ⟨first, rfl, preparing, -⟩ := armed.split
  intro call member
  rcases List.mem_append.mp member with before | after
  · exact not_record_of_preparing (preparing call before)
  · rcases List.mem_cons.mp after with rfl | later
    · rfl
    · exact armed.open_ call later

/-- No other run was armed. -/
theorem ArmedCalls.run_eq (armed : ArmedCalls deps request campaign run calls last)
    {other : Campaign} {wallets : List String} {run' : RunId}
    (member : .arm other wallets (some run') ∈ calls) : run' = run := by
  obtain ⟨first, rfl, preparing, -⟩ := armed.split
  rcases List.mem_append.mp member with before | after
  · cases preparing _ before
  · rcases List.mem_cons.mp after with same | later
    · cases same
      rfl
    · cases armed.once _ later

theorem ArmedCalls.cleared (armed : ArmedCalls deps request campaign run calls []) :
    CeilingCleared request calls := by
  obtain ⟨first, rfl, preparing, -⟩ := armed.split
  exact (cleared_of_preparing preparing).snoc fun fee same => nomatch same

/-! ## Stopping -/

theorem stopped_unarmed (unarmed : ∀ campaign wallets run, .arm campaign wallets (some run) ∉ calls)
    (unrecorded : ∀ call ∈ calls, call.isRecord = false) (cleared : CeilingCleared request calls)
    (code : String) (sent : List SentTransaction) :
    StageCalls deps request takenAt calls (LiveHandling.stoppedStage deps none code sent) :=
  ⟨unrecorded, cleared, fun _ _ _ _ _ member => absurd member (unarmed _ _ _)⟩

theorem stopped_armed {armedRun : ArmedRun}
    (armed : ArmedCalls deps request campaign armedRun.id calls last)
    (cleared : CeilingCleared request calls) (code : String) (sent : List SentTransaction) :
    StageCalls deps request takenAt calls
      (LiveHandling.stoppedStage deps (some armedRun) code sent) := by
  unfold LiveHandling.stoppedStage
  dsimp only
  split
  · exact ⟨campaign, last, armed, cleared⟩
  · rename_i without
    exact ⟨armed.unrecorded, cleared, fun _ present => absurd present without⟩

theorem ran_armed {armedRun : ArmedRun}
    (armed : ArmedCalls deps request campaign armedRun.id calls last)
    (cleared : CeilingCleared request calls) (state : Option String)
    (sent : List SentTransaction) :
    StageCalls deps request takenAt calls (LiveHandling.ranStage deps armedRun state sent) := by
  unfold LiveHandling.ranStage
  dsimp only
  split
  · exact stopped_armed armed cleared _ sent
  · rename_i finished
    exact ⟨armed.unrecorded, cleared, fun stopped => absurd stopped finished⟩

/-! ## One call -/

theorem mayArm_of_accepted {found : Except Thrown (Option Campaign)} {fee : Rat}
    (present : request.isFuture takenAt = false) (alive : request.isExpired takenAt = false)
    (accepted : acceptRequest request found = .ok (campaign, fee)) :
    MayArm request takenAt campaign := by
  unfold acceptRequest at accepted
  split at accepted
  · cases accepted
  · cases accepted
  split at accepted
  · cases accepted
  split at accepted
  · cases accepted
  split at accepted
  · cases accepted
  rename_i known
  split at accepted
  · cases accepted
  rename_i paid
  cases accepted
  refine ⟨?_, fun expiresAt expires => ?_, known, fun scheduled => ?_⟩
  · unfold LiveRunRequest.isFuture at present
    split at present
    · rename_i requestedAt dated
      exact ⟨requestedAt, dated, Int.not_lt.mp (of_decide_eq_false present)⟩
    · cases present
  · unfold LiveRunRequest.isExpired at alive
    rw [expires] at alive
    exact Int.not_le.mp (of_decide_eq_false alive)
  · exact Int.not_lt.mp fun positive => paid ⟨scheduled, positive⟩

namespace LiveHandling

/-- The calls of a handling without their times. -/
def callsOf (handling : LiveHandling) : List LiveCall :=
  handling.calls.map Prod.snd

/-- The calls fit, and they are those of the stage. -/
structure Sound (deps : LiveProcessorDeps) (handling : LiveHandling) : Prop where
  fit : CallsFit deps handling.request handling.takenAt handling.callsOf
  stage : StageCalls deps handling.request handling.takenAt handling.callsOf handling.stage

variable {handling next : LiveHandling} {now : Time} {stage : LiveStage}

@[simp]
theorem callsOf_call : (handling.call now call stage).callsOf = handling.callsOf ++ [call] := by
  simp [callsOf, LiveHandling.call]

theorem Sound.move (sound : handling.Sound deps)
    (facts : StageCalls deps handling.request handling.takenAt handling.callsOf stage) :
    (handling.move stage).Sound deps :=
  ⟨sound.fit, facts⟩

theorem Sound.called (sound : handling.Sound deps)
    (fits : Fits deps handling.request handling.takenAt handling.callsOf call)
    (facts : StageCalls deps handling.request handling.takenAt (handling.callsOf ++ [call]) stage) :
    (handling.call now call stage).Sound deps := by
  constructor
  · rw [callsOf_call]
    exact sound.fit.snoc fits
  · rw [callsOf_call]
    exact facts

/-- The record is the last call and the only one of its kind. -/
theorem recorded_once (unrecorded : ∀ call ∈ calls, call.isRecord = false)
    (cleared : CeilingCleared request calls) (record : LiveRecord) :
    StageCalls deps request takenAt (calls ++ [.record record]) .done := by
  refine ⟨?_, cleared.snoc fun fee same => nomatch same⟩
  have none : calls.filter LiveCall.isRecord = [] :=
    List.filter_eq_nil_iff.mpr fun call member => by simp [unrecorded call member]
  rw [List.filter_append, none]
  rfl

theorem Sound.checked {campaign : Campaign} {fee : Rat} {check : LiveCheck} {left : List LiveCheck}
    (sound : handling.Sound deps) (at_ : handling.stage = .checking campaign fee (check :: left))
    {outcome : Except Thrown Unit}
    (success : step deps now handling (.checking campaign fee (check :: left)) (.check outcome) =
      .ok next) : next.Sound deps := by
  have facts := sound.stage
  rw [at_] at facts
  obtain ⟨claimed, preparing, may, passed⟩ := facts
  have stopped (calls : List LiveCall) (all : ∀ call ∈ calls, call.isPreparing = true)
      (code : String) : StageCalls deps handling.request handling.takenAt calls
        (stoppedStage deps none code []) :=
    stopped_unarmed (fun _ _ _ member => nomatch all _ member)
      (fun call member => not_record_of_preparing (all call member))
      (cleared_of_preparing all) code []
  have also (result : Bool) :
      ∀ call ∈ handling.callsOf ++ [.check check result], call.isPreparing = true := by
    intro call member
    rcases List.mem_append.mp member with before | now
    · exact preparing call before
    · rw [List.mem_singleton.mp now]
      rfl
  simp only [step] at success
  split at success
  · cases success
    exact sound.move (stopped _ preparing _)
  · cases success
    refine sound.called trivial ⟨List.mem_append_left _ claimed, also true, may, fun other required => ?_⟩
    rcases passed other required with inside | before
    · rcases List.mem_cons.mp inside with rfl | later
      · exact .inr (by simp)
      · exact .inl later
    · exact .inr (List.mem_append_left _ before)
  · cases success
    exact sound.called trivial (stopped _ (also false) _)

theorem Sound.armed {campaign : Campaign} {fee : Rat} (sound : handling.Sound deps)
    (at_ : handling.stage = .checking campaign fee []) {outcome : Except Thrown ArmedRun}
    (success : step deps now handling (.checking campaign fee []) (.armed outcome) = .ok next) :
    next.Sound deps := by
  have facts := sound.stage
  rw [at_] at facts
  obtain ⟨claimed, preparing, may, passed⟩ := facts
  have checked : ChecksPassed deps handling.request handling.callsOf := by
    intro check required
    rcases passed check required with inside | before
    · cases inside
    · exact before
  have fits (run : Option RunId) : Fits deps handling.request handling.takenAt handling.callsOf
      (.arm campaign handling.request.wallets run) :=
    ⟨claimed, fun call member => not_arm_of_preparing (preparing call member), may, rfl, checked⟩
  cases outcome with
  | ok run =>
      cases success
      refine sound.called (fits _) ⟨⟨handling.callsOf, rfl, preparing, checked⟩, ?_, ?_⟩
      · exact fun _ member => nomatch member
      · exact fun _ member => nomatch member
  | error error =>
      cases success
      refine sound.called (fits _) (stopped_unarmed (fun other wallets run member => ?_)
        (fun call member => ?_) ((cleared_of_preparing preparing).snoc fun fee => ?_) _ _)
      · rcases List.mem_append.mp member with before | now
        · cases preparing _ before
        · cases List.mem_singleton.mp now
      · rcases List.mem_append.mp member with before | now
        · exact not_record_of_preparing (preparing call before)
        · rw [List.mem_singleton.mp now]
          rfl
      · exact fun same => nomatch same

theorem Sound.limited {campaign : Campaign} {fee : Rat} {run : ArmedRun}
    (sound : handling.Sound deps) (at_ : handling.stage = .limiting campaign fee run)
    {outcome : Except Thrown Unit}
    (success : step deps now handling (.limiting campaign fee run) (.limited outcome) = .ok next) :
    next.Sound deps := by
  have armed := sound.stage
  rw [at_] at armed
  cases outcome with
  | ok done =>
      cases success
      refine sound.called trivial ⟨_, fee, armed.snoc _ rfl rfl, by simp, fun call member => ?_,
        fun check required => .inl required⟩
      rw [List.nil_append, List.mem_singleton] at member
      rw [member]
      rfl
  | error error =>
      cases success
      exact sound.move (stopped_armed armed armed.cleared _ _)

theorem Sound.rechecked {campaign : Campaign} {run : ArmedRun} {check : LiveCheck}
    {left : List LiveCheck} (sound : handling.Sound deps)
    (at_ : handling.stage = .rechecking campaign run (check :: left))
    {outcome : Except Thrown Unit}
    (success : step deps now handling (.rechecking campaign run (check :: left)) (.check outcome) =
      .ok next) : next.Sound deps := by
  have facts := sound.stage
  rw [at_] at facts
  obtain ⟨last, fee, armed, limited, limiting, passed⟩ := facts
  cases outcome with
  | ok done =>
      cases success
      refine sound.called trivial ⟨_, fee, armed.snoc _ rfl rfl, List.mem_append_left _ limited,
        fun call member => ?_, fun other required => ?_⟩
      · rcases List.mem_append.mp member with before | now
        · exact limiting call before
        · rw [List.mem_singleton.mp now]
          rfl
      · rcases passed other required with inside | before
        · rcases List.mem_cons.mp inside with rfl | later
          · exact .inr (by simp)
          · exact .inl later
        · exact .inr (List.mem_append_left _ before)
  | error error =>
      cases success
      exact sound.called trivial ⟨campaign, _, armed.snoc _ rfl rfl⟩

theorem Sound.ran {campaign : Campaign} {run : ArmedRun} (sound : handling.Sound deps)
    (at_ : handling.stage = .rechecking campaign run [])
    {outcome : Except Thrown (Option String)}
    (success : step deps now handling (.rechecking campaign run []) (.ran outcome) = .ok next) :
    next.Sound deps := by
  have facts := sound.stage
  rw [at_] at facts
  obtain ⟨last, fee, armed, limited, limiting, passed⟩ := facts
  obtain ⟨first, split, preparing, checked⟩ := armed.split
  cases success
  refine sound.called ⟨rfl, fun call member => ?_, first, campaign, last, fee, split, checked,
    fun check required => ?_, limited, fun clearing => nomatch limiting _ clearing⟩
    ⟨campaign, _, armed.snoc _ rfl rfl⟩
  · rw [split] at member
    rcases List.mem_append.mp member with before | after
    · exact not_run_of_preparing (preparing call before)
    · rcases List.mem_cons.mp after with rfl | later
      · rfl
      · exact not_run_of_limiting (limiting call later)
  · rcases passed check required with inside | before
    · cases inside
    · exact before

theorem Sound.cleared {run : ArmedRun} {ran : Except Thrown (Option String)}
    (sound : handling.Sound deps) (at_ : handling.stage = .clearing run ran)
    {outcome : Except Thrown Unit}
    (success : step deps now handling (.clearing run ran) (.cleared outcome) = .ok next) :
    next.Sound deps := by
  have facts := sound.stage
  rw [at_] at facts
  obtain ⟨campaign, last, armed⟩ := facts
  have later := armed.snoc (.setFeeCeiling handling.request.campaignId none) rfl rfl
  cases success
  refine sound.called trivial ?_
  split
  · exact stopped_armed later ceilingCleared_clear _ _
  · exact stopped_armed later ceilingCleared_clear _ _
  · exact ⟨campaign, _, later, ceilingCleared_clear⟩

/-- Whatever the host answers, the calls go on as they should. -/
theorem Sound.step {answer : LiveAnswer} (sound : handling.Sound deps)
    (success : step deps now handling handling.stage answer = .ok next) : next.Sound deps := by
  cases at_ : handling.stage with
  | expiring code =>
      have facts := sound.stage
      rw [at_] at success facts
      cases answer <;> cases success
      have open_ : ∀ call ∈ handling.callsOf, call.isRecord = false := by
        rw [facts]
        simp [LiveCall.isRecord]
      refine sound.called ⟨open_, fun stopped => nomatch stopped⟩ (recorded_once open_ ?_ _)
      rw [facts]
      exact cleared_of_preparing fun call member => by rw [List.mem_singleton.mp member]; rfl
  | starting =>
      have facts := sound.stage
      rw [at_] at success facts
      obtain ⟨calls, present, alive⟩ := facts
      have preparing : ∀ call ∈ handling.callsOf, call.isPreparing = true := by
        rw [calls]
        exact fun call member => by rw [List.mem_singleton.mp member]; rfl
      cases answer with
      | campaign found =>
          simp only [LiveHandling.step] at success
          split at success
          · rename_i campaign fee accepted
            cases success
            refine sound.move ⟨?_, preparing, mayArm_of_accepted present alive accepted,
              fun check required => .inl required⟩
            rw [calls]
            exact List.mem_singleton.mpr rfl
          · cases success
            exact sound.move (stopped_unarmed (fun _ _ _ member => nomatch preparing _ member)
              (fun call member => not_record_of_preparing (preparing call member))
              (cleared_of_preparing preparing) _ _)
      | _ => cases success
  | checking campaign fee left =>
      rw [at_] at success
      cases left with
      | nil =>
          cases answer with
          | armed outcome => exact sound.armed at_ success
          | _ => cases success
      | cons check left =>
          cases answer with
          | check outcome => exact sound.checked at_ success
          | _ => cases success
  | limiting campaign fee run =>
      rw [at_] at success
      cases answer with
      | limited outcome => exact sound.limited at_ success
      | _ => cases success
  | rechecking campaign run left =>
      rw [at_] at success
      cases left with
      | nil =>
          cases answer with
          | ran outcome => exact sound.ran at_ success
          | _ => cases success
      | cons check left =>
          cases answer with
          | check outcome => exact sound.rechecked at_ success
          | _ => cases success
  | clearing run ran =>
      rw [at_] at success
      cases answer with
      | cleared outcome => exact sound.cleared at_ success
      | _ => cases success
  | counting run state =>
      have facts := sound.stage
      rw [at_] at success facts
      obtain ⟨campaign, last, armed, cleared⟩ := facts
      cases answer with
      | sent outcome =>
          simp only [LiveHandling.step] at success
          split at success
          · cases success
            exact sound.move (ran_armed armed cleared state [])
          · split at success
            · cases success
              exact sound.move (ran_armed armed cleared state _)
            · cases success
              exact sound.move (stopped_armed armed cleared _ _)
      | _ => cases success
  | closing run record =>
      have facts := sound.stage
      rw [at_] at success facts
      obtain ⟨campaign, last, armed, cleared⟩ := facts
      cases answer with
      | closed outcome =>
          cases success
          refine sound.called ⟨campaign, armed.arm_mem⟩ ⟨?_, cleared.snoc fun fee => ?_,
            fun _ _ other wallets run' member => ?_⟩
          · exact (armed.snoc _ rfl rfl).unrecorded
          · exact fun same => nomatch same
          · have same := (armed.snoc (.closeRun run.id) rfl rfl).run_eq member
            rw [same]
            simp
      | _ => cases success
  | recording record =>
      have facts := sound.stage
      rw [at_] at success facts
      obtain ⟨open_, cleared, closed⟩ := facts
      cases answer with
      | recorded =>
          cases success
          exact sound.called ⟨open_, closed⟩ (recorded_once open_ cleared record)
      | _ => cases success
  | done =>
      rw [at_] at success
      cases answer <;> cases success

end LiveHandling

end MintBot
