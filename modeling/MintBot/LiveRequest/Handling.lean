import MintBot.LiveRequest.Request
import MintBot.Library.Fallible

/-!
# One request from its claim to its record

After a claim the processor goes through a fixed sequence of calls to the host.  Each of them
may throw.  A stage stands for the call that comes next, with the local variables that are
still needed.
-/

namespace MintBot

open Fallible

/-- A run that the application has armed; its id is never empty. -/
structure ArmedRun where
  id : RunId
  named : id ≠ ""
  deriving DecidableEq

/-- The calls to the host that change something, and the checks. -/
inductive LiveCall
  | claim (outcome : LiveOutcome)
  | check (check : LiveCheck) (passed : Bool)
  | arm (campaign : Campaign) (wallets : List String) (run : Option RunId)
  | setFeeCeiling (campaignId : CampaignId) (gwei : Option Rat)
  | run (run : RunId) (wallets : List String)
  | closeRun (run : RunId)
  | record (record : LiveRecord)
  deriving DecidableEq

inductive LiveStage
  /-- Claimed as expired; this is recorded next. -/
  | expiring (code : String)
  | starting
  /-- The checks that are left, and then `arm`. -/
  | checking (campaign : Campaign) (fee : Rat) (left : List LiveCheck)
  | limiting (campaign : Campaign) (fee : Rat) (run : ArmedRun)
  /-- The checks that are left, and then `run`. -/
  | rechecking (campaign : Campaign) (run : ArmedRun) (left : List LiveCheck)
  /-- The `finally` block. -/
  | clearing (run : ArmedRun) (ran : Except Thrown (Option String))
  | counting (run : ArmedRun) (state : Option String)
  | closing (run : ArmedRun) (record : LiveRecord)
  | recording (record : LiveRecord)
  | done
  deriving DecidableEq

/-- A claimed request, what was called for it and the times of the calls. -/
structure LiveHandling where
  process : Nat
  request : LiveRunRequest
  takenAt : Time
  stage : LiveStage
  /-- No branch reads the calls. -/
  calls : List (Time × LiveCall)
  deriving DecidableEq

/-- How the host answers the next call. -/
inductive LiveAnswer
  | campaign (found : Except Thrown (Option Campaign))
  | check (outcome : Except Thrown Unit)
  | armed (outcome : Except Thrown ArmedRun)
  | limited (outcome : Except Thrown Unit)
  | ran (outcome : Except Thrown (Option String))
  | cleared (outcome : Except Thrown Unit)
  | sent (outcome : Except Thrown (List SentTransaction))
  | closed (outcome : Option RunClosed)
  | recorded
  deriving DecidableEq

namespace LiveHandling

variable (deps : LiveProcessorDeps)

def move (handling : LiveHandling) (stage : LiveStage) : LiveHandling :=
  { handling with stage := stage }

def call (handling : LiveHandling) (now : Time) (call : LiveCall) (stage : LiveStage) :
    LiveHandling :=
  { handling with stage := stage, calls := handling.calls ++ [(now, call)] }

/-- A stopped request closes its run, where it has one, and is recorded. -/
def stoppedStage (run : Option ArmedRun) (code : String) (sent : List SentTransaction) : LiveStage :=
  let record : LiveRecord :=
    { run := run.map ArmedRun.id, state := .stopped, code := some code, sent := sent }
  match run with
  | some run => if deps.closeRun then .closing run record else .recording record
  | none => .recording record

/-- The stage after a run that returned. -/
def ranStage (run : ArmedRun) (state : Option String) (sent : List SentTransaction) : LiveStage :=
  let result := runResult state sent
  if result.1 = .stopped then stoppedStage deps (some run) (result.2.getD "") sent
  else .recording { run := some run.id, state := result.1, code := result.2, sent := sent }

def step (now : Time) (handling : LiveHandling) : LiveStage → LiveAnswer →
    Except Error LiveHandling
  | .expiring code, .recorded =>
      .ok (handling.call now (.record { state := .expired, code := some code }) .done)
  | .starting, .campaign found =>
      match acceptRequest handling.request found with
      | .ok (campaign, fee) =>
          .ok (handling.move (.checking campaign fee (requiredChecks deps handling.request)))
      | .error error => .ok (handling.move (stoppedStage deps none (safeCode error) []))
  | .checking campaign fee (check :: left), .check outcome =>
      match missingCheck deps check, outcome with
      | some code, _ =>
          .ok (handling.move (stoppedStage deps none (safeCode { message := code }) []))
      | none, .ok _ => .ok (handling.call now (.check check true) (.checking campaign fee left))
      | none, .error error =>
          .ok (handling.call now (.check check false)
            (stoppedStage deps none (safeCode error) []))
  | .checking campaign fee [], .armed outcome =>
      match outcome with
      | .ok run =>
          .ok (handling.call now (.arm campaign handling.request.wallets (some run.id))
            (.limiting campaign fee run))
      | .error error =>
          .ok (handling.call now (.arm campaign handling.request.wallets none)
            (stoppedStage deps none (safeCode error) []))
  | .limiting campaign fee run, .limited outcome =>
      match outcome with
      | .ok _ =>
          .ok (handling.call now (.setFeeCeiling handling.request.campaignId (some fee))
            (.rechecking campaign run (requiredChecks deps handling.request)))
      | .error error => .ok (handling.move (stoppedStage deps (some run) (safeCode error) []))
  | .rechecking campaign run (check :: left), .check outcome =>
      match outcome with
      | .ok _ => .ok (handling.call now (.check check true) (.rechecking campaign run left))
      | .error error =>
          .ok (handling.call now (.check check false) (.clearing run (.error error)))
  | .rechecking _ run [], .ran outcome =>
      .ok (handling.call now (.run run.id handling.request.wallets) (.clearing run outcome))
  | .clearing run ran, .cleared outcome =>
      -- What the `finally` block throws takes the place of what was thrown before.
      let stage := match outcome, ran with
        | .error error, _ => stoppedStage deps (some run) (safeCode error) []
        | .ok _, .error error => stoppedStage deps (some run) (safeCode error) []
        | .ok _, .ok state => .counting run state
      .ok (handling.call now (.setFeeCeiling handling.request.campaignId none) stage)
  | .counting run state, .sent outcome =>
      if deps.sentTransactions = false then .ok (handling.move (ranStage deps run state []))
      else
        match outcome with
        | .ok sent => .ok (handling.move (ranStage deps run state sent))
        | .error error => .ok (handling.move (stoppedStage deps (some run) (safeCode error) []))
  | .closing run record, .closed outcome =>
      .ok (handling.call now (.closeRun run.id) (.recording { record with runClosed := outcome }))
  | .recording record, .recorded => .ok (handling.call now (.record record) .done)
  | _, _ => .error "NOT_NOW"

variable {deps} {handling next : LiveHandling} {now : Time} {stage : LiveStage}
  {answer : LiveAnswer}

theorem step_same (success : step deps now handling stage answer = .ok next) :
    next.request = handling.request ∧ next.process = handling.process := by
  unfold step at success
  split at success
  all_goals first
    | (cases success; exact ⟨rfl, rfl⟩)
    | (split at success <;> first
        | (cases success; exact ⟨rfl, rfl⟩)
        | (split at success <;> (cases success; exact ⟨rfl, rfl⟩)))
    | cases success

end LiveHandling

end MintBot
