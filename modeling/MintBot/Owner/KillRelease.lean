import MintBot.Library.Machine
import MintBot.Types

/-!
# Releasing the kill switch

The kill switch is a stored flag and a file.  The owner is shown a phrase that names the stored
engagement and confirms it; the release then reads the status again, compares the phrase, clears
the flag and deletes the file, in steps between which any process may stop everything again.
-/

namespace MintBot

open Machine

/-- The row of the stored flag. -/
structure KillSwitchStatus where
  engaged : Bool
  changedAt : Time
  deriving DecidableEq

/-- The texts that a release is confirmed with. -/
inductive ReleasePhrase
  | engaged (changedAt : Time)
  | fileOnly
  deriving DecidableEq

/-- The phrase names when the switch was turned on. -/
def killReleasePhrase (status : KillSwitchStatus) : ReleasePhrase :=
  if status.engaged then .engaged status.changedAt else .fileOnly

inductive KillReleaseOutcome
  | off
  | on
  | released (released : Bool)
  deriving DecidableEq

/-- A call of `killReleaseAction`: the first one of `releaseNow` only asks for the phrase. -/
inductive ReleaseCall
  | preview
  | confirmed
  deriving DecidableEq

/-- What the release does next. -/
inductive KillReleaseStage
  | idle
  /-- Reads the status. -/
  | reading (call : ReleaseCall)
  /-- Looks for the file. -/
  | looking (call : ReleaseCall) (status : KillSwitchStatus)
  /-- Takes a snapshot of the state and decides. -/
  | deciding (call : ReleaseCall) (status : KillSwitchStatus) (fileExists : Bool)
  /-- `releaseKillSwitch` takes its own snapshot. -/
  | releasing
  /-- It reads the stored status. -/
  | comparing (killed : Bool)
  /-- It clears the flag. -/
  | clearing
  /-- It writes the state and the event. -/
  | recording
  /-- The file is deleted. -/
  | unlinking (released : Bool)
  | ended (outcome : Except Error KillReleaseOutcome)

/-- What a release took away: an engagement of the flag by its time, or the file, with the
stops that asked for the file since the review. -/
inductive Removal
  | flag (changedAt : Time)
  | file (stops : List Nat)
  deriving DecidableEq

structure KillReleaseState where
  clock : Time
  flag : KillSwitchStatus
  file : Bool
  /-- The phrase that the owner was shown. -/
  reviewed : ReleasePhrase
  stage : KillReleaseStage
  /-- The stops since the review, those whose flag was not cleared and those whose file was
  not deleted.  No branch reads these, nor what was removed. -/
  later : List Nat
  flagOf : List Nat
  fileOf : List Nat
  removals : List Removal

inductive KillReleaseCommand
  | wait (milliseconds : Nat)
  /-- A stop sets the stored flag, which changes it only when it is off. -/
  | engage (stop : Nat)
  /-- A stop creates the file, unless there is one. -/
  | createFile (stop : Nat)
  /-- `releaseNow` with the phrase that was shown, or `killReleaseAction` with it typed. -/
  | start (tapped : Bool)
  /-- The next step of the release: how many runs are unresolved, and whether the step fails
  where it can. -/
  | proceed (unresolved : Nat) (failure : Option Error)

namespace KillReleaseState

/-- The status that the owner sees, with its phrase. -/
def review (clock : Time) (flag : KillSwitchStatus) (file : Bool) : KillReleaseState where
  clock := clock
  flag := flag
  file := file
  reviewed := killReleasePhrase flag
  stage := .idle
  later := []
  flagOf := []
  fileOf := []
  removals := []

def move (state : KillReleaseState) (stage : KillReleaseStage) : KillReleaseState :=
  { state with stage := stage }

def fail (state : KillReleaseState) (error : Error) : KillReleaseState :=
  state.move (.ended (.error error))

/-- The decision of `killReleaseAction`, and of `releaseNow` after its first call. -/
def decide (state : KillReleaseState) (call : ReleaseCall) (status : KillSwitchStatus)
    (fileExists : Bool) (unresolved : Nat) : KillReleaseState :=
  if ¬ (status.engaged || state.flag.engaged || fileExists) then state.move (.ended (.ok .off))
  else
    match call with
    | .preview =>
        if 0 < unresolved then state.move (.ended (.ok .on))
        else if killReleasePhrase status ≠ state.reviewed then
          state.fail ("KILL_STATE_CHANGED: the kill switch was engaged again since you looked. " ++
            "Send /release to see the current state.")
        else state.move (.reading .confirmed)
    | .confirmed =>
        if 0 < unresolved then state.fail "KILL_RELEASE_BLOCKED_UNRESOLVED_RUNS"
        else if state.reviewed ≠ killReleasePhrase status then
          state.fail ("CONFIRMATION_PHRASE_MISMATCH: run kill-release without --confirm and " ++
            "copy the phrase it prints exactly")
        else state.move .releasing

def clear (state : KillReleaseState) : KillReleaseState :=
  { state.move .recording with
    flag := { engaged := false, changedAt := state.clock }
    flagOf := []
    removals := state.removals ++
      if state.flag.engaged then [.flag state.flag.changedAt] else [] }

def unlink (state : KillReleaseState) (released : Bool) : KillReleaseState :=
  { state.move (.ended (.ok (.released released))) with
    file := false
    fileOf := []
    removals := state.removals ++ if state.file then [.file state.fileOf] else [] }

def proceed (state : KillReleaseState) (unresolved : Nat) (failure : Option Error) :
    KillReleaseStage → KillReleaseState
  | .idle | .ended _ => state
  | .reading call => state.move (.looking call state.flag)
  | .looking call status => state.move (.deciding call status state.file)
  | .deciding call status fileExists => state.decide call status fileExists unresolved
  | .releasing =>
      if 0 < unresolved then state.fail "KILL_RELEASE_BLOCKED_UNRESOLVED_RUNS"
      else state.move (.comparing state.flag.engaged)
  | .comparing killed =>
      if state.flag.engaged = false ∧ killed = false then state.move (.unlinking false)
      else state.move .clearing
  | .clearing =>
      match failure with
      | some error => state.fail error
      | none => state.clear
  | .recording =>
      match failure with
      | some error => state.fail error
      | none => state.move (.unlinking true)
  | .unlinking released =>
      match failure with
      | some error => state.fail error
      | none => state.unlink released

def step (command : KillReleaseCommand) (state : KillReleaseState) :
    Except Error KillReleaseState :=
  match command with
  | .wait milliseconds => .ok { state with clock := state.clock + milliseconds }
  | .engage stop =>
      .ok { state with
        flag := if state.flag.engaged then state.flag
          else { engaged := true, changedAt := state.clock }
        later := state.later ++ [stop]
        flagOf := state.flagOf ++ [stop] }
  | .createFile stop =>
      .ok { state with
        file := true
        later := state.later ++ [stop]
        fileOf := state.fileOf ++ [stop] }
  | .start tapped =>
      match state.stage with
      | .idle => .ok (state.move (.reading (if tapped then .preview else .confirmed)))
      | _ => .error "NOT_NOW"
  | .proceed unresolved failure => .ok (state.proceed unresolved failure state.stage)

/-! ## What a release must leave -/

/-- A later stop is in force when its flag or its file is still there. -/
def InForce (state : KillReleaseState) (stop : Nat) : Prop :=
  stop ∈ state.flagOf ∨ stop ∈ state.fileOf

/-- A removal takes away nothing but the engagement that the reviewed phrase names. -/
def Reviewed (reviewed : ReleasePhrase) : Removal → Prop
  | .flag changedAt => reviewed = .engaged changedAt
  | .file stops => stops = []

structure UndoesOnlyReviewed (state : KillReleaseState) : Prop where
  kept : ∀ outcome, state.stage = .ended outcome →
    (state.removals = [] ∧ ∃ error, outcome = .error error) ∨
      ∀ stop ∈ state.later, state.InForce stop
  reviewed : ∀ removal ∈ state.removals, Reviewed state.reviewed removal

/-- The confirming call has not read the status yet. -/
def Before (state : KillReleaseState) : Prop :=
  match state.stage with
  | .idle | .reading _ | .looking .preview _ | .deciding .preview _ _ => True
  | _ => False

/-- The flag is not cleared any more. -/
def Cleared (state : KillReleaseState) : Prop :=
  match state.stage with
  | .recording | .unlinking _ | .ended _ => True
  | _ => False

def Ended (state : KillReleaseState) : Prop :=
  match state.stage with
  | .ended _ => True
  | _ => False

/-- A stop sets the flag while that is off and before the status that confirms a release was
read, or after the flag was cleared.  It creates the file after the release, or before that
status was read when the phrase does not fit any more. -/
def Lasting (state : KillReleaseState) : KillReleaseCommand → Prop
  | .engage _ => (state.flag.engaged = false ∧ state.Before) ∨ state.Cleared
  | .createFile _ => state.Ended ∨ (state.Before ∧ killReleasePhrase state.flag ≠ state.reviewed)
  | _ => True

/-! ## Invariants -/

/-- What is known at a stage. -/
def Stands (state : KillReleaseState) : KillReleaseStage → Prop
  | .idle | .reading _ | .looking .preview _ | .deciding .preview _ _ =>
      state.removals = [] ∧
      (killReleasePhrase state.flag = state.reviewed → state.later = []) ∧
      (state.flag.engaged = false → killReleasePhrase state.flag = state.reviewed)
  | .looking .confirmed status | .deciding .confirmed status _ =>
      state.removals = [] ∧ (killReleasePhrase status = state.reviewed →
        killReleasePhrase state.flag = state.reviewed ∧ state.later = [])
  | .releasing | .comparing _ | .clearing =>
      state.removals = [] ∧ killReleasePhrase state.flag = state.reviewed ∧ state.later = []
  | .recording | .unlinking _ =>
      (∀ stop ∈ state.later, stop ∈ state.flagOf) ∧ state.fileOf = []
  | .ended outcome =>
      (state.removals = [] ∧ ∃ error, outcome = .error error) ∨
        ∀ stop ∈ state.later, state.InForce stop

structure Invariant (state : KillReleaseState) : Prop where
  flagOff : state.flag.engaged = false → state.flagOf = []
  known : ∀ stop ∈ state.fileOf, stop ∈ state.later
  whole : state.removals = [] → ∀ stop ∈ state.later, state.InForce stop
  reviewed : ∀ removal ∈ state.removals, Reviewed state.reviewed removal
  stage : state.Stands state.stage

variable {state next : KillReleaseState}

theorem invariant_review (clock : Time) (flag : KillSwitchStatus) (file : Bool) :
    (review clock flag file).Invariant where
  flagOff _ := rfl
  known _ none := by cases none
  whole _ _ none := by cases none
  reviewed _ none := by cases none
  stage := ⟨rfl, fun _ => rfl, fun _ => rfl⟩

/-- A step that only moves the release on. -/
theorem Invariant.move (invariant : state.Invariant) {stage : KillReleaseStage}
    (stands : state.Stands stage) : (state.move stage).Invariant where
  flagOff := invariant.flagOff
  known := invariant.known
  whole := invariant.whole
  reviewed := invariant.reviewed
  stage := by
    cases stage <;> exact stands

theorem Invariant.wait (invariant : state.Invariant) (milliseconds : Nat) :
    Invariant { state with clock := state.clock + milliseconds } where
  flagOff := invariant.flagOff
  known := invariant.known
  whole := invariant.whole
  reviewed := invariant.reviewed
  stage := by
    have stands := invariant.stage
    change Stands _ state.stage
    generalize state.stage = stage at stands ⊢
    cases stage <;> exact stands

/-- A release that throws before it removed anything. -/
theorem Invariant.fail (invariant : state.Invariant) (untouched : state.removals = [])
    (error : Error) : (state.fail error).Invariant :=
  invariant.move (.inl ⟨untouched, error, rfl⟩)

/-- A release that returns before it removed anything. -/
theorem Invariant.return (invariant : state.Invariant) (untouched : state.removals = [])
    (outcome : KillReleaseOutcome) : (state.move (.ended (.ok outcome))).Invariant :=
  invariant.move (.inr (invariant.whole untouched))

theorem Invariant.decide (invariant : state.Invariant) {call : ReleaseCall}
    {status : KillSwitchStatus} {fileExists : Bool}
    (stands : state.Stands (.deciding call status fileExists)) (unresolved : Nat) :
    (state.decide call status fileExists unresolved).Invariant := by
  unfold KillReleaseState.decide
  split
  · cases call with
    | preview => exact invariant.return stands.1 _
    | confirmed => exact invariant.return stands.1 _
  cases call with
  | preview =>
      dsimp only
      split
      · exact invariant.return stands.1 _
      split
      · exact invariant.fail stands.1 _
      · exact invariant.move stands
  | confirmed =>
      dsimp only
      split
      · exact invariant.fail stands.1 _
      split
      · exact invariant.fail stands.1 _
      · rename_i same
        exact invariant.move ⟨stands.1, stands.2 (not_not.mp same).symm⟩

theorem Invariant.clear (invariant : state.Invariant) (stands : state.Stands .clearing) :
    state.clear.Invariant where
  flagOff _ := rfl
  known := invariant.known
  whole _ stop member := by
    have none : stop ∈ state.later := member
    rw [stands.2.2] at none
    cases none
  reviewed removal member := by
    rcases List.mem_append.mp member with before | new
    · exact invariant.reviewed removal before
    · split at new
      · rename_i engaged
        have phrase : killReleasePhrase state.flag = .engaged state.flag.changedAt := if_pos engaged
        rw [List.mem_singleton.mp new]
        exact stands.2.1.symm.trans phrase
      · cases new
  stage := by
    refine ⟨?_, ?_⟩
    · intro stop member
      have none : stop ∈ state.later := member
      rw [stands.2.2] at none
      cases none
    · refine List.eq_nil_iff_forall_not_mem.mpr fun stop member => ?_
      have none := invariant.known stop member
      rw [stands.2.2] at none
      cases none

theorem Invariant.unlink (invariant : state.Invariant) {released : Bool}
    (stands : state.Stands (.unlinking released)) : (state.unlink released).Invariant where
  flagOff := invariant.flagOff
  known _ none := by cases none
  whole _ stop member := .inl (stands.1 stop member)
  reviewed removal member := by
    rcases List.mem_append.mp member with before | new
    · exact invariant.reviewed removal before
    · split at new
      · rw [List.mem_singleton.mp new]
        exact stands.2
      · cases new
  stage := .inr fun stop member => .inl (stands.1 stop member)

theorem Invariant.proceed (invariant : state.Invariant) (unresolved : Nat)
    (failure : Option Error) : (state.proceed unresolved failure state.stage).Invariant := by
  have stands := invariant.stage
  cases stage : state.stage with
  | idle | ended => exact invariant
  | reading call =>
      rw [stage] at stands
      cases call with
      | preview => exact invariant.move stands
      | confirmed => exact invariant.move ⟨stands.1, fun same => ⟨same, stands.2.1 same⟩⟩
  | looking call status =>
      rw [stage] at stands
      cases call with
      | preview => exact invariant.move stands
      | confirmed => exact invariant.move stands
  | deciding call status fileExists =>
      rw [stage] at stands
      exact invariant.decide stands unresolved
  | releasing =>
      rw [stage] at stands
      unfold KillReleaseState.proceed
      dsimp only
      split
      · exact invariant.fail stands.1 _
      · exact invariant.move stands
  | comparing killed =>
      rw [stage] at stands
      unfold KillReleaseState.proceed
      dsimp only
      split
      · refine invariant.move ⟨?_, ?_⟩
        · intro stop member
          rw [stands.2.2] at member
          cases member
        · refine List.eq_nil_iff_forall_not_mem.mpr fun stop member => ?_
          have none := invariant.known stop member
          rw [stands.2.2] at none
          cases none
      · exact invariant.move stands
  | clearing =>
      rw [stage] at stands
      cases failure with
      | some error => exact invariant.fail stands.1 error
      | none => exact invariant.clear stands
  | recording =>
      rw [stage] at stands
      cases failure with
      | some error => exact invariant.move (.inr fun stop member => .inl (stands.1 stop member))
      | none => exact invariant.move stands
  | unlinking released =>
      rw [stage] at stands
      cases failure with
      | some error => exact invariant.move (.inr fun stop member => .inl (stands.1 stop member))
      | none => exact invariant.unlink stands

/-- The state after a stop set the flag. -/
def engage (state : KillReleaseState) (stop : Nat) : KillReleaseState :=
  { state with
    flag := if state.flag.engaged then state.flag
      else { engaged := true, changedAt := state.clock }
    later := state.later ++ [stop]
    flagOf := state.flagOf ++ [stop] }

def createFile (state : KillReleaseState) (stop : Nat) : KillReleaseState :=
  { state with
    file := true
    later := state.later ++ [stop]
    fileOf := state.fileOf ++ [stop] }

theorem engage_engaged (stop : Nat) : (state.engage stop).flag.engaged = true := by
  unfold engage
  dsimp only
  split
  · assumption
  · rfl

theorem inForce_engage {stop : Nat} (whole : ∀ stop ∈ state.later, state.InForce stop) :
    ∀ other ∈ (state.engage stop).later, (state.engage stop).InForce other := by
  intro other member
  rcases List.mem_append.mp member with before | new
  · exact (whole other before).imp_left (List.mem_append_left _)
  · exact .inl (List.mem_append_right _ new)

theorem inForce_createFile {stop : Nat} (whole : ∀ stop ∈ state.later, state.InForce stop) :
    ∀ other ∈ (state.createFile stop).later, (state.createFile stop).InForce other := by
  intro other member
  rcases List.mem_append.mp member with before | new
  · exact (whole other before).imp_right (List.mem_append_left _)
  · exact .inr (List.mem_append_right _ new)

/-- An engagement is never the one that the phrase of a stop by file names. -/
theorem phrase_engage {stop : Nat} (off : state.flag.engaged = false)
    (same : killReleasePhrase state.flag = state.reviewed) :
    killReleasePhrase (state.engage stop).flag ≠ state.reviewed := by
  have fileOnly : killReleasePhrase state.flag = .fileOnly := if_neg (by simp [off])
  have engaged : killReleasePhrase (state.engage stop).flag = .engaged _ :=
    if_pos (engage_engaged stop)
  rw [engaged, ← same, fileOnly]
  exact ReleasePhrase.noConfusion

/-- What a stop before the confirming status leaves to know: the phrase does not fit. -/
theorem Stands.doomed (before : state.Before) (stands : state.Stands state.stage)
    {after : KillReleaseState} (sameStage : after.stage = state.stage)
    (sameRemovals : after.removals = state.removals)
    (unfit : killReleasePhrase after.flag ≠ after.reviewed)
    (engaged : after.flag.engaged = true) : after.Stands after.stage := by
  rw [sameStage]
  unfold Before at before
  split at before
  all_goals first
    | exact before.elim
    | rename_i stage
      rw [stage] at stands ⊢
      exact ⟨sameRemovals.trans stands.1, fun same => absurd same unfit,
        fun off => absurd (off.symm.trans engaged) Bool.false_ne_true⟩

theorem Invariant.engage (invariant : state.Invariant) {stop : Nat}
    (lasting : (state.flag.engaged = false ∧ state.Before) ∨ state.Cleared) :
    (state.engage stop).Invariant where
  flagOff off := absurd (off.symm.trans (engage_engaged stop)) Bool.false_ne_true
  known other member := List.mem_append_left _ (invariant.known other member)
  whole untouched := inForce_engage (invariant.whole untouched)
  reviewed := invariant.reviewed
  stage := by
    have stands := invariant.stage
    rcases lasting with ⟨off, before⟩ | cleared
    · refine Stands.doomed before stands rfl rfl ?_ (engage_engaged stop)
      refine phrase_engage off ?_
      unfold Before at before
      split at before
      all_goals first
        | exact before.elim
        | rename_i stage
          rw [stage] at stands
          exact stands.2.2 off
    · change (state.engage stop).Stands state.stage
      unfold Cleared at cleared
      split at cleared
      · rename_i stage
        rw [stage] at stands ⊢
        exact ⟨fun other member => (List.mem_append.mp member).elim
          (fun old => List.mem_append_left _ (stands.1 other old)) (List.mem_append_right _),
          stands.2⟩
      · rename_i stage
        rw [stage] at stands ⊢
        exact ⟨fun other member => (List.mem_append.mp member).elim
          (fun old => List.mem_append_left _ (stands.1 other old)) (List.mem_append_right _),
          stands.2⟩
      · rename_i stage
        rw [stage] at stands ⊢
        exact stands.imp id inForce_engage
      · exact cleared.elim

theorem Invariant.createFile (invariant : state.Invariant) {stop : Nat}
    (lasting : state.Ended ∨ (state.Before ∧ killReleasePhrase state.flag ≠ state.reviewed)) :
    (state.createFile stop).Invariant where
  flagOff := invariant.flagOff
  known other member := (List.mem_append.mp member).elim
    (fun old => List.mem_append_left _ (invariant.known other old)) (List.mem_append_right _)
  whole untouched := inForce_createFile (invariant.whole untouched)
  reviewed := invariant.reviewed
  stage := by
    have stands := invariant.stage
    rcases lasting with ended | ⟨before, unfit⟩
    · change (state.createFile stop).Stands state.stage
      unfold Ended at ended
      split at ended
      · rename_i stage
        rw [stage] at stands ⊢
        exact stands.imp id inForce_createFile
      · exact ended.elim
    · refine Stands.doomed before stands rfl rfl unfit ?_
      change state.flag.engaged = true
      by_contra off
      refine unfit ?_
      unfold Before at before
      split at before
      all_goals first
        | exact before.elim
        | rename_i stage
          rw [stage] at stands
          exact stands.2.2 (by simpa using off)

theorem Invariant.step {command : KillReleaseCommand} (invariant : state.Invariant)
    (lasting : state.Lasting command) (stepped : step command state = .ok next) :
    next.Invariant := by
  cases command with
  | wait milliseconds =>
      cases stepped
      exact invariant.wait milliseconds
  | engage stop =>
      cases stepped
      exact invariant.engage lasting
  | createFile stop =>
      cases stepped
      exact invariant.createFile lasting
  | start tapped =>
      unfold KillReleaseState.step at stepped
      dsimp only at stepped
      split at stepped
      · rename_i idle
        cases stepped
        have stands := invariant.stage
        rw [idle] at stands
        exact invariant.move stands
      · cases stepped
  | proceed unresolved failure =>
      cases stepped
      exact invariant.proceed unresolved failure

/-- When every stop lasts, a release undoes only what was reviewed. -/
theorem release_undoes_only_reviewed {clock : Time} {flag : KillSwitchStatus} {file : Bool}
    (run : Reaches step Lasting (review clock flag file) state) : UndoesOnlyReviewed state := by
  have invariant : state.Invariant :=
    run.invariant (invariant_review clock flag file)
      fun _ _ _ invariant lasting stepped => invariant.step lasting stepped
  refine ⟨?_, invariant.reviewed⟩
  intro outcome ended
  have stands := invariant.stage
  rw [ended] at stands
  exact stands

/-! ### Runs -/

/-- The owner saw a switch that only the file held, and taps. -/
def releaseSteps : List KillReleaseCommand :=
  .start true :: List.replicate 9 (.proceed 0 none)

theorem release_of_file : UndoesOnlyReviewed (applyAll step
    (review 5 { engaged := false, changedAt := 0 } true) releaseSteps) := by
  refine release_undoes_only_reviewed ((Reaches.refl _).applyAll ?_)
  simp only [releaseSteps, List.replicate, Allowed, Lasting, and_self]

/-- Another process stops everything while the release is between its check and the clearing
of the flag: its stop is undone. -/
def stoppedBetween : List KillReleaseCommand :=
  .start false :: List.replicate 3 (.proceed 0 none) ++ [.wait 10, .engage 1] ++
    List.replicate 5 (.proceed 0 none)

theorem later_stop_undone : ¬ ∀ (clock : Time) (flag : KillSwitchStatus) (file : Bool)
    (state : KillReleaseState), Reaches step (fun _ _ => True) (review clock flag file) state →
      UndoesOnlyReviewed state := by
  intro claim
  let state := applyAll step (review 5 { engaged := false, changedAt := 0 } true) stoppedBetween
  have only : UndoesOnlyReviewed state :=
    claim _ _ _ _ ((Reaches.refl _).applyAll (allowed_true _ _ _))
  have removed : .flag 15 ∈ state.removals := by decide
  cases only.reviewed _ removed

end KillReleaseState
end MintBot
