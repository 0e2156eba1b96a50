import MintBot.Library.Machine
import MintBot.Library.WorkQueue
import MintBot.Telegram.Commands
import MintBot.Types
import Mathlib.Data.List.Sort
import Mathlib.Tactic.NormNum

/-!
# Polling for updates

The service asks the bot for updates from a stored offset on.  It goes through an answer by
the numbers of its updates, stores the offset behind an update and then hands it on: a stop
command inside the loop, everything else to one of a few workers.

A run of the machine has any answers, failures, crashes and restarts.  The stored offset
survives a crash, the loop and its queue do not.
-/

namespace MintBot

open Fallible Machine

/-- Where the polling loop of a process stands. -/
inductive PollPhase
  /-- Between two answers: asking, or waiting to ask again. -/
  | asking
  /-- The updates of an answer whose turn is still to come. -/
  | batch (rest : List TelegramUpdate)
  /-- A stop command is handled before the rest. -/
  | stopping (update : TelegramUpdate) (rest : List TelegramUpdate)

/-- The loop and the workers of one process. -/
structure PollProcess where
  phase : PollPhase := .asking
  queue : WorkQueue TelegramUpdate := .idle

structure PollState where
  /-- The row of `telegram_poll_state`. -/
  nextOffset : Option Int := none
  process : Option PollProcess := none
  /-- The updates that were handed to the command handler, in every process. -/
  handed : List TelegramUpdate := []
  /-- How often a worker was done with its update. -/
  finished : Nat := 0

/-- How the offset is read and stored when the turn of an update comes. -/
inductive OffsetAccess
  | stored
  | notStored
  | notRead
  deriving DecidableEq

inductive PollCommand
  | boot
  | answered (updates : List TelegramUpdate)
  | turn (offset : OffsetAccess)
  | stopHandled
  | workerDone (worker : Nat)
  | crash

namespace PollState

def isSafeInteger (number : ℚ) : Bool :=
  number.isInt && (number.num.natAbs : Int) ≤ maxSafeInteger

def pollOffset (state : PollState) : Int :=
  state.nextOffset.getD 0

/-- The stored offset only moves forward. -/
def savePollOffset (nextOffset : Option Int) (offset : ℚ) : Except Error (Option Int) := do
  refuse (isSafeInteger offset = false ∨ offset < 0) "TELEGRAM_POLL_OFFSET_INVALID"
  match nextOffset with
  | none => pure (some offset.num)
  | some stored => pure (some (if stored ≤ offset.num then offset.num else stored))

/-- The workers take what waits. -/
def drain (workers : Nat) (state : PollState) (phase : PollPhase)
    (queue : WorkQueue TelegramUpdate) : PollState :=
  { state with
    process := some { phase := phase, queue := (queue.drain workers).2 }
    handed := state.handed ++ (queue.drain workers).1 }

def moveTo (state : PollState) (process : PollProcess) (phase : PollPhase) : PollState :=
  { state with process := some { process with phase := phase } }

/-- What becomes of an update whose offset is stored. -/
def handle (workers : Nat) (state : PollState) (process : PollProcess) (update : TelegramUpdate)
    (rest : List TelegramUpdate) : PollState :=
  if isStopUpdate update then
    { state.moveTo process (.stopping update rest) with handed := state.handed ++ [update] }
  else state.drain workers (.batch rest) (process.queue.push update)

/-- The turn of an update: it is passed over, or its offset is stored and it is handed on.
A failure ends the poll; the rest of the answer is asked for again. -/
def turn (workers : Nat) (state : PollState) (process : PollProcess) (update : TelegramUpdate)
    (rest : List TelegramUpdate) (access : OffsetAccess) : PollState :=
  if isSafeInteger update.updateId = false then state.moveTo process (.batch rest)
  else if access = .notRead then state.moveTo process .asking
  else if update.updateId + 1 ≤ state.pollOffset then state.moveTo process (.batch rest)
  else if access = .notStored then state.moveTo process .asking
  else
    match savePollOffset state.nextOffset (update.updateId + 1) with
    | .ok saved => handle workers { state with nextOffset := saved } process update rest
    | .error _ => state.moveTo process .asking

/-- A command of a running process; those that do not fit its phase are refused. -/
def processStep (workers : Nat) (state : PollState) (process : PollProcess) :
    PollCommand → Except Error PollState
  | .answered updates =>
      match process.phase with
      | .asking =>
          .ok (state.moveTo process (.batch
            (updates.insertionSort fun left right => left.updateId ≤ right.updateId)))
      | _ => .error "NOT_ASKING"
  | .turn access =>
      match process.phase with
      | .batch [] => .ok (state.moveTo process .asking)
      | .batch (update :: rest) => .ok (state.turn workers process update rest access)
      | _ => .error "NO_TURN"
  | .stopHandled =>
      match process.phase with
      | .stopping _ rest => .ok (state.moveTo process (.batch rest))
      | _ => .error "NOT_STOPPING"
  | .workerDone worker => do
      refuse (process.queue.running.length ≤ worker) "IDLE_WORKER"
      pure { state.drain workers process.phase (process.queue.finish worker) with
        finished := state.finished + 1 }
  | .boot => .error "RUNNING"
  | .crash => .ok { state with process := none }

def step (workers : Nat) (command : PollCommand) (state : PollState) : Except Error PollState :=
  match state.process with
  | some process => processStep workers state process command
  | none =>
      match command with
      | .boot => .ok { state with process := some {} }
      | _ => .error "NOT_RUNNING"

/-! ## What a step does -/

/-- What waits in the queue of the running process. -/
def waiting (state : PollState) : List TelegramUpdate :=
  match state.process with
  | some process => process.queue.waiting
  | none => []

/-- The updates whose offset was stored and that no crash has lost. -/
def accepted (state : PollState) : List TelegramUpdate :=
  state.handed ++ state.waiting

theorem isInt_of_safe {number : ℚ} (safe : isSafeInteger number = true) : number.isInt = true := by
  simp only [isSafeInteger, Bool.and_eq_true] at safe
  exact safe.1

theorem num_of_safe {number : ℚ} (safe : isSafeInteger number = true) :
    (number.num : ℚ) = number :=
  Rat.coe_int_num_of_den_eq_one (by simpa [Rat.isInt] using isInt_of_safe safe)

/-- An offset above the stored one is stored. -/
theorem savePollOffset_eq_ok {nextOffset saved : Option Int} {offset : ℚ}
    (forward : ((nextOffset.getD 0 : Int) : ℚ) < offset)
    (success : savePollOffset nextOffset offset = .ok saved) :
    saved = some offset.num ∧ (offset.num : ℚ) = offset := by
  simp only [savePollOffset, bind_eq_ok, refuse_eq_ok] at success
  obtain ⟨_, valid, success⟩ := success
  have safe : isSafeInteger offset = true := by
    by_contra unsafeOffset
    exact valid (.inl (by simpa using unsafeOffset))
  have whole := num_of_safe safe
  cases nextOffset with
  | none =>
      rw [pure_eq_ok] at success
      exact ⟨success.symm, whole⟩
  | some stored =>
      rw [pure_eq_ok] at success
      have behind : stored ≤ offset.num := by
        rw [Option.getD_some, ← whole] at forward
        exact_mod_cast forward.le
      rw [if_pos behind] at success
      exact ⟨success.symm, whole⟩

theorem drain_accepted (workers : Nat) (state : PollState) (phase : PollPhase)
    (queue : WorkQueue TelegramUpdate) :
    (state.drain workers phase queue).accepted = state.handed ++ queue.waiting := by
  simp only [accepted, drain, waiting]
  rw [List.append_assoc, queue.drain_append workers]

/-- A handled update is accepted behind the others. -/
theorem handle_accepted {workers : Nat} {state : PollState} {process : PollProcess}
    (running : state.process = some process) (update : TelegramUpdate)
    (rest : List TelegramUpdate) (saved : Option Int) :
    (handle workers { state with nextOffset := saved } process update rest).accepted.Perm
      (state.accepted ++ [update]) := by
  unfold handle
  split
  · simp only [accepted, moveTo, waiting, running]
    rw [List.append_assoc, List.append_assoc]
    exact List.perm_append_comm.append_left state.handed
  · rw [drain_accepted]
    simp only [accepted, waiting, running, WorkQueue.push]
    rw [List.append_assoc]

theorem handle_nextOffset (workers : Nat) (state : PollState) (process : PollProcess)
    (update : TelegramUpdate) (rest : List TelegramUpdate) :
    (handle workers state process update rest).nextOffset = state.nextOffset := by
  unfold handle
  split <;> rfl

/-- What one command can do to the state. -/
inductive Effect (workers : Nat) (state : PollState) : PollCommand → PollState → Prop
  | booted (down : state.process = none) :
      Effect workers state .boot { state with process := some {} }
  | crashed : Effect workers state .crash { state with process := none }
  | moved {process : PollProcess} (running : state.process = some process)
      (command : PollCommand) (phase : PollPhase) :
      Effect workers state command (state.moveTo process phase)
  | handled {process : PollProcess} (running : state.process = some process)
      (update : TelegramUpdate) (rest : List TelegramUpdate) {saved : Option Int}
      (newer : (state.pollOffset : ℚ) < update.updateId + 1)
      (stored : savePollOffset state.nextOffset (update.updateId + 1) = .ok saved) :
      Effect workers state (.turn .stored)
        (handle workers { state with nextOffset := saved } process update rest)
  | done {process : PollProcess} (running : state.process = some process) {worker : Nat}
      (busy : worker < process.queue.running.length) :
      Effect workers state (.workerDone worker)
        { state.drain workers process.phase (process.queue.finish worker) with
          finished := state.finished + 1 }

theorem turn_effect (workers : Nat) {state : PollState} {process : PollProcess}
    (running : state.process = some process) (update : TelegramUpdate)
    (rest : List TelegramUpdate) (access : OffsetAccess) :
    Effect workers state (.turn access) (state.turn workers process update rest access) := by
  unfold turn
  split
  · exact .moved running _ _
  split
  · exact .moved running _ _
  rename_i read
  split
  · exact .moved running _ _
  rename_i newer
  split
  · exact .moved running _ _
  rename_i written
  split
  · rename_i saved stored
    cases access with
    | stored => exact .handled running update rest (not_le.mp newer) stored
    | notStored => exact absurd rfl written
    | notRead => exact absurd rfl read
  · exact .moved running _ _

theorem step_effect {workers : Nat} {command : PollCommand} {state next : PollState}
    (success : step workers command state = .ok next) : Effect workers state command next := by
  unfold step at success
  cases running : state.process with
  | none =>
      simp only [running] at success
      cases command with
      | boot =>
          cases success
          exact .booted running
      | _ => cases success
  | some process =>
      simp only [running] at success
      cases command with
      | boot => cases success
      | crash =>
          cases success
          exact .crashed
      | answered updates =>
          simp only [processStep] at success
          split at success
          · cases success
            exact .moved running _ _
          · cases success
      | turn access =>
          simp only [processStep] at success
          split at success
          · cases success
            exact .moved running _ _
          · cases success
            exact turn_effect workers running _ _ access
          · cases success
      | stopHandled =>
          simp only [processStep] at success
          split at success
          · cases success
            exact .moved running _ _
          · cases success
      | workerDone worker =>
          simp only [processStep, bind_eq_ok, refuse_eq_ok, pure_eq_ok] at success
          obtain ⟨_, busy, rfl⟩ := success
          exact .done running (not_le.mp busy)

/-- A step either accepts one update, storing the offset behind it, or accepts nothing and
leaves the offset. -/
def Accepts (state next : PollState) : Prop :=
  (next.accepted.Sublist state.accepted ∧ next.nextOffset = state.nextOffset) ∨
    ∃ update, next.accepted.Perm (state.accepted ++ [update]) ∧
      (state.pollOffset : ℚ) < update.updateId + 1 ∧
      (next.pollOffset : ℚ) = update.updateId + 1

theorem step_accepts {workers : Nat} {command : PollCommand} {state next : PollState}
    (success : step workers command state = .ok next) : state.Accepts next := by
  cases step_effect success with
  | booted down => exact .inl ⟨by simp [accepted, waiting, down, WorkQueue.idle], rfl⟩
  | crashed => exact .inl ⟨by simp [accepted, waiting], rfl⟩
  | moved running command phase =>
      exact .inl ⟨by simp [accepted, moveTo, waiting, running], rfl⟩
  | handled running update rest newer stored =>
      obtain ⟨rfl, whole⟩ := savePollOffset_eq_ok newer stored
      refine .inr ⟨update, handle_accepted running update rest _, newer, ?_⟩
      simp only [pollOffset, handle_nextOffset, Option.getD_some]
      exact whole
  | @done process running worker busy =>
      have same : (state.drain workers process.phase (process.queue.finish worker)).accepted =
          state.accepted := by
        rw [drain_accepted]
        simp only [accepted, waiting, running, WorkQueue.finish]
      exact .inl ⟨same ▸ List.Sublist.refl _, rfl⟩

/-! ## At most once, and never back -/

/-- The accepted updates are apart and behind the stored offset. -/
structure Ordered (state : PollState) : Prop where
  apart : (state.accepted.map TelegramUpdate.updateId).Nodup
  behind : ∀ update ∈ state.accepted, update.updateId + 1 ≤ state.pollOffset

theorem Accepts.forward {state next : PollState} (accepts : state.Accepts next) :
    state.pollOffset ≤ next.pollOffset := by
  rcases accepts with ⟨-, same⟩ | ⟨update, -, newer, stored⟩
  · exact le_of_eq (by rw [pollOffset, pollOffset, same])
  · rw [← stored] at newer
    exact_mod_cast newer.le

theorem Accepts.ordered {state next : PollState} (accepts : state.Accepts next)
    (ordered : state.Ordered) : next.Ordered := by
  have forward := accepts.forward
  rcases accepts with ⟨fewer, same⟩ | ⟨update, perm, newer, stored⟩
  · refine ⟨ordered.apart.sublist (fewer.map _), fun update member => ?_⟩
    have behind := ordered.behind update (fewer.subset member)
    rwa [pollOffset, same]
  · constructor
    · rw [(perm.map TelegramUpdate.updateId).nodup_iff, List.map_append, List.map_singleton,
        ← List.concat_eq_append]
      refine ordered.apart.concat fun known => ?_
      obtain ⟨other, member, sameId⟩ := List.mem_map.mp known
      have behind := ordered.behind other member
      rw [sameId] at behind
      exact absurd newer (not_lt.mpr behind)
    · intro other member
      rcases List.mem_append.mp (perm.subset member) with before | now
      · calc
          other.updateId + 1 ≤ state.pollOffset := ordered.behind other before
          _ ≤ next.pollOffset := by exact_mod_cast forward
      · rw [List.mem_singleton.mp now, stored]

variable {workers : Nat} {guard : PollState → PollCommand → Prop}

theorem ordered_of_reaches {state : PollState}
    (run : Reaches (step workers) guard {} state) : state.Ordered :=
  run.invariant ⟨List.nodup_nil, fun _ member => nomatch member⟩
    fun _ _ _ ordered _ success => (step_accepts success).ordered ordered

theorem pollOffset_le_of_reaches {source target : PollState}
    (run : Reaches (step workers) guard source target) :
    source.pollOffset ≤ target.pollOffset :=
  run.invariant (I := fun state => source.pollOffset ≤ state.pollOffset) le_rfl
    fun _ _ _ below _ success => below.trans (step_accepts success).forward

/-! ## Nothing is lost to a worker -/

/-- No more than the workers are busy, and something waits only while they all are. -/
structure Working (workers : Nat) (state : PollState) : Prop where
  bounded : ∀ process, state.process = some process → process.queue.Bounded workers
  saturated : ∀ process, state.process = some process → process.queue.Saturated workers

theorem working_drain {queue : WorkQueue TelegramUpdate} (bounded : queue.Bounded workers)
    (state : PollState) (phase : PollPhase) : (state.drain workers phase queue).Working workers := by
  constructor
  · rintro _ ⟨⟩
    exact WorkQueue.drain_bounded bounded
  · rintro _ ⟨⟩
    exact queue.drain_saturated

theorem Working.step {command : PollCommand} {state next : PollState}
    (working : state.Working workers) (success : step workers command state = .ok next) :
    next.Working workers := by
  cases step_effect success with
  | booted down =>
      constructor <;> rintro _ ⟨⟩
      · exact Nat.zero_le workers
      · exact .inl rfl
  | crashed => constructor <;> rintro _ ⟨⟩
  | @moved process running command phase =>
      constructor <;> rintro _ ⟨⟩
      · exact working.bounded process running
      · exact working.saturated process running
  | @handled process running update rest saved newer stored =>
      unfold handle
      split
      · constructor <;> rintro _ ⟨⟩
        · exact working.bounded process running
        · exact working.saturated process running
      · have bounded : (process.queue.push update).Bounded workers :=
          working.bounded process running
        exact working_drain bounded _ _
  | @done process running worker busy =>
      have drained := working_drain
        (WorkQueue.finish_bounded (working.bounded process running) worker) state process.phase
      exact ⟨drained.bounded, drained.saturated⟩

theorem working_of_reaches {state : PollState}
    (run : Reaches (step workers) guard {} state) : state.Working workers :=
  run.invariant (by constructor <;> rintro _ ⟨⟩) fun _ _ _ working _ success => working.step success

/-- A crash of the process is the only command that loses what waits. -/
def WithoutCrash (_ : PollState) : PollCommand → Prop
  | .crash => False
  | _ => True

/-- The update was handed on, or the workers reach it before they were done so often. -/
def HandedWithin (update : TelegramUpdate) (completions : Nat) (state : PollState) : Prop :=
  update ∈ state.handed ∨
    ∃ before after, state.waiting = before ++ update :: after ∧
      state.finished + before.length < completions

theorem handedWithin_drain {update : TelegramUpdate} {completions : Nat} {state : PollState}
    {queue : WorkQueue TelegramUpdate} {before after : List TelegramUpdate}
    (waits : queue.waiting = before ++ update :: after)
    (soon : state.finished + before.length < completions) (phase : PollPhase) :
    HandedWithin update completions (state.drain workers phase queue) := by
  rcases WorkQueue.drain_split workers waits with started | ⟨left, waiting, same⟩
  · exact .inl (List.mem_append_right _ started)
  · refine .inr ⟨left, after, waiting, lt_of_le_of_lt ?_ soon⟩
    rw [same, List.length_append]
    simp only [drain]
    omega

theorem HandedWithin.handle {update : TelegramUpdate} {completions : Nat} {state : PollState}
    (within : HandedWithin update completions state) {process : PollProcess}
    (running : state.process = some process) (other : TelegramUpdate)
    (rest : List TelegramUpdate) (saved : Option Int) :
    HandedWithin update completions
      (handle workers { state with nextOffset := saved } process other rest) := by
  unfold PollState.handle
  rcases within with handed | ⟨before, after, waits, soon⟩
  · refine .inl ?_
    split <;> exact List.mem_append_left _ handed
  · simp only [waiting, running] at waits
    split
    · exact .inr ⟨before, after, waits, soon⟩
    · have queued : (process.queue.push other).waiting = before ++ update :: (after ++ [other]) := by
        simp only [WorkQueue.push, waits, List.append_assoc, List.cons_append]
      exact handedWithin_drain queued soon _

/-- A worker that is done brings every waiting update nearer. -/
theorem HandedWithin.workerDone {update : TelegramUpdate} {completions : Nat}
    {state : PollState} (working : state.Working workers)
    (within : HandedWithin update completions state) {process : PollProcess}
    (running : state.process = some process) {worker : Nat}
    (busy : worker < process.queue.running.length) :
    HandedWithin update completions
      { state.drain workers process.phase (process.queue.finish worker) with
        finished := state.finished + 1 } := by
  rcases within with handed | ⟨before, after, waits, soon⟩
  · exact .inl (List.mem_append_left _ handed)
  simp only [waiting, running] at waits
  have waits' : (process.queue.finish worker).waiting = before ++ update :: after := waits
  have free := WorkQueue.finish_free (working.bounded process running) busy
  have started := WorkQueue.drain_of_free (by rw [waits']; simp) free
  rcases WorkQueue.drain_split workers waits' with taken | ⟨left, waiting, same⟩
  · exact .inl (List.mem_append_right _ taken)
  · refine .inr ⟨left, after, waiting, ?_⟩
    have fewer := List.length_pos_iff.mpr started
    rw [same, List.length_append] at soon
    change state.finished + 1 + left.length < completions
    omega

theorem HandedWithin.step {update : TelegramUpdate} {completions : Nat}
    {command : PollCommand} {state next : PollState} (working : state.Working workers)
    (alive : WithoutCrash state command) (within : HandedWithin update completions state)
    (success : step workers command state = .ok next) :
    HandedWithin update completions next := by
  cases step_effect success with
  | booted down =>
      rcases within with handed | ⟨before, after, waits, -⟩
      · exact .inl handed
      · simp [waiting, down] at waits
  | crashed => exact absurd alive id
  | moved running command phase =>
      rcases within with handed | ⟨before, after, waits, soon⟩
      · exact .inl handed
      · refine .inr ⟨before, after, ?_, soon⟩
        simpa only [waiting, running, moveTo] using waits
  | handled running other rest newer stored => exact within.handle running other rest _
  | done running busy => exact within.workerDone working running busy

theorem handedWithin_of_reaches {update : TelegramUpdate} {completions : Nat}
    {source target : PollState} (working : source.Working workers)
    (within : HandedWithin update completions source)
    (run : Reaches (step workers) WithoutCrash source target) :
    HandedWithin update completions target :=
  (run.invariant (I := fun state => state.Working workers ∧ HandedWithin update completions state)
    ⟨working, within⟩ fun _ _ _ holds alive success =>
      ⟨holds.1.step success, holds.2.step holds.1 alive success⟩).2

/-! ## The turn of an update -/

/-- The offset behind the update can be stored. -/
def Storable (update : TelegramUpdate) : Prop :=
  isSafeInteger (update.updateId + 1) = true

instance (update : TelegramUpdate) : Decidable (Storable update) :=
  inferInstanceAs (Decidable (_ = true))

theorem savePollOffset_of_storable {state : PollState} (started : 0 ≤ state.pollOffset)
    {update : TelegramUpdate} (newer : (state.pollOffset : ℚ) < update.updateId + 1)
    (storable : Storable update) :
    ∃ saved, savePollOffset state.nextOffset (update.updateId + 1) = .ok saved := by
  have positive : ¬ update.updateId + 1 < 0 := by
    have : (0 : ℚ) ≤ state.pollOffset := by exact_mod_cast started
    exact not_lt.mpr (this.trans newer.le)
  have valid : ¬ (isSafeInteger (update.updateId + 1) = false ∨ update.updateId + 1 < 0) := by
    rintro (invalid | negative)
    · rw [show isSafeInteger (update.updateId + 1) = true from storable] at invalid
      cases invalid
    · exact positive negative
  simp only [savePollOffset, bind_eq_ok, refuse_eq_ok]
  cases state.nextOffset with
  | none => exact ⟨_, ⟨⟩, valid, rfl⟩
  | some stored => exact ⟨_, ⟨⟩, valid, rfl⟩

/-- A newer update whose offset is stored is handed on. -/
theorem turn_stored (workers : Nat) {state : PollState} (process : PollProcess)
    {update : TelegramUpdate} (rest : List TelegramUpdate) (started : 0 ≤ state.pollOffset)
    (safe : isSafeInteger update.updateId = true)
    (newer : (state.pollOffset : ℚ) < update.updateId + 1) (storable : Storable update) :
    ∃ saved, state.turn workers process update rest .stored =
      handle workers { state with nextOffset := saved } process update rest := by
  obtain ⟨saved, stored⟩ := savePollOffset_of_storable started newer storable
  refine ⟨saved, ?_⟩
  unfold turn
  rw [if_neg (by simp [safe]), if_neg (by decide), if_neg (not_le.mpr newer),
    if_neg (by decide), stored]

/-- A turn whose offset is stored leaves the loop with the rest of the answer. -/
theorem turn_loops (workers : Nat) {state : PollState} (started : 0 ≤ state.pollOffset) {process : PollProcess}
    {update : TelegramUpdate} (rest : List TelegramUpdate)
    (storable : isSafeInteger update.updateId = true → Storable update) :
    ∃ process', (state.turn workers process update rest .stored).process = some process' ∧
      (process'.phase = .batch rest ∨ process'.phase = .stopping update rest) := by
  by_cases safe : isSafeInteger update.updateId = true
  · by_cases newer : (state.pollOffset : ℚ) < update.updateId + 1
    · obtain ⟨saved, handed⟩ := turn_stored workers process rest started safe newer (storable safe)
      rw [handed]
      unfold handle
      split
      · exact ⟨_, rfl, .inr rfl⟩
      · exact ⟨_, rfl, .inl rfl⟩
    · unfold turn
      rw [if_neg (by simp [safe]), if_neg (by decide), if_pos (not_lt.mp newer)]
      exact ⟨_, rfl, .inl rfl⟩
  · unfold turn
    rw [if_pos (by simpa using safe)]
    exact ⟨_, rfl, .inl rfl⟩

/-- The commands of the loop itself, none of which a worker or its queue takes part in. -/
def OwnCommand (command : PollCommand) : Prop :=
  command = .turn .stored ∨ command = .stopHandled

theorem step_turn {state : PollState} {process : PollProcess}
    (running : state.process = some process) {update : TelegramUpdate}
    {rest : List TelegramUpdate} (phase : process.phase = .batch (update :: rest))
    (access : OffsetAccess) :
    step workers (.turn access) state = .ok (state.turn workers process update rest access) := by
  simp only [step, running, processStep, phase]

/-- The loop comes to the turn of every update of an answer by its own commands. -/
theorem turn_comes (workers : Nat) {state : PollState} (started : 0 ≤ state.pollOffset) {process : PollProcess}
    (running : state.process = some process) {before rest : List TelegramUpdate}
    (phase : process.phase = .batch (before ++ rest))
    (storable : ∀ update ∈ before, isSafeInteger update.updateId = true → Storable update) :
    ∃ commands, (∀ command ∈ commands, OwnCommand command) ∧
      ∃ process', (applyAll (step workers) state commands).process = some process' ∧
        process'.phase = .batch rest := by
  induction before generalizing state process with
  | nil => exact ⟨[], fun _ member => (nomatch member), process, running, phase⟩
  | cons update before inductionHypothesis =>
      have turned : step workers (.turn .stored) state =
          .ok (state.turn workers process update (before ++ rest) .stored) :=
        step_turn running phase .stored
      have later := (step_accepts turned).forward
      obtain ⟨process', running', phase'⟩ := turn_loops workers started (before ++ rest)
        (storable update List.mem_cons_self)
      have storable' : ∀ other ∈ before, isSafeInteger other.updateId = true → Storable other :=
        fun other member => storable other (List.mem_cons_of_mem _ member)
      rcases phase' with batch | stopping
      · obtain ⟨commands, own, comes⟩ :=
          inductionHypothesis (started.trans later) running' batch storable'
        refine ⟨.turn .stored :: commands, ?_, ?_⟩
        · rintro command (_ | ⟨_, member⟩)
          · exact .inl rfl
          · exact own command member
        · rwa [applyAll, List.foldl_cons, apply_ok turned]
      · have handled : step workers .stopHandled (state.turn workers process update
            (before ++ rest) .stored) = .ok ((state.turn workers process update
              (before ++ rest) .stored).moveTo process' (.batch (before ++ rest))) := by
          simp only [step, running', processStep, stopping]
        have started' : 0 ≤ ((state.turn workers process update (before ++ rest)
            .stored).moveTo process' (.batch (before ++ rest))).pollOffset :=
          started.trans later
        obtain ⟨commands, own, comes⟩ := inductionHypothesis started' rfl rfl storable'
        refine ⟨.turn .stored :: .stopHandled :: commands, ?_, ?_⟩
        · rintro command (_ | ⟨_, _ | ⟨_, member⟩⟩)
          · exact .inl rfl
          · exact .inr rfl
          · exact own command member
        · rwa [applyAll, List.foldl_cons, apply_ok turned, List.foldl_cons, apply_ok handled]

/-! ## Every update is handled once -/

/-- A newer update whose offset is stored at its turn is handed on at once, or it waits while
every worker is busy.  It is handed on when the workers have been done once more than there
were updates waiting before it, unless the process crashes first. -/
def HandsOn (workers : Nat) (state : PollState) (update : TelegramUpdate) : Prop :=
  ∀ later, Reaches (step workers) WithoutCrash
      (apply (step workers) state (.turn .stored)) later →
    (update ∈ later.handed ∨ update ∈ later.waiting ∧
      ∀ process, later.process = some process → workers ≤ process.queue.running.length) ∧
    (state.finished + state.waiting.length < later.finished → update ∈ later.handed)

theorem handedWithin_turn {state : PollState} (started : 0 ≤ state.pollOffset)
    {process : PollProcess} (running : state.process = some process) {update : TelegramUpdate}
    {rest : List TelegramUpdate} (safe : isSafeInteger update.updateId = true)
    (newer : (state.pollOffset : ℚ) < update.updateId + 1) (storable : Storable update) :
    HandedWithin update (state.finished + state.waiting.length + 1)
      (state.turn workers process update rest .stored) := by
  obtain ⟨saved, handed⟩ := turn_stored workers process rest started safe newer storable
  rw [handed]
  unfold handle
  split
  · exact .inl (List.mem_append_right _ (List.mem_singleton.mpr rfl))
  · have queued : (process.queue.push update).waiting = state.waiting ++ update :: [] := by
      simp only [WorkQueue.push, waiting, running]
    exact handedWithin_drain queued (Nat.lt_succ_self _) _

theorem handsOn_turn {state : PollState} (started : 0 ≤ state.pollOffset)
    (working : state.Working workers) {process : PollProcess}
    (running : state.process = some process) {update : TelegramUpdate}
    {rest : List TelegramUpdate} (phase : process.phase = .batch (update :: rest))
    (safe : isSafeInteger update.updateId = true)
    (newer : (state.pollOffset : ℚ) < update.updateId + 1) (storable : Storable update) :
    HandsOn workers state update := by
  intro later run
  have turned : step workers (.turn .stored) state =
      .ok (state.turn workers process update rest .stored) :=
    step_turn running phase .stored
  rw [apply_ok turned] at run
  have within := handedWithin_of_reaches (working.step turned)
    (handedWithin_turn started running safe newer storable) run
  have busy : later.Working workers :=
    run.invariant (working.step turned) fun _ _ _ working _ success => working.step success
  constructor
  · rcases within with handed | ⟨before, after, waits, -⟩
    · exact .inl handed
    · have member : update ∈ later.waiting := by
        rw [waits]
        simp
      refine .inr ⟨member, fun process' running' => ?_⟩
      rcases busy.saturated process' running' with empty | full
      · rw [waiting, running'] at member
        simp only [empty] at member
        exact nomatch member
      · exact full
  · intro often
    rcases within with handed | ⟨before, -, -, soon⟩
    · exact handed
    · omega

/-- The loop comes to a stop command by its own commands, whatever waits and runs, and hands
it on in the same step, leaving the queue as it is. -/
def StopsAtOnce (workers : Nat) (state : PollState) (update : TelegramUpdate)
    (rest : List TelegramUpdate) : Prop :=
  ∃ commands, (∀ command ∈ commands, OwnCommand command) ∧
    ∃ process, (applyAll (step workers) state commands).process = some process ∧
      process.phase = .batch (update :: rest) ∧
      (((applyAll (step workers) state commands).pollOffset : ℚ) < update.updateId + 1 →
        ∃ next, step workers (.turn .stored) (applyAll (step workers) state commands) = .ok next ∧
          next.handed = (applyAll (step workers) state commands).handed ++ [update] ∧
          next.process = some { process with phase := .stopping update rest })

theorem stopsAtOnce {state : PollState} (started : 0 ≤ state.pollOffset) {process : PollProcess}
    (running : state.process = some process) {before rest : List TelegramUpdate}
    {update : TelegramUpdate} (phase : process.phase = .batch (before ++ update :: rest))
    (earlier : ∀ other ∈ before, isSafeInteger other.updateId = true → Storable other)
    (safe : isSafeInteger update.updateId = true) (storable : Storable update)
    (stop : isStopUpdate update = true) : StopsAtOnce workers state update rest := by
  obtain ⟨commands, own, process', running', phase'⟩ :=
    turn_comes workers started running phase earlier
  refine ⟨commands, own, process', running', phase', fun newer => ?_⟩
  have reached : Reaches (step workers) (fun _ _ => True) state
      (applyAll (step workers) state commands) :=
    (Reaches.refl state).applyAll (allowed_true _ _ commands)
  have started' := started.trans (pollOffset_le_of_reaches reached)
  have handed := turn_stored workers process' rest started' safe newer storable
  obtain ⟨saved, handed⟩ := handed
  refine ⟨_, step_turn running' phase' .stored, ?_, ?_⟩ <;> rw [handed, handle, if_pos stop]
  rfl

/-- What holds of every update of an answer that the service takes its turn of: for every
safe number, and unless its offset cannot be stored. -/
structure UpdatesHandled (workers : Nat) (state : PollState) : Prop where
  once : (state.handed.map TelegramUpdate.updateId).Nodup
  forward : ∀ later, Reaches (step workers) (fun _ _ => True) state later →
    state.pollOffset ≤ later.pollOffset
  handed : ∀ process update rest, state.process = some process →
    process.phase = .batch (update :: rest) → isSafeInteger update.updateId = true →
    (state.pollOffset : ℚ) < update.updateId + 1 → Storable update → HandsOn workers state update
  stops : ∀ process before update rest, state.process = some process →
    process.phase = .batch (before ++ update :: rest) →
    (∀ other ∈ before, isSafeInteger other.updateId = true → Storable other) →
    isSafeInteger update.updateId = true → Storable update → isStopUpdate update = true →
    StopsAtOnce workers state update rest

theorem updates_handled (workers : Nat) {state : PollState}
    (run : Reaches (step workers) (fun _ _ => True) {} state) : UpdatesHandled workers state where
  once := by
    have apart := (ordered_of_reaches run).apart
    rw [accepted, List.map_append] at apart
    exact (List.nodup_append.mp apart).1
  forward := fun _ => pollOffset_le_of_reaches
  handed := fun _ _ _ running phase safe newer storable =>
    handsOn_turn (pollOffset_le_of_reaches run) (working_of_reaches run) running phase safe newer
      storable
  stops := fun _ _ _ _ running phase earlier safe storable stop =>
    stopsAtOnce (pollOffset_le_of_reaches run) running phase earlier safe storable stop

theorem updates_handled_answer : UpdatesHandled 4
    (applyAll (step 4) {} [.boot, .answered [{ updateId := 7, messageText := some "/kill" }]]) :=
  updates_handled 4 ((Reaches.refl _).applyAll (allowed_true _ _ _))

/-- An update whose number is no safe integer is passed over, however new it is. -/
theorem unsafe_update_dropped :
    ¬ ∀ state : PollState, Reaches (step 4) (fun _ _ => True) {} state →
      ∀ process update rest, state.process = some process →
        process.phase = .batch (update :: rest) → (state.pollOffset : ℚ) < update.updateId + 1 →
        ∀ later, Reaches (step 4) WithoutCrash (apply (step 4) state (.turn .stored)) later →
          update ∈ later.handed ∨ update ∈ later.waiting := by
  intro handed
  let update : TelegramUpdate := { updateId := 9007199254740992 }
  have reached : Reaches (step 4) (fun _ _ => True) {}
      (applyAll (step 4) {} [.boot, .answered [update]]) :=
    (Reaches.refl _).applyAll (allowed_true _ _ _)
  have newer : ((0 : Int) : ℚ) < update.updateId + 1 := by norm_num [update]
  rcases handed _ reached _ update [] rfl rfl newer _ (.refl _) with now | waits
  · exact nomatch now
  · exact nomatch waits

end PollState

end MintBot
