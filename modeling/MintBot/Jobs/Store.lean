import MintBot.Jobs.Job
import MintBot.Library.Machine

/-!
# The job store

Calls on the job store run one after another.  Most of them change the jobs in memory first,
check them then, and write the file last: to a temporary file that is renamed.  A call that
fails behind its change leaves the memory changed, and every later call writes that.

In a run where every call that changes the jobs gets to its end, failed calls leave the store
as it was and the file is always read as the jobs in memory.
-/

namespace MintBot

open Json Fallible Machine

/-- The jobs in memory and the content of the file. -/
structure JobStore where
  jobs : List ScheduledJob
  file : Option Text
  deriving DecidableEq

/-- The errors of the steps of a write; the error of `unlink` is dropped. -/
structure WriteSteps where
  mkdir : Option Error
  writeFile : Option Error
  rename : Option Error

/-- The input of `put`. -/
structure JobInput where
  id : Text
  runId : Text
  wallets : List Text
  executeAt : Text
  mode : Text
  state : Option Text
  attempts : Option JobNumber
  createdAt : Option Text
  updatedAt : Option Text
  lastError : Option Text
  completedAt : Option Text

/-- The patch of `update`. -/
structure JobPatch where
  state : Option Text
  executeAt : Option Text
  lastError : Option Text
  completedAt : Option Text
  updatedAt : Option Text

namespace JobStore

/-- A step of a write, with its error. -/
def takeStep (failure : Option Error) : Except Error Unit :=
  match failure with
  | some error => .error error
  | none => .ok ()

/-- The content of the file when the rename is done. -/
def write (steps : WriteSteps) (jobs : List ScheduledJob) : Except Error Text := do
  takeStep steps.mkdir
  let content ← JobFile.encode jobs
  takeStep steps.writeFile
  takeStep steps.rename
  pure content

/-- `persist`, and the answer of the call that makes it. -/
def persist {α : Type} (store : JobStore) (steps : WriteSteps) (answer : α) :
    Except Error α × JobStore :=
  match write steps store.jobs with
  | .error error => (.error error, store)
  | .ok content => (.ok answer, { store with file := some content })

/-- `open` -/
def openFile (rules : JobRules) (file : Option Text) (steps : WriteSteps) :
    Except Error JobStore :=
  match file with
  | some content => do pure { jobs := ← JobFile.load rules content, file := some content }
  | none => do pure { jobs := [], file := some (← write steps []) }

section Calls

variable (rules : JobRules)

/-- The job that `put` makes of its input. -/
def putJob (now : DateValue) (input : JobInput) (existing : Option ScheduledJob) : ScheduledJob where
  id := input.id
  runId := input.runId
  wallets := input.wallets
  executeAt := input.executeAt
  mode := input.mode
  state := input.state.getD ((existing.map ScheduledJob.state).getD (ascii "scheduled"))
  attempts := input.attempts.getD ((existing.map ScheduledJob.attempts).getD (.integer 0))
  createdAt :=
    input.createdAt.getD ((existing.map ScheduledJob.createdAt).getD (rules.toISOString now))
  updatedAt := input.updatedAt.getD (rules.toISOString now)
  lastError :=
    match input.lastError with
    | none => existing.bind ScheduledJob.lastError
    | some text => some (rules.redactText text)
  completedAt :=
    match input.completedAt with
    | none => existing.bind ScheduledJob.completedAt
    | some text => some text

/-- The job of `put` and the jobs with it; identifiers are distinct, so that one job at most
is replaced. -/
def putJobs (now : DateValue) (input : JobInput) (jobs : List ScheduledJob) :
    Except Error (ScheduledJob × List ScheduledJob) := do
  let existing := Table.lookup ScheduledJob.id input.id jobs
  refuse (existing.any fun job => job.runId ≠ input.runId) "SCHEDULED_JOB_ID_CONFLICT"
  let job := putJob rules now input existing
  assertJob rules job
  match existing with
  | some _ => pure (job, Table.update ScheduledJob.id input.id (fun _ => job) jobs)
  | none =>
      refuse (jobs.any fun candidate => candidate.runId = job.runId) "SCHEDULED_JOB_RUN_CONFLICT"
      pure (job, jobs ++ [job])

def put (now : DateValue) (input : JobInput) (steps : WriteSteps) (store : JobStore) :
    Except Error ScheduledJob × JobStore :=
  match putJobs rules now input store.jobs with
  | .error error => (.error error, store)
  | .ok (job, jobs) => { store with jobs := jobs }.persist steps job

/-- A job that `claimDue` takes; a time that is no number is not in the future. -/
def isDue (now : DateValue) (job : ScheduledJob) : Bool :=
  job.state = ascii "scheduled" && !(rules.parseDate job.executeAt).any fun time => now.ms < time

def claimJob (now : DateValue) (job : ScheduledJob) : ScheduledJob :=
  { job with
    state := ascii "running"
    attempts := job.attempts.increment
    updatedAt := rules.toISOString now }

/-- The jobs after up to `limit` of them were claimed, and the claimed ones. -/
def claimJobs (now : DateValue) : Nat → List ScheduledJob → List ScheduledJob × List ScheduledJob
  | _, [] => ([], [])
  | 0, jobs => (jobs, [])
  | limit + 1, job :: jobs =>
      if isDue rules now job then
        let later := claimJobs now limit jobs
        (claimJob rules now job :: later.1, claimJob rules now job :: later.2)
      else
        let later := claimJobs now (limit + 1) jobs
        (job :: later.1, later.2)

/-- The limit of `claimDue`, when it is a safe integer of one or more. -/
def claimLimit : JobNumber → Option Nat
  | .integer value =>
      if (JobNumber.integer value).isSafeInteger ∧ 1 ≤ value then some value.toNat else none
  | .other => none

def claimDue (now : Option DateValue) (limit : JobNumber) (steps : WriteSteps)
    (store : JobStore) : Except Error (List ScheduledJob) × JobStore :=
  match claimLimit limit, now with
  | none, _ => (.error "SCHEDULED_JOB_LIMIT_INVALID", store)
  | some _, none => (.error "SCHEDULED_JOB_TIME_INVALID", store)
  | some limit, some now =>
      let result := claimJobs rules now limit store.jobs
      if result.2 = [] then (.ok [], { store with jobs := result.1 })
      else { store with jobs := result.1 }.persist steps result.2

def patchJob (now : DateValue) (patch : JobPatch) (job : ScheduledJob) : ScheduledJob :=
  { job with
    state := patch.state.getD job.state
    executeAt := patch.executeAt.getD job.executeAt
    lastError :=
      match patch.lastError with
      | none => job.lastError
      | some text => some (rules.redactText text)
    completedAt :=
      match patch.completedAt with
      | none => job.completedAt
      | some text => some text
    updatedAt := patch.updatedAt.getD (rules.toISOString now) }

/-- The jobs that `update` has in memory when it makes its check. -/
def patchJobs (now : DateValue) (patch : JobPatch) (job : ScheduledJob)
    (jobs : List ScheduledJob) : List ScheduledJob :=
  Table.update ScheduledJob.id job.id (fun _ => patchJob rules now patch job) jobs

def update (id : Text) (patch : JobPatch) (now : DateValue) (steps : WriteSteps)
    (store : JobStore) : Except Error ScheduledJob × JobStore :=
  match Table.lookup ScheduledJob.id id store.jobs with
  | none => (.error "SCHEDULED_JOB_NOT_FOUND", store)
  | some job =>
      let patched := patchJob rules now patch job
      let store := { store with jobs := patchJobs rules now patch job store.jobs }
      match assertJob rules patched with
      | .error error => (.error error, store)
      | .ok _ => store.persist steps patched

def isRunning (job : ScheduledJob) : Bool :=
  job.state = ascii "running"

def recoverJob (now : DateValue) (job : ScheduledJob) : ScheduledJob :=
  { job with
    state := ascii "scheduled"
    updatedAt := rules.toISOString now
    lastError := some (ascii "RESTART_RECOVERY_PENDING_RECONCILIATION") }

/-- The jobs after `recoverRunning`; the clock is read for each of them. -/
def recoverJobs : (Nat → DateValue) → List ScheduledJob → List ScheduledJob
  | _, [] => []
  | clock, job :: jobs =>
      (if isRunning job then recoverJob rules (clock 0) job else job) ::
        recoverJobs (fun reading => clock (reading + 1)) jobs

def recoverRunning (clock : Nat → DateValue) (steps : WriteSteps) (store : JobStore) :
    Except Error Nat × JobStore :=
  let recovered := store.jobs.countP isRunning
  let store := { store with jobs := recoverJobs rules clock store.jobs }
  if recovered = 0 then (.ok 0, store) else store.persist steps recovered

end Calls

end JobStore

/-! ## Runs -/

/-- A call of the store, with what it reads of the clock and how its write goes. -/
inductive JobCall where
  | put (now : DateValue) (input : JobInput) (steps : WriteSteps)
  | claimDue (now : Option DateValue) (limit : JobNumber) (steps : WriteSteps)
  | update (id : Text) (patch : JobPatch) (now : DateValue) (steps : WriteSteps)
  | recoverRunning (clock : Nat → DateValue) (steps : WriteSteps)

inductive JobAnswer where
  | job (job : ScheduledJob)
  | jobs (jobs : List ScheduledJob)
  | count (count : Nat)
  deriving DecidableEq

namespace JobStore

section Runs

variable (rules : JobRules)

/-- The answer or the error of a call, and the store after it. -/
def call : JobCall → JobStore → Except Error JobAnswer × JobStore
  | .put now input steps, store => (put rules now input steps store).map (Except.map .job) id
  | .claimDue now limit steps, store =>
      (claimDue rules now limit steps store).map (Except.map .jobs) id
  | .update id patch now steps, store =>
      (update rules id patch now steps store).map (Except.map .job) fun store => store
  | .recoverRunning clock steps, store =>
      (recoverRunning rules clock steps store).map (Except.map .count) id

/-- A call leads to the next state whether it fails or not. -/
def step (command : JobCall) (store : JobStore) : Except Unit JobStore :=
  .ok (call rules command store).2

/-- The jobs can be written: they pass the checks of a file, their text names no secret and
no step of the write fails. -/
structure Writable (steps : WriteSteps) (jobs : List ScheduledJob) : Prop where
  stored : Stored rules jobs
  noSecret : JobFile.secretKey.search (JobFile.output jobs) = false
  succeeds : steps.mkdir = none ∧ steps.writeFile = none ∧ steps.rename = none

/-- When a call changes the jobs, the changed ones can be written. -/
def Undisturbed (store : JobStore) : JobCall → Prop
  | .put now input steps =>
      ∀ job jobs, putJobs rules now input store.jobs = .ok (job, jobs) →
        jobs = store.jobs ∨ Writable rules steps jobs
  | .claimDue now limit steps =>
      ∀ date ∈ now, ∀ size ∈ claimLimit limit,
        (claimJobs rules date size store.jobs).1 = store.jobs ∨
          Writable rules steps (claimJobs rules date size store.jobs).1
  | .update id patch now steps =>
      ∀ job ∈ Table.lookup ScheduledJob.id id store.jobs,
        patchJobs rules now patch job store.jobs = store.jobs ∨
          Writable rules steps (patchJobs rules now patch job store.jobs)
  | .recoverRunning clock steps =>
      recoverJobs rules clock store.jobs = store.jobs ∨
        Writable rules steps (recoverJobs rules clock store.jobs)

/-- The file is read as the jobs in memory. -/
def Synced (store : JobStore) : Prop :=
  ∃ content, store.file = some content ∧ JobFile.load rules content = .ok store.jobs

/-- A result of a call: the file is read as the jobs, and a failure left the store as it was. -/
structure Settled {α : Type} (store : JobStore) (result : Except Error α × JobStore) : Prop where
  synced : Synced rules result.2
  unchanged : ∀ error, result.1 = .error error → result.2 = store

end Runs

section Steps

variable {rules : JobRules} {store : JobStore}

theorem Synced.stored (synced : Synced rules store) : Stored rules store.jobs := by
  obtain ⟨_, -, loaded⟩ := synced
  exact JobFile.stored_of_load loaded

theorem Settled.refused {α : Type} (synced : Synced rules store) (error : Error) :
    Settled rules store ((.error error : Except Error α), store) :=
  ⟨synced, fun _ _ => rfl⟩

theorem Settled.map {α β : Type} {result : Except Error α × JobStore}
    (settled : Settled rules store result) (f : α → β) :
    Settled rules store (result.map (Except.map f) id) := by
  refine ⟨settled.synced, fun error failed => settled.unchanged error ?_⟩
  obtain ⟨answer | answer, after⟩ := result
  · exact congrArg _ (Except.error.inj failed)
  · exact nomatch failed

theorem write_eq_ok {steps : WriteSteps} {jobs : List ScheduledJob} {content : Text}
    (written : write steps jobs = .ok content) : JobFile.encode jobs = .ok content := by
  simp only [write, bind_eq_ok, pure_eq_ok] at written
  obtain ⟨_, -, _, encoded, _, -, _, -, rfl⟩ := written
  exact encoded

theorem Writable.write {steps : WriteSteps} {jobs : List ScheduledJob}
    (writable : Writable rules steps jobs) :
    write steps jobs = .ok (JobFile.output jobs ++ [0x0a]) := by
  obtain ⟨mkdir, writeFile, rename⟩ := writable.succeeds
  have encoded := JobFile.encode_eq_ok.2 ⟨writable.noSecret, rfl⟩
  simp only [JobStore.write, mkdir, writeFile, rename, takeStep, encoded]
  rfl

/-- A write of jobs that can be written, or of the jobs as they were, settles. -/
theorem persist_settled {α : Type} (synced : Synced rules store) {jobs : List ScheduledJob}
    {steps : WriteSteps} (answer : α)
    (writable : jobs = store.jobs ∨ Writable rules steps jobs) :
    Settled rules store ({ store with jobs := jobs }.persist steps answer) := by
  have stored : Stored rules jobs := by
    rcases writable with rfl | writable
    · exact synced.stored
    · exact writable.stored
  unfold persist
  split
  · rename_i error failed
    rcases writable with rfl | writable
    · exact .refused synced error
    · exact nomatch failed.symm.trans writable.write
  · rename_i content written
    refine ⟨⟨content, rfl, ?_⟩, fun _ failed => nomatch failed⟩
    exact JobFile.load_encode stored (write_eq_ok written)

theorem put_settled (synced : Synced rules store) {now : DateValue} {input : JobInput}
    {steps : WriteSteps} (allowed : Undisturbed rules store (.put now input steps)) :
    Settled rules store (put rules now input steps store) := by
  unfold put
  split
  · exact .refused synced _
  · rename_i job jobs changed
    exact persist_settled synced job (allowed job jobs changed)

/-- Nothing is claimed only when the jobs stay as they were. -/
theorem claimJobs_nil {now : DateValue} {limit : Nat} {jobs : List ScheduledJob}
    (nothing : (claimJobs rules now limit jobs).2 = []) :
    (claimJobs rules now limit jobs).1 = jobs := by
  induction jobs generalizing limit with
  | nil => simp only [claimJobs]
  | cons job jobs inductionHypothesis =>
      cases limit with
      | zero => simp only [claimJobs]
      | succ limit =>
          rw [claimJobs] at nothing ⊢
          split at nothing
          · exact nomatch nothing
          · rename_i notDue
            rw [if_neg notDue]
            exact congrArg (job :: ·) (inductionHypothesis nothing)

theorem claimDue_settled (synced : Synced rules store) {now : Option DateValue}
    {limit : JobNumber} {steps : WriteSteps}
    (allowed : Undisturbed rules store (.claimDue now limit steps)) :
    Settled rules store (claimDue rules now limit steps store) := by
  unfold claimDue
  split
  · exact .refused synced _
  · exact .refused synced _
  · rename_i size date limited
    dsimp only
    split
    · rename_i nothing
      rw [claimJobs_nil nothing]
      exact ⟨synced, fun _ failed => nomatch failed⟩
    · exact persist_settled synced _ (allowed date rfl size limited)

theorem update_settled (synced : Synced rules store) {id : Text} {patch : JobPatch}
    {now : DateValue} {steps : WriteSteps}
    (allowed : Undisturbed rules store (.update id patch now steps)) :
    Settled rules store (update rules id patch now steps store) := by
  unfold update
  split
  · exact .refused synced _
  · rename_i job found
    have writable := allowed job found
    have listed : patchJob rules now patch job ∈ patchJobs rules now patch job store.jobs := by
      refine List.mem_map.2 ⟨job, List.mem_of_find?_eq_some found, ?_⟩
      rw [if_pos rfl]
    have stored : Stored rules (patchJobs rules now patch job store.jobs) := by
      rcases writable with same | writable
      · rw [same]
        exact synced.stored
      · exact writable.stored
    dsimp only
    rw [stored.checked _ listed]
    exact persist_settled synced _ writable

/-- Nothing is recovered only when the jobs stay as they were. -/
theorem recoverJobs_zero {clock : Nat → DateValue} {jobs : List ScheduledJob}
    (nothing : jobs.countP isRunning = 0) : recoverJobs rules clock jobs = jobs := by
  induction jobs generalizing clock with
  | nil => rfl
  | cons job jobs inductionHypothesis =>
      rw [List.countP_eq_zero] at nothing
      have others : jobs.countP isRunning = 0 :=
        List.countP_eq_zero.2 fun other listed => nothing other (List.mem_cons_of_mem _ listed)
      rw [recoverJobs, if_neg (nothing job List.mem_cons_self), inductionHypothesis others]

theorem recoverRunning_settled (synced : Synced rules store) {clock : Nat → DateValue}
    {steps : WriteSteps} (allowed : Undisturbed rules store (.recoverRunning clock steps)) :
    Settled rules store (recoverRunning rules clock steps store) := by
  unfold recoverRunning
  dsimp only
  split
  · rename_i nothing
    rw [recoverJobs_zero nothing]
    exact ⟨synced, fun _ failed => nomatch failed⟩
  · exact persist_settled synced _ allowed

theorem call_settled (synced : Synced rules store) {command : JobCall}
    (allowed : Undisturbed rules store command) :
    Settled rules store (call rules command store) := by
  cases command with
  | put now input steps => exact (put_settled synced allowed).map _
  | claimDue now limit steps => exact (claimDue_settled synced allowed).map _
  | update id patch now steps => exact (update_settled synced allowed).map _
  | recoverRunning clock steps => exact (recoverRunning_settled synced allowed).map _

/-- A store that was opened is read from its file. -/
theorem synced_openFile {file : Option Text} {steps : WriteSteps}
    (opened : openFile rules file steps = .ok store) : Synced rules store := by
  unfold openFile at opened
  split at opened
  · rename_i content
    simp only [bind_eq_ok, pure_eq_ok] at opened
    obtain ⟨jobs, loaded, rfl⟩ := opened
    exact ⟨content, rfl, loaded⟩
  · simp only [bind_eq_ok, pure_eq_ok] at opened
    obtain ⟨content, written, rfl⟩ := opened
    refine ⟨content, rfl, JobFile.load_encode ?_ (write_eq_ok written)⟩
    exact ⟨(fun _ listed => nomatch listed), List.nodup_nil, List.nodup_nil⟩

/-- In a run where changed jobs can be written, the file is always read as the jobs in
memory, and a call that fails leaves both as they were. -/
theorem calls_atomic {opened : JobStore} {file : Option Text} {steps : WriteSteps}
    (open_ok : openFile rules file steps = .ok opened)
    (run : Reaches (step rules) (Undisturbed rules) opened store) :
    Synced rules store ∧ ∀ command, Undisturbed rules store command →
      ∀ error, (call rules command store).1 = .error error →
        (call rules command store).2 = store := by
  have synced : Synced rules store := by
    refine run.invariant (synced_openFile open_ok) fun before command next kept allowed stepped => ?_
    obtain rfl := Except.ok.inj stepped
    exact (call_settled kept allowed).synced
  exact ⟨synced, fun command allowed => (call_settled synced allowed).unchanged⟩

end Steps

end JobStore

/-! ## Samples -/

namespace JobStore

/-- Dates of the sample: the first instant by its usual text, the others by their digits. -/
def epochText : Text :=
  ascii "1970-01-01T00:00:00.000Z"

def sampleText (value : DateValue) : Text :=
  if value.ms = 0 then epochText else bigintDigits value.ms

def sampleDate (text : Text) : Option Int :=
  if text = epochText then some 0
  else if bigintLiteral.accepts (text ++ [0x6e]) then some (readBigint text) else none

def sampleRules : JobRules where
  parseDate := sampleDate
  toISOString := sampleText
  redactText := id
  parseDate_toISOString := by
    intro value
    unfold sampleText sampleDate
    split
    · rename_i zero
      rw [if_pos rfl, zero]
    · have digits := accepts_bigintDigits value.ms
      have other : bigintDigits value.ms ≠ epochText := by
        intro same
        rw [same] at digits
        exact absurd digits (by decide +kernel)
      rw [if_neg other, if_pos digits, readBigint_bigintDigits]

def sampleNow : DateValue where
  ms := 0
  range := by decide

def noFailure : WriteSteps where
  mkdir := none
  writeFile := none
  rename := none

/-- A job for one wallet, due at the first instant. -/
def sampleInput (id : String) : JobInput where
  id := ascii id
  runId := ascii id
  wallets := [ascii "w"]
  executeAt := epochText
  mode := ascii "live"
  state := none
  attempts := none
  createdAt := none
  updatedAt := none
  lastError := none
  completedAt := none

def sampleJob : ScheduledJob :=
  putJob sampleRules sampleNow (sampleInput "a") none

def sampleOpened : JobStore where
  jobs := []
  file := some (JobFile.output [] ++ [0x0a])

/-- The store after the sample job was put. -/
def sampleStore : JobStore where
  jobs := [sampleJob]
  file := some (JobFile.output [sampleJob] ++ [0x0a])

theorem sample_writable : Writable sampleRules noFailure [sampleJob] where
  stored :=
    { checked := List.forall_mem_singleton.2 (by decide +kernel)
      ids := by decide
      runIds := by decide }
  noSecret := by decide +kernel
  succeeds := ⟨rfl, rfl, rfl⟩

theorem calls_atomic_sample :
    Synced sampleRules (apply (step sampleRules) sampleOpened
      (.put sampleNow (sampleInput "a") noFailure)) := by
  have opened : openFile sampleRules none noFailure = .ok sampleOpened := by
    decide +kernel
  refine (calls_atomic opened ((Reaches.refl sampleOpened).tail _ ?_)).1
  intro job jobs changed
  have same : putJobs sampleRules sampleNow (sampleInput "a") sampleOpened.jobs =
      .ok (sampleJob, [sampleJob]) := by
    decide +kernel
  rw [same] at changed
  obtain ⟨-, rfl⟩ := Prod.mk.inj (Except.ok.inj changed)
  exact .inr sample_writable

def lostPatch : JobPatch where
  state := some (ascii "lost")
  executeAt := none
  lastError := none
  completedAt := none
  updatedAt := none

def lostJob : ScheduledJob :=
  patchJob sampleRules sampleNow lostPatch sampleJob

/-- The update fails its check. -/
def failedUpdate : Except Error JobAnswer × JobStore :=
  call sampleRules (.update (ascii "a") lostPatch sampleNow noFailure) sampleStore

/-- An update that fails its check leaves the job changed in memory, with a state that its
file is not read with. -/
theorem failed_update_kept :
    Synced sampleRules sampleStore ∧
    failedUpdate.1 = .error "SCHEDULED_JOB_STATE_INVALID" ∧
    failedUpdate.2.jobs ≠ sampleStore.jobs ∧ ¬ Synced sampleRules failedUpdate.2 := by
  refine ⟨⟨_, rfl, ?_⟩, by decide +kernel, by decide +kernel, ?_⟩
  · exact JobFile.load_encode sample_writable.stored
      (JobFile.encode_eq_ok.2 ⟨sample_writable.noSecret, rfl⟩)
  · intro synced
    have kept : lostJob ∈ failedUpdate.2.jobs := by
      decide +kernel
    have refused : assertJob sampleRules lostJob ≠ .ok () := by
      decide +kernel
    exact refused (synced.stored.checked lostJob kept)

end JobStore

end MintBot
