import MintBot.Durable.State
import MintBot.Library.History
import MintBot.Library.Machine

/-!
# Transactions on the state file

Transactions run one after another on a queue.  A transaction switches the memory to the
state its mutator made and then lets the write queue make the directory, write a temporary
file and rename it.  When a step fails the memory gets the state before back, and the
write queue stays rejected.

A run of the store is any order of calls, of starts of queued transactions, of steps of a
write and of snapshots.  In a run where no write is broken off after a snapshot saw its
state, and no write is asked for after one failed, the store is serial and durable.
-/

namespace MintBot

open Json Machine

/-- What a transaction does with its copy of the state: a change, or an error. -/
abbrev Mutator := DurableState → Except Error DurableState

/-- The file of the store and the temporary file beside it. -/
structure Disk where
  tmp : Option Text
  file : Option Text

/-- The step that the write of a commit takes next. -/
inductive WriteStage where
  | mkdir
  | writeFile
  | rename

/-- A transaction whose commit is waiting for the write queue. -/
structure Commit where
  mutate : Mutator
  previous : DurableState
  serialized : Text
  stage : WriteStage

/-- How a transaction ended. -/
inductive Ending where
  | succeeded
  /-- The mutator threw. -/
  | refused (error : Error)
  /-- A step of its own write failed. -/
  | unwritten (error : Error)
  /-- The write queue had been rejected before. -/
  | blocked (error : Error)

/-- What callers saw of a store; no branch of the store reads it. -/
structure DurableHistory where
  /-- The transactions, in call order. -/
  calls : List Mutator
  ended : List (Mutator × Ending)
  /-- A snapshot, with the number of calls whose outcome it was to show. -/
  snapshots : List (DurableState × Nat)

/-- A store with a file. -/
structure DurableStore where
  state : DurableState
  /-- The error with which the write queue is rejected. -/
  writeQueue : Option Error
  transactionQueue : List Mutator
  commit : Option Commit
  disk : Disk
  history : DurableHistory

/-- The outcome of a file system step; a failed one may leave anything in the temporary
file. -/
inductive StepOutcome where
  | done
  | failed (error : Error) (tmp : Option Text)

inductive StoreEvent where
  /-- A call of `transaction`. -/
  | transaction (mutate : Mutator)
  /-- The queue starts the transaction at its head. -/
  | start
  /-- The write of the commit takes its next step. -/
  | write (outcome : StepOutcome)
  | snapshot

namespace DurableStore

/-- A store that opened its file. -/
def opened (state : DurableState) (disk : Disk) : DurableStore where
  state := state
  writeQueue := none
  transactionQueue := []
  commit := none
  disk := disk
  history := { calls := [], ended := [], snapshots := [] }

/-- A transaction ends. -/
def finish (store : DurableStore) (mutate : Mutator) (ending : Ending) : DurableStore :=
  { store with
    commit := none
    history := { store.history with ended := store.history.ended ++ [(mutate, ending)] } }

/-- The start of a transaction: the mutator gets a copy of the state. -/
def start (store : DurableStore) : Except Unit DurableStore :=
  match store.commit, store.transactionQueue with
  | none, mutate :: waiting =>
      match mutate store.state with
      | .error error =>
          .ok ({ store with transactionQueue := waiting }.finish mutate (.refused error))
      | .ok next =>
          .ok { store with
            transactionQueue := waiting
            state := next
            commit := some
              { mutate := mutate
                previous := store.state
                serialized := serialize next
                stage := .mkdir } }
  | _, _ => .error ()

/-- A step of the write.  A rejected write queue takes no step and rejects the commit. -/
def write (store : DurableStore) (outcome : StepOutcome) : Except Unit DurableStore :=
  match store.commit with
  | none => .error ()
  | some commit =>
      match store.writeQueue, outcome with
      | some error, _ =>
          .ok ({ store with state := commit.previous }.finish commit.mutate (.blocked error))
      | none, .failed error tmp =>
          .ok ({ store with
            state := commit.previous
            writeQueue := some error
            disk := { store.disk with tmp := tmp } }.finish commit.mutate (.unwritten error))
      | none, .done =>
          match commit.stage with
          | .mkdir => .ok { store with commit := some { commit with stage := .writeFile } }
          | .writeFile =>
              .ok { store with
                commit := some { commit with stage := .rename }
                disk := { store.disk with tmp := some commit.serialized } }
          | .rename =>
              .ok ({ store with disk := { tmp := none, file := store.disk.tmp } }.finish
                commit.mutate .succeeded)

/-- The number of calls whose outcome a snapshot is to show. -/
def seen (store : DurableStore) : Nat :=
  store.history.ended.length + store.commit.toList.length

def step : StoreEvent → DurableStore → Except Unit DurableStore
  | .transaction mutate, store =>
      .ok { store with
        transactionQueue := store.transactionQueue ++ [mutate]
        history := { store.history with calls := store.history.calls ++ [mutate] } }
  | .start, store => store.start
  | .write outcome, store => store.write outcome
  | .snapshot, store =>
      .ok { store with
        history :=
          { store.history with
            snapshots := store.history.snapshots ++ [(store.state, store.seen)] } }

end DurableStore

/-! ## Serial transactions

What the calls amount to: the mutators of the transactions that succeeded, in call order. -/

/-- The state of a store and what its file holds. -/
structure Committed where
  state : DurableState
  file : Option Text

namespace Committed

/-- A transaction that succeeded changes the state and the file, others change nothing. -/
def record (kept : Committed) (call : Mutator × Ending) : Committed :=
  match call.2, call.1 kept.state with
  | .succeeded, .ok next => { state := next, file := some (serialize next) }
  | _, _ => kept

def recordAll (kept : Committed) (ended : List (Mutator × Ending)) : Committed :=
  ended.foldl record kept

/-- An ending that the call has from itself: a mutator that threw, or a failed step of its
own write. -/
def Explains (kept : Committed) : Mutator × Ending → Prop
  | (mutate, .succeeded) => ∃ next, mutate kept.state = .ok next
  | (mutate, .refused error) => mutate kept.state = .error error
  | (mutate, .unwritten _) => ∃ next, mutate kept.state = .ok next
  | (_, .blocked _) => False

theorem recordAll_concat (kept : Committed) (ended : List (Mutator × Ending))
    (call : Mutator × Ending) :
    kept.recordAll (ended ++ [call]) = (kept.recordAll ended).record call := by
  rw [recordAll, List.foldl_append]
  rfl

theorem record_failed (kept : Committed) {mutate : Mutator} {ending : Ending}
    (failed : ending ≠ .succeeded) : kept.record (mutate, ending) = kept := by
  cases ending with
  | succeeded => exact absurd rfl failed
  | refused | unwritten | blocked => rfl

theorem record_succeeded {kept : Committed} {mutate : Mutator} {next : DurableState}
    (ran : mutate kept.state = .ok next) :
    kept.record (mutate, .succeeded) = { state := next, file := some (serialize next) } := by
  simp only [record, ran]

/-- The file holds the state, as far as a file can carry it. -/
def Reopens (kept : Committed) : Prop :=
  kept.state.Storable → openFile kept.file = .ok kept.state

theorem Reopens.record {kept : Committed} (reopens : kept.Reopens) (call : Mutator × Ending) :
    (kept.record call).Reopens := by
  obtain ⟨mutate, ending⟩ := call
  cases ending with
  | succeeded =>
    cases ran : mutate kept.state with
    | error error => simpa only [Committed.record, ran] using reopens
    | ok next =>
      rw [record_succeeded ran]
      exact openFile_serialize
  | refused | unwritten | blocked => exact reopens

theorem Reopens.recordAll {kept : Committed} (reopens : kept.Reopens)
    (ended : List (Mutator × Ending)) : (kept.recordAll ended).Reopens := by
  induction ended generalizing kept with
  | nil => exact reopens
  | cons call ended inductionHypothesis => exact inductionHypothesis (reopens.record call)

end Committed

/-! ## The invariant -/

namespace DurableStore

/-- What the ended transactions of a store amount to. -/
def committed (origin : Committed) (store : DurableStore) : Committed :=
  origin.recordAll store.history.ended

/-- A commit under way: the memory holds the state that is being written. -/
structure InFlight (kept : Committed) (store : DurableStore) (commit : Commit) : Prop where
  previous : commit.previous = kept.state
  ran : commit.mutate kept.state = .ok store.state
  serialized : commit.serialized = serialize store.state
  tmp : commit.stage = .rename → store.disk.tmp = some commit.serialized
  healthy : store.writeQueue = none

/-- A snapshot shows the outcome of the calls it is to show, or of the commit under way. -/
def Shows (origin : Committed) (store : DurableStore) (snapshot : DurableState × Nat) : Prop :=
  (snapshot.2 ≤ store.history.ended.length ∧
    snapshot.1 = (origin.recordAll (store.history.ended.take snapshot.2)).state) ∨
  (snapshot.2 = store.history.ended.length + 1 ∧ store.commit ≠ none ∧
    snapshot.1 = store.state)

structure Consistent (origin : Committed) (store : DurableStore) : Prop where
  order : store.history.calls = store.history.ended.map Prod.fst ++
    store.commit.toList.map Commit.mutate ++ store.transactionQueue
  idle : store.commit = none → store.state = (store.committed origin).state
  inFlight : ∀ commit, store.commit = some commit →
    InFlight (store.committed origin) store commit
  file : store.disk.file = (store.committed origin).file
  explained : ∀ before call after, store.history.ended = before ++ call :: after →
    (origin.recordAll before).Explains call
  snapshots : ∀ snapshot ∈ store.history.snapshots, Shows origin store snapshot

/-- A write breaks off only when no snapshot has seen its state, and a transaction that
starts after that has a mutator that throws. -/
def Undisturbed (store : DurableStore) : StoreEvent → Prop
  | .start =>
      store.writeQueue = none ∨
        ∀ mutate ∈ store.transactionQueue.head?, ∃ error, mutate store.state = .error error
  | .write (.failed _ _) =>
      ∀ commit ∈ store.commit, ∀ snapshot ∈ store.history.snapshots,
        snapshot.2 = store.seen → snapshot.1 = commit.previous
  | .write .done | .transaction _ | .snapshot => True

section Steps

variable {origin : Committed} {store next : DurableStore}

theorem committed_finish (mutate : Mutator) (ending : Ending) :
    (store.finish mutate ending).committed origin =
      (store.committed origin).record (mutate, ending) :=
  origin.recordAll_concat store.history.ended (mutate, ending)

/-- A snapshot of ended calls shows them whatever happens later. -/
theorem shows_ended {snapshot : DurableState × Nat} {later : DurableStore}
    {call : Mutator × Ending}
    (more : later.history.ended = store.history.ended ++ [call])
    (short : snapshot.2 ≤ store.history.ended.length)
    (shown : snapshot.1 = (origin.recordAll (store.history.ended.take snapshot.2)).state) :
    Shows origin later snapshot := by
  refine .inl ⟨?_, ?_⟩
  · rw [more, List.length_append]
    exact Nat.le_add_right_of_le short
  · rw [more, List.take_append_of_le_length short]
    exact shown

/-- A snapshot of the call that ended shows its outcome. -/
theorem shows_last {snapshot : DurableState × Nat} {later : DurableStore}
    {call : Mutator × Ending}
    (more : later.history.ended = store.history.ended ++ [call])
    (full : snapshot.2 = store.history.ended.length + 1)
    (shown : snapshot.1 = ((store.committed origin).record call).state) :
    Shows origin later snapshot := by
  refine .inl ⟨?_, ?_⟩
  · rw [more, full, List.length_append, List.length_singleton]
  · have all : later.history.ended.take snapshot.2 = store.history.ended ++ [call] := by
      rw [full, more, List.take_of_length_le]
      rw [List.length_append, List.length_singleton]
    rw [all, origin.recordAll_concat]
    exact shown

/-- A transaction that ends leaves a consistent store, when its ending is its own, state and
file are what it commits, and snapshots of it saw what it commits. -/
theorem Consistent.finish (consistent : Consistent origin store) {mutate : Mutator}
    {ending : Ending} {state : DurableState} {writeQueue : Option Error}
    {queue : List Mutator} {disk : Disk}
    (order : store.commit.toList.map Commit.mutate ++ store.transactionQueue = mutate :: queue)
    (explained : (store.committed origin).Explains (mutate, ending))
    (committed : (store.committed origin).record (mutate, ending) =
      { state := state, file := disk.file })
    (seen : store.commit ≠ none → ∀ snapshot ∈ store.history.snapshots,
      snapshot.2 = store.history.ended.length + 1 → snapshot.1 = store.state →
      snapshot.1 = state) :
    Consistent origin
      ({ store with
        state := state
        writeQueue := writeQueue
        transactionQueue := queue
        disk := disk }.finish mutate ending) where
  order := by
    change store.history.calls = (store.history.ended ++ [(mutate, ending)]).map Prod.fst ++
      [] ++ queue
    rw [consistent.order, List.append_assoc, order]
    simp
  idle := fun _ => by rw [committed_finish]; exact (congrArg Committed.state committed).symm
  inFlight := fun _ pending => nomatch pending
  file := by rw [committed_finish]; exact (congrArg Committed.file committed).symm
  explained := History.Each.concat consistent.explained explained
  snapshots := by
    intro snapshot taken
    rcases consistent.snapshots snapshot taken with ⟨short, shown⟩ | ⟨full, pending, shown⟩
    · exact shows_ended rfl short shown
    · refine @shows_last origin store _ _ _ rfl full ?_
      rw [committed]
      exact seen pending snapshot taken full shown

end Steps

end DurableStore

/-! ## Steps -/

namespace DurableStore

section Steps

variable {origin : Committed} {store next : DurableStore}

theorem start_eq_ok (started : store.start = .ok next) :
    ∃ mutate queue, store.commit = none ∧ store.transactionQueue = mutate :: queue ∧
      ((∃ error, mutate store.state = .error error ∧
        next = { store with transactionQueue := queue }.finish mutate (.refused error)) ∨
      (∃ state, mutate store.state = .ok state ∧
        next = { store with
          transactionQueue := queue
          state := state
          commit := some
            { mutate := mutate
              previous := store.state
              serialized := serialize state
              stage := .mkdir } })) := by
  unfold DurableStore.start at started
  split at started
  · rename_i mutate queue idle waiting
    refine ⟨mutate, queue, idle, waiting, ?_⟩
    split at started
    · rename_i error thrown
      exact .inl ⟨error, thrown, (Except.ok.inj started).symm⟩
    · rename_i state ran
      exact .inr ⟨state, ran, (Except.ok.inj started).symm⟩
  · exact nomatch started

theorem Consistent.start (consistent : Consistent origin store)
    (allowed : store.Undisturbed .start) (started : store.start = .ok next) :
    Consistent origin next := by
  obtain ⟨mutate, queue, idle, waiting, ⟨error, thrown, rfl⟩ | ⟨state, ran, rfl⟩⟩ :=
    start_eq_ok started
  · have kept := consistent.idle idle
    refine consistent.finish ?_ ?_ ?_ fun pending => absurd idle pending
    · rw [idle, waiting]
      rfl
    · rw [kept] at thrown
      exact thrown
    · rw [Committed.record_failed _ Ending.noConfusion, kept, consistent.file]
  · have kept := consistent.idle idle
    have healthy : store.writeQueue = none := by
      refine allowed.resolve_right fun throws => ?_
      obtain ⟨error, thrown⟩ := throws mutate (by rw [waiting]; rfl)
      rw [ran] at thrown
      exact nomatch thrown
    exact
      { order := by
          rw [consistent.order, idle, waiting]
          simp
        idle := fun none => nomatch none
        inFlight := by
          rintro _ ⟨⟩
          exact ⟨kept, kept ▸ ran, rfl, (fun stage => nomatch stage), healthy⟩
        file := consistent.file
        explained := consistent.explained
        snapshots := by
          intro snapshot taken
          rcases consistent.snapshots snapshot taken with shown | ⟨-, pending, -⟩
          · exact .inl shown
          · exact absurd idle pending }

/-- A step of a write that goes on. -/
theorem Consistent.advance (consistent : Consistent origin store) {commit advanced : Commit}
    {disk : Disk} (pending : store.commit = some commit)
    (mutate : advanced.mutate = commit.mutate) (file : disk.file = store.disk.file)
    (inFlight : InFlight (store.committed origin)
      { store with commit := some advanced, disk := disk } advanced) :
    Consistent origin { store with commit := some advanced, disk := disk } where
  order := by
    rw [consistent.order, pending]
    simp [mutate]
  idle := fun none => nomatch none
  inFlight := by
    rintro _ ⟨⟩
    exact inFlight
  file := file.trans consistent.file
  explained := consistent.explained
  snapshots := by
    intro snapshot taken
    refine (consistent.snapshots snapshot taken).imp id ?_
    rintro ⟨full, -, shown⟩
    exact ⟨full, Option.some_ne_none advanced, shown⟩

theorem Consistent.write (consistent : Consistent origin store) {outcome : StepOutcome}
    (allowed : store.Undisturbed (.write outcome)) (written : store.write outcome = .ok next) :
    Consistent origin next := by
  unfold DurableStore.write at written
  split at written
  · exact nomatch written
  rename_i commit pending
  have inFlight := consistent.inFlight commit pending
  have listed : store.commit.toList.map Commit.mutate ++ store.transactionQueue =
      commit.mutate :: store.transactionQueue := by
    rw [pending]
    rfl
  split at written
  · rename_i rejected
    exact nomatch inFlight.healthy.symm.trans rejected
  · rename_i error tmp _
    obtain rfl := Except.ok.inj written
    refine consistent.finish listed ⟨_, inFlight.ran⟩ ?_ ?_
    · rw [Committed.record_failed _ Ending.noConfusion, inFlight.previous, consistent.file]
    · intro _ snapshot taken full _
      refine allowed commit pending snapshot taken ?_
      rw [full, seen, pending]
      rfl
  · split at written
    · obtain rfl := Except.ok.inj written
      refine consistent.advance pending rfl rfl ?_
      exact { inFlight with tmp := fun stage => nomatch stage }
    · obtain rfl := Except.ok.inj written
      refine consistent.advance pending rfl rfl ?_
      exact { inFlight with tmp := fun _ => rfl }
    · rename_i stage
      obtain rfl := Except.ok.inj written
      refine consistent.finish listed ⟨_, inFlight.ran⟩ ?_ fun _ _ _ _ shown => shown
      rw [Committed.record_succeeded inFlight.ran, inFlight.tmp stage, inFlight.serialized]

end Steps

end DurableStore

/-! ## Runs -/

namespace DurableStore

/-- Transactions of the store are atomic, serial and durable: in call order the successful
ones make the state and the file, every other ending is the call's own, snapshots show ended
calls by their outcome, and the file is opened to the state. -/
structure Atomic (origin : Committed) (store : DurableStore) : Prop where
  order : store.history.calls = store.history.ended.map Prod.fst ++
    store.commit.toList.map Commit.mutate ++ store.transactionQueue
  state : store.commit = none → store.state = (store.committed origin).state
  file : store.disk.file = (store.committed origin).file
  explained : ∀ before call after, store.history.ended = before ++ call :: after →
    (origin.recordAll before).Explains call
  snapshots : ∀ snapshot ∈ store.history.snapshots,
    snapshot.2 ≤ store.history.ended.length →
    snapshot.1 = (origin.recordAll (store.history.ended.take snapshot.2)).state
  reopened : (store.committed origin).state.Storable →
    openFile store.disk.file = .ok (store.committed origin).state

section Runs

variable {origin : Committed} {store next : DurableStore}

theorem Consistent.step (consistent : Consistent origin store) {event : StoreEvent}
    (allowed : store.Undisturbed event) (stepped : step event store = .ok next) :
    Consistent origin next := by
  cases event with
  | transaction mutate =>
    obtain rfl := Except.ok.inj stepped
    refine { consistent with order := ?_, inFlight := ?_ }
    · change store.history.calls ++ [mutate] = _
      rw [consistent.order, List.append_assoc]
    · intro commit pending
      exact { consistent.inFlight commit pending with }
  | start => exact consistent.start allowed stepped
  | write outcome => exact consistent.write allowed stepped
  | snapshot =>
    obtain rfl := Except.ok.inj stepped
    refine { consistent with inFlight := ?_, snapshots := ?_ }
    · intro commit pending
      exact { consistent.inFlight commit pending with }
    · refine List.forall_mem_append.2 ⟨consistent.snapshots, List.forall_mem_singleton.2 ?_⟩
      cases pending : store.commit with
      | none =>
        refine .inl ⟨?_, ?_⟩ <;> simp only [seen, pending, Option.toList_none, List.length_nil,
          Nat.add_zero, le_refl, List.take_length]
        exact consistent.idle pending
      | some commit =>
        refine .inr ⟨?_, ?_, rfl⟩
        · simp only [seen, pending]
          rfl
        · simp

theorem consistent_opened (origin : Committed) (tmp : Option Text) :
    Consistent origin (opened origin.state { tmp := tmp, file := origin.file }) where
  order := rfl
  idle := fun _ => rfl
  inFlight := fun _ pending => nomatch pending
  file := rfl
  explained := History.Each.nil
  snapshots := fun _ taken => nomatch taken

theorem Consistent.atomic (consistent : Consistent origin store)
    (opens : openFile origin.file = .ok origin.state) : Atomic origin store where
  order := consistent.order
  state := consistent.idle
  file := consistent.file
  explained := consistent.explained
  snapshots := by
    intro snapshot taken short
    rcases consistent.snapshots snapshot taken with ⟨-, shown⟩ | ⟨full, -, -⟩
    · exact shown
    · omega
  reopened := by
    rw [consistent.file]
    exact Committed.Reopens.recordAll (fun _ => opens) _

/-- Transactions are atomic, serial and durable in every undisturbed run of a store that
opened its file. -/
theorem transactions_atomic (origin : Committed) (tmp : Option Text)
    (opens : openFile origin.file = .ok origin.state)
    (run : Reaches step Undisturbed
      (opened origin.state { tmp := tmp, file := origin.file }) store) :
    Atomic origin store := by
  refine Consistent.atomic ?_ opens
  exact run.invariant (consistent_opened origin tmp) fun _ _ _ consistent allowed stepped =>
    consistent.step allowed stepped

end Runs

/-! ## Samples -/

/-- A store that was opened without a file. -/
def sampleOrigin : Committed where
  state := emptyState
  file := none

def sampleKill : Mutator :=
  fun state => .ok { state with killed := StateValue.boolean true }

/-- The store after some events. -/
def sampleRun (events : List StoreEvent) : DurableStore :=
  applyAll step (opened sampleOrigin.state { tmp := none, file := none }) events

theorem transactions_atomic_sample :
    Atomic sampleOrigin (sampleRun [.transaction sampleKill, .start, .write .done, .write .done,
      .write .done, .snapshot, .transaction sampleKill, .start, .write (.failed "EIO" none)]) := by
  refine transactions_atomic sampleOrigin none rfl (Reaches.applyAll (.refl _) ?_)
  refine ⟨trivial, .inl rfl, trivial, trivial, trivial, trivial, trivial, .inl rfl, ?_, trivial⟩
  rintro _ ⟨⟩ _ taken same
  obtain rfl := List.mem_singleton.1 taken
  exact absurd same (by decide)

/-- A snapshot sees a transaction that fails afterwards, and a failed write makes every later
transaction fail. -/
theorem broken_write_shown_and_kept :
    (¬ Atomic sampleOrigin (sampleRun [.transaction sampleKill, .start, .snapshot,
      .write (.failed "EIO" none)])) ∧
    ¬ Atomic sampleOrigin (sampleRun [.transaction sampleKill, .start,
      .write (.failed "EIO" none), .transaction sampleKill, .start, .write .done]) := by
  constructor
  · intro atomic
    have shown : StateValue.boolean true = StateValue.boolean false :=
      congrArg DurableState.killed (atomic.snapshots _ (List.mem_singleton_self _) (le_refl 1))
    exact absurd shown (by simp [StateValue.boolean])
  · intro atomic
    exact atomic.explained [(sampleKill, .unwritten "EIO")] (sampleKill, .blocked "EIO") [] rfl

end DurableStore

end MintBot
