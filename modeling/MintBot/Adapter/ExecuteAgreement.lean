import MintBot.Adapter.MapResult
import MintBot.Coordinator.Facts
import MintBot.Store.Operation

/-!
# The execute adapter and the coordinator

The engine, the adapter and the coordinator agree on a fleet when the mapped
result passes the checks of the coordinator with every attempt and receipt in
it.  They do exactly when every wallet without an identity was only skipped or
killed and every receipt of a staged chain is final; one other wallet makes the
whole fleet unrecordable.
-/

namespace MintBot

open Fallible

/-! ## Attempts of one execution -/

/-- How many replacements came before the attempt. -/
def AttemptId.bump : AttemptId → Nat
  | .replacementSigned _ bump | .replacementBroadcast _ bump _ _ => bump
  | _ => 0

/-- Distinct attempts of one execution, all made before a bump. -/
structure AttemptsBefore (executionId : ExecutionId) (bump : Nat) (ids : List AttemptId) :
    Prop where
  execution : ∀ id ∈ ids, id.execution = some executionId
  before : ∀ id ∈ ids, id.bump < bump
  distinct : ids.Nodup

theorem nodup_mapIdx {α β : Type} {f : Nat → α → β}
    (separate : ∀ first second a b, f first a = f second b → first = second) (items : List α) :
    (items.mapIdx f).Nodup := by
  rw [List.Nodup, List.pairwise_iff_getElem]
  intro first second firstBound secondBound order same
  rw [List.getElem_mapIdx, List.getElem_mapIdx] at same
  exact absurd (separate first second _ _ same) (by omega)

/-- The signed attempt and the attempts of any answers. -/
theorem attemptsBefore_answers (executionId : ExecutionId) (results : List BroadcastResult) :
    AttemptsBefore executionId 1 (.signed executionId :: answerIds executionId results) where
  execution := by
    intro id member
    simp only [answerIds, List.mem_cons, List.mem_mapIdx] at member
    rcases member with rfl | ⟨index, bound, rfl⟩ <;> rfl
  before := by
    intro id member
    simp only [answerIds, List.mem_cons, List.mem_mapIdx] at member
    rcases member with rfl | ⟨index, bound, rfl⟩ <;> exact Nat.one_pos
  distinct := by
    rw [List.nodup_cons]
    constructor
    · simp [answerIds]
    · refine nodup_mapIdx ?_ results
      intro first second a b same
      exact (AttemptId.broadcast.inj same).2.1

/-- The attempts of one replacement are made at its bump. -/
theorem replacement_attempts (replacement : Replacement) (executionId : ExecutionId) (bump : Nat) :
    (∀ id ∈ replacement.attemptIds executionId bump,
      id.execution = some executionId ∧ id.bump = bump) ∧
    (replacement.attemptIds executionId bump).Nodup := by
  constructor
  · intro id member
    simp only [Replacement.attemptIds, List.mem_cons, List.mem_mapIdx] at member
    rcases member with rfl | ⟨index, bound, rfl⟩ <;> exact ⟨rfl, rfl⟩
  · rw [Replacement.attemptIds, List.nodup_cons]
    constructor
    · simp
    · refine nodup_mapIdx ?_ replacement.answers
      intro first second a b same
      exact (AttemptId.replacementBroadcast.inj same).2.2.1

/-- A rung of the ladder adds its attempts after the ones before it. -/
theorem AttemptsBefore.replace {executionId : ExecutionId} {bump : Nat} {ids : List AttemptId}
    (known : AttemptsBefore executionId bump ids) (replacement : Replacement) :
    AttemptsBefore executionId (bump + 1) (ids ++ replacement.attemptIds executionId bump) := by
  obtain ⟨made, distinct⟩ := replacement_attempts replacement executionId bump
  constructor
  · intro id member
    rcases List.mem_append.mp member with old | new
    · exact known.execution id old
    · exact (made id new).1
  · intro id member
    rcases List.mem_append.mp member with old | new
    · exact Nat.lt_succ_of_lt (known.before id old)
    · rw [(made id new).2]
      exact Nat.lt_succ_self bump
  · rw [List.nodup_append]
    refine ⟨known.distinct, distinct, ?_⟩
    rintro old oldMember new newMember rfl
    exact absurd (made old newMember).2 (Nat.ne_of_lt (known.before old oldMember))

/-- What a ladder leaves as it was. -/
structure WalletTask.SameWallet (before after : WalletTask) : Prop where
  address : after.address = before.address
  execution : after.executionId = before.executionId
  intent : after.transactionIntentId = before.transactionIntentId

/-- The task has attempts, and one of them is its submission. -/
structure WalletTask.Submitted (task : WalletTask) : Prop where
  submission : task.submissionAttemptId ≠ none
  attempts : task.attemptIds ≠ []

theorem climb_attempts {executionId : ExecutionId} (replacements : List Replacement) {bump : Nat}
    (ladder : Ladder) (known : AttemptsBefore executionId bump ladder.task.attemptIds)
    (submitted : ladder.task.Submitted) :
    (∃ last, AttemptsBefore executionId last
      (ladder.climb executionId bump replacements).task.attemptIds) ∧
    ladder.task.SameWallet (ladder.climb executionId bump replacements).task ∧
    (ladder.climb executionId bump replacements).task.Submitted := by
  induction replacements generalizing bump ladder with
  | nil => exact ⟨⟨bump, known⟩, ⟨rfl, rfl, rfl⟩, submitted⟩
  | cons replacement rest inductionHypothesis =>
      have extended : (ladder.replace executionId bump replacement).task.Submitted :=
        ⟨submitted.submission, List.append_ne_nil_of_left_ne_nil submitted.attempts _⟩
      obtain ⟨attempts, same, stillSubmitted⟩ := inductionHypothesis
        (ladder.replace executionId bump replacement) (known.replace replacement) extended
      exact ⟨attempts, ⟨same.address, same.execution, same.intent⟩, stillSubmitted⟩

/-! ## Tasks with an identity -/

/-- A task with the identity of its wallet, whose attempts are distinct attempts
of its execution. -/
structure WalletTask.Identified (job : MintJob) (address : String) (task : WalletTask) : Prop where
  ofAddress : task.address = address
  execution : task.executionId = some (job.executionId address)
  intent : task.transactionIntentId ≠ none
  attempts : ∃ bump, AttemptsBefore (job.executionId address) bump task.attemptIds

theorem WalletTask.identified_answering (job : MintJob) (address : String) (nonce : Nat)
    (signedHash : String) (results : List BroadcastResult) (recorded : Nat) :
    (WalletTask.answering job address nonce signedHash results recorded).Identified job address where
  ofAddress := rfl
  execution := rfl
  intent := Option.some_ne_none _
  attempts := ⟨1, attemptsBefore_answers (job.executionId address) (results.take recorded)⟩

theorem WalletTask.identified_unaccepted (job : MintJob) (address : String) (nonce : Nat)
    (signedHash : String) (results : List BroadcastResult) :
    (WalletTask.unaccepted job address nonce signedHash results).Identified job address := by
  obtain ⟨ofAddress, execution, intent, attempts⟩ :=
    WalletTask.identified_answering job address nonce signedHash results results.length
  unfold WalletTask.unaccepted
  cases results.findIdx? fun result => result.Ambiguous with
  | none => exact ⟨ofAddress, execution, intent, attempts⟩
  | some resultIndex => exact ⟨ofAddress, execution, intent, attempts⟩

section Watch

variable {job : MintJob} {address : String}

theorem Watch.ladder_identified (watch : Watch) {task : WalletTask}
    (identified : task.Identified job address)
    (answered : AttemptsBefore (job.executionId address) 1 task.attemptIds)
    (submitted : task.Submitted) (firstHash : String) :
    (watch.ladder (job.executionId address) task firstHash).task.Identified job address ∧
      (watch.ladder (job.executionId address) task firstHash).task.Submitted := by
  unfold Watch.ladder
  cases watch.replacements with
  | none => exact ⟨identified, submitted⟩
  | some replacements =>
      obtain ⟨attempts, same, stillSubmitted⟩ := climb_attempts replacements
        ((Ladder.start task (job.executionId address) firstHash).open firstHash) answered
        ⟨submitted.submission, submitted.attempts⟩
      refine ⟨⟨?_, ?_, ?_, attempts⟩, stillSubmitted⟩
      · exact same.address.trans identified.ofAddress
      · exact same.execution.trans identified.execution
      · rw [same.intent]
        exact identified.intent

theorem Ladder.mined_identified {ladder : Ladder}
    (identified : ladder.task.Identified job address)
    (submitted : ladder.task.Submitted) (receipt : MintReceipt) :
    (ladder.mined receipt).Identified job address ∧ (ladder.mined receipt).Submitted := by
  by_cases several : 1 < ladder.watched.length
  · rw [Ladder.mined, if_pos several]
    constructor
    · exact ⟨identified.ofAddress, identified.execution, identified.intent, identified.attempts⟩
    · exact ⟨by simp [submitted.submission], submitted.attempts⟩
  · rw [Ladder.mined, if_neg several]
    exact ⟨identified, submitted⟩

/-- Watching an accepted transaction keeps its identity and its submission. -/
theorem Watch.task_identified (watch : Watch) {task : WalletTask}
    (identified : task.Identified job address)
    (answered : AttemptsBefore (job.executionId address) 1 task.attemptIds)
    (submitted : task.Submitted) (firstHash : String) :
    (watch.task (job.executionId address) task firstHash).Identified job address ∧
      (watch.task (job.executionId address) task firstHash).Submitted := by
  obtain ⟨ladderIdentified, ladderSubmitted⟩ :=
    watch.ladder_identified identified answered submitted firstHash
  unfold Watch.task
  cases watch.receipt with
  | none => exact ⟨ladderIdentified, ladderSubmitted⟩
  | some receipt => exact Ladder.mined_identified ladderIdentified ladderSubmitted receipt

/-- The task of an accepted transaction at its end. -/
theorem accepted_identified (watch : Watch) (nonce : Nat) (signedHash : String)
    (results : List BroadcastResult) (attemptId : AttemptId) (result : BroadcastResult) :
    let task := watch.task (job.executionId address)
      (WalletTask.accepted job address nonce signedHash results attemptId result) result.txHash
    task.Identified job address ∧ task.Submitted := by
  let task := WalletTask.accepted job address nonce signedHash results attemptId result
  have answered : AttemptsBefore (job.executionId address) 1 task.attemptIds :=
    attemptsBefore_answers (job.executionId address) (results.take results.length)
  have identified : task.Identified job address :=
    ⟨rfl, rfl, Option.some_ne_none _, 1, answered⟩
  have submitted : task.Submitted := ⟨Option.some_ne_none attemptId, List.cons_ne_nil _ _⟩
  exact watch.task_identified identified answered submitted result.txHash

end Watch

/-- The task came far enough to have an identity. -/
def WalletCourse.Identified : WalletCourse → Prop
  | .skippedInPreflight | .killedBeforeStart | .dropChanged | .simulationUnavailable
  | .failedBeforeIdentity _ | .rejected => False
  | _ => True

instance (course : WalletCourse) : Decidable course.Identified := by
  cases course <;> unfold WalletCourse.Identified <;> infer_instance

theorem WalletCourse.task_identified {course : WalletCourse} (job : MintJob) (address : String)
    (identified : course.Identified) : (course.task job address).Identified job address := by
  have signed (nonce : Nat) (signedHash : String) :=
    WalletTask.identified_answering job address nonce signedHash [] 0
  cases course with
  | skippedInPreflight => exact identified.elim
  | killedBeforeStart => exact identified.elim
  | dropChanged => exact identified.elim
  | simulationUnavailable => exact identified.elim
  | failedBeforeIdentity nonce => exact identified.elim
  | rejected => exact identified.elim
  | failedBeforeReservation nonce =>
      exact ⟨rfl, rfl, Option.some_ne_none _, 0, by simp [WalletCourse.task, WalletTask.identified],
        by simp [WalletCourse.task, WalletTask.identified], List.nodup_nil⟩
  | failedBeforeSigning nonce =>
      exact ⟨rfl, rfl, Option.some_ne_none _, 0, by simp [WalletCourse.task, WalletTask.reserved,
        WalletTask.identified], by simp [WalletCourse.task, WalletTask.reserved,
        WalletTask.identified], List.nodup_nil⟩
  | failedBeforeBroadcast nonce =>
      obtain ⟨sameAddress, execution, intent, attempts⟩ := signed nonce ""
      exact ⟨sameAddress, execution, intent, attempts⟩
  | broadcastThrew nonce signedHash recovery =>
      obtain ⟨sameAddress, execution, intent, attempts⟩ := signed nonce signedHash
      exact ⟨sameAddress, execution, intent, attempts⟩
  | interrupted nonce signedHash results recorded recovery =>
      exact WalletTask.identified_answering job address nonce signedHash results recorded
  | answered nonce signedHash results watch =>
      cases selected : selectBroadcastAttempt (job.executionId address) results with
      | none =>
          rw [WalletCourse.task, selected]
          exact WalletTask.identified_unaccepted job address nonce signedHash results
      | some selection =>
          obtain ⟨resultIndex, attemptId, result⟩ := selection
          rw [WalletCourse.task, selected]
          exact (accepted_identified watch nonce signedHash results attemptId result).1

theorem selectBroadcastAttempt_of_success (executionId : ExecutionId)
    {results : List BroadcastResult} (success : results.any BroadcastResult.success = true) :
    ∃ selection, selectBroadcastAttempt executionId results = some selection := by
  obtain ⟨result, member, accepted⟩ := List.any_eq_true.mp success
  cases found : results.findIdx? BroadcastResult.success with
  | none => exact absurd accepted (by simp [List.findIdx?_eq_none_iff.mp found result member])
  | some resultIndex =>
      obtain ⟨bound, -⟩ := List.findIdx?_eq_some_iff_getElem.mp found
      have selected : results[resultIndex]? = some results[resultIndex] :=
        List.getElem?_eq_getElem bound
      simp only [selectBroadcastAttempt, found, selected, Option.bind_eq_bind, Option.bind_some]
      exact ⟨_, rfl⟩

/-- The receipt a task ends with. -/
def WalletCourse.minedReceipt (course : WalletCourse) : Option MintReceipt :=
  match course.ending with
  | .mined receipt => some receipt
  | _ => none

/-- A mined task had its transaction accepted. -/
theorem WalletCourse.submitted_of_mined {course : WalletCourse} {receipt : MintReceipt}
    (mined : course.ending = .mined receipt) (job : MintJob) (address : String) :
    course.Identified ∧ (course.task job address).Submitted := by
  cases course with
  | answered nonce signedHash results watch =>
      refine ⟨trivial, ?_⟩
      by_cases success : results.any BroadcastResult.success = true
      · obtain ⟨⟨resultIndex, attemptId, result⟩, selected⟩ :=
          selectBroadcastAttempt_of_success (job.executionId address) success
        rw [WalletCourse.task, selected]
        exact (accepted_identified watch nonce signedHash results attemptId result).2
      · simp [WalletCourse.ending, success] at mined
  | _ => simp [WalletCourse.ending] at mined

theorem WalletCourse.ending_of_identified {course : WalletCourse} (identified : course.Identified) :
    (∃ recovery, course.ending = .caught recovery) ∨
      ∃ receipt, course.ending = .mined receipt := by
  cases course with
  | skippedInPreflight => exact identified.elim
  | killedBeforeStart => exact identified.elim
  | dropChanged => exact identified.elim
  | simulationUnavailable => exact identified.elim
  | failedBeforeIdentity nonce => exact identified.elim
  | rejected => exact identified.elim
  | answered nonce signedHash results watch =>
      cases seen : watch.receipt.filter fun _ =>
          results.any BroadcastResult.success ∧ watch.recorded with
      | none => exact Or.inl ⟨watch.recovery, by simp only [WalletCourse.ending, seen]⟩
      | some receipt => exact Or.inr ⟨receipt, by simp only [WalletCourse.ending, seen]⟩
  | _ => exact Or.inl ⟨_, rfl⟩

/-! ## Facts of a wallet -/

/-- The adapter can map the wallet: it has an identity, or it was stopped before
anything could fail. -/
def WalletCourse.Mappable : WalletCourse → Prop
  | .failedBeforeIdentity _ | .rejected => False
  | _ => True

instance (course : WalletCourse) : Decidable course.Mappable := by
  cases course <;> unfold WalletCourse.Mappable <;> infer_instance

section Facts

variable (job : MintJob) (now : Time) (address : String) (course : WalletCourse)

/-- The receipt that is recorded for a wallet. -/
def WalletCourse.receiptRecord (receipt : MintReceipt) : ReceiptRecord :=
  (course.result job address).receipt job.runId job.chainId now (job.executionId address)
    receipt.blockNumber receipt.blockHash (receipt.totalCostWei job.valueWei)

/-- The attempt that is recorded for a wallet under an id. -/
def WalletCourse.attemptRecord : AttemptId → AttemptRecord :=
  (course.result job address).attempt false job.runId job.chainId now (job.executionId address)

/-- What a wallet adds to the mapped result. -/
def WalletCourse.facts : WalletFacts :=
  let wallet := course.result job address
  if course.Identified then
    { executionIds := [job.executionId address]
      attempts := wallet.attemptIds.map (course.attemptRecord job now address)
      receipts := course.minedReceipt.toList.map (course.receiptRecord job now address)
      hasPending := wallet.Pending
      hasFailed := wallet.Failed ∧ ¬ wallet.Pending }
  else ⟨[], [], [], false, true⟩

variable {course}

/-- The result of a task with an identity carries its identity and attempts. -/
theorem result_of_identified (identified : course.Identified) :
    (course.result job address).address = address ∧
      (course.result job address).executionId = some (job.executionId address) ∧
      (course.result job address).transactionIntentId ≠ none ∧
      (course.result job address).attemptIds = (course.task job address).attemptIds := by
  obtain ⟨ofAddress, execution, intent, -⟩ := WalletCourse.task_identified job address identified
  rcases WalletCourse.ending_of_identified identified with ⟨recovery, caught⟩ | ⟨receipt, mined⟩
  · rw [WalletCourse.result, caught]
    exact ⟨ofAddress, execution, intent, rfl⟩
  · rw [WalletCourse.result, mined]
    exact ⟨ofAddress, execution, intent, rfl⟩

/-- A receipt is mapped exactly for a mined transaction. -/
theorem receipts_of_identified (identified : course.Identified) :
    (course.result job address).receipts false job.runId job.chainId now
        (job.executionId address) =
      .ok (course.minedReceipt.toList.map (course.receiptRecord job now address)) := by
  rcases WalletCourse.ending_of_identified identified with ⟨recovery, caught⟩ | ⟨receipt, mined⟩
  · have unmined : (course.result job address).blockNumber = none := by
      rw [WalletCourse.result, caught]
      rfl
    rw [WalletCourse.minedReceipt, caught, WalletMintResult.receipts, unmined]
    cases (course.result job address).txHash.filter fun hash => hash ≠ "" <;> rfl
  · have result : course.result job address = (course.task job address).mined job receipt := by
      rw [WalletCourse.result, mined]
    obtain ⟨-, submission, -⟩ := WalletCourse.submitted_of_mined mined job address
    have attributed : (course.result job address).submission ≠ none := by
      rw [result, WalletMintResult.submission]
      simp [WalletTask.mined, submission]
    have txHash : (course.result job address).txHash.filter (fun hash => hash ≠ "") =
        some receipt.txHash := by
      rw [result]
      simp [WalletTask.mined, receipt.txHashPresent]
    have blockHash : (course.result job address).blockHash.filter (fun hash => hash ≠ "") =
        some receipt.blockHash := by
      rw [result]
      simp [WalletTask.mined, receipt.blockHashPresent]
    have blockNumber : (course.result job address).blockNumber = some receipt.blockNumber := by
      rw [result]
      rfl
    have cost : (course.result job address).totalCostWei =
        some (receipt.totalCostWei job.valueWei) := by
      rw [result]
      rfl
    rw [WalletCourse.minedReceipt, mined, WalletMintResult.receipts, txHash, blockHash,
      blockNumber, cost]
    simp [attributed, refuse, WalletCourse.receiptRecord, bind, Except.bind, pure, Except.pure]

theorem mapWallet_of_identified (identified : course.Identified) :
    mapWallet false job.runId job.chainId now (course.result job address) =
      .ok (course.facts job now address) := by
  obtain ⟨-, execution, intent, -⟩ := result_of_identified job address identified
  obtain ⟨intentId, hasIntent⟩ := Option.ne_none_iff_exists'.mp intent
  simp only [mapWallet, execution, hasIntent, WalletMintResult.facts,
    receipts_of_identified job now address identified, WalletCourse.facts, if_pos identified]
  rfl

theorem mapWallet_of_mappable (mappable : course.Mappable) :
    mapWallet false job.runId job.chainId now (course.result job address) =
      .ok (course.facts job now address) := by
  by_cases identified : course.Identified
  · exact mapWallet_of_identified job now address identified
  · -- Only the four early returns have no identity and can be mapped.
    cases course <;> first
      | exact absurd trivial identified
      | exact mappable.elim
      | rfl

theorem mapWallet_of_not_mappable (unmappable : ¬ course.Mappable) :
    mapWallet false job.runId job.chainId now (course.result job address) =
      .error "ENGINE_IDENTITY_REQUIRED" := by
  cases course <;> first
    | exact absurd trivial unmappable
    | rfl

end Facts

/-! ## The fleet -/

/-- One course for each of some wallets that admission prepared. -/
structure FleetOf (job : MintJob) (input : CanonicalAdmissionInput)
    (fleet : List (String × WalletCourse)) : Prop where
  run : job.runId = input.run.id
  chain : job.chainId = input.campaign.chainId
  distinct : (fleet.map fun wallet => toLowerCase wallet.1).Nodup
  admitted : ∀ wallet ∈ fleet, ∃ other ∈ input.wallets, toLowerCase other = toLowerCase wallet.1

section Fleet

variable (job : MintJob) (now : Time) (fleet : List (String × WalletCourse))

/-- What the wallets of a fleet add to the mapped result. -/
def fleetFacts : List WalletFacts :=
  fleet.map fun wallet => wallet.2.facts job now wallet.1

variable {fleet}

theorem mapResult_of_mappable (mappable : ∀ wallet ∈ fleet, wallet.2.Mappable) :
    ∃ result, mapResult (executeFleet job fleet) job.runId job.chainId now = .ok result ∧
      result.executionIds = (fleetFacts job now fleet).flatMap WalletFacts.executionIds ∧
      result.attempts = (fleetFacts job now fleet).flatMap WalletFacts.attempts ∧
      result.receipts = (fleetFacts job now fleet).flatMap WalletFacts.receipts := by
  have mapped : (executeFleet job fleet).walletResults.mapM
      (mapWallet false job.runId job.chainId now) = .ok (fleetFacts job now fleet) := by
    rw [mapM_eq_ok, executeFleet, fleetFacts, List.forall₂_map_left_iff,
      List.forall₂_map_right_iff, List.forall₂_same]
    exact fun wallet member => mapWallet_of_mappable job now wallet.1 (mappable wallet member)
  have dryRun : (executeFleet job fleet).dryRun = false := rfl
  simp only [mapResult, dryRun, mapped]
  exact ⟨_, rfl, rfl, rfl, rfl⟩

theorem mappable_of_mapResult {result : ExecutionResult}
    (success : mapResult (executeFleet job fleet) job.runId job.chainId now = .ok result) :
    ∀ wallet ∈ fleet, wallet.2.Mappable := by
  intro wallet member
  by_contra unmappable
  simp only [mapResult, bind_eq_ok, mapM_eq_ok, executeFleet, List.forall₂_map_left_iff] at success
  obtain ⟨facts, mapped, -⟩ := success
  obtain ⟨index, bound, rfl⟩ := List.getElem_of_mem member
  have each := List.Forall₂.get mapped bound (mapped.length_eq ▸ bound)
  have failed := mapWallet_of_not_mappable job now fleet[index].1 unmappable
  rw [List.get_eq_getElem] at each
  rw [failed] at each
  cases each

theorem mem_executionIds {id : ExecutionId} :
    id ∈ (fleetFacts job now fleet).flatMap WalletFacts.executionIds ↔
      ∃ wallet ∈ fleet, wallet.2.Identified ∧ id = job.executionId wallet.1 := by
  simp only [fleetFacts, List.mem_flatMap, List.mem_map, exists_exists_and_eq_and,
    WalletCourse.facts]
  refine exists_congr fun wallet => and_congr_right fun _ => ?_
  by_cases identified : wallet.2.Identified <;> simp [identified]

theorem mem_attempts {attempt : AttemptRecord} :
    attempt ∈ (fleetFacts job now fleet).flatMap WalletFacts.attempts ↔
      ∃ wallet ∈ fleet, wallet.2.Identified ∧
        ∃ id ∈ (wallet.2.task job wallet.1).attemptIds,
          attempt = wallet.2.attemptRecord job now wallet.1 id := by
  simp only [fleetFacts, List.mem_flatMap, List.mem_map, exists_exists_and_eq_and,
    WalletCourse.facts]
  refine exists_congr fun wallet => and_congr_right fun _ => ?_
  by_cases identified : wallet.2.Identified
  · obtain ⟨-, -, -, sameAttempts⟩ := result_of_identified job wallet.1 identified
    simp [identified, sameAttempts, eq_comm]
  · simp [identified]

theorem mem_receipts {recorded : ReceiptRecord} :
    recorded ∈ (fleetFacts job now fleet).flatMap WalletFacts.receipts ↔
      ∃ wallet ∈ fleet, ∃ receipt, wallet.2.ending = .mined receipt ∧
        recorded = wallet.2.receiptRecord job now wallet.1 receipt := by
  simp only [fleetFacts, List.mem_flatMap, List.mem_map, exists_exists_and_eq_and,
    WalletCourse.facts]
  refine exists_congr fun wallet => and_congr_right fun _ => ?_
  by_cases identified : wallet.2.Identified
  · rcases WalletCourse.ending_of_identified identified with ⟨recovery, caught⟩ | ⟨receipt, mined⟩
    · simp [identified, WalletCourse.minedReceipt, caught]
    · simp [identified, WalletCourse.minedReceipt, mined]
  · have unmined : ∀ receipt, wallet.2.ending ≠ .mined receipt := fun receipt mined =>
      identified (WalletCourse.submitted_of_mined mined job wallet.1).1
    simp [identified, unmined]

end Fleet

theorem mapped_receipt_valid {job : MintJob} {course : WalletCourse} {receipt : MintReceipt}
    (now : Time) (address : String) (mined : course.ending = .mined receipt)
    (authoritative : receipt.Authoritative job.chainId) :
    ¬ (course.receiptRecord job now address receipt).Invalid job.chainId false := by
  have result : course.result job address = (course.task job address).mined job receipt := by
    rw [WalletCourse.result, mined]
  have notPending : ¬ (course.result job address).Pending := by
    rw [result, WalletMintResult.Pending]
    simp only [WalletTask.mined, if_pos authoritative]
    cases receipt.succeeded <;> simp
  have notReorged : (course.result job address).lifecycleState ≠ some .reorged := by
    rw [result]
    simp only [WalletTask.mined, lifecycleStateForFinality]
    split_ifs <;> simp
  have cost : ¬ Int.ofNat (receipt.totalCostWei job.valueWei) < 0 := by
    simp
  have settled : (course.receiptRecord job now address receipt).state = .confirmed ∨
      (course.receiptRecord job now address receipt).state = .failed := by
    simp only [WalletCourse.receiptRecord, WalletMintResult.receipt, if_neg notReorged,
      notPending, and_false, if_false]
    split_ifs <;> simp
  rintro (state | ⟨pending, -⟩ | unmined | hashless | unpaid)
  · rcases settled with confirmed | failed
    · simp [confirmed] at state
    · simp [failed] at state
  · rcases settled with confirmed | failed
    · simp [confirmed] at pending
    · simp [failed] at pending
  · cases unmined
  · exact receipt.blockHashPresent hashless
  · exact cost (unpaid _ rfl)

/-- Facts that each belong to the execution of their own wallet are distinct in
a fleet. -/
theorem nodup_fleet {β : Type} (job : MintJob) {fleet : List (String × WalletCourse)}
    (distinct : (fleet.map fun wallet => toLowerCase wallet.1).Nodup)
    {facts : String × WalletCourse → List β} (owner : β → Option ExecutionId)
    (each : ∀ wallet ∈ fleet, (facts wallet).Nodup ∧
      ∀ fact ∈ facts wallet, owner fact = some (job.executionId wallet.1)) :
    (fleet.flatMap facts).Nodup := by
  rw [List.nodup_flatMap]
  constructor
  · exact fun wallet member => (each wallet member).1
  · have apart := List.pairwise_map.mp distinct
    refine apart.imp_of_mem ?_
    intro first second firstMember secondMember differ fact ofFirst ofSecond
    have same := ((each first firstMember).2 fact ofFirst).symm.trans
      ((each second secondMember).2 fact ofSecond)
    exact differ (ExecutionId.mk.inj (Option.some.inj same)).2

theorem fleet_attempts_nodup {job : MintJob} (now : Time) {fleet : List (String × WalletCourse)}
    (distinct : (fleet.map fun wallet => toLowerCase wallet.1).Nodup) :
    (((fleetFacts job now fleet).flatMap WalletFacts.attempts).map AttemptRecord.id).Nodup := by
  rw [fleetFacts, List.flatMap_map, List.map_flatMap]
  refine nodup_fleet job distinct AttemptId.execution ?_
  intro wallet member
  by_cases identified : wallet.2.Identified
  · obtain ⟨-, -, -, bump, attempts⟩ := WalletCourse.task_identified job wallet.1 identified
    obtain ⟨-, -, -, sameAttempts⟩ := result_of_identified job wallet.1 identified
    have ids : (wallet.2.facts job now wallet.1).attempts.map AttemptRecord.id =
        (wallet.2.task job wallet.1).attemptIds := by
      rw [WalletCourse.facts, if_pos identified, sameAttempts, List.map_map]
      exact List.map_id _
    rw [ids]
    exact ⟨attempts.distinct, attempts.execution⟩
  · simp [WalletCourse.facts, identified]

theorem fleet_receipts_nodup {job : MintJob} (now : Time) {fleet : List (String × WalletCourse)}
    (distinct : (fleet.map fun wallet => toLowerCase wallet.1).Nodup) :
    (((fleetFacts job now fleet).flatMap WalletFacts.receipts).map ReceiptRecord.id).Nodup := by
  rw [fleetFacts, List.flatMap_map, List.map_flatMap]
  refine nodup_fleet job distinct ReceiptId.execution ?_
  intro wallet member
  by_cases identified : wallet.2.Identified
  · rw [WalletCourse.facts, if_pos identified]
    cases wallet.2.minedReceipt with
    | none => simp
    | some receipt => simp [WalletCourse.receiptRecord, WalletMintResult.receipt,
        ReceiptId.execution]
  · simp [WalletCourse.facts, identified]

theorem fleet_executions_nodup {job : MintJob} (now : Time) {fleet : List (String × WalletCourse)}
    (distinct : (fleet.map fun wallet => toLowerCase wallet.1).Nodup) :
    ((fleetFacts job now fleet).flatMap WalletFacts.executionIds).Nodup := by
  rw [fleetFacts, List.flatMap_map]
  refine nodup_fleet job distinct some ?_
  intro wallet member
  by_cases identified : wallet.2.Identified <;> simp [WalletCourse.facts, identified]

/-- The receipts of a staged chain are final. -/
def ReceiptsFinal (job : MintJob) (fleet : List (String × WalletCourse)) : Prop :=
  job.chainId ≠ .ethereum → ∀ wallet ∈ fleet, ∀ receipt, wallet.2.ending = .mined receipt →
    receipt.finalityStage = .ethereumFinal

/-- The receipt watcher of the engine returns only final receipts on staged
chains. -/
theorem receiptsFinal_of_awaited {job : MintJob} {fleet : List (String × WalletCourse)}
    (awaited : ∀ wallet ∈ fleet, ∀ receipt, wallet.2.ending = .mined receipt →
      receipt.Awaited job.chainId) :
    ReceiptsFinal job fleet := by
  intro staged wallet member receipt mined
  have stage : receipt.finalityStage = settlementStage job.chainId :=
    awaited wallet member receipt mined
  rw [stage]
  cases chain : job.chainId with
  | ethereum => exact absurd chain staged
  | base => rfl
  | robinhood => rfl

section Agreement

variable {job : MintJob} {now : Time} {fleet : List (String × WalletCourse)}

/-- The stage that a mined receipt of a staged chain is recorded with. -/
theorem receiptRecord_stage {course : WalletCourse} {receipt : MintReceipt} (address : String)
    (mined : course.ending = .mined receipt) (staged : job.chainId ≠ .ethereum) :
    (course.receiptRecord job now address receipt).finalityStage =
        stagedFinality (some receipt.finalityStage) ∧
      (job.chainId = .robinhood →
        (course.receiptRecord job now address receipt).robinhoodFinality =
          robinhoodFinality (some receipt.finalityStage)) := by
  have result : course.result job address = (course.task job address).mined job receipt := by
    rw [WalletCourse.result, mined]
  rw [WalletCourse.receiptRecord, result]
  exact ⟨if_pos staged, fun robinhood => if_pos robinhood⟩

/-- The mapped result passes the checks of an execution exactly when its receipts
are final. -/
theorem fleet_facts_iff
    (distinct : (fleet.map fun wallet => toLowerCase wallet.1).Nodup) :
    EngineFacts job.runId job.chainId
        ((fleetFacts job now fleet).flatMap WalletFacts.executionIds)
        ((fleetFacts job now fleet).flatMap WalletFacts.attempts)
        ((fleetFacts job now fleet).flatMap WalletFacts.receipts) false ↔
      ReceiptsFinal job fleet := by
  constructor
  · intro facts staged wallet member receipt mined
    have final := facts.finalReceipts staged rfl _
      ((mem_receipts job now).mpr ⟨wallet, member, receipt, mined, rfl⟩)
    rw [(receiptRecord_stage wallet.1 mined staged).1] at final
    cases stage : receipt.finalityStage <;> simp [stage, stagedFinality] at final
    rfl
  · intro final
    have ofWallet : ∀ wallet ∈ fleet, wallet.2.Identified → job.executionId wallet.1 ∈
        (fleetFacts job now fleet).flatMap WalletFacts.executionIds :=
      fun wallet member identified =>
        (mem_executionIds job now).mpr ⟨wallet, member, identified, rfl⟩
    constructor
    · exact fleet_executions_nodup now distinct
    · intro attempt attemptMember
      obtain ⟨wallet, member, identified, id, -, rfl⟩ := (mem_attempts job now).mp attemptMember
      exact ⟨rfl, ofWallet wallet member identified⟩
    · intro recorded receiptMember
      obtain ⟨wallet, member, receipt, mined, rfl⟩ := (mem_receipts job now).mp receiptMember
      exact ⟨rfl, ofWallet wallet member (WalletCourse.submitted_of_mined mined job wallet.1).1⟩
    · exact fleet_attempts_nodup now distinct
    · exact fleet_receipts_nodup now distinct
    · intro recorded receiptMember
      obtain ⟨wallet, member, receipt, mined, rfl⟩ := (mem_receipts job now).mp receiptMember
      refine mapped_receipt_valid now wallet.1 mined ?_
      by_cases staged : job.chainId = .ethereum
      · exact Or.inl staged
      · exact Or.inr (final staged wallet member receipt mined)
    · intro staged _ recorded receiptMember
      obtain ⟨wallet, member, receipt, mined, rfl⟩ := (mem_receipts job now).mp receiptMember
      rw [(receiptRecord_stage wallet.1 mined staged).1, final staged wallet member receipt mined]
      rfl
    · intro robinhood recorded receiptMember _
      obtain ⟨wallet, member, receipt, mined, rfl⟩ := (mem_receipts job now).mp receiptMember
      have staged : job.chainId ≠ .ethereum := by simp [robinhood]
      rw [(receiptRecord_stage wallet.1 mined staged).2 robinhood,
        final staged wallet member receipt mined]
      rfl

/-- What a result keeps of a wallet: all its attempts, with a hash when one was
reported, and the receipt of its mined transaction. -/
def KeepsWallet (job : MintJob) (result : ExecutionResult) (wallet : String × WalletCourse) : Prop :=
  (∀ id ∈ (wallet.2.task job wallet.1).attemptIds, ∃ attempt ∈ result.attempts,
    attempt.id = id ∧ attempt.executionId = job.executionId wallet.1 ∧
      ((wallet.2.result job wallet.1).txHash ≠ none → attempt.hash ≠ none)) ∧
  ∀ receipt, wallet.2.ending = .mined receipt → ∃ recorded ∈ result.receipts,
    recorded.executionId = job.executionId wallet.1 ∧
      recorded.blockNumber = some receipt.blockNumber ∧
      recorded.blockHash = some receipt.blockHash ∧
      recorded.actualSpendWei = some (Int.ofNat (receipt.totalCostWei job.valueWei))

/-- The result of a fleet is mapped, rebound and accepted as the facts of the
execution, and keeps every wallet. -/
def ExecuteAgrees (job : MintJob) (now : Time) (prepared : List PreparedExecution)
    (fleet : List (String × WalletCourse)) : Prop :=
  ∃ result rebound,
    mapResult (executeFleet job fleet) job.runId job.chainId now = .ok result ∧
    rebindExecutionResult result prepared = .ok rebound ∧
    assertEngineFacts job.runId job.chainId rebound.executionIds rebound.attempts
      rebound.receipts false = .ok () ∧
    ∀ wallet ∈ fleet, KeepsWallet job rebound wallet

theorem keeps_fleet {result : ExecutionResult}
    (attempts : result.attempts = (fleetFacts job now fleet).flatMap WalletFacts.attempts)
    (receipts : result.receipts = (fleetFacts job now fleet).flatMap WalletFacts.receipts) :
    ∀ wallet ∈ fleet, wallet.2.Mappable → KeepsWallet job result wallet := by
  intro wallet member mappable
  constructor
  · intro id idMember
    by_cases identified : wallet.2.Identified
    · refine ⟨wallet.2.attemptRecord job now wallet.1 id, ?_, rfl, rfl, ?_⟩
      · rw [attempts]
        exact (mem_attempts job now).mpr ⟨wallet, member, identified, id, idMember, rfl⟩
      · intro reported
        simp [WalletCourse.attemptRecord, WalletMintResult.attempt, reported]
    · -- A task without an identity has no attempts.
      obtain ⟨address, course⟩ := wallet
      cases course <;> first
        | exact absurd trivial identified
        | simp [WalletCourse.task] at idMember
  · intro receipt mined
    refine ⟨wallet.2.receiptRecord job now wallet.1 receipt, ?_, rfl, rfl, rfl, rfl⟩
    rw [receipts]
    exact (mem_receipts job now).mpr ⟨wallet, member, receipt, mined, rfl⟩

/-- Admission prepared the executions that the engine names. -/
theorem byWallet_of_admitted {fleetPolicy : Option FleetSpendPolicy} {db db' : Db} {at' : Time}
    {input : CanonicalAdmissionInput} {admission : CanonicalAdmissionResult}
    (admitted : admitExecution fleetPolicy db at' input = .ok (db', admission))
    {wallet : String} (known : ∃ other ∈ input.wallets, toLowerCase other = toLowerCase wallet) :
    byWallet admission.executions wallet = some ⟨input.run.id, toLowerCase wallet⟩ ∧
      ∃ item ∈ admission.executions, item.executionId = ⟨input.run.id, toLowerCase wallet⟩ := by
  obtain ⟨-, -, -, -, -, -, -, rfl⟩ := admitExecution_eq_ok.mp admitted
  obtain ⟨other, member, same⟩ := known
  have prepared : ∃ item ∈ (admissionResult fleetPolicy db' at' input).executions,
      toLowerCase item.wallet = toLowerCase wallet ∧
        item.executionId = ⟨input.run.id, toLowerCase wallet⟩ :=
    ⟨_, List.mem_map_of_mem member, same, by rw [same]⟩
  obtain ⟨item, itemMember, ofWallet, named⟩ := prepared
  refine ⟨?_, item, itemMember, named⟩
  cases search : (admissionResult fleetPolicy db' at' input).executions.reverse.find?
      fun item => toLowerCase item.wallet = toLowerCase wallet with
  | none =>
      have missed := List.find?_eq_none.mp search item (List.mem_reverse.mpr itemMember)
      simp [ofWallet] at missed
  | some last =>
      have lastWallet : toLowerCase last.wallet = toLowerCase wallet := by
        simpa using List.find?_some search
      have lastMember := List.mem_reverse.mp (List.mem_of_find?_eq_some search)
      obtain ⟨armed, -, rfl⟩ := List.mem_map.mp lastMember
      rw [byWallet, search, ← lastWallet]
      rfl

/-- Engine, adapter and coordinator agree on a fleet exactly when every wallet
has an identity or was only skipped or killed, and receipts of staged chains are
final. -/
theorem execute_agrees_iff {fleetPolicy : Option FleetSpendPolicy} {db db' : Db} {at' : Time}
    {input : CanonicalAdmissionInput} {admission : CanonicalAdmissionResult}
    (admitted : admitExecution fleetPolicy db at' input = .ok (db', admission))
    (ofInput : FleetOf job input fleet) :
    ExecuteAgrees job now admission.executions fleet ↔
      (∀ wallet ∈ fleet, wallet.2.Mappable) ∧ ReceiptsFinal job fleet := by
  have rebound : (∀ wallet ∈ fleet, wallet.2.Mappable) → ∃ result,
      mapResult (executeFleet job fleet) job.runId job.chainId now = .ok result ∧
      rebindExecutionResult result admission.executions = .ok result ∧
      (assertEngineFacts job.runId job.chainId result.executionIds result.attempts
        result.receipts false = .ok () ↔ ReceiptsFinal job fleet) ∧
      ∀ wallet ∈ fleet, KeepsWallet job result wallet := by
    intro mappable
    obtain ⟨result, mapped, executionIds, attempts, receipts⟩ :=
      mapResult_of_mappable job now mappable
    refine ⟨result, mapped, ?_, ?_, ?_⟩
    · have execution : ∀ wallet ∈ fleet,
          byWallet admission.executions wallet.1 = some (job.executionId wallet.1) ∧
            ∃ item ∈ admission.executions, item.executionId = job.executionId wallet.1 := by
        intro wallet member
        have known := byWallet_of_admitted admitted (ofInput.admitted wallet member)
        rw [← ofInput.run] at known
        exact known
      apply rebindExecutionResult_self
      · intro attempt attemptMember
        rw [attempts] at attemptMember
        obtain ⟨wallet, member, identified, id, -, rfl⟩ := (mem_attempts job now).mp attemptMember
        obtain ⟨ofAddress, -⟩ := result_of_identified job wallet.1 identified
        have sameWallet : (wallet.2.attemptRecord job now wallet.1 id).wallet = wallet.1 := ofAddress
        rw [sameWallet]
        exact (execution wallet member).1
      · intro recorded receiptMember
        rw [receipts] at receiptMember
        obtain ⟨wallet, member, receipt, mined, rfl⟩ := (mem_receipts job now).mp receiptMember
        obtain ⟨identified, -, attempted⟩ :=
          WalletCourse.submitted_of_mined mined job wallet.1
        obtain ⟨id, idMember⟩ := List.exists_mem_of_ne_nil _ attempted
        rw [attempts]
        exact ⟨_, (mem_attempts job now).mpr ⟨wallet, member, identified, id, idMember, rfl⟩, rfl⟩
      · intro id idMember
        rw [executionIds] at idMember
        obtain ⟨wallet, member, -, rfl⟩ := (mem_executionIds job now).mp idMember
        exact (execution wallet member).2
    · rw [assertEngineFacts_eq_ok, executionIds, attempts, receipts]
      exact fleet_facts_iff ofInput.distinct
    · exact fun wallet member =>
        keeps_fleet attempts receipts wallet member (mappable wallet member)
  constructor
  · rintro ⟨result, other, mapped, rebinding, checked, -⟩
    have mappable := mappable_of_mapResult job now mapped
    obtain ⟨same, sameMapped, sameRebinding, final, -⟩ := rebound mappable
    obtain rfl := Except.ok.inj (mapped.symm.trans sameMapped)
    obtain rfl := Except.ok.inj (rebinding.symm.trans sameRebinding)
    exact ⟨mappable, final.mp checked⟩
  · rintro ⟨mappable, final⟩
    obtain ⟨result, mapped, rebinding, checked, kept⟩ := rebound mappable
    exact ⟨result, result, mapped, rebinding, checked.mpr final, kept⟩

end Agreement

/-! ## A fleet of two wallets -/

def sampleJob : MintJob where
  runId := "first"
  intentId := "first"
  chainId := .ethereum
  valueWei := 0

def sampleReceipt : MintReceipt where
  txHash := "0xhash"
  succeeded := true
  blockNumber := 1
  blockHash := "0xblock"
  gasUsed := 1
  effectiveGasPrice := 1
  l1DataFeeWei := none
  operatorFeeWei := none
  finalityStage := .confirmed
  txHashPresent := by decide
  blockHashPresent := by decide

/-- One endpoint accepted the transaction, and it was mined. -/
def minedCourse : WalletCourse :=
  .answered 0 "0xhash"
    [{ txHash := "0xhash", success := true, responseClass := none, ambiguous := false,
       error := none }]
    { replacements := none, receipt := some sampleReceipt, recorded := true, recovery := none }

theorem execute_agrees_iff_sample :
    ∃ db' admission,
      admitExecution Sample.pairPolicy (Sample.db .ethereum ["first"]) 0
        (Sample.input .ethereum "first" ["w", "v"]) = .ok (db', admission) ∧
      (ExecuteAgrees sampleJob 0 admission.executions
          [("w", minedCourse), ("v", .killedBeforeStart)] ↔
        (∀ wallet ∈ [("w", minedCourse), ("v", .killedBeforeStart)], wallet.2.Mappable) ∧
          ReceiptsFinal sampleJob [("w", minedCourse), ("v", .killedBeforeStart)]) := by
  have succeeds : (admitExecution Sample.pairPolicy (Sample.db .ethereum ["first"]) 0
      (Sample.input .ethereum "first" ["w", "v"])).toOption.isSome := by decide +kernel
  obtain ⟨⟨db', admission⟩, succeeded⟩ := Option.isSome_iff_exists.mp succeeds
  have admitted := mem_toOption.mp succeeded
  refine ⟨db', admission, admitted, execute_agrees_iff admitted ?_⟩
  exact ⟨rfl, rfl, by decide, by decide⟩

/-- A wallet whose nonce could not be read makes the result of a mined wallet
unrecordable. -/
theorem mined_wallet_discarded :
    ∃ db' admission,
      admitExecution Sample.pairPolicy (Sample.db .ethereum ["first"]) 0
        (Sample.input .ethereum "first" ["w", "v"]) = .ok (db', admission) ∧
      ¬ ExecuteAgrees sampleJob 0 admission.executions
        [("w", minedCourse), ("v", .failedBeforeIdentity none)] := by
  have succeeds : (admitExecution Sample.pairPolicy (Sample.db .ethereum ["first"]) 0
      (Sample.input .ethereum "first" ["w", "v"])).toOption.isSome := by decide +kernel
  obtain ⟨⟨db', admission⟩, succeeded⟩ := Option.isSome_iff_exists.mp succeeds
  refine ⟨db', admission, mem_toOption.mp succeeded, ?_⟩
  rintro ⟨result, rebound, mapped, -⟩
  have refused : (mapResult (executeFleet sampleJob
      [("w", minedCourse), ("v", .failedBeforeIdentity none)]) "first" .ethereum 0).toOption =
        none := by decide +kernel
  have stored := mem_toOption.mpr mapped
  change result ∈ (mapResult (executeFleet sampleJob
      [("w", minedCourse), ("v", .failedBeforeIdentity none)]) "first" .ethereum 0).toOption
    at stored
  simp [refused] at stored

end MintBot
