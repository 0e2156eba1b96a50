import MintBot.Engine.Broadcast
import MintBot.Lifecycle.Execution

/-!
# Mixed broadcast answers

The engine records one attempt for each answer to a broadcast, and each asks the
execution for `submitted` or for `failed`.  A failed execution refuses every
later submission, and a submitted one accepts a later failure, so the facts of a
broadcast survive exactly when its answers agree on whether the transaction may
have been sent.
-/

namespace MintBot

open Fallible

/-- The transaction may have reached the chain: every class but a rejection and
a provider error. -/
def BroadcastResult.Sent (result : BroadcastResult) : Prop :=
  classifyBroadcastResult result ≠ .rejected ∧ classifyBroadcastResult result ≠ .providerError

instance (result : BroadcastResult) : Decidable result.Sent := by
  unfold BroadcastResult.Sent
  infer_instance

/-- The execution state that an answer asks for. -/
def BroadcastResult.target (result : BroadcastResult) : LifecycleState :=
  if result.Sent then .submitted else .failed

theorem answerAttempt_target (submission : Submission) (resultIndex : Nat)
    (result : BroadcastResult) :
    attemptTarget (submission.answerAttempt resultIndex result).responseClass.state =
      result.target := by
  have byClass : ∀ responseClass : BroadcastResponseClass,
      attemptTarget (ResponseClass.broadcast responseClass).state =
        if responseClass ≠ .rejected ∧ responseClass ≠ .providerError then .submitted
        else .failed := by
    intro responseClass
    cases responseClass <;> rfl
  unfold BroadcastResult.target
  by_cases sent : result.Sent
  · rw [if_pos sent]
    exact (byClass _).trans (if_pos sent)
  · rw [if_neg sent]
    exact (byClass _).trans (if_neg sent)

/-! ## Walks over the answers -/

/-- Answers that all may have been sent leave the execution submitted. -/
theorem safeStates_sent {results : List BroadcastResult} (sent : ∀ result ∈ results, result.Sent) :
    safeStates .submitted (results.map BroadcastResult.target) = some .submitted := by
  induction results with
  | nil => rfl
  | cons result rest inductionHypothesis =>
      have target : result.target = .submitted := if_pos (sent result (by simp))
      rw [List.map_cons, target, safeStates_cons]
      exact inductionHypothesis fun other member => sent other (by simp [member])

/-- A failed execution stays failed, and only while nothing was sent. -/
theorem safeStates_failed {results : List BroadcastResult} {final : LifecycleState} :
    safeStates .failed (results.map BroadcastResult.target) = some final ↔
      final = .failed ∧ ∀ result ∈ results, ¬ result.Sent := by
  induction results with
  | nil => simp [safeStates, eq_comm]
  | cons result rest inductionHypothesis =>
      rw [List.map_cons, safeStates_cons]
      by_cases sent : result.Sent
      · have target : result.target = .submitted := if_pos sent
        have refused : safeState .failed .submitted = none := by decide
        simp [target, refused, sent]
      · have target : result.target = .failed := if_neg sent
        have kept : safeState .failed .failed = some .failed := by decide
        rw [target, kept, Option.bind_some, inductionHypothesis]
        simp [sent]

/-- From a submitted execution the walk ends submitted when everything was sent
and failed otherwise. -/
theorem safeStates_submitted {results : List BroadcastResult} {final : LifecycleState}
    (walk : safeStates .submitted (results.map BroadcastResult.target) = some final) :
    (final = .submitted ∧ ∀ result ∈ results, result.Sent) ∨
      (final = .failed ∧ ∃ result ∈ results, ¬ result.Sent) := by
  induction results with
  | nil =>
      obtain rfl := Option.some.inj walk
      exact Or.inl ⟨rfl, by simp⟩
  | cons result rest inductionHypothesis =>
      rw [List.map_cons, safeStates_cons] at walk
      by_cases sent : result.Sent
      · have target : result.target = .submitted := if_pos sent
        rw [target] at walk
        rcases inductionHypothesis walk with ⟨ended, all⟩ | ⟨ended, other, member, unsent⟩
        · refine Or.inl ⟨ended, fun other member => ?_⟩
          rcases List.mem_cons.mp member with rfl | member
          · exact sent
          · exact all other member
        · exact Or.inr ⟨ended, other, by simp [member], unsent⟩
      · have target : result.target = .failed := if_neg sent
        rw [target] at walk
        exact Or.inr ⟨(safeStates_failed.mp walk).1, result, by simp, sent⟩

/-! ## Recording the answers -/

/-- None of the attempts that answers from an index on are recorded under is
stored. -/
def AnswersUnstored (db : Db) (id : ExecutionId) (resultIndex : Nat) : Prop :=
  ∀ row ∈ db.attempts, ∀ index responseClass, resultIndex ≤ index →
    row.id ≠ .broadcast id index responseClass

section Record

variable (fleetPolicy : Option FleetSpendPolicy) {submission : Submission}
  {identity : ExecutionIdentity}

theorem answerAttempt_new {db : Db} {resultIndex : Nat} (result : BroadcastResult)
    (ofIntent : submission.transactionIntentId = identity.transactionIntentId)
    (unstored : AnswersUnstored db submission.executionId resultIndex) :
    NewAttempt db submission.executionId identity (submission.answerAttempt resultIndex result) where
  execution := rfl
  intent := ofIntent
  nonce := Int.natCast_nonneg _
  first := rfl
  fresh row member := unstored row member resultIndex _ (Nat.le_refl _)

/-- Recording an appended attempt keeps the attempts of the execution in
order. -/
theorem ExecutionReady.append {db : Db} {id : ExecutionId} {state : LifecycleState}
    (ready : ExecutionReady db id identity state) (input : EngineAttempt) :
    ExecutionReady { db with attempts := db.attempts ++ [input.row identity] } id identity state := by
  have ofIntent : ∀ row ∈ db.attempts ++ [input.row identity], row.executionId = id →
      row.transactionIntentId = identity.transactionIntentId := by
    intro row member named
    rcases List.mem_append.mp member with old | new
    · exact ready.attempts row old named
    · rw [List.mem_singleton.mp new]
      rfl
  exact ready.write ofIntent db.receipts db.receiptAccounting

/-- Recording one answer succeeds exactly when its target is allowed, and leaves
the execution there. -/
theorem persistAnswer_step (result : BroadcastResult) {resultIndex : Nat} {db : Db}
    {state : LifecycleState}
    (ready : ExecutionReady db submission.executionId identity state)
    (ofIntent : submission.transactionIntentId = identity.transactionIntentId)
    (unstored : AnswersUnstored db submission.executionId resultIndex) (now : Time) :
    (∀ db', persistEngineAttempt fleetPolicy db now (submission.answerAttempt resultIndex result) =
        .ok db' →
      ∃ next, safeState state result.target = some next ∧
        ExecutionReady db' submission.executionId identity next ∧
        AnswersUnstored db' submission.executionId (resultIndex + 1)) ∧
    (∀ next, safeState state result.target = some next →
      ∃ db', persistEngineAttempt fleetPolicy db now
        (submission.answerAttempt resultIndex result) = .ok db') := by
  have new := answerAttempt_new result ofIntent unstored
  have appended := ready.append (submission.answerAttempt resultIndex result)
  rw [← answerAttempt_target submission resultIndex]
  constructor
  · intro db' success
    have transitioned := (persistEngineAttempt_of_new fleetPolicy now ready new).mp success
    obtain ⟨next, allowed⟩ := appended.allowed_of_transition transitioned
    obtain ⟨other, otherTransitioned, readyAfter, sameAttempts, -⟩ := appended.transition allowed
    obtain rfl := Except.ok.inj (transitioned.symm.trans otherTransitioned)
    refine ⟨next, allowed, readyAfter, ?_⟩
    intro row member index responseClass after
    rw [sameAttempts] at member
    rcases List.mem_append.mp member with old | added
    · exact unstored row old index responseClass (by omega)
    · rw [List.mem_singleton.mp added]
      simp only [EngineAttempt.row, AttemptRecord.row, EngineAttempt.record,
        Submission.answerAttempt, ne_eq, AttemptId.broadcast.injEq, true_and, not_and]
      omega
  · intro next allowed
    obtain ⟨db', transitioned, -⟩ := appended.transition allowed
    exact ⟨db', (persistEngineAttempt_of_new fleetPolicy now ready new).mpr transitioned⟩

/-- Recording the answers succeeds exactly when the walk over the states that
they ask for does, and leaves the execution at its end. -/
theorem persistAnswers_walk (results : List BroadcastResult) {resultIndex : Nat} {db : Db}
    {state : LifecycleState}
    (ready : ExecutionReady db submission.executionId identity state)
    (ofIntent : submission.transactionIntentId = identity.transactionIntentId)
    (unstored : AnswersUnstored db submission.executionId resultIndex) :
    (∀ db', persistAnswers fleetPolicy submission resultIndex results db = .ok db' →
      ∃ final, safeStates state (results.map BroadcastResult.target) = some final ∧
        ExecutionReady db' submission.executionId identity final) ∧
    (∀ final, safeStates state (results.map BroadcastResult.target) = some final →
      ∃ db', persistAnswers fleetPolicy submission resultIndex results db = .ok db') := by
  induction results generalizing resultIndex db state with
  | nil =>
      constructor
      · intro db' success
        obtain rfl := Except.ok.inj success
        exact ⟨state, rfl, ready⟩
      · exact fun final _ => ⟨db, rfl⟩
  | cons result rest inductionHypothesis =>
      obtain ⟨stepped, stepping⟩ := persistAnswer_step fleetPolicy result ready
        ofIntent unstored (submission.answeredAt resultIndex)
      simp only [persistAnswers, List.map_cons, safeStates_cons, bind_eq_ok,
        Option.bind_eq_some_iff]
      constructor
      · rintro db' ⟨middle, first, remaining⟩
        obtain ⟨next, allowed, readyMiddle, unstoredMiddle⟩ := stepped middle first
        obtain ⟨final, walk, readyAfter⟩ :=
          (inductionHypothesis readyMiddle unstoredMiddle).1 db' remaining
        exact ⟨final, ⟨next, allowed, walk⟩, readyAfter⟩
      · rintro final ⟨next, allowed, walk⟩
        obtain ⟨middle, first⟩ := stepping next allowed
        obtain ⟨other, otherAllowed, readyMiddle, unstoredMiddle⟩ := stepped middle first
        obtain rfl := Option.some.inj (allowed.symm.trans otherAllowed)
        obtain ⟨db', remaining⟩ :=
          (inductionHypothesis readyMiddle unstoredMiddle).2 final walk
        exact ⟨db', middle, first, remaining⟩

end Record

/-! ## Admitted executions -/

/-- An execution as admission leaves it: prepared, its rows in order, and none
of its attempts recorded yet. -/
structure AdmittedExecution (db : Db) (submission : Submission) (identity : ExecutionIdentity) :
    Prop where
  ready : ExecutionReady db submission.executionId identity .prepared
  ofIntent : submission.transactionIntentId = identity.transactionIntentId
  unsigned : ∀ row ∈ db.attempts, row.id ≠ .signed submission.executionId
  unanswered : AnswersUnstored db submission.executionId 0

/-- Recording a broadcast loses nothing: every attempt is stored, and when the
transaction may have been sent the execution is not failed and a confirmed
receipt of it can still be recorded. -/
def BroadcastKept (fleetPolicy : Option FleetSpendPolicy) (db : Db) (submission : Submission)
    (identity : ExecutionIdentity) (results : List BroadcastResult) : Prop :=
  ∃ recorded, persistBroadcast fleetPolicy submission results db = .ok recorded ∧
    ((∃ result ∈ results, result.Sent) →
      (∀ row ∈ recorded.execution submission.executionId, row.state ≠ .failed) ∧
      ∀ now receipt, NewEngineReceipt recorded submission.executionId identity receipt →
        (receipt.record identity).persistedStatus identity.chainId = .confirmed →
        ∃ confirmed, persistEngineReceipt fleetPolicy recorded now receipt = .ok confirmed ∧
          ∃ row ∈ confirmed.execution submission.executionId, row.state = .confirmed)

theorem persistBroadcast_walk (fleetPolicy : Option FleetSpendPolicy) {db : Db}
    {submission : Submission} {identity : ExecutionIdentity} (results : List BroadcastResult)
    (admitted : AdmittedExecution db submission identity) :
    (∀ db', persistBroadcast fleetPolicy submission results db = .ok db' →
      ∃ final, safeStates .signed (results.map BroadcastResult.target) = some final ∧
        ExecutionReady db' submission.executionId identity final) ∧
    (∀ final, safeStates .signed (results.map BroadcastResult.target) = some final →
      ∃ db', persistBroadcast fleetPolicy submission results db = .ok db') := by
  have new : NewAttempt db submission.executionId identity submission.signedAttempt :=
    ⟨rfl, admitted.ofIntent, Int.natCast_nonneg _, rfl, admitted.unsigned⟩
  have appended := admitted.ready.append submission.signedAttempt
  have allowed : safeState .prepared .signed = some .signed := by decide
  obtain ⟨signed, transitioned, readySigned, sameAttempts, -⟩ := appended.transition allowed
  have success :=
    (persistEngineAttempt_of_new fleetPolicy submission.signedAt admitted.ready new).mpr transitioned
  have unanswered : AnswersUnstored signed submission.executionId 0 := by
    intro row member index responseClass after
    rw [sameAttempts] at member
    rcases List.mem_append.mp member with old | added
    · exact admitted.unanswered row old index responseClass after
    · rw [List.mem_singleton.mp added]
      exact AttemptId.noConfusion
  have walk :=
    persistAnswers_walk fleetPolicy results readySigned admitted.ofIntent unanswered
  have opened : persistBroadcast fleetPolicy submission results db =
      persistAnswers fleetPolicy submission 0 results signed := by
    rw [persistBroadcast, success]
    rfl
  rw [opened]
  exact walk

/-- From a signed execution a nonempty walk ends submitted when everything was
sent and failed otherwise. -/
theorem safeStates_signed {results : List BroadcastResult} (nonempty : results ≠ [])
    {final : LifecycleState}
    (walk : safeStates .signed (results.map BroadcastResult.target) = some final) :
    (final = .submitted ∧ ∀ result ∈ results, result.Sent) ∨
      (final = .failed ∧ ∃ result ∈ results, ¬ result.Sent) := by
  cases results with
  | nil => exact absurd rfl nonempty
  | cons result rest =>
      -- The first answer moves a signed execution as it would a submitted one.
      have sameStart : safeState .signed result.target = safeState .submitted result.target := by
        unfold BroadcastResult.target
        split <;> decide
      rw [List.map_cons, safeStates_cons, sameStart, ← safeStates_cons, ← List.map_cons] at walk
      exact safeStates_submitted walk

theorem safeStates_signed_uniform {results : List BroadcastResult} (nonempty : results ≠ []) :
    ((∀ result ∈ results, result.Sent) →
      safeStates .signed (results.map BroadcastResult.target) = some .submitted) ∧
    ((∀ result ∈ results, ¬ result.Sent) →
      safeStates .signed (results.map BroadcastResult.target) = some .failed) := by
  cases results with
  | nil => exact absurd rfl nonempty
  | cons result rest =>
      rw [List.map_cons, safeStates_cons]
      constructor
      · intro sent
        have target : result.target = .submitted := if_pos (sent result (by simp))
        rw [target]
        exact safeStates_sent fun other member => sent other (by simp [member])
      · intro unsent
        have target : result.target = .failed := if_neg (unsent result (by simp))
        rw [target]
        exact safeStates_failed.mpr ⟨rfl, fun other member => unsent other (by simp [member])⟩

/-- The first transaction of the wallet `w`. -/
def sampleSubmission : Submission where
  executionId := ⟨"first", "w"⟩
  transactionIntentId := ⟨"first", "w"⟩
  nonce := 0
  signedHash := "0xhash"
  signedAt := 0
  answeredAt _ := 0

def acceptedAnswer : BroadcastResult where
  txHash := "0xhash"
  success := true
  responseClass := none
  ambiguous := false
  error := none

def rejectedAnswer : BroadcastResult where
  txHash := "0x"
  success := false
  responseClass := some .rejected
  ambiguous := false
  error := some "nonce too low"

theorem sampleSubmission_admitted :
    AdmittedExecution (Sample.admitted .ethereum "first" "w") sampleSubmission
      (Sample.identity .ethereum "first" "w") where
  ready :=
    { identified := by decide +kernel
      state := (by decide +kernel : ∃ row ∈
        (Sample.admitted .ethereum "first" "w").execution ⟨"first", "w"⟩,
          row.state = .prepared ∧ row.transactionIntentId = ⟨"first", "w"⟩)
      chain := by decide +kernel
      intent := (by decide +kernel : ∃ intent ∈
        (Sample.admitted .ethereum "first" "w").intent ⟨"first", "w"⟩,
          intent.walletId.chainProfileId = .ethereum)
      profile := (by decide +kernel : ∃ profile ∈
        (Sample.admitted .ethereum "first" "w").profile .ethereum,
          profile.executionEnabled = true ∧ profile.successFinalityStage = .ethereumFinal)
      attempts := by decide +kernel }
  ofIntent := rfl
  unsigned := by decide +kernel
  unanswered := by
    have none : (Sample.admitted .ethereum "first" "w").attempts = [] := by decide +kernel
    simp [AnswersUnstored, none]

end MintBot
