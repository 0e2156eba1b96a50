import MintBot.Engine.SubmittedHash

/-!
# The release of a reservation after broadcasting

The error handler of a task releases its reservation when the task has no submitted hash.  After
a broadcast that hash comes from the first answer that was successful, or ambiguous by its flag or
its class.  Whether an answer says that the endpoint may hold the transaction is told apart by
`classifyBroadcastResult`, which also knows accepted and already known transactions.
-/

namespace MintBot

/-- The answer says that the endpoint refused the transaction before it took it over. -/
structure BroadcastResult.Refused (result : BroadcastResult) : Prop where
  unflagged : result.success = false ∧ result.ambiguous = false
  classified : classifyBroadcastResult result = .rejected ∨
    classifyBroadcastResult result = .providerError

/-- The classes of an endpoint that has the transaction. -/
def BroadcastResult.Held (result : BroadcastResult) : Prop :=
  classifyBroadcastResult result = .accepted ∨ classifyBroadcastResult result = .alreadyKnown

/-- The answers that `executeWallet` takes for a submission. -/
def BroadcastResult.Observed (result : BroadcastResult) : Prop :=
  result.success = true ∨ result.Ambiguous

instance (result : BroadcastResult) : Decidable result.Held :=
  inferInstanceAs (Decidable (_ ∨ _))

instance (result : BroadcastResult) : Decidable result.Observed :=
  inferInstanceAs (Decidable (_ ∨ _))

/-- The course of a task whose endpoints answered. -/
def WalletCourse.AnsweredWith (results : List BroadcastResult) : WalletCourse → Prop
  | .interrupted _ _ answers _ _ | .answered _ _ answers _ => answers = results
  | _ => False

/-- The error handler runs, has a reservation and no submitted hash, and so releases it. -/
def WalletCourse.Releases (course : WalletCourse) (job : MintJob) (address : String) : Prop :=
  (∃ recovery, course.ending = .caught recovery) ∧
    (course.task job address).reservationId.isSome ∧
    (course.task job address).submittedHash.filter (fun hash => hash ≠ "") = none

/-- The type of hashes holds the texts that start with `0x`. -/
def HashText (hash : String) : Prop :=
  ∃ digits, hash = "0x" ++ digits

/-- The signed hash and the hashes of the answers are hashes. -/
def WalletCourse.Hashes : WalletCourse → Prop
  | .interrupted _ signedHash answers _ _ | .answered _ signedHash answers _ =>
      HashText signedHash ∧ ∀ result ∈ answers, HashText result.txHash
  | _ => True

theorem HashText.nonempty {hash : String} (isText : HashText hash) : hash ≠ "" := by
  obtain ⟨digits, rfl⟩ := isText
  simp

theorem HashText.hashOr {signedHash : String} {result : BroadcastResult} (signed : HashText signedHash)
    (named : HashText result.txHash) : HashText (result.hashOr signedHash) := by
  unfold BroadcastResult.hashOr
  split
  · exact named
  · exact signed

theorem BroadcastResult.Refused.not_held {result : BroadcastResult} (refused : result.Refused) :
    ¬ result.Held := by
  rintro (accepted | known)
  · rcases refused.classified with rejected | failed
    · exact nomatch accepted.symm.trans rejected
    · exact nomatch accepted.symm.trans failed
  · rcases refused.classified with rejected | failed
    · exact nomatch known.symm.trans rejected
    · exact nomatch known.symm.trans failed

/-- An answer that is neither observed nor held is a refusal. -/
theorem BroadcastResult.refused_of_unobserved {result : BroadcastResult}
    (unobserved : ¬ result.Observed) (notHeld : ¬ result.Held) : result.Refused := by
  simp only [BroadcastResult.Observed, BroadcastResult.Ambiguous, not_or,
    Bool.not_eq_true] at unobserved
  simp only [BroadcastResult.Held, not_or] at notHeld
  obtain ⟨unsuccessful, unambiguous, notAmbiguous, notTimeout⟩ := unobserved
  refine ⟨⟨unsuccessful, unambiguous⟩, ?_⟩
  cases classified : classifyBroadcastResult result with
  | accepted => exact absurd classified notHeld.1
  | alreadyKnown => exact absurd classified notHeld.2
  | rejected => exact .inl rfl
  | timeout => exact absurd classified notTimeout
  | ambiguous => exact absurd classified notAmbiguous
  | providerError => exact .inr rfl

section Courses

variable {job : MintJob} {address : String} {course : WalletCourse}
  {results : List BroadcastResult}

/-- Without an observed answer every course after the broadcast ends in a release. -/
theorem releases_of_unobserved (answered : course.AnsweredWith results)
    (unobserved : ∀ result ∈ results, ¬ result.Observed) : course.Releases job address := by
  have noneFound : (results.find? fun result => decide (result.success ∨ result.Ambiguous)) =
      none := by
    refine List.find?_eq_none.mpr fun result member observed => ?_
    exact unobserved result member (of_decide_eq_true observed)
  have noneAmbiguous : (results.findIdx? fun result => decide result.Ambiguous) = none := by
    refine List.findIdx?_eq_none_iff.mpr fun result member => decide_eq_false ?_
    exact fun ambiguous => unobserved result member (.inr ambiguous)
  have noneSuccessful : results.findIdx? BroadcastResult.success = none := by
    refine List.findIdx?_eq_none_iff.mpr fun result member => ?_
    exact Bool.eq_false_iff.mpr fun success => unobserved result member (.inl success)
  cases course with
  | interrupted nonce signedHash answers recorded recovery =>
      obtain rfl := answered
      refine ⟨⟨recovery, rfl⟩, rfl, ?_⟩
      simp only [WalletCourse.task, WalletTask.answering, noneFound]
      rfl
  | answered nonce signedHash answers watch =>
      obtain rfl := answered
      have selected : selectBroadcastAttempt (job.executionId address) answers = none := by
        rw [selectBroadcastAttempt, noneSuccessful]
        rfl
      have unsuccessful : answers.any BroadcastResult.success = false :=
        List.any_eq_false.mpr fun result member success =>
          unobserved result member (.inl success)
      have task : (WalletCourse.answered nonce signedHash answers watch).task job address =
          WalletTask.answering job address nonce signedHash answers answers.length := by
        simp only [WalletCourse.task, selected, WalletTask.unaccepted, noneAmbiguous]
      refine ⟨⟨watch.recovery, ?_⟩, ?_, ?_⟩
      · simp [WalletCourse.ending, unsuccessful]
      · rw [task]
        rfl
      · rw [task, WalletTask.answering, noneFound]
        rfl
  | skippedInPreflight | killedBeforeStart | dropChanged | simulationUnavailable | rejected =>
      exact answered.elim
  | failedBeforeIdentity | failedBeforeReservation | failedBeforeSigning
  | failedBeforeBroadcast | broadcastThrew => exact answered.elim

/-- With an observed answer the error handler of every course after the broadcast has a hash. -/
theorem submitted_of_observed (answered : course.AnsweredWith results) (hashes : course.Hashes)
    (observed : ∃ result ∈ results, result.Observed) :
    ∃ hash, (course.task job address).submittedHash = some hash ∧ hash ≠ "" := by
  have found : (results.find? fun result => decide (result.success ∨ result.Ambiguous)).isSome := by
    obtain ⟨result, member, holds⟩ := observed
    exact List.find?_isSome.mpr ⟨result, member, decide_eq_true holds⟩
  obtain ⟨first, isFirst⟩ := Option.isSome_iff_exists.mp found
  cases course with
  | interrupted nonce signedHash answers recorded recovery =>
      obtain rfl := answered
      obtain ⟨signed, named⟩ := hashes
      refine ⟨first.hashOr signedHash, ?_, ?_⟩
      · simp only [WalletCourse.task, WalletTask.answering, isFirst, Option.map_some]
      · exact (signed.hashOr (named first (List.mem_of_find?_eq_some isFirst))).nonempty
  | answered nonce signedHash answers watch =>
      obtain rfl := answered
      obtain ⟨signed, named⟩ := hashes
      cases selected : selectBroadcastAttempt (job.executionId address) answers with
      | none =>
          simp only [WalletCourse.task, selected, WalletTask.unaccepted]
          split
          · refine ⟨first.hashOr signedHash, ?_, ?_⟩
            · simp only [WalletTask.answering, isFirst, Option.map_some]
            · exact (signed.hashOr (named first (List.mem_of_find?_eq_some isFirst))).nonempty
          · rename_i resultIndex ambiguousAt
            obtain ⟨inside, -⟩ := List.findIdx?_eq_some_iff_getElem.mp ambiguousAt
            refine ⟨answers[resultIndex].hashOr signedHash, ?_, ?_⟩
            · simp only [List.getElem?_eq_getElem inside, Option.map_some]
            · exact (signed.hashOr (named _ (List.getElem_mem inside))).nonempty
      | some choice =>
          obtain ⟨resultIndex, attemptId, result⟩ := choice
          have member := List.mem_of_find?_eq_some (selected_result selected)
          have unmined : ((watch.ladder (job.executionId address)
              (.accepted job address nonce signedHash answers attemptId result)
              result.txHash).task).submittedHash = some result.txHash := by
            unfold Watch.ladder
            cases watch.replacements with
            | none => rfl
            | some replacements => exact Ladder.climb_submittedHash ..
          simp only [WalletCourse.task, selected, Watch.task]
          split
          · exact ⟨result.txHash, unmined, (named result member).nonempty⟩
          · rename_i receipt _
            unfold Ladder.mined
            split
            · exact ⟨receipt.txHash, rfl, receipt.txHashPresent⟩
            · exact ⟨result.txHash, unmined, (named result member).nonempty⟩
  | skippedInPreflight | killedBeforeStart | dropChanged | simulationUnavailable | rejected =>
      exact answered.elim
  | failedBeforeIdentity | failedBeforeReservation | failedBeforeSigning
  | failedBeforeBroadcast | broadcastThrew => exact answered.elim

/-- Every course after the broadcast ends in a release exactly when no answer was observed. -/
theorem releases_iff (answered : course.AnsweredWith results) (hashes : course.Hashes) :
    course.Releases job address ↔ ∀ result ∈ results, ¬ result.Observed := by
  refine ⟨fun releases result member observed => ?_, releases_of_unobserved answered⟩
  obtain ⟨hash, submitted, nonempty⟩ : ∃ hash,
      (course.task job address).submittedHash = some hash ∧ hash ≠ "" :=
    submitted_of_observed answered hashes ⟨result, member, observed⟩
  have unsent := releases.2.2
  simp [submitted, nonempty] at unsent

end Courses

def sampleMintJob : MintJob where
  runId := "run"
  intentId := "intent"
  chainId := .ethereum
  valueWei := 0

/-- An endpoint that answers without success, with an error text. -/
def failedAnswer (error : String) : BroadcastResult where
  txHash := "0xaa"
  success := false
  responseClass := none
  ambiguous := false
  error := some error

/-- A task that nothing came after the answers to. -/
def answeredCourse (results : List BroadcastResult) : WalletCourse :=
  .answered 7 "0xaa" results
    { replacements := none, receipt := none, recorded := true, recovery := none }

end MintBot
