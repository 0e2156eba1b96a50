import MintBot.Engine.Broadcasters
import MintBot.Engine.WalletTask

/-!
# The hash of a submission

The engine takes the hash of the transaction that it sent from the answers to the broadcast:
attempts are stored under it, recovery asks for it, and the receipt that is awaited is the one
of its first success.  An endpoint that accepts the transaction names the hash itself, so these
are the hash of the signed bytes exactly when the endpoints name that one.
-/

namespace MintBot

/-- The hash that the attempt of an answer is stored under. -/
def BroadcastResult.storedHash (result : BroadcastResult) : Option String :=
  if result.txHash ≠ "0x" then some result.txHash else none

theorem answerAttempt_txHash (submission : Submission) (resultIndex : Nat)
    (result : BroadcastResult) :
    (submission.answerAttempt resultIndex result).txHash = result.storedHash := rfl

/-- The success that is selected, whatever its index. -/
theorem selectBroadcastAttempt_result (executionId : ExecutionId)
    (results : List BroadcastResult) :
    (selectBroadcastAttempt executionId results).map (fun selected => selected.2.2) =
      results.find? BroadcastResult.success := by
  rw [List.find?_eq_bind_findIdx?_getElem?]
  simp only [selectBroadcastAttempt, Option.bind_eq_bind]
  cases results.findIdx? BroadcastResult.success with
  | none => rfl
  | some resultIndex =>
      simp only [Option.bind_some]
      cases results[resultIndex]? <;> rfl

/-! ## The hashes of a course -/

namespace WalletCourse

/-- The task when its broadcast is over and nothing is watched yet. -/
def broadcastTask (job : MintJob) (address : String) : WalletCourse → WalletTask
  | .answered nonce signedHash results _ =>
      match selectBroadcastAttempt (job.executionId address) results with
      | none => .unaccepted job address nonce signedHash results
      | some (_, attemptId, result) =>
          .accepted job address nonce signedHash results attemptId result
  | course => course.task job address

/-- The hashes that the attempts of the first transaction are stored under. -/
def storedHashes : WalletCourse → List String
  | .broadcastThrew _ signedHash _ => [signedHash]
  | .interrupted _ signedHash results recorded _ =>
      signedHash :: (results.take recorded).filterMap BroadcastResult.storedHash
  | .answered _ signedHash results _ =>
      signedHash :: results.filterMap BroadcastResult.storedHash
  | _ => []

/-- The hashes that are watched, in the order they were sent. -/
def watched (job : MintJob) (address : String) : WalletCourse → List String
  | .answered nonce signedHash results watch =>
      match selectBroadcastAttempt (job.executionId address) results with
      | none => []
      | some (_, attemptId, result) =>
          (watch.ladder (job.executionId address)
            (.accepted job address nonce signedHash results attemptId result) result.txHash).watched
  | _ => []

/-- A course of a transaction with this hash whose broadcast went this way. -/
def Follows (signedHash : String) (broadcasting : Broadcasting) : WalletCourse → Prop
  | .broadcastThrew _ hash _ =>
      hash = signedHash ∧ ∃ error, broadcast signedHash broadcasting = .error error
  | .interrupted _ hash results _ _ | .answered _ hash results _ =>
      hash = signedHash ∧ broadcast signedHash broadcasting = .ok results
  | _ => True

/-- The task stores, recovers and awaits the transaction that was signed. -/
structure WatchesSigned (job : MintJob) (address : String) (signedHash : String)
    (course : WalletCourse) : Prop where
  stored : ∀ hash ∈ course.storedHashes, hash = signedHash
  submitted : ∀ hash ∈ (course.broadcastTask job address).submittedHash, hash = signedHash
  watched : ∀ hash ∈ (course.watched job address).head?, hash = signedHash

end WalletCourse

theorem Ladder.climb_watched (executionId : ExecutionId) (replacements : List Replacement)
    (bump : Nat) (ladder : Ladder) :
    (Ladder.climb executionId bump replacements ladder).watched =
      ladder.watched ++ replacements.map Replacement.signedHash := by
  induction replacements generalizing bump ladder with
  | nil => exact (List.append_nil _).symm
  | cons replacement rest inductionHypothesis =>
      rw [Ladder.climb, inductionHypothesis]
      simp [Ladder.replace]

/-- Climbing leaves what the broadcast submitted. -/
theorem Ladder.climb_submittedHash (executionId : ExecutionId) (replacements : List Replacement)
    (bump : Nat) (ladder : Ladder) :
    (Ladder.climb executionId bump replacements ladder).task.submittedHash =
      ladder.task.submittedHash := by
  induction replacements generalizing bump ladder with
  | nil => rfl
  | cons replacement rest inductionHypothesis =>
      rw [Ladder.climb, inductionHypothesis]
      rfl

/-- The ladder begins with the transaction that was accepted. -/
theorem Watch.ladder_watched (watch : Watch) (executionId : ExecutionId) (task : WalletTask)
    (firstHash : String) :
    (watch.ladder executionId task firstHash).watched.head? = some firstHash := by
  unfold Watch.ladder
  cases watch.replacements with
  | none => rfl
  | some replacements =>
      simp only [Ladder.climb_watched]
      rfl

/-- The error handler recovers what the broadcast submitted, unless a receipt came in for one
of several hashes. -/
theorem WalletCourse.task_submittedHash (job : MintJob) (address : String) (course : WalletCourse)
    (unmined : ∀ nonce signedHash results watch,
      course = .answered nonce signedHash results watch → watch.receipt = none) :
    (course.task job address).submittedHash = (course.broadcastTask job address).submittedHash := by
  cases course with
  | answered nonce signedHash results watch =>
      have noReceipt := unmined nonce signedHash results watch rfl
      simp only [task, broadcastTask]
      cases selectBroadcastAttempt (job.executionId address) results with
      | none => rfl
      | some selected =>
          simp only [Watch.task, Watch.ladder, noReceipt]
          cases watch.replacements with
          | none => rfl
          | some replacements => exact Ladder.climb_submittedHash ..
  | _ => rfl

/-! ## The results of a broadcast -/

/-- Every result carries the hash of the signed bytes or none, and the selected one has it. -/
structure KeepsSigned (signedHash : String) (results : List BroadcastResult) : Prop where
  own : ∀ result ∈ results, result.txHash = signedHash ∨ result.txHash = "0x"
  selected : ∀ result ∈ results.find? BroadcastResult.success, result.txHash = signedHash

section Results

variable {job : MintJob} {address : String} {signedHash : String}
  {results : List BroadcastResult}

theorem KeepsSigned.of_own (own : ∀ result ∈ results, result.txHash = signedHash) :
    KeepsSigned signedHash results where
  own result member := .inl (own result member)
  selected result found := own result (List.mem_of_find?_eq_some found)

theorem KeepsSigned.hashOr (keeps : KeepsSigned signedHash results) {result : BroadcastResult}
    (member : result ∈ results) : result.hashOr signedHash = signedHash := by
  unfold BroadcastResult.hashOr
  rcases keeps.own result member with own | unnamed
  · rw [own, ite_self]
  · simp [unnamed]

theorem KeepsSigned.storedHash (keeps : KeepsSigned signedHash results)
    {result : BroadcastResult} (member : result ∈ results) {hash : String}
    (stored : result.storedHash = some hash) : hash = signedHash := by
  unfold BroadcastResult.storedHash at stored
  split at stored
  · rename_i named
    rw [← Option.some.inj stored]
    exact (keeps.own result member).resolve_right named
  · cases stored

/-- Until all answers are stored, the first success or ambiguous answer is the one
observed. -/
theorem KeepsSigned.answering (keeps : KeepsSigned signedHash results) (nonce recorded : Nat) :
    ∀ hash ∈ (WalletTask.answering job address nonce signedHash results recorded).submittedHash,
      hash = signedHash := by
  intro hash observed
  obtain ⟨result, found, rfl⟩ := Option.map_eq_some_iff.mp observed
  exact keeps.hashOr (List.mem_of_find?_eq_some found)

theorem KeepsSigned.unaccepted (keeps : KeepsSigned signedHash results) (nonce : Nat) :
    ∀ hash ∈ (WalletTask.unaccepted job address nonce signedHash results).submittedHash,
      hash = signedHash := by
  intro hash submitted
  simp only [WalletTask.unaccepted] at submitted
  split at submitted
  · exact keeps.answering nonce results.length hash submitted
  · obtain ⟨result, found, rfl⟩ := Option.map_eq_some_iff.mp submitted
    exact keeps.hashOr (List.mem_of_getElem? found)

/-- What the first success of the results names, when there is one. -/
theorem selected_result {executionId : ExecutionId} {resultIndex : Nat} {attemptId : AttemptId}
    {result : BroadcastResult}
    (selected : selectBroadcastAttempt executionId results =
      some (resultIndex, attemptId, result)) :
    results.find? BroadcastResult.success = some result := by
  rw [← selectBroadcastAttempt_result executionId, selected]
  rfl

/-- When the results keep the hash, so does every course of the task. -/
theorem KeepsSigned.watches (keeps : KeepsSigned signedHash results) {course : WalletCourse}
    {broadcasting : Broadcasting} (broadcasted : broadcast signedHash broadcasting = .ok results)
    (follows : course.Follows signedHash broadcasting) :
    course.WatchesSigned job address signedHash := by
  have none_stored : ∀ recorded, ∀ hash ∈
      (results.take recorded).filterMap BroadcastResult.storedHash, hash = signedHash := by
    intro recorded hash member
    obtain ⟨result, taken, stored⟩ := List.mem_filterMap.mp member
    exact keeps.storedHash (List.mem_of_mem_take taken) stored
  cases course with
  | broadcastThrew nonce hash recovery =>
      obtain ⟨_, error, threw⟩ := follows
      cases threw.symm.trans broadcasted
  | interrupted nonce hash others recorded recovery =>
      obtain ⟨rfl, same⟩ := follows
      obtain rfl := Except.ok.inj (same.symm.trans broadcasted)
      exact ⟨by simpa [WalletCourse.storedHashes] using none_stored recorded,
        keeps.answering nonce recorded, by simp [WalletCourse.watched]⟩
  | answered nonce hash others watch =>
      obtain ⟨rfl, same⟩ := follows
      obtain rfl := Except.ok.inj (same.symm.trans broadcasted)
      have stored : ∀ found ∈ (WalletCourse.answered nonce hash others watch).storedHashes,
          found = hash := by
        have all := none_stored others.length
        rw [List.take_length] at all
        simpa [WalletCourse.storedHashes] using all
      cases selected : selectBroadcastAttempt (job.executionId address) others with
      | none =>
          refine ⟨stored, ?_, by simp [WalletCourse.watched, selected]⟩
          simpa only [WalletCourse.broadcastTask, selected] using keeps.unaccepted nonce
      | some choice =>
          obtain ⟨resultIndex, attemptId, result⟩ := choice
          have own := keeps.selected result (selected_result selected)
          refine ⟨stored, ?_, ?_⟩
          · simp [WalletCourse.broadcastTask, selected, WalletTask.accepted, own]
          · simp [WalletCourse.watched, selected, Watch.ladder_watched, own]
  | _ => exact ⟨by simp [WalletCourse.storedHashes], by rintro _ ⟨⟩,
      by simp [WalletCourse.watched]⟩

/-- A broadcast that threw leaves the hash of the signed bytes. -/
theorem WalletCourse.Follows.thrown {course : WalletCourse} {broadcasting : Broadcasting}
    {error : Error} (threw : broadcast signedHash broadcasting = .error error)
    (follows : course.Follows signedHash broadcasting) :
    course.WatchesSigned job address signedHash := by
  cases course with
  | broadcastThrew nonce hash recovery =>
      obtain ⟨rfl, _⟩ := follows
      exact ⟨by simp [WalletCourse.storedHashes], by rintro _ ⟨⟩; rfl,
        by simp [WalletCourse.watched]⟩
  | interrupted nonce hash results recorded recovery => cases threw.symm.trans follows.2
  | answered nonce hash results watch => cases threw.symm.trans follows.2
  | _ => exact ⟨by simp [WalletCourse.storedHashes], by rintro _ ⟨⟩,
      by simp [WalletCourse.watched]⟩

/-- A course in which every answer is stored shows all of their hashes. -/
theorem KeepsSigned.of_answered {nonce : Nat} {watch : Watch}
    (watches : (WalletCourse.answered nonce signedHash results watch).WatchesSigned job address
      signedHash) : KeepsSigned signedHash results where
  own result member := by
    by_cases unnamed : result.txHash = "0x"
    · exact .inr unnamed
    · refine .inl (watches.stored result.txHash (List.mem_cons_of_mem _ ?_))
      exact List.mem_filterMap.mpr ⟨result, member, if_pos unnamed⟩
  selected result found := by
    apply watches.watched
    cases selected : selectBroadcastAttempt (job.executionId address) results with
    | none =>
        have none_found := selectBroadcastAttempt_result (job.executionId address) results
        rw [selected, found] at none_found
        cases none_found
    | some choice =>
        obtain ⟨resultIndex, attemptId, other⟩ := choice
        obtain rfl := Option.some.inj ((selected_result selected).symm.trans found)
        simp [WalletCourse.watched, selected, Watch.ladder_watched]

end Results

/-! ## The answers of the endpoints -/

/-- The endpoint accepts the transaction: it answers with a result, or with an error that
tells that it has the transaction already. -/
def EndpointAnswer.accepts (isKnown : Option (Option String) → Except Error Bool) :
    EndpointAnswer → Bool
  | .answered result error =>
      (EndpointAnswer.answered result error).named.isSome || (isKnown error).toOption = some true
  | .failed _ => false

/-- Every endpoint that answers with a result names the hash of the signed bytes or `0x`, and
the first that accepts the transaction does not name `0x`. -/
structure NameSigned (isKnown : Option (Option String) → Except Error Bool) (signedHash : String)
    (answers : List EndpointAnswer) : Prop where
  own : ∀ answer ∈ answers, ∀ named ∈ answer.named, named = signedHash ∨ named = "0x"
  first : ∀ answer ∈ answers.find? (EndpointAnswer.accepts isKnown), ∀ named ∈ answer.named,
    named = signedHash

/-- The endpoints that are asked for this broadcast name the hash of the signed bytes; the
relay is not asked for a hash, and no endpoint behind a relay that took the bundle. -/
def Broadcasting.NamesSigned (signedHash : String) : Broadcasting → Prop
  | .publicMempool answer => NameSigned publicMempoolKnown signedHash [answer]
  | .blast answers => NameSigned blastKnown signedHash answers
  | .sequencerDirect sequencer fallbacks =>
      NameSigned blastKnown signedHash (sequencer :: fallbacks)
  | .flashbots _ | .threw _ => True
  | .fallback relay endpoints =>
      (∀ answers, relay = .ok answers → ∀ answer ∈ answers, (sendBundle answer).isOk = false) →
        ∀ answers, endpoints = .ok answers → NameSigned blastKnown signedHash answers

section Endpoints

variable (signedHash : String) (isKnown : Option (Option String) → Except Error Bool)
  (unknownError : String)

theorem endpointResult_success (answer : EndpointAnswer) :
    (endpointResult signedHash isKnown unknownError answer).success = answer.accepts isKnown := by
  cases answer with
  | failed error => rfl
  | answered result error =>
      cases named : (EndpointAnswer.answered result error).named with
      | some txHash => simp [endpointResult, EndpointAnswer.accepts, named]
      | none =>
          simp only [endpointResult, EndpointAnswer.accepts, named]
          cases isKnown error with
          | error thrown => rfl
          | ok known => cases known <;> rfl

/-- The hash of one result is the right one exactly when the endpoint names no other. -/
theorem endpointResult_own (allowed : String → Prop) (ownAllowed : allowed signedHash)
    (answer : EndpointAnswer) :
    allowed (endpointResult signedHash isKnown unknownError answer).txHash ↔
      ∀ named ∈ answer.named, allowed named := by
  have carried := endpointResult_txHash signedHash isKnown unknownError answer
  cases named : answer.named with
  | none =>
      simp only [named] at carried
      simpa [carried] using ownAllowed
  | some txHash =>
      simp only [named] at carried
      simp [carried.1]

theorem keepsSigned_endpoints (answers : List EndpointAnswer) :
    KeepsSigned signedHash (answers.map (endpointResult signedHash isKnown unknownError)) ↔
      NameSigned isKnown signedHash answers := by
  have accepting : BroadcastResult.success ∘ endpointResult signedHash isKnown unknownError =
      EndpointAnswer.accepts isKnown :=
    funext (endpointResult_success signedHash isKnown unknownError)
  have ownResult := endpointResult_own signedHash isKnown unknownError
    (fun named => named = signedHash ∨ named = "0x") (.inl rfl)
  have sameResult := endpointResult_own signedHash isKnown unknownError
    (fun named => named = signedHash) rfl
  constructor
  · intro keeps
    constructor
    · intro answer member
      exact (ownResult answer).mp (keeps.own _ (List.mem_map_of_mem member))
    · intro answer found
      apply (sameResult answer).mp
      apply keeps.selected
      rw [List.find?_map, accepting, found]
      rfl
  · intro names
    constructor
    · intro result member
      obtain ⟨answer, asked, rfl⟩ := List.mem_map.mp member
      exact (ownResult answer).mpr (names.own answer asked)
    · intro result found
      rw [List.find?_map, accepting] at found
      obtain ⟨answer, first, rfl⟩ := Option.map_eq_some_iff.mp found
      exact (sameResult answer).mpr (names.first answer first)

end Endpoints

theorem relayResult_success (signedHash : String) (answer : RelayAnswer) :
    (relayResult signedHash answer).success = (sendBundle answer).isOk := by
  unfold relayResult
  cases sendBundle answer <;> rfl

/-- Results behind unsuccessful ones of the transaction itself decide alone. -/
theorem keepsSigned_append {signedHash : String} {results others : List BroadcastResult}
    (own : ∀ result ∈ results, result.txHash = signedHash)
    (unsuccessful : ∀ result ∈ results, result.success = false) :
    KeepsSigned signedHash (results ++ others) ↔ KeepsSigned signedHash others := by
  have selection : (results ++ others).find? BroadcastResult.success =
      others.find? BroadcastResult.success := by
    rw [List.find?_append, List.find?_eq_none.mpr (by simpa using unsuccessful), Option.none_or]
  constructor
  · intro keeps
    exact ⟨fun result member => keeps.own result (List.mem_append_right _ member),
      fun result found => keeps.selected result (selection.trans found)⟩
  · intro keeps
    refine ⟨fun result member => ?_, fun result found => keeps.selected result (selection ▸ found)⟩
    rcases List.mem_append.mp member with first | second
    · exact .inl (own result first)
    · exact keeps.own result second

/-- What a route that may throw leaves. -/
theorem orAmbiguous_own {signedHash : String} {route : Except Error (List BroadcastResult)}
    (own : ∀ results, route = .ok results → ∀ result ∈ results, result.txHash = signedHash) :
    ∀ result ∈ orAmbiguous signedHash route, result.txHash = signedHash := by
  intro result member
  cases route with
  | error error => exact (orAmbiguous_error signedHash member).1
  | ok results => exact own results rfl result member

theorem keepsSigned_fallback {signedHash : String} (relay : Except Error (List RelayAnswer))
    (endpoints : Except Error (List EndpointAnswer)) :
    KeepsSigned signedHash (fallbackBroadcast signedHash
        (relay.map (flashbotsBroadcast signedHash)) (endpoints.map (fireBlast signedHash))) ↔
      (Broadcasting.fallback relay endpoints).NamesSigned signedHash := by
  have ownPrimary : ∀ result ∈ orAmbiguous signedHash
      (relay.map (flashbotsBroadcast signedHash)), result.txHash = signedHash := by
    apply orAmbiguous_own
    intro results ran result member
    cases relay with
    | error error => cases ran
    | ok answers =>
        obtain rfl := Except.ok.inj ran
        exact flashbotsBroadcast_txHash signedHash member
  unfold fallbackBroadcast
  simp only [Broadcasting.NamesSigned]
  split
  · rename_i succeeded
    refine iff_of_true (.of_own ownPrimary) fun refused => ?_
    obtain ⟨result, member, success⟩ := List.any_eq_true.mp succeeded
    cases relay with
    | error error => exact absurd success (by simp [(orAmbiguous_error signedHash member).2])
    | ok answers =>
        obtain ⟨answer, sent, rfl⟩ := List.mem_map.mp member
        rw [relayResult_success, refused answers rfl answer sent] at success
        cases success
  · rename_i failed
    have unsuccessful : ∀ result ∈ orAmbiguous signedHash
        (relay.map (flashbotsBroadcast signedHash)), result.success = false := by
      simpa using failed
    rw [keepsSigned_append ownPrimary unsuccessful]
    have refused : ∀ answers, relay = .ok answers →
        ∀ answer ∈ answers, (sendBundle answer).isOk = false := by
      rintro answers rfl answer sent
      rw [← relayResult_success signedHash]
      exact unsuccessful _ (List.mem_map_of_mem sent)
    cases endpoints with
    | error error =>
        refine iff_of_true (.of_own fun result member => (orAmbiguous_error signedHash member).1) ?_
        rintro _ answers ⟨⟩
    | ok answers =>
        have blasted := keepsSigned_endpoints signedHash blastKnown "Unknown error" answers
        constructor
        · rintro keeps _ _ ⟨⟩
          exact blasted.mp keeps
        · intro names
          exact blasted.mpr (names refused answers rfl)

/-- The results of a broadcast that went through keep the hash exactly when the endpoints name
it. -/
theorem keepsSigned_iff {signedHash : String} {broadcasting : Broadcasting}
    {results : List BroadcastResult}
    (broadcasted : broadcast signedHash broadcasting = .ok results) :
    KeepsSigned signedHash results ↔ broadcasting.NamesSigned signedHash := by
  cases broadcasting with
  | publicMempool answer =>
      obtain rfl := Except.ok.inj broadcasted
      exact keepsSigned_endpoints signedHash publicMempoolKnown "Unknown RPC error" [answer]
  | blast answers =>
      obtain rfl := Except.ok.inj broadcasted
      exact keepsSigned_endpoints signedHash blastKnown "Unknown error" answers
  | sequencerDirect sequencer fallbacks =>
      obtain rfl := Except.ok.inj broadcasted
      exact keepsSigned_endpoints signedHash blastKnown "Unknown error" (sequencer :: fallbacks)
  | flashbots relay =>
      obtain rfl := Except.ok.inj broadcasted
      exact iff_of_true
        (.of_own fun result member => flashbotsBroadcast_txHash signedHash member) trivial
  | fallback relay endpoints =>
      obtain rfl := Except.ok.inj broadcasted
      exact keepsSigned_fallback relay endpoints
  | threw error => cases broadcasted

/-! ## The hash that is watched -/

end MintBot
