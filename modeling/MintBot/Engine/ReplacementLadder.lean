import MintBot.Engine.ReplacementPolicy
import MintBot.Library.Fallible

/-!
# The replacement ladder

`runReplacementLadder`, one iteration at a time.  What the injected dependencies answer in an
iteration is a `Turn`; a behaviour of the dependencies is a turn for every iteration.  The
state keeps, next to the variables of the loop, the calls it made in each iteration, so that
what was asked before a replacement was prepared can be stated.
-/

namespace MintBot

structure LadderAttempt where
  hash : String
  attemptId : AttemptId
  fees : Fees
  deriving DecidableEq, Repr

structure PreparedReplacement where
  signedTx : String
  hash : String
  attemptId : AttemptId
  deriving DecidableEq, Repr

inductive SendOutcome
  | accepted
  | ambiguous
  | rejected
  deriving DecidableEq, Repr

inductive NonceState
  | consumed
  | free
  deriving DecidableEq, Repr

inductive LadderStop
  | mined
  | nonceConsumed
  | minedStatusUnknown
  | preCheckRefused
  | signerRefused
  | replacementRejected
  | refused (reason : ReplacementRefusal)
  deriving DecidableEq, Repr

structure LadderInput where
  attempts : List LadderAttempt
  maxBumps : Int
  ceiling : Fees
  stuckAfterMs : Time
  pollMs : Time
  lastSentAt : Time
  deriving DecidableEq, Repr

structure LadderResult where
  attempts : List LadderAttempt
  winner : Option String
  stop : LadderStop
  detail : Option String
  deriving DecidableEq, Repr

/-- What the dependencies answer in one iteration; the answer to a preparation may depend on
what is asked.  The two instants are the clock when the age of the newest attempt is read and
when a send has ended. -/
structure Turn where
  mined : Except Error (Option String)
  now : Time
  nonce : Except Error NonceState
  preChecks : Except Error (Option String)
  prepare : Fees → Int → AttemptId → Except Error PreparedReplacement
  sent : Except Error SendOutcome
  sentAt : Time

/-- A call of the loop to a dependency, with its answer. -/
inductive LadderCall
  | findMinedHash (hashes : List String) (answer : Except Error (Option String))
  | nonceState (answer : Except Error NonceState)
  | preChecks (answer : Except Error (Option String))
  | prepare (next : Fees) (bump : Int) (replacesAttemptId : AttemptId)
      (answer : Except Error PreparedReplacement)
  | send (prepared : PreparedReplacement) (bump : Int) (replacesAttemptId : AttemptId)
      (answer : Except Error SendOutcome)
  | sleep (ms : Time)

/-- The call of the loop ended with a result, or with an error of a dependency. -/
inductive LadderEnd
  | returned (result : LadderResult)
  | threw (error : Error)
  deriving DecidableEq, Repr

structure LadderState where
  attempts : List LadderAttempt
  lastSentAt : Time
  calls : List (List LadderCall)
  ended : Option LadderEnd

namespace LadderState

/-- The iteration ends with a sleep. -/
def rest (state : LadderState) (input : LadderInput) (calls : List LadderCall) :
    LadderState :=
  { state with calls := state.calls ++ [calls ++ [.sleep input.pollMs]] }

/-- The loop ends in this iteration. -/
def finish (state : LadderState) (calls : List LadderCall) (ended : LadderEnd) :
    LadderState :=
  { state with calls := state.calls ++ [calls], ended := some ended }

def stop (state : LadderState) (calls : List LadderCall) (reason : LadderStop) :
    LadderState :=
  state.finish calls (.returned
    { attempts := state.attempts, winner := none, stop := reason, detail := none })

end LadderState

/-- The reason a gate gave; an empty text is none. -/
def refusalOf (answer : Option String) : Option String :=
  answer.filter (· ≠ "")

/-- The stop a refused plan leads to. -/
def stopOf : ReplacementRefusal → LadderStop
  | .mayHaveMined => .minedStatusUnknown
  | .minedStatusUnknown => .minedStatusUnknown
  | reason => .refused reason

/-- A prepared replacement joins the attempts and is sent. -/
def sendPrepared (input : LadderInput) (answers : Turn) (state : LadderState)
    (calls : List LadderCall) (newest : LadderAttempt) (decision : ReplacementDecision) (prepared : PreparedReplacement) :
    LadderState :=
  let joined : LadderState :=
    { state with
      attempts := state.attempts ++ [⟨prepared.hash, prepared.attemptId, decision.next⟩]
      lastSentAt := answers.sentAt }
  let calls := calls ++ [.send prepared decision.bumpsUsed newest.attemptId answers.sent]
  -- a send that throws counts as ambiguous
  if answers.sent.toOption.getD .ambiguous = .rejected then
    joined.stop calls .replacementRejected
  else joined.rest input calls

/-- A planned replacement passes the gates, is prepared and sent. -/
def replace (input : LadderInput) (answers : Turn) (state : LadderState)
    (calls : List LadderCall) (newest : LadderAttempt) (decision : ReplacementDecision) :
    LadderState :=
  let calls := calls ++ [.preChecks answers.preChecks]
  match answers.preChecks with
  | .error failure => state.finish calls (.threw failure)
  | .ok answer =>
    match refusalOf answer with
    | some refusal =>
      state.finish calls (.returned
        { attempts := state.attempts, winner := none, stop := .preCheckRefused,
          detail := some refusal })
    | none =>
      let answer := answers.prepare decision.next decision.bumpsUsed newest.attemptId
      let calls := calls ++ [.prepare decision.next decision.bumpsUsed newest.attemptId answer]
      match answer with
      | .error _ => state.stop calls .signerRefused
      | .ok prepared => sendPrepared input answers state calls newest decision prepared

/-- The newest attempt has been unmined for too long. -/
def considerReplacement (input : LadderInput) (answers : Turn) (state : LadderState)
    (calls : List LadderCall) : LadderState :=
  let calls := calls ++ [.nonceState answers.nonce]
  if answers.nonce.toOption = some .consumed then state.stop calls .nonceConsumed
  else
    let mayHaveMined : MinedStatus :=
      if answers.nonce.toOption = some .free then .no else .unknown
    match state.attempts.getLast? with
    | none => state.stop calls (.refused .configInvalid)
    | some newest =>
      match planReplacement newest.fees input.ceiling (state.attempts.length - 1)
          input.maxBumps mayHaveMined with
      | .error reason => state.stop calls (stopOf reason)
      | .ok decision => replace input answers state calls newest decision

/-- One iteration of the loop. -/
def ladderTurn (input : LadderInput) (answers : Turn) (state : LadderState) : LadderState :=
  if state.ended.isSome then state
  else
    let calls := [.findMinedHash (state.attempts.map (·.hash)) answers.mined]
    match answers.mined with
    | .error _ => state.stop calls .minedStatusUnknown
    | .ok (some hash) =>
      state.finish calls (.returned
        { attempts := state.attempts, winner := some hash, stop := .mined, detail := none })
    | .ok none =>
      if answers.now - state.lastSentAt ≥ input.stuckAfterMs then
        considerReplacement input answers state calls
      else state.rest input calls

/-- The state before the first iteration. -/
def ladderStart (input : LadderInput) : LadderState :=
  let start : LadderState :=
    { attempts := input.attempts, lastSentAt := input.lastSentAt, calls := [], ended := none }
  if input.attempts = [] then
    { start with
      ended := some (.returned
        { attempts := [], winner := none, stop := .refused .configInvalid,
          detail := some "no original attempt" }) }
  else start

/-- The state after at most `n` iterations. -/
def runReplacementLadder (input : LadderInput) (turns : Nat → Turn) : Nat → LadderState
  | 0 => ladderStart input
  | n + 1 => ladderTurn input (turns n) (runReplacementLadder input turns n)

/-! ## What an iteration does -/

/-- The hash a call sends. -/
def sentHash : LadderCall → Option String
  | .send prepared _ _ _ => some prepared.hash
  | _ => none

/-- The hashes for which a send was called, in order. -/
def LadderState.sentHashes (state : LadderState) : List String :=
  state.calls.flatten.filterMap sentHash

/-- A replacement is prepared only behind three answers: none of the hashes in `own` is mined,
the nonce is free and the gates pass. -/
def Guarded (own : List String) (calls : List LadderCall) : Prop :=
  ∀ next bump replaces answer, .prepare next bump replaces answer ∈ calls →
    .findMinedHash own (.ok none) ∈ calls ∧
      .nonceState (.ok .free) ∈ calls ∧
      ∃ passed, .preChecks (.ok passed) ∈ calls ∧ refusalOf passed = none

/-- The effect of one iteration of a running loop. -/
inductive TurnEffect (input : LadderInput) (answers : Turn) (state : LadderState) :
    LadderState → Prop
  | halted (calls : List LadderCall) (ended : LadderEnd)
      (noSend : calls.filterMap sentHash = []) (guarded : Guarded (state.attempts.map (·.hash)) calls)
      (outcome : (∃ result, ended = .returned result ∧ result.attempts = state.attempts) ∨
        ∃ failure, answers.preChecks = .error failure ∧ ended = .threw failure) :
      TurnEffect input answers state (state.finish calls ended)
  | rested (calls : List LadderCall) (noSend : calls.filterMap sentHash = [])
      (guarded : Guarded (state.attempts.map (·.hash)) calls)
      (young : answers.now - state.lastSentAt < input.stuckAfterMs) :
      TurnEffect input answers state { state with calls := state.calls ++ [calls] }
  | replaced (calls : List LadderCall) (newest : LadderAttempt) (decision : ReplacementDecision)
      (prepared : PreparedReplacement) (ended : Option LadderEnd)
      (last : state.attempts.getLast? = some newest)
      (planned : planReplacement newest.fees input.ceiling (state.attempts.length - 1)
        input.maxBumps .no = .ok decision)
      (sends : calls.filterMap sentHash = [prepared.hash]) (guarded : Guarded (state.attempts.map (·.hash)) calls)
      (outcome : ∀ finished, ended = some finished → ∃ result, finished = .returned result ∧
        result.attempts =
          state.attempts ++ [⟨prepared.hash, prepared.attemptId, decision.next⟩]) :
      TurnEffect input answers state
        { attempts := state.attempts ++ [⟨prepared.hash, prepared.attemptId, decision.next⟩]
          lastSentAt := answers.sentAt
          calls := state.calls ++ [calls]
          ended := ended }

section Effect

variable {input : LadderInput} {answers : Turn} {state : LadderState}

/-- A loop that stops by itself returns the attempts it has. -/
theorem TurnEffect.stopped (calls : List LadderCall) (result : LadderResult)
    (same : result.attempts = state.attempts) (noSend : calls.filterMap sentHash = [])
    (guarded : Guarded (state.attempts.map (·.hash)) calls) :
    TurnEffect input answers state (state.finish calls (.returned result)) :=
  .halted calls _ noSend guarded (.inl ⟨result, rfl, same⟩)

theorem guarded_of_no_prepare {own : List String} {calls : List LadderCall}
    (absent : ∀ next bump replaces answer, .prepare next bump replaces answer ∉ calls) :
    Guarded own calls :=
  fun next bump replaces answer member => absurd member (absent next bump replaces answer)

/-- The calls up to a preparation that may be made. -/
theorem guarded_prepare {hashes : List String} {passed : Option String}
    (noRefusal : refusalOf passed = none) (later : List LadderCall)
    (next : Fees) (bump : Int) (replaces : AttemptId)
    (answer : Except Error PreparedReplacement) :
    Guarded hashes ([.findMinedHash hashes (.ok none), .nonceState (.ok .free), .preChecks (.ok passed),
      .prepare next bump replaces answer] ++ later) := by
  intro _ _ _ _ _
  exact ⟨by simp, by simp, passed, by simp, noRefusal⟩

/-- A planned replacement is prepared and sent, or the loop ends with what it has. -/
theorem replace_effect {newest : LadderAttempt}
    {decision : ReplacementDecision} (last : state.attempts.getLast? = some newest)
    (planned : planReplacement newest.fees input.ceiling (state.attempts.length - 1)
      input.maxBumps .no = .ok decision) (running : state.ended = none) :
    TurnEffect input answers state
      (replace input answers state
        [.findMinedHash (state.attempts.map (·.hash)) (.ok none), .nonceState (.ok .free)]
        newest decision) := by
  unfold replace
  simp only
  split
  · rename_i failure gate
    exact .halted _ _ (by simp [sentHash]) (guarded_of_no_prepare (by simp))
      (.inr ⟨failure, gate, rfl⟩)
  · rename_i passed gate
    split
    · exact .stopped _ _ rfl (by simp [sentHash]) (guarded_of_no_prepare (by simp))
    · rename_i noRefusal
      split
      · exact .stopped _ _ rfl (by simp [sentHash, gate])
          (gate ▸ guarded_prepare noRefusal [] _ _ _ _)
      · rename_i prepared _
        unfold sendPrepared
        simp only
        split
        · refine .replaced _ newest decision prepared _ last planned rfl
            (gate ▸ guarded_prepare noRefusal [_] _ _ _ _) ?_
          rintro finished ⟨⟩
          exact ⟨_, rfl, rfl⟩
        · refine .replaced _ newest decision prepared _ last planned rfl
            (gate ▸ guarded_prepare noRefusal [_, _] _ _ _ _) ?_
          intro finished done
          rw [running] at done
          exact nomatch done

variable (input answers) in
theorem ladderTurn_effect (running : state.ended = none) :
    TurnEffect input answers state (ladderTurn input answers state) := by
  unfold ladderTurn
  rw [if_neg (by simp [running])]
  simp only
  split
  · exact .stopped _ _ rfl (by simp [sentHash]) (guarded_of_no_prepare (by simp))
  · exact .stopped _ _ rfl (by simp [sentHash]) (guarded_of_no_prepare (by simp))
  · rename_i mined
    split
    · unfold considerReplacement
      simp only
      split
      · exact .stopped _ _ rfl (by simp [sentHash]) (guarded_of_no_prepare (by simp))
      · split
        · exact .stopped _ _ rfl (by simp [sentHash]) (guarded_of_no_prepare (by simp))
        · rename_i newest last
          split
          · exact .stopped _ _ rfl (by simp [sentHash]) (guarded_of_no_prepare (by simp))
          · rename_i decision planned
            have known := (planReplacement_ok planned).1
            by_cases free : answers.nonce.toOption = some .free
            · rw [if_pos free] at planned
              rw [Fallible.mem_toOption.1 free, mined]
              exact replace_effect last planned running
            · rw [if_neg free] at known
              exact nomatch known
    · rename_i young
      exact .rested _ (by simp [sentHash]) (guarded_of_no_prepare (by simp))
        (Int.not_le.1 young)

end Effect

/-! ## Whole runs -/

/-- The fees of a replacement, next to those of the attempt before it. -/
structure FeeStep (ceiling : Fees) (earlier later : LadderAttempt) : Prop where
  raised : RaisedFrom earlier.fees later.fees
  valid : ValidFees later.fees
  within : Within later.fees ceiling

/-- What holds of the loop after any number of iterations. -/
structure LadderSafe (input : LadderInput) (state : LadderState) : Prop where
  kept : input.attempts <+: state.attempts
  sent : state.attempts.map (·.hash) = input.attempts.map (·.hash) ++ state.sentHashes
  bounded : state.sentHashes = [] ∨ (state.attempts.length : Int) - 1 ≤ input.maxBumps
  stepped : ∀ front earlier later back,
    state.attempts = front ++ earlier :: later :: back →
    input.attempts.length ≤ front.length + 1 → FeeStep input.ceiling earlier later
  guarded : ∀ before calls after, state.calls = before ++ calls :: after →
    Guarded (input.attempts.map (·.hash) ++ before.flatten.filterMap sentHash) calls
  returned : ∀ result, state.ended = some (.returned result) → result.attempts = state.attempts

theorem ladderStart_safe (input : LadderInput) : LadderSafe input (ladderStart input) := by
  have attempts : (ladderStart input).attempts = input.attempts := by
    unfold ladderStart
    simp only
    split <;> rfl
  have calls : (ladderStart input).calls = [] := by
    unfold ladderStart
    simp only
    split <;> rfl
  refine ⟨attempts ▸ List.prefix_rfl, ?_, ?_, ?_, ?_, ?_⟩
  · rw [LadderState.sentHashes, attempts, calls]
    simp
  · rw [LadderState.sentHashes, calls]
    exact Or.inl rfl
  · intro front earlier later back shape long
    rw [attempts] at shape
    rw [shape] at long
    simp only [List.length_append, List.length_cons] at long
    omega
  · intro before each after shape
    rw [calls] at shape
    simp at shape
  · intro result done
    unfold ladderStart at done ⊢
    simp only at done ⊢
    split at done
    · rename_i empty
      obtain ⟨⟩ := done
      simp [empty]
    · exact nomatch done

section Safe

variable {input : LadderInput} {state : LadderState}

/-- The hashes asked about are the initial ones and all sent before. -/
theorem LadderSafe.guarded_add (safe : LadderSafe input state) {calls : List LadderCall}
    (guarded : Guarded (state.attempts.map (·.hash)) calls)
    (before each after) (shape : state.calls ++ [calls] = before ++ each :: after) :
    Guarded (input.attempts.map (·.hash) ++ before.flatten.filterMap sentHash) each := by
  rcases List.eq_nil_or_concat after with rfl | ⟨earlier, final, rfl⟩
  · obtain ⟨same, single⟩ := List.append_inj' shape rfl
    obtain rfl := List.singleton_inj.1 single
    rw [← same]
    exact safe.sent ▸ guarded
  · have split : state.calls ++ [calls] = (before ++ each :: earlier) ++ [final] := by
      simpa using shape
    exact safe.guarded before each earlier (List.append_inj' split rfl).1

theorem sentHashes_add (state : LadderState) (calls : List LadderCall) :
    (state.calls ++ [calls]).flatten.filterMap sentHash =
      state.sentHashes ++ calls.filterMap sentHash := by
  simp [LadderState.sentHashes]

/-- The new attempt follows the one that was newest. -/
theorem LadderSafe.stepped_add (safe : LadderSafe input state) {newest added : LadderAttempt}
    (last : state.attempts.getLast? = some newest)
    (step : FeeStep input.ceiling newest added) {front back : List LadderAttempt}
    {earlier later : LadderAttempt}
    (shape : state.attempts ++ [added] = front ++ earlier :: later :: back)
    (long : input.attempts.length ≤ front.length + 1) :
    FeeStep input.ceiling earlier later := by
  rcases List.eq_nil_or_concat back with rfl | ⟨before, final, rfl⟩
  · have split : state.attempts ++ [added] = (front ++ [earlier]) ++ [later] := by
      simpa using shape
    obtain ⟨attempts, same⟩ := List.append_inj' split rfl
    obtain rfl := List.singleton_inj.1 same
    rw [attempts, List.getLast?_concat, Option.some.injEq] at last
    exact last ▸ step
  · have split : state.attempts ++ [added] =
        (front ++ earlier :: later :: before) ++ [final] := by
      simpa using shape
    exact safe.stepped front earlier later before (List.append_inj' split rfl).1 long

/-- One iteration keeps the loop safe. -/
theorem LadderSafe.turn (safe : LadderSafe input state) (answers : Turn) :
    LadderSafe input (ladderTurn input answers state) := by
  cases running : state.ended with
  | some ended =>
    rw [ladderTurn, if_pos (by simp [running])]
    exact safe
  | none =>
    have effect := ladderTurn_effect input answers running
    generalize ladderTurn input answers state = after at effect ⊢
    cases effect with
    | halted calls ended noSend guarded outcome =>
      refine ⟨safe.kept, ?_, ?_, safe.stepped, safe.guarded_add guarded, ?_⟩
      · rw [LadderState.sentHashes, LadderState.finish, sentHashes_add, noSend, List.append_nil]
        exact safe.sent
      · rw [LadderState.sentHashes, LadderState.finish, sentHashes_add, noSend, List.append_nil]
        exact safe.bounded
      · intro result done
        obtain rfl := Option.some.inj done
        rcases outcome with ⟨_, same, attempts⟩ | ⟨_, -, threw⟩
        · obtain rfl := LadderEnd.returned.inj same
          exact attempts
        · exact nomatch threw
    | rested calls noSend guarded young =>
      refine ⟨safe.kept, ?_, ?_, safe.stepped, safe.guarded_add guarded, safe.returned⟩
      · rw [LadderState.sentHashes, sentHashes_add, noSend, List.append_nil]
        exact safe.sent
      · rw [LadderState.sentHashes, sentHashes_add, noSend, List.append_nil]
        exact safe.bounded
    | replaced calls newest decision prepared ended last planned sends guarded outcome =>
      obtain ⟨-, below, -, raised, valid, within⟩ := planReplacement_ok planned
      refine ⟨safe.kept.trans (List.prefix_append _ _), ?_, Or.inr ?_, ?_,
        safe.guarded_add guarded, ?_⟩
      · rw [LadderState.sentHashes, sentHashes_add, sends, ← List.append_assoc, ← safe.sent,
          List.map_append]
        rfl
      · rw [List.length_append, List.length_singleton]
        omega
      · intro front earlier later back
        exact safe.stepped_add last ⟨raised, valid, within⟩
      · intro result done
        obtain ⟨_, same, attempts⟩ := outcome _ done
        obtain rfl := LadderEnd.returned.inj same
        exact attempts

end Safe

theorem runReplacementLadder_safe (input : LadderInput) (turns : Nat → Turn) (n : Nat) :
    LadderSafe input (runReplacementLadder input turns n) := by
  induction n with
  | zero => exact ladderStart_safe input
  | succ n ih => exact ih.turn (turns n)

/-- When the gates never throw, the loop ends with a result. -/
theorem runReplacementLadder_returns {input : LadderInput} {turns : Nat → Turn}
    (gates : ∀ n failure, (turns n).preChecks ≠ .error failure) (n : Nat) (ended : LadderEnd)
    (done : (runReplacementLadder input turns n).ended = some ended) :
    ∃ result, ended = .returned result := by
  induction n with
  | zero =>
    rw [runReplacementLadder, ladderStart] at done
    simp only at done
    split at done
    · exact ⟨_, (Option.some.inj done).symm⟩
    · exact nomatch done
  | succ n ih =>
    rw [runReplacementLadder] at done
    cases running : (runReplacementLadder input turns n).ended with
    | some earlier =>
      rw [ladderTurn, if_pos (by simp [running]), running] at done
      exact ih (running.trans done)
    | none =>
      have effect := ladderTurn_effect input (turns n) running
      generalize ladderTurn input (turns n) (runReplacementLadder input turns n) = after
        at effect done
      cases effect with
      | halted calls other noSend guarded outcome =>
        obtain rfl := Option.some.inj done
        rcases outcome with ⟨result, same, -⟩ | ⟨failure, threw, -⟩
        · exact ⟨result, same⟩
        · exact absurd threw (gates n failure)
      | rested calls noSend guarded young =>
        rw [running] at done
        exact nomatch done
      | replaced calls newest decision prepared other last planned sends guarded outcome =>
        obtain ⟨result, same, -⟩ := outcome _ done
        exact ⟨result, same⟩

/-! ## The loop ends -/

/-- Between the readings of two iterations the clock goes on by at least `δ`. -/
def Advances (turns : Nat → Turn) (δ : Time) : Prop :=
  ∀ n, (turns n).now + δ ≤ (turns (n + 1)).now

/-- A sleep shortens the time until the newest attempt counts as stuck. -/
theorem wait_shrinks {last stuck now next δ : Int} {wait : Nat} (positive : 0 < δ)
    (clock : now + δ ≤ next) (still : now - last < stuck) (young : last + stuck - now ≤ wait) :
    wait - 1 < wait ∧ last + stuck - next ≤ (wait - 1 : Nat) := by
  omega

/-- A running loop ends: `bumps` bounds the replacements that are left, `wait` the time until
the newest attempt counts as stuck. -/
theorem ends_from {input : LadderInput} {turns : Nat → Turn} {δ : Time} (positive : 0 < δ)
    (advances : Advances turns δ) (bumps wait n : Nat)
    (left : input.maxBumps + 1 -
      (runReplacementLadder input turns n).attempts.length ≤ bumps)
    (young : (runReplacementLadder input turns n).lastSentAt + input.stuckAfterMs -
      (turns n).now ≤ wait) :
    ∃ m ended, (runReplacementLadder input turns m).ended = some ended := by
  induction bumps using Nat.strongRecOn generalizing wait n with
  | ind bumps fewer =>
    induction wait using Nat.strongRecOn generalizing n with
    | ind wait sooner =>
      cases running : (runReplacementLadder input turns n).ended with
      | some ended => exact ⟨n, ended, running⟩
      | none =>
        have effect := ladderTurn_effect input (turns n) running
        have next : runReplacementLadder input turns (n + 1) =
          ladderTurn input (turns n) (runReplacementLadder input turns n) := rfl
        have clock := advances n
        rw [← next] at effect
        generalize after : runReplacementLadder input turns (n + 1) = state at effect
        cases effect with
        | halted calls ended noSend guarded outcome =>
          exact ⟨n + 1, ended, by rw [after]; rfl⟩
        | rested calls noSend guarded still =>
          -- one sleep shorter to wait, with the same attempts
          obtain ⟨fewerTurns, shorter⟩ := wait_shrinks positive clock still young
          exact sooner (wait - 1) fewerTurns (n + 1) (by rw [after]; exact left)
            (by rw [after]; exact shorter)
        | replaced calls newest decision prepared ended last planned sends guarded outcome =>
          -- one replacement fewer is left
          have below := (planReplacement_ok planned).2.1
          refine fewer (bumps - 1) (by omega) _ (n + 1) ?_ (Int.self_le_toNat _)
          rw [after]
          simp only [List.length_append, List.length_singleton]
          omega

/-! ## Restarts -/

/-- One life of the process that runs the ladder: the answers it gets, the iterations it
lives for, and the time it takes for the last send. -/
structure LadderLife where
  turns : Nat → Turn
  iterations : Nat
  lastSentAt : Time

/-- Each life goes on with the attempts the one before has stored. -/
def ladderLives (input : LadderInput) : List LadderLife → List LadderAttempt
  | [] => input.attempts
  | life :: later =>
    let run :=
      runReplacementLadder { input with lastSentAt := life.lastSentAt } life.turns life.iterations
    ladderLives { input with attempts := run.attempts } later

/-- Over all lives, no more replacements are made than allowed. -/
theorem ladderLives_bounded (lives : List LadderLife) (input : LadderInput) :
    ((ladderLives input lives).length : Int) - 1 ≤
      max input.maxBumps (input.attempts.length - 1) := by
  induction lives generalizing input with
  | nil => exact Int.le_max_right _ _
  | cons life later ih =>
    have safe := runReplacementLadder_safe { input with lastSentAt := life.lastSentAt }
      life.turns life.iterations
    have grown := congrArg List.length safe.sent
    have here := ih { input with attempts := (runReplacementLadder
      { input with lastSentAt := life.lastSentAt } life.turns life.iterations).attempts }
    simp only [List.length_map, List.length_append] at grown
    rcases safe.bounded with unsent | bounded
    · rw [unsent, List.length_nil] at grown
      simp only at here
      rw [ladderLives]
      omega
    · simp only at here bounded
      rw [ladderLives]
      omega

/-! ## Safety and end of the ladder -/

/-- The ladder is safe after every number of iterations: each hash it sent is among the
attempts it returns, it makes at most `maxBumps` replacements over all lives of the process,
each with raised, valid fees below the ceiling and behind all its checks.  It ends when every
sleep advances the clock, and with a result as long as the gates do not throw. -/
theorem replacement_ladder (input : LadderInput) (turns : Nat → Turn) :
    (∀ n, LadderSafe input (runReplacementLadder input turns n)) ∧
    (∀ lives, ((ladderLives input lives).length : Int) - 1 ≤
      max input.maxBumps (input.attempts.length - 1)) ∧
    ((∀ n failure, (turns n).preChecks ≠ .error failure) → ∀ n ended,
      (runReplacementLadder input turns n).ended = some ended →
      ∃ result, ended = .returned result ∧
        ∀ hash ∈ (runReplacementLadder input turns n).sentHashes,
          hash ∈ result.attempts.map (·.hash)) ∧
    (∀ δ, 0 < δ → Advances turns δ →
      ∃ n ended, (runReplacementLadder input turns n).ended = some ended) := by
  refine ⟨runReplacementLadder_safe input turns, fun lives => ladderLives_bounded lives input,
    ?_, ?_⟩
  · intro gates n ended done
    obtain ⟨result, rfl⟩ := runReplacementLadder_returns gates n ended done
    have safe := runReplacementLadder_safe input turns n
    refine ⟨result, rfl, fun hash sent => ?_⟩
    rw [safe.returned result done, safe.sent]
    exact List.mem_append_right _ sent
  · intro δ positive advances
    exact ends_from positive advances _ _ 0 (Int.self_le_toNat _) (Int.self_le_toNat _)

/-- One original attempt at 10 gwei and room for two replacements. -/
def stuckLadder : LadderInput where
  attempts := [⟨"0xa0", .signed ⟨"run", "0x1"⟩, ⟨10, 1⟩⟩]
  maxBumps := 2
  ceiling := ⟨20, 5⟩
  stuckAfterMs := 1000
  pollMs := 100
  lastSentAt := 0

/-- The first replacement is accepted; at the second one the gate throws. -/
def throwingGate (n : Nat) : Turn where
  mined := .ok none
  now := 2000 * (n + 1)
  nonce := .ok .free
  preChecks := if n = 0 then .ok none else .error "gate unavailable"
  prepare := fun _ _ _ => .ok ⟨"0x02", "0xa1", .replacementSigned ⟨"run", "0x1"⟩ 1⟩
  sent := .ok .accepted
  sentAt := 2000 * (n + 1)

/-- A gate that throws against its contract loses the attempts: the sent hash is in no
result. -/
theorem throwing_gate_loses_attempts :
    ¬ ∀ (input : LadderInput) (turns : Nat → Turn),
      (∃ original, input.attempts = [original] ∧ ValidFees original.fees ∧
        Within original.fees input.ceiling) →
      ∀ n ended, (runReplacementLadder input turns n).ended = some ended →
        ∀ hash ∈ (runReplacementLadder input turns n).sentHashes,
          ∃ result, ended = .returned result ∧ hash ∈ result.attempts.map (·.hash) := by
  intro claimed
  obtain ⟨result, same, -⟩ := claimed stuckLadder throwingGate ⟨_, rfl, by decide, by decide⟩ 2
    (.threw "gate unavailable") (by decide) "0xa1" (by decide)
  exact nomatch same

end MintBot
