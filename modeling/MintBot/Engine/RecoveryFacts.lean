import Mathlib.Data.List.Dedup
import Mathlib.Data.List.Perm.Subperm
import Mathlib.Data.Nat.Find
import Mathlib.Tactic.Common
import MintBot.Engine.ReservationRelease

/-!
# Recovery after a missing receipt

When the receipt of a sent transaction does not come in, the error handler reads the number of
the sender's transactions, pending ones included, and classifies what became of the submission.
A node counts a pending transaction once all nonces up to its own are mined or in its pool, and
that may well be the transaction that was sent.
-/

namespace MintBot

/-! ## The classification -/

/-- What `reconcileByHashAndNonce` is told. -/
structure ReconcileInput where
  originalHash : Option String
  ownHashes : List String
  observedHash : Option String
  receiptVisible : Bool
  receiptSucceeded : Option Bool
  receiptCanonical : Option Bool
  nonceConsumedByDifferentHash : Bool
  dropped : Bool

structure Reconciled where
  state : SubmissionDisposition
  observedHash : Option String := none
  reason : String
  deriving DecidableEq

/-- The observed hash is one of the hashes that were sent for the nonce. -/
def ReconcileInput.ownHash (input : ReconcileInput) : Bool :=
  input.observedHash.any fun observed =>
    input.ownHashes.any fun hash => toLowerCase hash = toLowerCase observed

/-- Two hashes are known and they differ. -/
def ReconcileInput.otherHash (input : ReconcileInput) : Bool :=
  input.observedHash.any fun observed =>
    input.originalHash.any fun original => toLowerCase observed ≠ toLowerCase original

def reconcileByHashAndNonce (input : ReconcileInput) : Reconciled :=
  if input.receiptVisible ∧ input.receiptCanonical = some false then
    { state := .reorged, reason := "receipt is no longer canonical" }
  else if (input.nonceConsumedByDifferentHash ∧ ¬ input.ownHash) ∨
      (¬ input.ownHash ∧ input.otherHash) then
    { state := .replaced
      observedHash := input.observedHash
      reason := "a different hash consumed the same sender nonce" }
  else if input.receiptVisible ∧ input.receiptSucceeded = some true then
    { state := .matched, reason := "receipt matches the submitted transaction" }
  else if input.receiptVisible ∧ input.receiptSucceeded = some false then
    { state := .matched, reason := "receipt matches and proves an on-chain revert" }
  else if input.dropped then
    { state := .dropped
      reason := "provider/chain observation proves the submission was dropped" }
  else if input.observedHash.isSome then
    { state := .ambiguous, reason := "hash is known but receipt is not visible" }
  else { state := .unresolved, reason := "hash and nonce outcome remains unresolved" }

/-- The hashes that are passed as our own: none, unless the attempts carry more than one. -/
def ownHashesOf (submittedHash : String) (attemptHashes : List (AttemptId × String)) :
    List String :=
  let hashes := attemptHashes.map Prod.snd
  if (hashes.map toLowerCase).dedup.length > 1 then submittedHash :: hashes else []

/-- What the error handler is told: an error that says the receipt was reorged, and the answer to
the read of the pending transaction count. -/
structure RecoveryReads where
  reorged : Option String
  pendingCount : Except Error Nat

/-- The classification of a submission whose receipt is missing. -/
def unresolvedSubmission (submittedHash : String) (attemptHashes : List (AttemptId × String))
    (builtNonce : Nat) (reads : RecoveryReads) : Reconciled :=
  match reads.reorged with
  | some message => { state := .reorged, reason := message }
  | none =>
      reconcileByHashAndNonce
        { originalHash := some submittedHash
          ownHashes := ownHashesOf submittedHash attemptHashes
          observedHash := some submittedHash
          receiptVisible := false
          receiptSucceeded := none
          receiptCanonical := none
          -- A failed read infers nothing.
          nonceConsumedByDifferentHash :=
            match reads.pendingCount with
            | .ok count => count > builtNonce
            | .error _ => false
          dropped := false }

/-! ## The sender's transactions -/

/-- The transactions of a sender that a node knows: the hashes of the mined ones in the order of
their nonces, and the pool. -/
structure SenderAccount where
  mined : List String
  pool : List (Nat × String)

/-- A transaction with the nonce is mined or in the pool. -/
def SenderAccount.Occupied (account : SenderAccount) (nonce : Nat) : Prop :=
  nonce < account.mined.length ∨ nonce ∈ account.pool.map Prod.fst

instance (account : SenderAccount) (nonce : Nat) : Decidable (account.Occupied nonce) :=
  inferInstanceAs (Decidable (_ ∨ _))

theorem SenderAccount.exists_free (account : SenderAccount) : ∃ nonce, ¬ account.Occupied nonce := by
  refine ⟨account.mined.length + (account.pool.map Prod.fst).foldr max 0 + 1, ?_⟩
  rintro (mined | pooled)
  · omega
  · have below : ∀ nonces : List Nat, ∀ nonce ∈ nonces, nonce ≤ nonces.foldr max 0 := by
      intro nonces
      induction nonces with
      | nil => exact nofun
      | cons first rest inductionHypothesis =>
          intro nonce member
          rw [List.foldr_cons]
          rcases List.mem_cons.mp member with rfl | later
          · exact le_max_left _ _
          · exact (inductionHypothesis nonce later).trans (le_max_right _ _)
    have bound := below _ _ pooled
    omega

/-- `eth_getTransactionCount` of the pending block: the first nonce that is free. -/
def SenderAccount.pendingCount (account : SenderAccount) : Nat :=
  Nat.find account.exists_free

/-- The count passes a nonce when all nonces up to it are occupied. -/
theorem SenderAccount.lt_pendingCount {account : SenderAccount} {nonce : Nat} :
    nonce < account.pendingCount ↔ ∀ earlier ≤ nonce, account.Occupied earlier := by
  rw [pendingCount, Nat.lt_find_iff]
  simp only [not_not]

/-- No transaction but the one with this hash is known for the nonce. -/
def SenderAccount.OnlyOurs (account : SenderAccount) (nonce : Nat) (hash : String) : Prop :=
  (∀ other ∈ account.mined[nonce]?, other = hash) ∧
    ∀ other, (nonce, other) ∈ account.pool → other = hash

/-- Our transaction is mined or in the pool, and all nonces before it are occupied as well. -/
def SenderAccount.Carries (account : SenderAccount) (nonce : Nat) (hash : String) : Prop :=
  (account.mined[nonce]? = some hash ∨ (nonce, hash) ∈ account.pool) ∧
    ∀ earlier < nonce, account.Occupied earlier

/-- When the nonce is ours alone, the count passes it exactly when the node carries our
transaction. -/
theorem SenderAccount.OnlyOurs.lt_pendingCount {account : SenderAccount} {nonce : Nat}
    {hash : String} (ours : account.OnlyOurs nonce hash) :
    nonce < account.pendingCount ↔ account.Carries nonce hash := by
  rw [SenderAccount.lt_pendingCount]
  constructor
  · intro occupied
    refine ⟨?_, fun earlier before => occupied earlier (Nat.le_of_lt before)⟩
    rcases occupied nonce (Nat.le_refl _) with mined | pooled
    · have found := List.getElem?_eq_getElem mined
      exact .inl (found.trans (congrArg some (ours.1 _ found)))
    · obtain ⟨⟨_, other⟩, listed, rfl⟩ := List.mem_map.mp pooled
      exact .inr (ours.2 other listed ▸ listed)
  · rintro ⟨own, before⟩ earlier bounded
    rcases Nat.lt_or_eq_of_le bounded with below | rfl
    · exact before earlier below
    · rcases own with mined | pooled
      · exact .inl (List.getElem?_eq_some_iff.mp mined).1
      · exact .inr (List.mem_map_of_mem pooled)

/-- A count that was read is the node's. -/
def RecoveryReads.Of (account : SenderAccount) (reads : RecoveryReads) : Prop :=
  ∀ count, reads.pendingCount = .ok count → count = account.pendingCount

theorem ownHashesOf_single {submittedHash : String} {attemptHashes : List (AttemptId × String)}
    (unreplaced : ∀ entry ∈ attemptHashes, toLowerCase entry.2 = toLowerCase submittedHash) :
    ownHashesOf submittedHash attemptHashes = [] := by
  refine if_neg (Nat.not_lt.mpr ?_)
  have subset : ((attemptHashes.map Prod.snd).map toLowerCase).dedup ⊆
      [toLowerCase submittedHash] := by
    intro text member
    rw [List.mem_dedup, List.map_map] at member
    obtain ⟨entry, listed, rfl⟩ := List.mem_map.mp member
    exact List.mem_singleton.mpr (unreplaced entry listed)
  exact ((List.nodup_dedup _).subperm subset).length_le

/-- Without replacement attempts, and with no other transaction of the nonce anywhere, the
submission is classified as replaced exactly when the count was read, the error was no reorg, and
the node carries our own transaction. -/
theorem unresolvedSubmission_replaced_iff {submittedHash : String}
    {attemptHashes : List (AttemptId × String)} {builtNonce : Nat} {account : SenderAccount}
    {reads : RecoveryReads}
    (unreplaced : ∀ entry ∈ attemptHashes, toLowerCase entry.2 = toLowerCase submittedHash)
    (ours : account.OnlyOurs builtNonce submittedHash) (consistent : reads.Of account) :
    (unresolvedSubmission submittedHash attemptHashes builtNonce reads).state ≠ .replaced ↔
      reads.reorged.isSome ∨ (∃ error, reads.pendingCount = .error error) ∨
        ¬ account.Carries builtNonce submittedHash := by
  cases reorged : reads.reorged with
  | some message => simp [unresolvedSubmission, reorged]
  | none =>
      have own := ownHashesOf_single unreplaced
      cases counted : reads.pendingCount with
      | error error =>
          simp [unresolvedSubmission, reorged, own, counted, reconcileByHashAndNonce,
            ReconcileInput.ownHash, ReconcileInput.otherHash]
      | ok count =>
          rw [← ours.lt_pendingCount, ← consistent count counted]
          by_cases passed : builtNonce < count
          · simp [unresolvedSubmission, reorged, own, counted, reconcileByHashAndNonce,
              ReconcileInput.ownHash, passed]
          · simp [unresolvedSubmission, reorged, own, counted, reconcileByHashAndNonce,
              ReconcileInput.ownHash, ReconcileInput.otherHash, passed]

/-- A sender with seven mined transactions, and the eighth in the pool. -/
def samplePending : SenderAccount where
  mined := List.replicate 7 "0xbb"
  pool := [(7, "0xaa")]

theorem samplePending_ours : samplePending.OnlyOurs 7 "0xaa" :=
  ⟨by decide, fun other listed => by
    obtain ⟨-, rfl⟩ := Prod.mk.inj (List.mem_singleton.mp listed)
    rfl⟩

/-- The same sender at a node that dropped the transaction. -/
def sampleDropped : SenderAccount where
  mined := List.replicate 7 "0xbb"
  pool := []

theorem unresolvedSubmission_dropped :
    (unresolvedSubmission "0xaa" [] 7 ⟨none, .ok sampleDropped.pendingCount⟩).state ≠ .replaced :=
  (@unresolvedSubmission_replaced_iff "0xaa" [] 7 sampleDropped
    ⟨none, .ok sampleDropped.pendingCount⟩ nofun ⟨by decide, nofun⟩
    fun _ read => (Except.ok.inj read).symm).mpr
    (.inr (.inr fun carries => by
      rcases carries.1 with mined | pooled
      · exact absurd mined (by decide)
      · exact nomatch pooled))

/-- The receipt did not come in because the transaction is still pending, and it is classified
as replaced. -/
theorem unresolvedSubmission_pending :
    ¬ ∀ (submittedHash : String) (builtNonce : Nat) (account : SenderAccount)
      (reads : RecoveryReads), account.OnlyOurs builtNonce submittedHash → reads.Of account →
      reads.reorged = none →
      (unresolvedSubmission submittedHash [] builtNonce reads).state ≠ .replaced := by
  intro claimed
  have counted : samplePending.pendingCount = 8 :=
    (Nat.find_eq_iff _).mpr ⟨by decide, by decide⟩
  refine claimed "0xaa" 7 samplePending ⟨none, .ok 8⟩ samplePending_ours ?_ rfl (by decide +kernel)
  intro count read
  rw [counted, Except.ok.inj read]

end MintBot
