import MintBot.Enabling.Follows

/-!
# Runs of the owner's decisions

Over a run of calls from a database without enablements, the switch and the fee policy of each
chain follow the owner's latest decision, provided that no enablement narrows a chain from paid
mints to free ones: only a revocation takes paid mints out of the fee policy.  A revocation of the
newest enablement goes through when the names it makes are not taken, and a call that fails
changes nothing.
-/

namespace MintBot.Enabling

open Script

variable {outside : Outside} {now : Time} {store next : Store} {chain : EnablementChain}

/-! ## Calls that fail -/

/-- Every call is one transaction, after checks that write nothing. -/
theorem undone_script (call : Call) : Undone (call.script outside now) := by
  cases call with
  | enableRobinhood record input =>
      iterate 4 refine Undone.after (Quiet.refuse _ _) fun _ => ?_
      exact Undone.immediate _
  | enableBase record input =>
      iterate 4 refine Undone.after (Quiet.refuse _ _) fun _ => ?_
      exact Undone.immediate _
  | revokeEnablement chain input =>
      refine Undone.drop (Undone.after (Quiet.refuse _ _) fun _ => ?_)
      exact Undone.immediate _
  | disableRobinhoodIfNotEnabled => exact Undone.immediate _
  | disableBaseIfNotEnabled => exact Undone.immediate _
  | createCampaign campaign => exact Undone.immediate _

/-! ## Revocations that go through -/

/-- A revocation is well formed, and the names it makes are not taken. -/
structure Revocable (store : Store) (chain : EnablementChain) (input : RevocationInput) :
    Prop where
  digest : IsDigest input.confirmationDigest
  readable : julianday input.revokedAt ≠ none
  revocationId : ∀ old ∈ store.revocations, old.id ≠ input.id
  auditId : ∀ old ∈ store.audits, old.id ≠ "enablement-revoked:" ++ input.id
  policyId : ∀ policy ∈ store.feePolicies, ∀ old ∈ store.feePolicies,
    old.id ≠ policy.id ++ ":revoked:" ++ input.id
  version : ∀ profile ∈ store.profileOf chain, ∀ policy ∈ store.activeFeePolicy profile.id,
    ∀ old ∈ store.feePolicies, old.chainProfileId = profile.id →
      old.version ≠ policy.version ++ "-paid-revoked"

/-- A policy can be replaced by a new one that is its profile's only active one. -/
theorem replaceFeePolicy_runs {id : String} {row : FeePolicyVersion} (checked : row.Checked)
    (freshId : ∀ old ∈ store.feePolicies, old.id ≠ row.id)
    (freshVersion : ∀ old ∈ store.feePolicies, old.chainProfileId = row.chainProfileId →
      old.version ≠ row.version)
    (only : ∀ policy ∈ activeOf row.chainProfileId store.feePolicies, policy.id = id) :
    ∃ next, Ends (do deactivateFeePolicy id; insertFeePolicy row) store ⟨⟩ next := by
  have kept : ∀ policy ∈ deactivated id store.feePolicies, ∃ old ∈ store.feePolicies,
      old.id = policy.id ∧ old.version = policy.version ∧
        old.chainProfileId = policy.chainProfileId := by
    intro policy member
    obtain ⟨old, oldMember, rfl | rfl⟩ := mem_deactivated member
    · exact ⟨_, oldMember, rfl, rfl, rfl⟩
    · exact ⟨old, oldMember, rfl, rfl, rfl⟩
  simp only [deactivateFeePolicy, insertFeePolicy, ends_write_bind, ends_refuse_bind, ends_write]
  refine ⟨_, not_not.mpr checked, ?_, ?_, ?_, rfl⟩
  · rintro ⟨policy, member, taken⟩
    obtain ⟨old, oldMember, sameId, -⟩ := kept policy member
    exact freshId old oldMember (sameId.trans taken)
  · rintro ⟨policy, member, own, taken⟩
    obtain ⟨old, oldMember, -, sameVersion, sameProfile⟩ := kept policy member
    exact freshVersion old oldMember (sameProfile.trans own) (sameVersion.trans taken)
  · rintro ⟨-, taken⟩
    apply taken
    change activeOf row.chainProfileId (deactivated id store.feePolicies) = []
    rw [activeOf_deactivated, List.filter_eq_nil_iff]
    intro policy member
    simp [only policy member]

theorem withoutPaid_runs (sound : Sound store) {input : RevocationInput}
    (revocable : Revocable store chain input) {profile : ChainProfileRow}
    (found : store.profileOf chain = some profile) (revocation : RevocationRow) :
    ∃ next, Ends (withoutPaid input profile.id (store.activeFeePolicy profile.id))
      (withRevocation store revocation) ⟨⟩ next := by
  simp only [withoutPaid, ends_forSome, ends_onlyIf]
  cases active : store.activeFeePolicy profile.id with
  | none => exact ⟨withRevocation store revocation, .inr ⟨rfl, rfl⟩⟩
  | some activeFee =>
      by_cases paid : activeFee.paidMintsEnabled = true
      · have only := activeOf_eq_of_activeFeePolicy (sound.single profile.id) active
        have member : activeFee ∈ activeOf profile.id store.feePolicies := by
          rw [only]
          exact List.mem_singleton_self _
        obtain ⟨member, -, -⟩ := mem_activeOf.mp member
        have replaced : ∃ next, Ends (do
            deactivateFeePolicy activeFee.id
            insertFeePolicy (revokedPolicy input profile.id activeFee))
            (withRevocation store revocation) ⟨⟩ next :=
          replaceFeePolicy_runs (sound.checked activeFee member)
            (revocable.policyId activeFee member) (revocable.version profile found activeFee active)
            (by
              intro policy policyMember
              have policyMember : policy ∈ activeOf profile.id store.feePolicies := policyMember
              rw [only, List.mem_singleton] at policyMember
              rw [policyMember])
        obtain ⟨next, replaced⟩ := replaced
        exact ⟨next, .inl ⟨activeFee, rfl, .inl ⟨paid, replaced⟩⟩⟩
      · exact ⟨withRevocation store revocation, .inl ⟨activeFee, rfl, .inr ⟨paid, rfl⟩⟩⟩

/-- A profile of the table can be switched off. -/
theorem switchOff_runs {profile : ChainProfileRow} (member : profile ∈ store.profiles)
    {row : AuditRow} (ofProfile : row.entityId = profile.id)
    (fresh : ∀ old ∈ store.audits, old.id ≠ row.id) :
    ∃ next, Ends (do switchOff profile.id; insertAudit row) store ⟨⟩ next := by
  simp only [switchOff, insertAudit, ends_write_bind, ends_refuse_bind, ends_write]
  refine ⟨_, ?_, ?_, rfl⟩
  · intro absent
    have kept := Table.map_key_update ChainProfileRow.id profile.id
      (fun row => { row with executionEnabled := false }) (fun _ _ => rfl) store.profiles
    have present : profile.id ∈ store.profiles.map ChainProfileRow.id :=
      List.mem_map_of_mem member
    rw [← kept] at present
    obtain ⟨other, otherMember, sameId⟩ := List.mem_map.mp present
    exact absent other otherMember (sameId.trans ofProfile.symm)
  · rintro ⟨old, oldMember, taken⟩
    exact fresh old oldMember taken

/-- The newest enablement of a chain can be revoked. -/
theorem revokeEnablement_runs (sound : Sound store) {input : RevocationInput}
    (revocable : Revocable store chain input) {row : EnablementRow}
    (newest : row ∈ store.newest chain) (unrevoked : ¬ store.IsRevoked row.id)
    (notLater : row.approvedAt ≤ input.revokedAt)
    (expected : ∀ id ∈ input.expectedEnablementId, id = row.id) :
    ∃ next, Ends (revokeEnablement chain input) store row.id next := by
  have latest : store.latest chain = some row := mem_latest.mpr ⟨newest, unrevoked⟩
  have finished : ∃ next, Ends (do
      let profile ← read fun store => store.profileOf chain
      forSome profile fun profile => do
        let activeFee ← read fun store => store.activeFeePolicy profile.id
        withoutPaid input profile.id activeFee
        onlyIf (profile.executionEnabled = true) do
          switchOff profile.id
          insertAudit (revokedAudit input profile.id row.id))
      (withRevocation store (input.row chain row.id)) ⟨⟩ next := by
    simp only [ends_read_bind, ends_forSome]
    cases found : store.profileOf chain with
    | none => exact ⟨withRevocation store (input.row chain row.id), .inr ⟨found, rfl⟩⟩
    | some profile =>
        obtain ⟨priced, pricing⟩ := withoutPaid_runs sound revocable found (input.row chain row.id)
        obtain ⟨member, -⟩ := Table.lookup_eq_some found
        have alone : ∀ profileId, (activeOf profileId
            (withRevocation store (input.row chain row.id)).feePolicies).length ≤ 1 := sound.single
        obtain ⟨written, -⟩ := ends_withoutPaid alone sound.checked pricing
        by_cases on : profile.executionEnabled = true
        · have sameProfiles : priced.profiles = store.profiles := by
            rw [written]
            rfl
          have sameAudits : priced.audits = store.audits := by
            rw [written]
            rfl
          have switched : ∃ last, Ends (do
              switchOff profile.id
              insertAudit (revokedAudit input profile.id row.id)) priced ⟨⟩ last :=
            switchOff_runs (sameProfiles ▸ member) rfl (sameAudits ▸ revocable.auditId)
          obtain ⟨last, switched⟩ := switched
          exact ⟨last, .inl ⟨profile, found, ends_bind.mpr ⟨⟨⟩, priced, pricing,
            ends_onlyIf.mpr (.inl ⟨on, switched⟩)⟩⟩⟩
        · exact ⟨priced, .inl ⟨profile, found, ends_bind.mpr ⟨⟨⟩, priced, pricing,
            ends_onlyIf.mpr (.inr ⟨on, rfl⟩)⟩⟩⟩
  obtain ⟨last, finished⟩ := finished
  refine ⟨last, ?_⟩
  simp only [revokeEnablement, insertRevocation, bind_assoc, ends_immediate, ends_refuse_bind,
    ends_require_bind, ends_write_bind]
  refine ⟨not_not.mpr revocable.digest, row, latest, ?_, ?_, not_not.mpr revocable.digest, ?_, ?_⟩
  · rintro ⟨id, named, differ⟩
    exact differ (expected id named)
  · rintro (unreadable | revoked | other)
    · exact revocable.readable unreadable
    · exact unrevoked revoked
    · exact other ⟨row, newest, rfl, notLater⟩
  · rintro ⟨old, member, taken⟩
    exact revocable.revocationId old member taken
  · rw [← bind_assoc]
    exact ends_bind.mpr ⟨_, last, finished, ends_pure.mpr ⟨rfl, rfl⟩⟩

/-! ## Runs -/

/-- A migrated database: no enablement, every chain off, and no fee policy with paid mints. -/
structure Migrated (store : Store) : Prop where
  enablements : ∀ chain, store.enablements chain = []
  revocations : store.revocations = []
  profileIds : (store.profiles.map ChainProfileRow.id).Nodup
  profileChains : (store.profiles.map ChainProfileRow.chainId).Nodup
  off : ∀ profile ∈ store.profiles, profile.executionEnabled = false
  policies : ∀ policy ∈ store.feePolicies, policy.paidMintsEnabled = false ∧ policy.Checked
  oneActive : ((store.feePolicies.filter FeePolicyVersion.active).map
    FeePolicyVersion.chainProfileId).Nodup

/-- The ids that an enablement brings are new. -/
def FreshIds (store : Store) : Call → Prop
  | .enableRobinhood record input =>
      (∀ old ∈ store.robinhoodEnablements, old.id ≠ record.id) ∧
        (∀ old ∈ store.baseEnablements, old.id ≠ record.id) ∧
        (∀ old ∈ store.verifications, old.id ≠ input.verificationId) ∧
        ∀ paid ∈ input.paidFeePolicy, ∀ old ∈ store.feePolicies, old.id ≠ paid.id
  | .enableBase record input =>
      (∀ old ∈ store.robinhoodEnablements, old.id ≠ record.id) ∧
        (∀ old ∈ store.baseEnablements, old.id ≠ record.id) ∧
        (∀ old ∈ store.verifications, old.id ≠ input.verificationId) ∧
        ∀ paid ∈ input.paidFeePolicy, ∀ old ∈ store.feePolicies, old.id ≠ paid.id
  | _ => True

instance (store : Store) (call : Call) : Decidable (FreshIds store call) := by
  cases call <;> unfold FreshIds <;> infer_instance

/-- The enablement does not take paid mints away: it allows them, or the active fee policy does
not. -/
def Widens (store : Store) : Call → Prop
  | .enableRobinhood record input =>
      record.paidAllowed = false →
        ∀ policy ∈ activeOf input.chainProfileId store.feePolicies, policy.paidMintsEnabled = false
  | .enableBase record input =>
      record.paid = false →
        ∀ policy ∈ activeOf input.chainProfileId store.feePolicies, policy.paidMintsEnabled = false
  | _ => True

instance (store : Store) (call : Call) : Decidable (Widens store call) := by
  cases call <;> unfold Widens <;> infer_instance

theorem revocable_iff {input : RevocationInput} :
    Revocable store chain input ↔
      IsDigest input.confirmationDigest ∧ julianday input.revokedAt ≠ none ∧
        (∀ old ∈ store.revocations, old.id ≠ input.id) ∧
        (∀ old ∈ store.audits, old.id ≠ "enablement-revoked:" ++ input.id) ∧
        (∀ policy ∈ store.feePolicies, ∀ old ∈ store.feePolicies,
          old.id ≠ policy.id ++ ":revoked:" ++ input.id) ∧
        ∀ profile ∈ store.profileOf chain, ∀ policy ∈ store.activeFeePolicy profile.id,
          ∀ old ∈ store.feePolicies, old.chainProfileId = profile.id →
            old.version ≠ policy.version ++ "-paid-revoked" := by
  constructor
  · rintro ⟨digest, readable, revocationId, auditId, policyId, version⟩
    exact ⟨digest, readable, revocationId, auditId, policyId, version⟩
  · rintro ⟨digest, readable, revocationId, auditId, policyId, version⟩
    exact ⟨digest, readable, revocationId, auditId, policyId, version⟩

instance (store : Store) (chain : EnablementChain) (input : RevocationInput) :
    Decidable (Revocable store chain input) :=
  decidable_of_iff' _ revocable_iff

/-- The revocation, if the call is one, can go through. -/
def RevocableCall (store : Store) : Call → Prop
  | .revokeEnablement chain input => Revocable store chain input
  | _ => True

instance (store : Store) (call : Call) : Decidable (RevocableCall store call) := by
  cases call <;> unfold RevocableCall <;> infer_instance

/-- A call under which the chains keep following the owner. -/
def Meets (store : Store) (call : Time × Call) : Prop :=
  FreshIds store call.2 ∧ Widens store call.2 ∧ RevocableCall store call.2

instance (store : Store) (call : Time × Call) : Decidable (Meets store call) := by
  unfold Meets
  infer_instance

/-- A revocation of the newest enablement succeeds, and a call that fails changes no table. -/
structure Answers (outside : Outside) (store : Store) (call : Time × Call) : Prop where
  revokes : ∀ chain input, call.2 = .revokeEnablement chain input →
    ∀ row ∈ store.newest chain, ¬ store.IsRevoked row.id → row.approvedAt ≤ input.revokedAt →
      (∀ id ∈ input.expectedEnablementId, id = row.id) →
        ∃ next, attempt (revokeEnablement chain input) store = (.ok row.id, next)
  undone : ∀ failure next, attempt (call.2.script outside call.1) store = (.error failure, next) →
    next = store

theorem Migrated.single (migrated : Migrated store) (profileId : String) :
    (activeOf profileId store.feePolicies).length ≤ 1 := by
  have once := List.nodup_iff_count_le_one.mp migrated.oneActive profileId
  rw [List.count, List.countP_map, List.countP_eq_length_filter, List.filter_filter] at once
  unfold activeOf
  convert once using 4
  rw [Bool.eq_iff_iff]
  simp [and_comm]

theorem Migrated.sound (migrated : Migrated store) : Sound store where
  profileIds := migrated.profileIds
  profileChains := migrated.profileChains
  apart chain row member := by
    rw [migrated.enablements] at member
    cases member
  single := migrated.single
  checked policy member := (migrated.policies policy member).2
  follows chain :=
    { switch := fun profile member _ on => nomatch (migrated.off profile member).symm.trans on
      paid := fun profile _ _ policy active paid =>
        nomatch (migrated.policies policy (mem_activeOf.mp active).1).1.symm.trans paid
      single := fun profile _ _ => migrated.single profile.id }

theorem fresh_enablements {id : String} (robinhood : ∀ old ∈ store.robinhoodEnablements, old.id ≠ id)
    (base : ∀ old ∈ store.baseEnablements, old.id ≠ id) (chain : EnablementChain) :
    ∀ old ∈ store.enablements chain, old.id ≠ id := by
  cases chain with
  | robinhood => exact robinhood
  | base =>
      intro old member
      obtain ⟨row, rowMember, rfl⟩ := List.mem_map.mp member
      exact base row rowMember

/-- One call under the condition keeps every chain with the owner. -/
theorem Sound.step (sound : Sound store) {call : Time × Call} (meets : Meets store call)
    (stepped : step outside call store = .ok next) : Sound next := by
  obtain ⟨now, call⟩ := call
  obtain ⟨fresh, widens, -⟩ := meets
  obtain rfl : (attempt (call.script outside now) store).2 = next := Except.ok.inj stepped
  rcases ran : attempt (call.script outside now) store with ⟨failure | result, next⟩
  · obtain rfl := undone_script call store failure next ran
    exact sound
  · have ended : Ends (call.script outside now) store result next := ran
    cases call with
    | enableRobinhood record input =>
        obtain ⟨profile, ofId, enables⟩ := enableRobinhood_effect ended
        refine sound.enables enables (fresh_enablements fresh.1 fresh.2.1) fun free => ?_
        rw [ofId]
        exact widens free
    | enableBase record input =>
        obtain ⟨profile, ofId, enables⟩ := enableBase_effect ended
        refine sound.enables enables (fresh_enablements fresh.1 fresh.2.1) fun free => ?_
        rw [ofId]
        exact widens free
    | revokeEnablement chain input =>
        obtain ⟨_, _, revoked, returned⟩ := ends_bind.mp ended
        obtain ⟨-, rfl⟩ := ends_pure.mp returned
        obtain ⟨row, revokes⟩ := revokeEnablement_effect sound revoked
        exact sound.revokes revokes
    | disableRobinhoodIfNotEnabled => exact sound.keeps (disableIfNotEnabled_effect ended)
    | disableBaseIfNotEnabled => exact sound.keeps (disableIfNotEnabled_effect ended)
    | createCampaign campaign => exact sound.keeps (createCampaign_effect ended)

/-- The switch and the fee policy of each chain follow the owner after every call. -/
def FollowsDecisions (outside : Outside) (guard : Store → Time × Call → Prop) : Prop :=
  ∀ start, Migrated start → ∀ calls, (calls.map Prod.fst).Pairwise (· ≤ ·) →
    Machine.Allowed (step outside) guard start calls →
      (∀ chain, FollowsOwner (Machine.applyAll (step outside) start calls) chain) ∧
        ∀ call, guard (Machine.applyAll (step outside) start calls) call →
          Answers outside (Machine.applyAll (step outside) start calls) call

/-- Over every run, at any instants, whose calls neither narrow an enablement nor revoke under a
name that is taken. -/
theorem enablement_follows_owner (outside : Outside) {start : Store} (migrated : Migrated start)
    {calls : List (Time × Call)} (meets : Machine.Allowed (step outside) Meets start calls) :
    (∀ chain, FollowsOwner (Machine.applyAll (step outside) start calls) chain) ∧
      ∀ call, Meets (Machine.applyAll (step outside) start calls) call →
        Answers outside (Machine.applyAll (step outside) start calls) call := by
  have run := (Machine.Reaches.refl start).applyAll meets
  have sound : Sound (Machine.applyAll (step outside) start calls) :=
    run.invariant migrated.sound fun _ _ _ sound meets stepped => sound.step meets stepped
  refine ⟨sound.follows, fun call meets => ⟨?_, undone_script call.2 _⟩⟩
  rintro chain input isRevocation row newest unrevoked notLater expected
  have revocable : RevocableCall _ call.2 := meets.2.2
  rw [isRevocation] at revocable
  exact revokeEnablement_runs sound revocable newest unrevoked notLater expected

/-! ## A run of the owner, and a renewal that narrows -/

def plainNames : Outside where
  toISOString at_ := toString at_
  secretLike _ := false
  contractId profileId address := "contract_" ++ profileId ++ address
  collectionId contractId := "collection_" ++ contractId
  dropId collectionId strategy mintPriceWei :=
    "drop_" ++ collectionId ++ strategy ++ toString mintPriceWei
  feePolicyId profileId sequence _ at_ :=
    "fee_" ++ profileId ++ toString sequence ++ toString at_
  feePolicyVersion profileId sequence _ at_ :=
    "backend-" ++ profileId ++ toString sequence ++ toString at_

/-- The two chains, neither verified. -/
def twoProfiles : Store where
  robinhoodEnablements := []
  baseEnablements := []
  revocations := []
  profiles :=
    [{ id := "rh", chainId := .robinhood, verificationStatus := .unverified,
       finalityPassed := false, verificationApprovedBy := none, verificationApprovedAt := none,
       executionEnabled := false },
     { id := "base", chainId := .base, verificationStatus := .unverified,
       finalityPassed := false, verificationApprovedBy := none, verificationApprovedAt := none,
       executionEnabled := false }]
  verifications := []
  feePolicies := []
  audits := []
  contracts := []
  collections := []
  drops := []
  campaigns := []

theorem migrated_twoProfiles : Migrated twoProfiles where
  enablements chain := by cases chain <;> rfl
  revocations := rfl
  profileIds := by decide
  profileChains := by decide
  off := by decide
  policies := by decide
  oneActive := by decide

def sampleDigest : String :=
  "aaaaaaaaaaaaaaaaaaaaaaaaaaaaaaaaaaaaaaaaaaaaaaaaaaaaaaaaaaaaaaaa"

def passed (steps : List String) : List (String × Bool) :=
  steps.map fun step => (step, true)

/-- The owner enables Robinhood. -/
def robinhoodCall (id : String) (paid : Bool) (at_ : Time) : Time × Call :=
  (at_, .enableRobinhood
    { id := id
      approvedAt := at_
      expiresAt := permanentEnablementExpiry
      evidence := passed (requiredSteps .robinhood paid)
      paidAllowed := paid
      confirmationDigest := sampleDigest
      strategyVersion := none }
    { chainProfileId := "rh"
      verificationId := "verification-" ++ id
      sequencerEndpointReference := "https://sequencer.mainnet.chain.robinhood.com"
      archiveEndpointReference := "Rets/MINT_BOT_SECRETS.env:ROBINHOOD_ARCHIVE_RPC"
      paidFeePolicy :=
        if paid then
          some { id := "fee-" ++ id, version := "robinhood-paid-d054-" ++ id,
                 maxTotalFeeWei := 370000000000000, freeCapWei := 200000000000000 }
        else none })

/-- The owner enables Base. -/
def baseCall (id : String) (paid : Bool) (at_ : Time) : Time × Call :=
  (at_, .enableBase
    { id := id
      approvedAt := at_
      expiresAt := permanentEnablementExpiry
      evidence := passed (requiredSteps .base paid)
      evidenceDigest := sampleDigest
      confirmationDigest := sampleDigest
      strategyVersion := "seadrop-v1-public"
      feePolicyVersion := "base-free-d057-v1"
      primaryEndpointReference := "BASE_RPC_URL"
      fallbackEndpointReference := "BASE_RPC_FBACK"
      custodyMode := "local-personal-live"
      paidAllowed := some paid }
    { chainProfileId := "base"
      verificationId := "verification-" ++ id
      paidFeePolicy :=
        if paid then
          some { id := "fee-" ++ id, version := "base-paid-d062-" ++ id,
                 maxTotalFeeWei := 200000000000000 }
        else none })

def revokeCall (chain : EnablementChain) (id : String) (at_ : Time) : Time × Call :=
  (at_, .revokeEnablement chain
    { id := id, revokedAt := at_, confirmationDigest := sampleDigest,
      expectedEnablementId := none })

def campaignCall (chain : EnablementChain) (id : String) (kind : MintClass) (at_ : Time) :
    Time × Call :=
  (at_, .createCampaign
    { id := id
      chain := chain
      contract := "0x00000000000000000000000000000000000000c0"
      strategy := "public"
      mintPriceWei := 0
      feePolicy :=
        { kind := kind
          configuredPriorityFeeWei := 1
          l2ExecutionGasBudgetWei := some 2
          l1DataGasBudgetWei := some 1
          totalFeeBudgetWei := some 4
          freeTotalSpendCapWei := some 4 }
      createdAt := at_ })

/-- Both chains are enabled, get campaigns, become paid, are revoked and enabled again. -/
def ownerCalls : List (Time × Call) :=
  [baseCall "b1" false 1000, campaignCall .base "c1" .free 2000, baseCall "b2" true 3000,
    robinhoodCall "r1" true 4000, campaignCall .robinhood "c2" .paid 5000,
    revokeCall .base "v1" 6000, baseCall "b3" false 7000, (8000, .disableBaseIfNotEnabled),
    revokeCall .robinhood "v2" 9000, (9000, .disableRobinhoodIfNotEnabled)]

theorem owner_run_follows :
    ((Machine.applyAll (step plainNames) twoProfiles ownerCalls).profiles.map fun profile =>
      (profile.id, profile.executionEnabled)) = [("rh", false), ("base", true)] ∧
    ∀ chain, FollowsOwner (Machine.applyAll (step plainNames) twoProfiles ownerCalls) chain :=
  ⟨by decide +kernel,
    (enablement_follows_owner plainNames migrated_twoProfiles (by decide +kernel)).1⟩

/-- An enablement with paid mints, and a renewal that is free only: the paid policy stays. -/
def narrowingCalls : List (Time × Call) :=
  [robinhoodCall "r1" true 1000, robinhoodCall "r2" false 2000]

theorem narrowed_renewal_keeps_paid :
    ¬ FollowsDecisions plainNames fun store call =>
      FreshIds store call.2 ∧ RevocableCall store call.2 := by
  intro follows
  obtain ⟨chains, -⟩ := follows twoProfiles migrated_twoProfiles narrowingCalls
    (by decide +kernel) (by decide +kernel)
  have paid := (chains .robinhood).paid
  revert paid
  unfold PermitsPaid
  decide +kernel

end MintBot.Enabling
