import MintBot.Enabling.Calls

/-!
# What a call does to the tables

Each call that succeeds does one of three things.  It enables a chain, it ends the newest
enablement of a chain, or it leaves the owner's rows as they are and at most switches a chain off
or gives it a first fee policy.  Everything else a call writes is not read by the switch or by the
paid mints.
-/

namespace MintBot.Enabling

open Script

variable {outside : Outside} {now : Time} {store next : Store} {chain : EnablementChain}
variable {profileId otherId : String} {paid : Bool} {before after : List FeePolicyVersion}
variable {result : PUnit}

/-! ## Active policies -/

theorem mem_activeOf {policy : FeePolicyVersion} :
    policy ∈ activeOf profileId before ↔
      policy ∈ before ∧ policy.active = true ∧ policy.chainProfileId = profileId := by
  simp [activeOf]

theorem activeOf_concat {row : FeePolicyVersion} :
    activeOf profileId (before ++ [row]) =
      activeOf profileId before ++
        if row.active = true ∧ row.chainProfileId = profileId then [row] else [] := by
  unfold activeOf
  rw [List.filter_append, List.filter_singleton]
  congr 1
  by_cases own : row.active = true ∧ row.chainProfileId = profileId <;> simp [own]

/-- The policies after `UPDATE fee_policy SET active = 0 WHERE id = ?`. -/
def deactivated (id : String) (policies : List FeePolicyVersion) : List FeePolicyVersion :=
  Table.update FeePolicyVersion.id id (fun row => { row with active := false }) policies

theorem activeOf_cons {row : FeePolicyVersion} :
    activeOf profileId (row :: before) =
      (if row.active = true ∧ row.chainProfileId = profileId then [row] else []) ++
        activeOf profileId before := by
  unfold activeOf
  rw [List.filter_cons]
  by_cases own : row.active = true ∧ row.chainProfileId = profileId <;> simp [own]

theorem activeOf_deactivated (id : String) :
    activeOf profileId (deactivated id before) =
      (activeOf profileId before).filter fun policy => policy.id ≠ id := by
  induction before with
  | nil => rfl
  | cons policy rest inductionHypothesis =>
      have unfolded : deactivated id (policy :: rest) =
          (if policy.id = id then { policy with active := false } else policy) ::
            deactivated id rest := rfl
      rw [unfolded, activeOf_cons, activeOf_cons, List.filter_append, inductionHypothesis]
      congr 1
      by_cases same : policy.id = id
      · by_cases own : policy.active = true ∧ policy.chainProfileId = profileId <;>
          simp [same, own]
      · by_cases own : policy.active = true ∧ policy.chainProfileId = profileId <;>
          simp [same, own]

/-- The profile has one active policy now, a new one, and no other profile got one. -/
structure Installed (profileId : String) (paid : Bool) (before after : List FeePolicyVersion) :
    Prop where
  own : ∃ row, activeOf profileId after = [row] ∧ row.paidMintsEnabled = paid
  others : ∀ otherId, otherId ≠ profileId →
    (activeOf otherId after).Sublist (activeOf otherId before)
  checked : (∀ policy ∈ before, policy.Checked) → ∀ policy ∈ after, policy.Checked

theorem mem_deactivated {id : String} {policy : FeePolicyVersion}
    (member : policy ∈ deactivated id before) :
    ∃ old ∈ before, policy = old ∨ policy = { old with active := false } := by
  rcases Table.mem_update.mp member with ⟨kept, -⟩ | ⟨old, oldMember, -, rfl⟩
  · exact ⟨policy, kept, .inl rfl⟩
  · exact ⟨old, oldMember, .inr rfl⟩

theorem installed_concat {row : FeePolicyVersion} (active : row.active = true)
    (checked : row.Checked) (none : activeOf row.chainProfileId before = []) :
    Installed row.chainProfileId row.paidMintsEnabled before (before ++ [row]) where
  own := by
    refine ⟨row, ?_, rfl⟩
    rw [activeOf_concat, none, if_pos ⟨active, rfl⟩]
    rfl
  others otherId differ := by
    rw [activeOf_concat, if_neg fun own => differ own.2.symm, List.append_nil]
  checked others policy member := by
    rcases List.mem_append.mp member with isOld | isNew
    · exact others policy isOld
    · rwa [List.mem_singleton.mp isNew]

theorem Installed.after_deactivated {id : String}
    (installed : Installed profileId paid (deactivated id before) after) :
    Installed profileId paid before after where
  own := installed.own
  others otherId differ := by
    refine (installed.others otherId differ).trans ?_
    rw [activeOf_deactivated]
    exact List.filter_sublist
  checked all := by
    refine installed.checked fun policy member => ?_
    obtain ⟨old, oldMember, rfl | rfl⟩ := mem_deactivated member
    · exact all _ oldMember
    · exact all old oldMember

/-- With at most one active policy a profile, the one that a query reads is the only one. -/
theorem activeOf_eq_of_activeFeePolicy {policy : FeePolicyVersion}
    (single : (activeOf profileId store.feePolicies).length ≤ 1)
    (found : store.activeFeePolicy profileId = some policy) :
    activeOf profileId store.feePolicies = [policy] := by
  unfold Store.activeFeePolicy at found
  match active : activeOf profileId store.feePolicies with
  | [] => simp [active] at found
  | [only] => simpa [active] using found
  | _ :: _ :: _ => simp [active] at single

theorem ends_insertFeePolicy {row : FeePolicyVersion} (active : row.active = true)
    (ended : Ends (insertFeePolicy row) store result next) :
    next = { store with feePolicies := next.feePolicies } ∧
      Installed row.chainProfileId row.paidMintsEnabled store.feePolicies next.feePolicies := by
  simp only [insertFeePolicy, ends_refuse_bind, ends_write] at ended
  obtain ⟨checked, -, -, free, rfl⟩ := ended
  refine ⟨rfl, installed_concat active (not_not.mp checked) ?_⟩
  by_contra taken
  exact free ⟨active, taken⟩

/-- The active policy of a profile is replaced, when there is one. -/
theorem ends_replaceFeePolicy {row : FeePolicyVersion} {id : String} (active : row.active = true)
    (ended : Ends (do deactivateFeePolicy id; insertFeePolicy row) store result next) :
    next = { store with feePolicies := next.feePolicies } ∧
      Installed row.chainProfileId row.paidMintsEnabled store.feePolicies next.feePolicies := by
  simp only [deactivateFeePolicy, ends_write_bind] at ended
  obtain ⟨written, installed⟩ := ends_insertFeePolicy active ended
  exact ⟨written, installed.after_deactivated⟩

/-! ## Profiles -/

/-- Of one profile at most, its verification and its switch were rewritten. -/
def ProfileRewritten (profileId : String) (enabled : Bool) (before after : List ChainProfileRow) :
    Prop :=
  ∃ change : ChainProfileRow → ChainProfileRow,
    (∀ row, (change row).id = row.id ∧ (change row).chainId = row.chainId ∧
      (change row).executionEnabled = enabled) ∧
    after = Table.update ChainProfileRow.id profileId change before

theorem ProfileRewritten.ids {enabled : Bool} {profiles rewritten : List ChainProfileRow}
    (update : ProfileRewritten profileId enabled profiles rewritten) :
    rewritten.map ChainProfileRow.id = profiles.map ChainProfileRow.id ∧
      rewritten.map ChainProfileRow.chainId = profiles.map ChainProfileRow.chainId := by
  obtain ⟨change, keeps, rfl⟩ := update
  constructor
  · exact Table.map_key_update _ _ _ (fun row _ => (keeps row).1) _
  · unfold Table.update
    rw [List.map_map]
    refine List.map_congr_left fun row _ => ?_
    by_cases own : row.id = profileId
    · simp [own, (keeps row).2.1]
    · simp [own]

/-- A rewritten profile comes from an old one, and only the one of the id was switched. -/
theorem ProfileRewritten.mem {enabled : Bool} {profiles rewritten : List ChainProfileRow}
    (update : ProfileRewritten profileId enabled profiles rewritten) {row : ChainProfileRow}
    (member : row ∈ rewritten) :
    ∃ old ∈ profiles, old.id = row.id ∧ old.chainId = row.chainId ∧
      row.executionEnabled = if row.id = profileId then enabled else old.executionEnabled := by
  obtain ⟨change, keeps, rfl⟩ := update
  rcases Table.mem_update.mp member with ⟨kept, other⟩ | ⟨old, oldMember, own, rfl⟩
  · exact ⟨row, kept, rfl, rfl, by rw [if_neg other]⟩
  · obtain ⟨sameId, sameChain, switched⟩ := keeps old
    refine ⟨old, oldMember, sameId.symm, sameChain.symm, ?_⟩
    rw [switched, if_pos (sameId.trans own)]

/-! ## Enabling -/

/-- What an enablement of a chain does. -/
structure Enables (chain : EnablementChain) (row : EnablementRow) (profile : ChainProfileRow)
    (store next : Store) : Prop where
  appended : next.enablements chain = store.enablements chain ++ [row]
  others : ∀ other, other ≠ chain → next.enablements other = store.enablements other
  revocations : next.revocations = store.revocations
  unrevoked : ¬ store.IsRevoked row.id
  member : profile ∈ store.profiles
  ofChain : profile.chainId = chain.chainId
  profiles : ProfileRewritten profile.id true store.profiles next.profiles
  policies :
    row.paidAllowed = true ∧ Installed profile.id true store.feePolicies next.feePolicies ∨
      row.paidAllowed = false ∧ next.feePolicies = store.feePolicies

/-- A verification of a chain that may run switches its profile on, and writes nothing else that
is read here. -/
theorem ends_recordChainVerification {record : VerificationRow}
    (verified : record.status = .verified) (enabled : record.executionEnabled = some true)
    (ended : Ends (recordChainVerification outside now record) store result next) :
    ∃ profile ∈ store.profiles, profile.id = record.chainProfileId ∧
      profile.chainId = record.chainId ∧ MayRun now record.chainId record.approvedAt store ∧
      ProfileRewritten profile.id true store.profiles next.profiles ∧
      next = { store with
        verifications := next.verifications, profiles := next.profiles, audits := next.audits } := by
  simp only [recordChainVerification, safeText, insertVerification, updateProfile, insertAudit,
    bind_assoc, ends_require_bind, ends_immediate, ends_refuse_bind, ends_write_bind,
    ends_write] at ended
  obtain ⟨profile, found, sameChain, -, -, -, -, -, -, -, -, -, -, mayRun, -, -, -, -, -, rfl⟩ := ended
  obtain ⟨member, ofId⟩ := Table.lookup_eq_some found
  have sameChain : profile.chainId = record.chainId := not_not.mp sameChain
  refine ⟨profile, member, ofId, sameChain, ?_, ?_, rfl⟩
  · rw [← sameChain]
    by_contra mayNot
    exact mayRun ⟨verified, mayNot⟩
  · rw [ofId]
    refine ⟨_, ?_, rfl⟩
    exact fun row => ⟨rfl, rfl, by simp [enabled]⟩

/-- A chain whose newest enablement covers an approval has an enablement that is not revoked. -/
theorem Covers.unrevoked {approvedAt : Option Time} {row : EnablementRow}
    (newest : store.newest chain = some row) (covers : Covers now chain approvedAt store) :
    ¬ store.IsRevoked row.id := by
  obtain ⟨other, found, -, -, -, -, -, -, -, unrevoked⟩ := covers
  rw [newest] at found
  obtain rfl := Option.some.inj found
  exact unrevoked

/-- An enablement row was appended, and nothing else that is read here was written. -/
structure Appended (chain : EnablementChain) (row : EnablementRow) (store next : Store) : Prop where
  own : next.enablements chain = store.enablements chain ++ [row]
  others : ∀ other, other ≠ chain → next.enablements other = store.enablements other
  revocations : next.revocations = store.revocations
  profiles : next.profiles = store.profiles
  feePolicies : next.feePolicies = store.feePolicies

theorem appended_robinhood (row : EnablementRow) :
    Appended .robinhood row store
      { store with robinhoodEnablements := store.robinhoodEnablements ++ [row] } where
  own := rfl
  others other differ := by
    cases other with
    | base => rfl
    | robinhood => exact absurd rfl differ
  revocations := rfl
  profiles := rfl
  feePolicies := rfl

theorem appended_base (row : BaseEnablementRow) :
    Appended .base row.toEnablementRow store
      { store with baseEnablements := store.baseEnablements ++ [row] } where
  own := by simp [Store.enablements]
  others other differ := by
    cases other with
    | base => exact absurd rfl differ
    | robinhood => rfl
  revocations := rfl
  profiles := rfl
  feePolicies := rfl

/-- The verification of a new enablement switches its chain on; the policies are left to the paid
mints. -/
theorem Appended.enables {row : EnablementRow} {opened verified : Store} {record : VerificationRow}
    (appended : Appended chain row store opened) (sameChain : record.chainId = chain.chainId)
    (isVerified : record.status = .verified) (enabled : record.executionEnabled = some true)
    (recorded : Ends (recordChainVerification outside now record) opened result verified) :
    verified.feePolicies = store.feePolicies ∧
      ∃ profile, profile.id = record.chainProfileId ∧ ∀ policies,
        (row.paidAllowed = true ∧ Installed profile.id true store.feePolicies policies ∨
          row.paidAllowed = false ∧ policies = store.feePolicies) →
        Enables chain row profile store { verified with feePolicies := policies } := by
  obtain ⟨profile, member, ofId, ofChain, mayRun, profiles, kept⟩ :=
    ends_recordChainVerification isVerified enabled recorded
  have covers : Covers now chain record.approvedAt opened := by
    rw [sameChain] at mayRun
    cases chain <;> exact mayRun
  have unrevoked : ¬ opened.IsRevoked row.id := by
    apply covers.unrevoked
    unfold Store.newest
    rw [appended.own, List.getLast?_concat]
  have samePolicies : verified.feePolicies = opened.feePolicies := by
    rw [kept]
  refine ⟨samePolicies.trans appended.feePolicies, profile, ofId, fun policies policy => ?_⟩
  rw [kept]
  exact
    { appended := appended.own
      others := appended.others
      revocations := appended.revocations
      unrevoked := by
        unfold Store.IsRevoked at unrevoked ⊢
        rwa [appended.revocations] at unrevoked
      member := appended.profiles ▸ member
      ofChain := ofChain.trans sameChain
      profiles := by rwa [appended.profiles] at profiles
      policies := policy }

theorem enableRobinhood_effect {record : RobinhoodEnablementInput} {input : RobinhoodChainInput}
    (ended : Ends (enableRobinhood outside now record input) store result next) :
    ∃ profile, profile.id = input.chainProfileId ∧
      Enables .robinhood record.row profile store next := by
  simp only [enableRobinhood, insertRobinhoodEnablement, bind_assoc, ends_immediate,
    ends_refuse_bind, ends_write_bind] at ended
  obtain ⟨-, -, -, named, -, -, -, -, ended⟩ := ended
  rw [ends_bind] at ended
  obtain ⟨_, verified, recorded, ended⟩ := ended
  obtain ⟨same, profile, ofId, enables⟩ :=
    (appended_robinhood record.row).enables rfl rfl rfl recorded
  have ofId : profile.id = input.chainProfileId := ofId
  refine ⟨profile, ofId, ?_⟩
  rw [ends_onlyIf] at ended
  rcases ended with ⟨paid, ended⟩ | ⟨free, rfl⟩
  · rw [ends_forSome] at ended
    rcases ended with ⟨policy, _, ended⟩ | ⟨missing, _⟩
    · rw [ends_read_bind, ends_bind] at ended
      obtain ⟨_, off, deactivation, insertion⟩ := ended
      have installed : next = { verified with feePolicies := next.feePolicies } ∧
          Installed input.chainProfileId true verified.feePolicies next.feePolicies := by
        rw [ends_forSome] at deactivation
        rcases deactivation with ⟨current, _, deactivation⟩ | ⟨_, rfl⟩
        · exact ends_replaceFeePolicy rfl (ends_bind.mpr ⟨_, _, deactivation, insertion⟩)
        · exact ends_insertFeePolicy rfl insertion
      obtain ⟨last, installed⟩ := installed
      rw [same, ← ofId] at installed
      rw [last]
      exact enables _ (.inl ⟨paid, installed⟩)
    · exact absurd ⟨paid, missing⟩ named
  · exact enables _ (.inr ⟨Bool.eq_false_iff.mpr free, same⟩)

theorem enableBase_effect {record : BaseEnablementInput} {input : BaseChainInput}
    (ended : Ends (enableBase outside now record input) store result next) :
    ∃ profile, profile.id = input.chainProfileId ∧
      Enables .base record.row.toEnablementRow profile store next := by
  simp only [enableBase, insertBaseEnablement, bind_assoc, ends_immediate, ends_refuse_bind,
    ends_write_bind] at ended
  obtain ⟨-, named, -, -, -, -, -, -, ended⟩ := ended
  rw [ends_bind] at ended
  obtain ⟨_, verified, recorded, ended⟩ := ended
  obtain ⟨same, profile, ofId, enables⟩ := (appended_base record.row).enables rfl rfl rfl recorded
  have ofId : profile.id = input.chainProfileId := ofId
  refine ⟨profile, ofId, ?_⟩
  rw [ends_onlyIf] at ended
  rcases ended with ⟨paid, ended⟩ | ⟨free, rfl⟩
  · rw [ends_forSome] at ended
    rcases ended with ⟨policy, _, ended⟩ | ⟨missing, _⟩
    · rw [ends_require_bind] at ended
      obtain ⟨current, _, replaced⟩ := ended
      obtain ⟨last, installed⟩ := ends_replaceFeePolicy rfl replaced
      have installed : Installed input.chainProfileId true verified.feePolicies next.feePolicies :=
        installed
      rw [same, ← ofId] at installed
      rw [last]
      exact enables _ (.inl ⟨paid, installed⟩)
    · exact absurd ⟨paid, missing⟩ named
  · exact enables _ (.inr ⟨Bool.eq_false_iff.mpr free, same⟩)

/-! ## Calls that leave the owner's rows -/

/-- What a call does that neither enables a chain nor revokes. -/
structure Keeps (store next : Store) : Prop where
  enablements : ∀ chain, next.enablements chain = store.enablements chain
  revocations : next.revocations = store.revocations
  profiles : next.profiles = store.profiles ∨
    ∃ profileId, ProfileRewritten profileId false store.profiles next.profiles
  policies : next.feePolicies = store.feePolicies ∨
    ∃ chain, ∃ profile ∈ store.profiles, profile.chainId = chain.chainId ∧
      ∃ paid, Installed profile.id paid store.feePolicies next.feePolicies ∧
        (paid = true → ∃ row ∈ store.newest chain,
          ¬ store.IsRevoked row.id ∧ row.paidAllowed = true)

theorem Keeps.refl (store : Store) : Keeps store store :=
  ⟨fun _ => rfl, rfl, .inl rfl, .inl rfl⟩

/-- Switching a profile off, and its audit event. -/
theorem ends_switchOff {row : AuditRow}
    (ended : Ends (do switchOff profileId; insertAudit row) store result next) :
    ProfileRewritten profileId false store.profiles next.profiles ∧
      next = { store with profiles := next.profiles, audits := next.audits } := by
  simp only [switchOff, insertAudit, ends_write_bind, ends_refuse_bind, ends_write] at ended
  obtain ⟨-, -, rfl⟩ := ended
  refine ⟨⟨_, ?_, rfl⟩, rfl⟩
  exact fun _ => ⟨rfl, rfl, rfl⟩

theorem disableIfNotEnabled_effect {auditName reason : String}
    (ended : Ends (disableIfNotEnabled chain auditName reason outside now) store result next) :
    Keeps store next := by
  simp only [disableIfNotEnabled, ends_immediate, ends_read_bind] at ended
  rw [ends_forSome] at ended
  rcases ended with ⟨profile, _, ended⟩ | ⟨_, rfl⟩
  · rw [ends_onlyIf] at ended
    rcases ended with ⟨_, off⟩ | ⟨_, rfl⟩
    · obtain ⟨rewritten, kept⟩ := ends_switchOff off
      rw [kept]
      exact ⟨fun other => by cases other <;> rfl, rfl, .inr ⟨_, rewritten⟩, .inl rfl⟩
    · exact Keeps.refl _
  · exact Keeps.refl _

/-- The rows of the campaign's graph are not read here. -/
theorem ends_ensureContract {contract id : String}
    (ended : Ends (ensureContract outside profileId contract) store id next) :
    next = { store with contracts := next.contracts } := by
  simp only [ensureContract, ends_read_bind] at ended
  rw [ends_bind] at ended
  obtain ⟨_, middle, written, returned⟩ := ended
  obtain ⟨-, rfl⟩ := ends_pure.mp returned
  simp only [ends_onlyIf, ends_refuse_bind, ends_write] at written
  rcases written with ⟨-, -, rfl⟩ | ⟨-, rfl⟩ <;> rfl

theorem ends_ensureCollection {contractId strategy id : String}
    (ended : Ends (ensureCollection outside contractId strategy) store id next) :
    next = { store with collections := next.collections } := by
  simp only [ensureCollection, ends_read_bind] at ended
  rw [ends_bind] at ended
  obtain ⟨_, middle, written, returned⟩ := ended
  obtain ⟨-, rfl⟩ := ends_pure.mp returned
  simp only [ends_onlyIf, ends_refuse_bind, ends_write] at written
  rcases written with ⟨-, -, rfl⟩ | ⟨-, rfl⟩ <;> rfl

theorem ends_ensureDrop {collectionId strategy id : String} {mintPriceWei : Wei}
    (ended : Ends (ensureDrop outside collectionId strategy mintPriceWei) store id next) :
    next = { store with drops := next.drops } := by
  simp only [ensureDrop, ends_read_bind] at ended
  rw [ends_bind] at ended
  obtain ⟨_, middle, written, returned⟩ := ended
  obtain ⟨-, rfl⟩ := ends_pure.mp returned
  simp only [ends_onlyIf, ends_refuse_bind, ends_write] at written
  rcases written with ⟨-, -, rfl⟩ | ⟨-, rfl⟩ <;> rfl

theorem mem_latest {row : EnablementRow} :
    row ∈ store.latest chain ↔ row ∈ store.newest chain ∧ ¬ store.IsRevoked row.id := by
  unfold Store.latest
  cases store.newest chain with
  | none => simp
  | some newest => simp [Option.filter_eq_some_iff]

/-- A row of Base that is not revoked, in the columns that both tables have. -/
theorem latestBaseEnablement_latest {row : BaseEnablementRow}
    (found : row ∈ store.latestBaseEnablement) : row.toEnablementRow ∈ store.latest .base := by
  obtain ⟨newest, unrevoked⟩ := Option.filter_eq_some_iff.mp found
  refine mem_latest.mpr ⟨?_, by simpa using unrevoked⟩
  change (store.baseEnablements.map BaseEnablementRow.toEnablementRow).getLast? = _
  rw [List.getLast?_map, newest]
  rfl

/-- A first policy that allows paid mints is only brought under an enablement that does. -/
theorem ends_ensureFeePolicy {policy : FeePolicy}
    (ended : Ends (ensureFeePolicy outside now profileId policy chain) store result next) :
    next = { store with feePolicies := next.feePolicies } ∧
      (next.feePolicies = store.feePolicies ∨
        ∃ paid, Installed profileId paid store.feePolicies next.feePolicies ∧
          (paid = true → ∃ row ∈ store.latest chain, row.paidAllowed = true)) := by
  rw [ensureFeePolicy, ends_bind] at ended
  obtain ⟨_, checked, robinhood, ended⟩ := ended
  rw [ends_bind] at ended
  obtain ⟨_, judged, base, ended⟩ := ended
  have robinhoodPaid : checked = store ∧ (policy.kind = .paid → chain = .robinhood →
      ∃ row ∈ store.latest chain, row.paidAllowed = true) := by
    simp only [ends_onlyIf, assertRobinhoodLiveAllowed, ends_refuse_bind, ends_refuse] at robinhood
    rcases robinhood with ⟨⟨paid, rfl⟩, -, allowed, rfl⟩ | ⟨other, rfl⟩
    · exact ⟨rfl, fun _ _ => by simpa using allowed⟩
    · exact ⟨rfl, fun paid isRobinhood => absurd ⟨paid, isRobinhood⟩ other⟩
  obtain ⟨rfl, robinhoodPaid⟩ := robinhoodPaid
  have basePaid : judged = checked ∧ (policy.kind = .paid → chain = .base →
      ∃ row ∈ checked.latest chain, row.paidAllowed = true) := by
    simp only [ends_onlyIf, assertBaseLiveAllowed, ends_refuse, not_not] at base
    rcases base with ⟨rfl, ⟨row, found, -, allowed⟩, rfl⟩ | ⟨other, rfl⟩
    · exact ⟨rfl, fun paid _ => ⟨_, latestBaseEnablement_latest found, allowed paid⟩⟩
    · exact ⟨rfl, fun _ isBase => absurd isBase other⟩
  obtain ⟨rfl, basePaid⟩ := basePaid
  rw [ends_read_bind, ends_bind] at ended
  obtain ⟨_, same, checkedPolicy, ended⟩ := ended
  have unchanged : same = judged := by
    simp only [ends_forSome, ends_refuse] at checkedPolicy
    rcases checkedPolicy with ⟨_, _, _, same⟩ | ⟨_, same⟩ <;> exact same
  subst unchanged
  simp only [ends_onlyIf, ends_read_bind] at ended
  rcases ended with ⟨_, inserted⟩ | ⟨_, rfl⟩
  · obtain ⟨written, installed⟩ := ends_insertFeePolicy rfl inserted
    refine ⟨written, .inr ⟨_, installed, fun paid => ?_⟩⟩
    have paid : policy.kind = .paid := of_decide_eq_true paid
    cases chain with
    | robinhood => exact robinhoodPaid paid rfl
    | base => exact basePaid paid rfl
  · exact ⟨rfl, .inl rfl⟩

theorem createCampaign_effect {campaign : NewCampaign}
    (ended : Ends (createCampaign outside now campaign) store result next) : Keeps store next := by
  simp only [createCampaign, ensureCampaignGraph, bind_assoc, pure_bind, ends_immediate,
    ends_require_bind] at ended
  obtain ⟨profile, found, ended⟩ := ended
  obtain ⟨member, ofChain⟩ := Table.lookup_eq_some found
  rw [ends_bind] at ended
  obtain ⟨_, contracted, contract, ended⟩ := ended
  rw [ends_bind] at ended
  obtain ⟨_, collected, collection, ended⟩ := ended
  rw [ends_bind] at ended
  obtain ⟨_, dropped, drop, ended⟩ := ended
  rw [ends_bind] at ended
  obtain ⟨_, priced, policy, ended⟩ := ended
  simp only [ends_refuse_bind, ends_write] at ended
  obtain ⟨-, rfl⟩ := ended
  have graph : dropped = { store with
      contracts := dropped.contracts, collections := dropped.collections, drops := dropped.drops } := by
    rw [ends_ensureDrop drop, ends_ensureCollection collection, ends_ensureContract contract]
  rw [graph] at policy
  obtain ⟨written, installed⟩ := ends_ensureFeePolicy policy
  rw [written]
  refine ⟨fun other => by cases other <;> rfl, rfl, .inl rfl, ?_⟩
  refine installed.imp id ?_
  rintro ⟨paid, installed, allowed⟩
  refine ⟨campaign.chain, profile, member, ofChain, paid, installed, fun isPaid => ?_⟩
  obtain ⟨row, latest, rowPaid⟩ := allowed isPaid
  have latest : row ∈ store.latest campaign.chain := latest
  obtain ⟨newest, unrevoked⟩ := mem_latest.mp latest
  exact ⟨row, newest, unrevoked, rowPaid⟩

end MintBot.Enabling
