import MintBot.Enabling.Effects

/-!
# The switch and the fee policy follow the owner

What the owner decided last about a chain is its newest enablement, unless that is revoked.  The
switch of the chain is on only under such an enablement, and its fee policy allows paid mints only
under one that does.  The latter fails in one way: an enablement that is free only, over one that
allowed paid mints, leaves the paid policy active.
-/

namespace MintBot.Enabling

open Script

variable {outside : Outside} {store next : Store} {chain : EnablementChain}
variable {row : EnablementRow} {result : PUnit}

/-! ## Following the owner -/

/-- The newest enablement of the chain is not revoked. -/
def Permits (store : Store) (chain : EnablementChain) : Prop :=
  ∃ row ∈ store.newest chain, ¬ store.IsRevoked row.id

/-- And it allows paid mints. -/
def PermitsPaid (store : Store) (chain : EnablementChain) : Prop :=
  ∃ row ∈ store.newest chain, ¬ store.IsRevoked row.id ∧ row.paidAllowed = true

/-- The switch and the fee policy of a chain follow the owner's latest decision. -/
structure FollowsOwner (store : Store) (chain : EnablementChain) : Prop where
  switch : ∀ profile ∈ store.profiles, profile.chainId = chain.chainId →
    profile.executionEnabled = true → Permits store chain
  paid : ∀ profile ∈ store.profiles, profile.chainId = chain.chainId →
    ∀ policy ∈ activeOf profile.id store.feePolicies, policy.paidMintsEnabled = true →
      PermitsPaid store chain
  single : ∀ profile ∈ store.profiles, profile.chainId = chain.chainId →
    (activeOf profile.id store.feePolicies).length ≤ 1

/-- A store in which every chain follows the owner, with what keeps it so: the keys of the
profiles, no id in both enablement tables, and the constraints of the policies. -/
structure Sound (store : Store) : Prop where
  profileIds : (store.profiles.map ChainProfileRow.id).Nodup
  profileChains : (store.profiles.map ChainProfileRow.chainId).Nodup
  apart : ∀ chain, ∀ row ∈ store.enablements chain, ∀ other, other ≠ chain →
    ∀ old ∈ store.enablements other, old.id ≠ row.id
  single : ∀ profileId, (activeOf profileId store.feePolicies).length ≤ 1
  checked : ∀ policy ∈ store.feePolicies, policy.Checked
  follows : ∀ chain, FollowsOwner store chain

theorem Sound.profileOf (sound : Sound store) {profile : ChainProfileRow}
    (member : profile ∈ store.profiles) (ofChain : profile.chainId = chain.chainId) :
    store.profileOf chain = some profile := by
  unfold Store.profileOf
  rw [← ofChain]
  exact Table.lookup_of_mem sound.profileChains member

theorem Sound.sameProfile (sound : Sound store) {profile other : ChainProfileRow}
    (member : profile ∈ store.profiles) (otherMember : other ∈ store.profiles)
    (same : profile.id = other.id) : profile = other := by
  have found := Table.lookup_of_mem sound.profileIds member
  rw [same, Table.lookup_of_mem sound.profileIds otherMember] at found
  exact (Option.some.inj found).symm

/-! ## Rows that did not change -/

theorem permits_of_same (newest : next.newest chain = store.newest chain)
    (kept : ∀ row ∈ store.newest chain, ¬ store.IsRevoked row.id → ¬ next.IsRevoked row.id) :
    (Permits store chain → Permits next chain) ∧
      (PermitsPaid store chain → PermitsPaid next chain) := by
  constructor
  · rintro ⟨row, found, unrevoked⟩
    exact ⟨row, newest ▸ found, kept row found unrevoked⟩
  · rintro ⟨row, found, unrevoked, paid⟩
    exact ⟨row, newest ▸ found, kept row found unrevoked, paid⟩

theorem newest_of_enablements (same : next.enablements chain = store.enablements chain) :
    next.newest chain = store.newest chain := by
  unfold Store.newest
  rw [same]

theorem isRevoked_of_revocations {id : String} (same : next.revocations = store.revocations) :
    next.IsRevoked id ↔ store.IsRevoked id := by
  unfold Store.IsRevoked
  rw [same]

theorem newest_mem (found : row ∈ store.newest chain) : row ∈ store.enablements chain :=
  List.mem_of_getLast? found

/-! ## Profiles and policies that changed -/

/-- The profiles of a step: each is an old one under its keys, on only when it was or when it is
the one that the step enabled. -/
def ProfilesFrom (enabled : ChainProfileRow → Prop) (store next : Store) : Prop :=
  ∀ profile ∈ next.profiles, ∃ old ∈ store.profiles, old.id = profile.id ∧
    old.chainId = profile.chainId ∧
    (profile.executionEnabled = true → old.executionEnabled = true ∨ enabled old)

theorem profilesFrom_rewritten {profileId : String} {enabled : Bool}
    (rewritten : ProfileRewritten profileId enabled store.profiles next.profiles) :
    ProfilesFrom (fun old => enabled = true ∧ old.id = profileId) store next := by
  intro profile member
  obtain ⟨old, oldMember, sameId, sameChain, switched⟩ := rewritten.mem member
  refine ⟨old, oldMember, sameId, sameChain, fun on => ?_⟩
  rw [switched] at on
  split at on
  · rename_i own
    exact .inr ⟨on, sameId.trans own⟩
  · exact .inl on

/-- The active policies of a profile after a step are those before it, or the one installed. -/
theorem Installed.single {profileId : String} {paid : Bool} {before after : List FeePolicyVersion}
    (installed : Installed profileId paid before after)
    (single : ∀ profileId, (activeOf profileId before).length ≤ 1) (otherId : String) :
    (activeOf otherId after).length ≤ 1 := by
  by_cases own : otherId = profileId
  · obtain ⟨row, only, -⟩ := installed.own
    rw [own, only]
    rfl
  · exact (installed.others otherId own).length_le.trans (single otherId)

theorem Installed.policy {profileId otherId : String} {paid : Bool}
    {before after : List FeePolicyVersion} {policy : FeePolicyVersion}
    (installed : Installed profileId paid before after) (member : policy ∈ activeOf otherId after) :
    otherId = profileId ∧ policy.paidMintsEnabled = paid ∨
      otherId ≠ profileId ∧ policy ∈ activeOf otherId before := by
  by_cases own : otherId = profileId
  · obtain ⟨row, only, isPaid⟩ := installed.own
    rw [own, only, List.mem_singleton] at member
    exact .inl ⟨own, member ▸ isPaid⟩
  · exact .inr ⟨own, (installed.others otherId own).subset member⟩

/-! ## What each kind of step keeps -/

theorem Sound.keeps (sound : Sound store) (keeps : Keeps store next) : Sound next := by
  have permits := fun chain => permits_of_same (newest_of_enablements (keeps.enablements chain))
    fun row _ unrevoked => (isRevoked_of_revocations keeps.revocations).not.mpr unrevoked
  have keys : next.profiles.map ChainProfileRow.id = store.profiles.map ChainProfileRow.id ∧
      next.profiles.map ChainProfileRow.chainId = store.profiles.map ChainProfileRow.chainId := by
    rcases keeps.profiles with same | ⟨_, rewritten⟩
    · rw [same]
      exact ⟨rfl, rfl⟩
    · exact rewritten.ids
  have profiles : ProfilesFrom (fun _ => False) store next := by
    rcases keeps.profiles with same | ⟨_, rewritten⟩
    · intro profile member
      exact ⟨profile, same ▸ member, rfl, rfl, .inl⟩
    · intro profile member
      obtain ⟨old, oldMember, sameId, sameChain, on⟩ := profilesFrom_rewritten rewritten profile member
      exact ⟨old, oldMember, sameId, sameChain, fun isOn => (on isOn).imp id (by simp)⟩
  have single : ∀ profileId, (activeOf profileId next.feePolicies).length ≤ 1 := by
    rcases keeps.policies with same | ⟨_, _, _, _, _, installed, _⟩
    · rw [same]
      exact sound.single
    · exact installed.single sound.single
  exact
    { profileIds := keys.1 ▸ sound.profileIds
      profileChains := keys.2 ▸ sound.profileChains
      apart := by
        intro chain row member other differ old oldMember
        rw [keeps.enablements] at member oldMember
        exact sound.apart chain row member other differ old oldMember
      single := single
      checked := by
        rcases keeps.policies with same | ⟨_, _, _, _, _, installed, _⟩
        · exact same ▸ sound.checked
        · exact installed.checked sound.checked
      follows := fun chain =>
        { switch := by
            intro profile member ofChain on
            obtain ⟨old, oldMember, -, sameChain, wasOn⟩ := profiles profile member
            exact (permits chain).1 ((sound.follows chain).switch old oldMember
              (sameChain.trans ofChain) ((wasOn on).elim id False.elim))
          paid := by
            intro profile member ofChain policy active isPaid
            obtain ⟨old, oldMember, sameId, sameChain, -⟩ := profiles profile member
            have before : policy ∈ activeOf profile.id store.feePolicies →
                PermitsPaid next chain := fun active =>
              (permits chain).2 ((sound.follows chain).paid old oldMember
                (sameChain.trans ofChain) policy (sameId ▸ active) isPaid)
            rcases keeps.policies with same | ⟨owner, brought, broughtMember, ofOwner, paid,
              installed, allowed⟩
            · exact before (same ▸ active)
            · rcases installed.policy active with ⟨own, ofKind⟩ | ⟨-, active⟩
              · have sameProfile := sound.sameProfile oldMember broughtMember (sameId.trans own)
                have sameOwner : owner.chainId = chain.chainId := by
                  rw [← ofOwner, ← sameProfile, sameChain, ofChain]
                have sameOwner : owner = chain := by
                  cases owner <;> cases chain <;> first | rfl | cases sameOwner
                exact (permits chain).2 (sameOwner ▸ allowed (ofKind.symm.trans isPaid))
              · exact before active
          single := fun profile _ _ => single profile.id } }

theorem sameChain_iff {other : EnablementChain} : other.chainId = chain.chainId ↔ other = chain := by
  cases other <;> cases chain <;> simp [EnablementChain.chainId]

theorem Enables.newest {profile : ChainProfileRow} (enables : Enables chain row profile store next) :
    next.newest chain = some row := by
  unfold Store.newest
  rw [enables.appended, List.getLast?_concat]

theorem Enables.permits {profile : ChainProfileRow}
    (enables : Enables chain row profile store next) :
    Permits next chain ∧ (row.paidAllowed = true → PermitsPaid next chain) := by
  have unrevoked : ¬ next.IsRevoked row.id :=
    (isRevoked_of_revocations enables.revocations).not.mpr enables.unrevoked
  exact ⟨⟨row, enables.newest, unrevoked⟩, fun paid => ⟨row, enables.newest, unrevoked, paid⟩⟩

/-- An enablement with a new id keeps every chain with the owner, unless it takes paid mints away
from a chain whose active policy allows them. -/
theorem Sound.enables (sound : Sound store) {profile : ChainProfileRow}
    (enables : Enables chain row profile store next)
    (fresh : ∀ other, ∀ old ∈ store.enablements other, old.id ≠ row.id)
    (notNarrowed : row.paidAllowed = false →
      ∀ policy ∈ activeOf profile.id store.feePolicies, policy.paidMintsEnabled = false) :
    Sound next := by
  have others : ∀ other, other ≠ chain → (Permits store other → Permits next other) ∧
      (PermitsPaid store other → PermitsPaid next other) := fun other differ =>
    permits_of_same (newest_of_enablements (enables.others other differ))
      fun row _ unrevoked => (isRevoked_of_revocations enables.revocations).not.mpr unrevoked
  have profiles := profilesFrom_rewritten enables.profiles
  have single : ∀ profileId, (activeOf profileId next.feePolicies).length ≤ 1 := by
    rcases enables.policies with ⟨_, installed⟩ | ⟨_, same⟩
    · exact installed.single sound.single
    · rw [same]
      exact sound.single
  -- A row of the chain that was enabled is old or the new one, whose id no table has.
  have rows : ∀ other, ∀ old ∈ next.enablements other,
      old ∈ store.enablements other ∨ other = chain ∧ old = row := by
    intro other old member
    by_cases own : other = chain
    · rw [own, enables.appended, List.mem_append, List.mem_singleton] at member
      exact member.imp (own ▸ id) fun new => ⟨own, new⟩
    · exact .inl (enables.others other own ▸ member)
  refine
    { profileIds := enables.profiles.ids.1 ▸ sound.profileIds
      profileChains := enables.profiles.ids.2 ▸ sound.profileChains
      apart := ?_
      single := single
      checked := ?_
      follows := fun other =>
        { switch := ?_, paid := ?_, single := fun profile _ _ => single profile.id } }
  · intro first entry member second differ old oldMember
    rcases rows first entry member with isOld | ⟨isChain, rfl⟩
    · rcases rows second old oldMember with oldIsOld | ⟨-, rfl⟩
      · exact sound.apart first entry isOld second differ old oldIsOld
      · exact fun same => fresh first entry isOld same.symm
    · rcases rows second old oldMember with oldIsOld | ⟨secondIsChain, -⟩
      · exact fresh second old oldIsOld
      · exact absurd (secondIsChain.trans isChain.symm) differ
  · rcases enables.policies with ⟨_, installed⟩ | ⟨_, same⟩
    · exact installed.checked sound.checked
    · exact same ▸ sound.checked
  · intro owner member ofChain on
    by_cases own : other = chain
    · exact own ▸ enables.permits.1
    · obtain ⟨old, oldMember, -, sameChain, wasOn⟩ := profiles owner member
      refine (others other own).1 ((sound.follows other).switch old oldMember
        (sameChain.trans ofChain) ((wasOn on).elim id ?_))
      rintro ⟨-, isEnabled⟩
      have sameProfile := sound.sameProfile oldMember enables.member isEnabled
      have sameOwner := (sameChain.trans ofChain).symm.trans (sameProfile ▸ enables.ofChain)
      exact absurd (sameChain_iff.mp sameOwner) own
  · intro owner member ofChain policy active isPaid
    obtain ⟨old, oldMember, sameId, sameChain, -⟩ := profiles owner member
    have ofChain := sameChain.trans ofChain
    rw [← sameId] at active
    have before : policy ∈ activeOf old.id store.feePolicies → PermitsPaid store other := fun active =>
      (sound.follows other).paid old oldMember ofChain policy active isPaid
    rcases enables.policies with ⟨rowPaid, installed⟩ | ⟨free, same⟩
    · by_cases own : other = chain
      · exact own ▸ enables.permits.2 rowPaid
      · rcases installed.policy active with ⟨isEnabled, -⟩ | ⟨-, active⟩
        · have sameProfile := sound.sameProfile oldMember enables.member isEnabled
          exact absurd (sameChain_iff.mp (ofChain.symm.trans (sameProfile ▸ enables.ofChain))) own
        · exact (others other own).2 (before active)
    · rw [same] at active
      by_cases own : other = chain
      · have sameProfile : old = profile := by
          have found := sound.profileOf oldMember (own ▸ ofChain)
          rw [sound.profileOf enables.member enables.ofChain] at found
          exact (Option.some.inj found).symm
        rw [notNarrowed free policy (sameProfile ▸ active)] at isPaid
        cases isPaid
      · exact (others other own).2 (before active)

/-! ## Revoking -/

/-- What the revocation of the newest enablement of a chain does. -/
structure Revokes (chain : EnablementChain) (row : EnablementRow) (store next : Store) : Prop where
  newest : store.newest chain = some row
  enablements : ∀ other, next.enablements other = store.enablements other
  revocations : ∀ id, next.IsRevoked id ↔ store.IsRevoked id ∨ id = row.id
  keys : next.profiles.map ChainProfileRow.id = store.profiles.map ChainProfileRow.id ∧
    next.profiles.map ChainProfileRow.chainId = store.profiles.map ChainProfileRow.chainId
  profiles : ProfilesFrom (fun _ => False) store next
  off : ∀ profile ∈ next.profiles, profile.chainId = chain.chainId →
    profile.executionEnabled = false
  single : ∀ profileId, (activeOf profileId next.feePolicies).length ≤ 1
  checked : ∀ policy ∈ next.feePolicies, policy.Checked
  policies : ∀ profile ∈ store.profiles, ∀ policy ∈ activeOf profile.id next.feePolicies,
    policy.paidMintsEnabled = true →
      profile.chainId ≠ chain.chainId ∧ policy ∈ activeOf profile.id store.feePolicies

theorem Sound.revokes (sound : Sound store) (revokes : Revokes chain row store next) :
    Sound next := by
  have others : ∀ other, other ≠ chain → (Permits store other → Permits next other) ∧
      (PermitsPaid store other → PermitsPaid next other) := fun other differ =>
    permits_of_same (newest_of_enablements (revokes.enablements other)) fun newest found unrevoked =>
      by
        rw [revokes.revocations]
        rintro (revoked | same)
        · exact unrevoked revoked
        · exact sound.apart chain row (newest_mem revokes.newest) other differ newest
            (newest_mem found) same
  refine
    { profileIds := revokes.keys.1 ▸ sound.profileIds
      profileChains := revokes.keys.2 ▸ sound.profileChains
      apart := ?_
      single := revokes.single
      checked := revokes.checked
      follows := fun other =>
        { switch := ?_, paid := ?_, single := fun profile _ _ => revokes.single profile.id } }
  · intro first entry member second differ old oldMember
    rw [revokes.enablements] at member oldMember
    exact sound.apart first entry member second differ old oldMember
  · intro profile member ofChain on
    obtain ⟨old, oldMember, -, sameChain, wasOn⟩ := revokes.profiles profile member
    by_cases own : other = chain
    · rw [revokes.off profile member (own ▸ ofChain)] at on
      cases on
    · exact (others other own).1 ((sound.follows other).switch old oldMember
        (sameChain.trans ofChain) ((wasOn on).elim id False.elim))
  · intro profile member ofChain policy active isPaid
    obtain ⟨old, oldMember, sameId, sameChain, -⟩ := revokes.profiles profile member
    have ofChain := sameChain.trans ofChain
    obtain ⟨otherChain, before⟩ := revokes.policies old oldMember policy (sameId ▸ active) isPaid
    have own : other ≠ chain := fun same => otherChain (ofChain.trans (same ▸ rfl))
    exact (others other own).2 ((sound.follows other).paid old oldMember ofChain policy before isPaid)

/-- The owner's rows after a revocation, and the other tables as they were. -/
def withRevocation (store : Store) (revocation : RevocationRow) : Store :=
  { store with revocations := store.revocations ++ [revocation] }

theorem isRevoked_withRevocation {revocation : RevocationRow} {id : String} :
    (withRevocation store revocation).IsRevoked id ↔
      store.IsRevoked id ∨ id = revocation.enablementId := by
  simp only [Store.IsRevoked, withRevocation, List.mem_append, List.mem_singleton]
  constructor
  · rintro ⟨old, member | rfl, same⟩
    · exact .inl ⟨old, member, same⟩
    · exact .inr same.symm
  · rintro (⟨old, member, same⟩ | rfl)
    · exact ⟨old, .inl member, same⟩
    · exact ⟨revocation, .inr rfl, rfl⟩

/-- The part of a revocation that changes the fee policy of a profile. -/
def withoutPaid (input : RevocationInput) (profileId : String)
    (activeFee : Option FeePolicyVersion) : Script Error Store PUnit :=
  forSome activeFee fun activeFee =>
    onlyIf (activeFee.paidMintsEnabled = true) do
      deactivateFeePolicy activeFee.id
      insertFeePolicy (revokedPolicy input profileId activeFee)

/-- It leaves no active policy of the profile that allows paid mints. -/
theorem ends_withoutPaid {input : RevocationInput} {profileId : String}
    (single : ∀ profileId, (activeOf profileId store.feePolicies).length ≤ 1)
    (checked : ∀ policy ∈ store.feePolicies, policy.Checked)
    (ended : Ends (withoutPaid input profileId (store.activeFeePolicy profileId)) store result next) :
    next = { store with feePolicies := next.feePolicies } ∧
      (∀ otherId, (activeOf otherId next.feePolicies).length ≤ 1) ∧
      (∀ policy ∈ next.feePolicies, policy.Checked) ∧
      ∀ otherId, ∀ policy ∈ activeOf otherId next.feePolicies, policy.paidMintsEnabled = true →
        otherId ≠ profileId ∧ policy ∈ activeOf otherId store.feePolicies := by
  rw [withoutPaid, ends_forSome] at ended
  rcases ended with ⟨activeFee, found, ended⟩ | ⟨none, rfl⟩
  · rw [ends_onlyIf] at ended
    rcases ended with ⟨_, replaced⟩ | ⟨free, rfl⟩
    · obtain ⟨written, installed⟩ := ends_replaceFeePolicy rfl replaced
      refine ⟨written, installed.single single, installed.checked checked, fun otherId policy member paid => ?_⟩
      rcases installed.policy member with ⟨_, isFree⟩ | other
      · exact nomatch paid.symm.trans isFree
      · exact other
    · refine ⟨rfl, single, checked, fun otherId policy member paid => ⟨?_, member⟩⟩
      rintro rfl
      rw [activeOf_eq_of_activeFeePolicy (single otherId) found, List.mem_singleton] at member
      exact free (member ▸ paid)
  · refine ⟨rfl, single, checked, fun otherId policy member _ => ⟨?_, member⟩⟩
    rintro rfl
    rw [List.getLast?_eq_none_iff.mp none] at member
    cases member

theorem revokeEnablement_effect (sound : Sound store) {input : RevocationInput} {answer : String}
    (ended : Ends (revokeEnablement chain input) store answer next) :
    ∃ row, Revokes chain row store next := by
  simp only [revokeEnablement, insertRevocation, bind_assoc, ends_immediate, ends_refuse_bind,
    ends_require_bind, ends_write_bind, ends_read_bind] at ended
  obtain ⟨-, row, latest, -, -, -, -, ended⟩ := ended
  obtain ⟨newest, -⟩ := mem_latest.mp latest
  rw [ends_bind] at ended
  obtain ⟨_, last, ended, returned⟩ := ended
  obtain ⟨-, rfl⟩ := ends_pure.mp returned
  refine ⟨row, ?_⟩
  change Ends _ (withRevocation store (input.row chain row.id)) _ _ at ended
  rw [ends_forSome] at ended
  rcases ended with ⟨profile, found, ended⟩ | ⟨none, rfl⟩
  · have found : store.profileOf chain = some profile := found
    obtain ⟨member, ofChain⟩ := Table.lookup_eq_some found
    rw [ends_read_bind, ends_bind] at ended
    obtain ⟨_, priced, pricing, switched⟩ := ended
    have pricing : Ends (withoutPaid input profile.id
        ((withRevocation store (input.row chain row.id)).activeFeePolicy profile.id))
        (withRevocation store (input.row chain row.id)) _ priced := pricing
    have alone : ∀ profileId,
        (activeOf profileId (withRevocation store (input.row chain row.id)).feePolicies).length ≤ 1 :=
      sound.single
    obtain ⟨written, single, checked, policies⟩ := ends_withoutPaid alone sound.checked pricing
    have kept : next = { priced with profiles := next.profiles, audits := next.audits } ∧
        (ProfileRewritten profile.id false store.profiles next.profiles ∨
          next.profiles = store.profiles ∧ profile.executionEnabled = false) := by
      rw [ends_onlyIf] at switched
      rcases switched with ⟨_, off⟩ | ⟨off, rfl⟩
      · obtain ⟨rewritten, kept⟩ := ends_switchOff off
        rw [written] at rewritten
        exact ⟨kept, .inl rewritten⟩
      · have same : next.profiles = store.profiles := by
          rw [written]
          rfl
        exact ⟨rfl, .inr ⟨same, Bool.eq_false_iff.mpr off⟩⟩
    obtain ⟨kept, profiles⟩ := kept
    rw [written] at kept
    exact
      { newest := newest
        enablements := fun other => by rw [kept]; cases other <;> rfl
        revocations := fun id => by
          have same : next.revocations =
              (withRevocation store (input.row chain row.id)).revocations := by
            rw [kept]
          rw [isRevoked_of_revocations same, isRevoked_withRevocation]
          rfl
        keys := by
          rcases profiles with rewritten | ⟨same, -⟩
          · exact rewritten.ids
          · rw [same]
            exact ⟨rfl, rfl⟩
        profiles := by
          rcases profiles with rewritten | ⟨same, -⟩
          · intro row member
            obtain ⟨old, oldMember, sameId, sameChain, on⟩ :=
              profilesFrom_rewritten rewritten row member
            exact ⟨old, oldMember, sameId, sameChain, fun isOn => (on isOn).imp id (by simp)⟩
          · exact fun row member => ⟨row, same ▸ member, rfl, rfl, .inl⟩
        off := by
          intro other otherMember otherChain
          rcases profiles with rewritten | ⟨same, off⟩
          · obtain ⟨old, oldMember, sameId, sameChain, switched⟩ := rewritten.mem otherMember
            have own := sound.profileOf oldMember (sameChain.trans otherChain)
            rw [found] at own
            rw [switched, if_pos (sameId.symm.trans (Option.some.inj own ▸ rfl))]
          · have own := sound.profileOf (same ▸ otherMember) otherChain
            rw [found] at own
            exact Option.some.inj own ▸ off
        single := by
          rw [kept]
          exact single
        checked := by
          rw [kept]
          exact checked
        policies := by
          intro other otherMember policy active paid
          rw [kept] at active
          obtain ⟨differ, before⟩ := policies other.id policy active paid
          refine ⟨fun sameChain => differ ?_, before⟩
          have own := sound.profileOf otherMember sameChain
          rw [found] at own
          exact (congrArg ChainProfileRow.id (Option.some.inj own)).symm }
  · have absent : ∀ profile ∈ store.profiles, profile.chainId ≠ chain.chainId :=
      Table.lookup_eq_none.mp none
    exact
      { newest := newest
        enablements := fun other => by cases other <;> rfl
        revocations := fun _ => isRevoked_withRevocation
        keys := ⟨rfl, rfl⟩
        profiles := fun row member => ⟨row, member, rfl, rfl, .inl⟩
        off := fun profile member ofChain => absurd ofChain (absent profile member)
        single := sound.single
        checked := sound.checked
        policies := fun profile member _ active _ => ⟨absent profile member, active⟩ }

end MintBot.Enabling
