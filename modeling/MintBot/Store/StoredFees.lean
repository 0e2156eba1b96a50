import Mathlib.Tactic.Linarith
import MintBot.Store.CampaignFees

/-!
# What storage does to the fees of a campaign

The priority fee and the free cap of a stored campaign are those of the policy that is active on
its chain, and its total budget is raised to what that policy's priority fee needs.  A campaign
that is created, or moved to another state, changes nothing that is read of another one: where a
campaign is stored, its chain has an active policy, and only a chain without one gets a policy
from a campaign.
-/

namespace MintBot.CampaignFees

open Fallible
open Enabling (FeePolicyVersion ContractRow CollectionRow DropRow activeOf firstId activeOf_concat
  activeOf_cons)

variable {setup : Setup} {now : Time} {tables next : Tables}

/-! ## Rows that are there or new -/

/-- A search that takes an item over at each step or keeps what it has finds an item. -/
theorem mem_of_foldl_some {α : Type} {step : Option α → α → Option α}
    (takes : ∀ best item, step best item = some item ∨ step best item = best) {items : List α}
    {found : α} {best : Option α} (search : items.foldl step best = some found) :
    found ∈ items ∨ best = some found := by
  induction items generalizing best with
  | nil => exact .inr search
  | cons first rest inductionHypothesis =>
      rcases inductionHypothesis search with later | now
      · exact .inl (List.mem_cons_of_mem _ later)
      · rcases takes best first with taken | kept
        · exact .inl (Option.some.inj (now.symm.trans taken) ▸ List.mem_cons_self)
        · exact .inr (kept.symm.trans now)

theorem firstId_mem {ids : List String} {id : String} (found : firstId ids = some id) :
    id ∈ ids := by
  have picked : id ∈ ids ∨ none = some id := by
    refine mem_of_foldl_some (fun best other => ?_) found
    cases best with
    | none => exact .inl rfl
    | some best =>
        dsimp only
        split
        · exact .inl rfl
        · exact .inr rfl
  rcases picked with member | absent
  · exact member
  · cases absent

/-- A row is found again in every longer table. -/
theorem lookup_of_prefix {ρ : Type} {key : ρ → String} {id : String} {before after : List ρ}
    {row : ρ} (longer : before <+: after) (found : Table.lookup key id before = some row) :
    Table.lookup key id after = some row := by
  obtain ⟨more, rfl⟩ := longer
  exact Table.lookup_append_of_some found more

/-- A row is found under its id afterwards, with what the search asked of it. -/
theorem ensureRow_ok {ρ : Type} {key : ρ → String} {P : ρ → Prop} {existing : Option String}
    {row : ρ} {rows after : List ρ} {id : String}
    (unique : (rows.map key).Nodup)
    (known : ∀ found, existing = some found → ∃ old ∈ rows, key old = found ∧ P old) (new : P row)
    (success : ensureRow key existing row rows = .ok (id, after)) :
    rows <+: after ∧ (after.map key).Nodup ∧
      ∃ found, Table.lookup key id after = some found ∧ P found := by
  cases existing with
  | some found =>
      obtain ⟨rfl, rfl⟩ := Prod.mk.inj (Except.ok.inj success)
      obtain ⟨old, member, rfl, holds⟩ := known found rfl
      exact ⟨List.prefix_rfl, unique, old, Table.lookup_of_mem unique member, holds⟩
  | none =>
      simp only [ensureRow, bind_eq_ok, refuse_eq_ok, pure_eq_ok, Prod.mk.injEq] at success
      obtain ⟨-, fresh, rfl, rfl⟩ := success
      have distinct : ((rows ++ [row]).map key).Nodup := by
        rw [List.map_append, List.map_singleton, List.nodup_append]
        refine ⟨unique, List.nodup_singleton _, ?_⟩
        rintro _ oldKey _ newKey rfl
        obtain ⟨old, member, same⟩ := List.mem_map.mp oldKey
        exact fresh ⟨old, member, same.trans (List.mem_singleton.mp newKey)⟩
      refine ⟨List.prefix_append _ _, distinct, row, ?_, new⟩
      exact Table.lookup_of_mem distinct (List.mem_append_right _ (List.mem_singleton_self _))

/-! ## Tables that grow -/

/-- The tables that a campaign is placed in only get longer. -/
structure Grows (tables next : Tables) : Prop where
  profiles : tables.profiles <+: next.profiles
  contracts : tables.contracts <+: next.contracts
  collections : tables.collections <+: next.collections
  drops : tables.drops <+: next.drops

theorem Grows.refl (tables : Tables) : Grows tables tables :=
  ⟨List.prefix_rfl, List.prefix_rfl, List.prefix_rfl, List.prefix_rfl⟩

theorem Grows.trans {middle : Tables} (first : Grows tables middle) (second : Grows middle next) :
    Grows tables next where
  profiles := first.profiles.trans second.profiles
  contracts := first.contracts.trans second.contracts
  collections := first.collections.trans second.collections
  drops := first.drops.trans second.drops

theorem place_eq_some {dropId : String} {place : Place} :
    tables.place dropId = some place ↔
      ∃ collection, Table.lookup DropRow.id dropId tables.drops = some place.drop ∧
        Table.lookup CollectionRow.id place.drop.collectionId tables.collections =
          some collection ∧
        Table.lookup ContractRow.id collection.contractId tables.contracts =
          some place.contract ∧
        Table.lookup ProfileRow.id place.contract.chainProfileId tables.profiles =
          some place.profile := by
  simp only [Tables.place, Option.bind_eq_bind, Option.bind_eq_some_iff, Option.pure_def,
    Option.some.injEq]
  constructor
  · rintro ⟨drop, dropFound, collection, collectionFound, contract, contractFound, profile,
      profileFound, rfl⟩
    exact ⟨collection, dropFound, collectionFound, contractFound, profileFound⟩
  · rintro ⟨collection, dropFound, collectionFound, contractFound, profileFound⟩
    exact ⟨_, dropFound, _, collectionFound, _, contractFound, _, profileFound, rfl⟩

theorem Grows.place (grows : Grows tables next) {dropId : String} {place : Place}
    (found : tables.place dropId = some place) : next.place dropId = some place := by
  obtain ⟨collection, drop, ofDrop, contract, profile⟩ := place_eq_some.mp found
  exact place_eq_some.mpr ⟨collection, lookup_of_prefix grows.drops drop,
    lookup_of_prefix grows.collections ofDrop, lookup_of_prefix grows.contracts contract,
    lookup_of_prefix grows.profiles profile⟩

/-! ## Fee policies -/

/-- A profile with an active policy keeps it. -/
def PoliciesKept (tables next : Tables) : Prop :=
  ∀ profileId, tables.activeFeePolicy profileId ≠ none →
    next.activeFeePolicy profileId = tables.activeFeePolicy profileId

theorem activeFeePolicy_eq_none {profileId : String} :
    tables.activeFeePolicy profileId = none ↔ activeOf profileId tables.feePolicies = [] :=
  List.getLast?_eq_none_iff

/-- A new active policy is the one of its profile, and the other profiles keep theirs. -/
theorem insertFeePolicy_ok {row : FeePolicyVersion} (active : row.active = true)
    (success : insertFeePolicy row tables = .ok next) :
    next = { tables with feePolicies := next.feePolicies } ∧
      next.activeFeePolicy row.chainProfileId = some row ∧
      ∀ profileId, profileId ≠ row.chainProfileId →
        next.activeFeePolicy profileId = tables.activeFeePolicy profileId := by
  simp only [insertFeePolicy, bind_eq_ok, refuse_eq_ok, pure_eq_ok] at success
  obtain ⟨-, -, -, -, -, -, -, -, rfl⟩ := success
  refine ⟨rfl, ?_, fun profileId differ => ?_⟩
  · rw [Tables.activeFeePolicy, activeOf_concat, if_pos ⟨active, rfl⟩, List.getLast?_concat]
  · rw [Tables.activeFeePolicy, activeOf_concat, if_neg fun own => differ own.2.symm,
      List.append_nil]
    rfl

theorem ensureFeePolicy_ok {profileId : String} {policy : FeePolicy} {chainId : ChainId}
    (success : ensureFeePolicy setup now profileId policy chainId tables = .ok next) :
    next = { tables with feePolicies := next.feePolicies } ∧
      next.activeFeePolicy profileId ≠ none ∧ PoliciesKept tables next := by
  simp only [ensureFeePolicy, bind_eq_ok] at success
  obtain ⟨-, -, -, -, stored⟩ := success
  cases existing : tables.activeFeePolicy profileId with
  | some found =>
      simp only [existing, bind_eq_ok, pure_eq_ok] at stored
      obtain ⟨-, -, rfl⟩ := stored
      exact ⟨rfl, by simp [existing], fun _ _ => rfl⟩
  | none =>
      simp only [existing] at stored
      obtain ⟨written, own, others⟩ := insertFeePolicy_ok rfl stored
      have own : next.activeFeePolicy profileId = some _ := own
      refine ⟨written, by rw [own]; exact Option.some_ne_none _, fun otherId present => ?_⟩
      refine others otherId ?_
      rintro rfl
      exact present existing

/-! ## Where a campaign is stored -/

/-- The rows that a campaign of a chain is stored under. -/
structure Sound (tables : Tables) : Prop where
  profiles : (tables.profiles.map ProfileRow.id).Nodup
  chains : (tables.profiles.map ProfileRow.chainId).Nodup
  contracts : (tables.contracts.map ContractRow.id).Nodup
  collections : (tables.collections.map CollectionRow.id).Nodup
  drops : (tables.drops.map DropRow.id).Nodup

/-- A drop of a chain that has an active policy. -/
def Placed (tables : Tables) (dropId : String) (chainId : ChainId) : Prop :=
  ∃ place, tables.place dropId = some place ∧ place.profile.chainId = chainId ∧
    tables.activeFeePolicy place.profile.id ≠ none

theorem Placed.kept {dropId : String} {chainId : ChainId} (placed : Placed tables dropId chainId)
    (grows : Grows tables next) (kept : PoliciesKept tables next) : Placed next dropId chainId := by
  obtain ⟨place, found, ofChain, active⟩ := placed
  refine ⟨place, grows.place found, ofChain, ?_⟩
  rwa [kept _ active]

theorem insertProfile_ok {row : ProfileRow} (sound : Sound tables)
    (success : insertProfile row tables = .ok next) :
    next = { tables with profiles := tables.profiles ++ [row] } ∧ Sound next := by
  simp only [insertProfile, bind_eq_ok, refuse_eq_ok, pure_eq_ok] at success
  obtain ⟨-, fresh, rfl⟩ := success
  refine ⟨rfl, ⟨?_, ?_, sound.contracts, sound.collections, sound.drops⟩⟩
  · rw [List.map_append, List.map_singleton, List.nodup_append]
    refine ⟨sound.profiles, List.nodup_singleton _, ?_⟩
    rintro _ oldKey _ newKey rfl
    obtain ⟨old, member, same⟩ := List.mem_map.mp oldKey
    exact fresh ⟨old, member, .inl (same.trans (List.mem_singleton.mp newKey))⟩
  · rw [List.map_append, List.map_singleton, List.nodup_append]
    refine ⟨sound.chains, List.nodup_singleton _, ?_⟩
    rintro _ oldKey _ newKey rfl
    obtain ⟨old, member, same⟩ := List.mem_map.mp oldKey
    exact fresh ⟨old, member, .inr (same.trans (List.mem_singleton.mp newKey))⟩

theorem ensureChainProfile_ok {chainId : ChainId} (sound : Sound tables)
    (success : ensureChainProfile setup chainId tables = .ok next) :
    next = { tables with profiles := next.profiles } ∧ tables.profiles <+: next.profiles ∧
      Sound next := by
  unfold ensureChainProfile at success
  split at success
  · obtain ⟨rfl, keeps⟩ := insertProfile_ok sound success
    exact ⟨rfl, List.prefix_append _ _, keeps⟩
  · obtain rfl := Except.ok.inj success
    exact ⟨rfl, List.prefix_rfl, sound⟩

theorem ensureContract_ok {profileId contract id : String} {rows after : List ContractRow}
    (unique : (rows.map ContractRow.id).Nodup)
    (success : ensureContract setup profileId contract rows = .ok (id, after)) :
    rows <+: after ∧ (after.map ContractRow.id).Nodup ∧
      ∃ row, Table.lookup ContractRow.id id after = some row ∧ row.chainProfileId = profileId := by
  refine ensureRow_ok unique (fun found known => ?_) rfl success
  obtain ⟨row, searched, rfl⟩ := Option.map_eq_some_iff.mp known
  have holds := List.find?_some searched
  simp only [decide_eq_true_eq] at holds
  exact ⟨row, List.mem_of_find?_eq_some searched, rfl, holds.1⟩

/-- The first id of some rows is the id of one of them. -/
theorem firstId_row {ρ : Type} {key : ρ → String} {P : ρ → Prop} [DecidablePred P]
    {rows : List ρ} {id : String} (found : firstId ((rows.filter P).map key) = some id) :
    ∃ row ∈ rows, key row = id ∧ P row := by
  obtain ⟨row, member, rfl⟩ := List.mem_map.mp (firstId_mem found)
  obtain ⟨member, holds⟩ := List.mem_filter.mp member
  exact ⟨row, member, rfl, of_decide_eq_true holds⟩

theorem ensureCollection_ok {contractId strategy id : String} {rows after : List CollectionRow}
    (unique : (rows.map CollectionRow.id).Nodup)
    (success : ensureCollection setup contractId strategy rows = .ok (id, after)) :
    rows <+: after ∧ (after.map CollectionRow.id).Nodup ∧
      ∃ row, Table.lookup CollectionRow.id id after = some row ∧ row.contractId = contractId :=
  ensureRow_ok unique (fun _ known => firstId_row known) rfl success

theorem ensureDrop_ok {collectionId strategy id : String} {mintPriceWei : Wei}
    {rows after : List DropRow} (unique : (rows.map DropRow.id).Nodup)
    (success : ensureDrop setup collectionId strategy mintPriceWei rows = .ok (id, after)) :
    rows <+: after ∧ (after.map DropRow.id).Nodup ∧
      ∃ row, Table.lookup DropRow.id id after = some row ∧ row.collectionId = collectionId ∧
        row.strategy = strategy ∧ row.mintPriceWei = mintPriceWei :=
  ensureRow_ok unique (fun _ known => firstId_row known) ⟨rfl, rfl, rfl⟩ success

/-- The drop of a campaign is placed on the chain of the campaign, and what was read of other
campaigns is read again. -/
theorem ensureCampaignGraph_ok {campaign : CampaignRecord} {dropId : String} (sound : Sound tables)
    (success : ensureCampaignGraph setup now campaign tables = .ok (dropId, next)) :
    Grows tables next ∧ PoliciesKept tables next ∧ Sound next ∧
      next.campaigns = tables.campaigns ∧ Placed next dropId campaign.chainId := by
  simp only [ensureCampaignGraph, bind_eq_ok, require_eq_ok, pure_eq_ok, Prod.exists,
    Prod.mk.injEq] at success
  obtain ⟨opened, opening, profile, found, contractId, contracts, ensuredContract, collectionId,
    collections, ensuredCollection, placedDrop, drops, ensuredDrop, stored, ensuredPolicy, rfl,
    rfl⟩ := success
  obtain ⟨openedSame, longer, soundOpened⟩ := ensureChainProfile_ok sound opening
  obtain ⟨member, ofChain⟩ := Table.lookup_eq_some found
  obtain ⟨moreContracts, uniqueContracts, contract, contractFound, ofProfile⟩ :=
    ensureContract_ok soundOpened.contracts ensuredContract
  obtain ⟨moreCollections, uniqueCollections, collection, collectionFound, ofContract⟩ :=
    ensureCollection_ok soundOpened.collections ensuredCollection
  obtain ⟨moreDrops, uniqueDrops, drop, dropFound, ofCollection, -⟩ :=
    ensureDrop_ok soundOpened.drops ensuredDrop
  obtain ⟨written, active, kept⟩ := ensureFeePolicy_ok ensuredPolicy
  rw [openedSame] at moreContracts moreCollections moreDrops
  have keptFirst : PoliciesKept tables { opened with
      contracts := contracts, collections := collections, drops := drops } := by
    intro profileId _
    rw [openedSame]
    rfl
  refine ⟨?_, fun profileId present => ?_, ?_, ?_, ?_⟩
  · rw [written]
    exact ⟨longer, moreContracts, moreCollections, moreDrops⟩
  · have same := keptFirst profileId present
    rw [kept profileId (by rwa [same]), same]
  · rw [written]
    exact ⟨soundOpened.profiles, soundOpened.chains, uniqueContracts, uniqueCollections, uniqueDrops⟩
  · rw [written, openedSame]
  · have placed : stored.place placedDrop = some ⟨drop, contract, profile⟩ := by
      rw [written]
      refine place_eq_some.mpr ⟨collection, dropFound, ?_, ?_, ?_⟩
      · rw [ofCollection]
        exact collectionFound
      · rw [ofContract]
        exact contractFound
      · rw [ofProfile]
        exact Table.lookup_of_mem soundOpened.profiles member
    exact ⟨_, placed, ofChain, active⟩

/-! ## Storing one campaign -/

/-- The tables hold these campaigns, each as it was created, on a chain with an active policy. -/
structure Holds (tables : Tables) (records : List CampaignRecord) : Prop where
  sound : Sound tables
  ids : (tables.campaigns.map CampaignRow.id).Nodup
  snapshots : tables.campaigns.map CampaignRow.snapshot = records
  placed : ∀ row ∈ tables.campaigns,
    row.id = row.snapshot.id ∧ Placed tables row.dropId row.snapshot.chainId

/-- At most one campaign is written, and nothing is taken from the others. -/
structure Effect (id : String) (tables next : Tables) : Prop where
  grows : Grows tables next
  kept : PoliciesKept tables next
  others : ∀ other, other ≠ id →
    Table.lookup CampaignRow.id other next.campaigns =
      Table.lookup CampaignRow.id other tables.campaigns

variable {records : List CampaignRecord} {id : String}

theorem Effect.refl (tables : Tables) : Effect id tables tables :=
  ⟨Grows.refl tables, fun _ _ => rfl, fun _ _ => rfl⟩

theorem Effect.trans {middle : Tables} (first : Effect id tables middle)
    (second : Effect id middle next) : Effect id tables next where
  grows := first.grows.trans second.grows
  kept profileId present := by
    have same := first.kept profileId present
    rw [second.kept profileId (by rwa [same]), same]
  others other differ := (second.others other differ).trans (first.others other differ)

theorem Holds.of_same_campaigns (holds : Holds tables records) (sound : Sound next)
    (grows : Grows tables next) (kept : PoliciesKept tables next)
    (same : next.campaigns = tables.campaigns) : Holds next records where
  sound := sound
  ids := same ▸ holds.ids
  snapshots := same ▸ holds.snapshots
  placed row member := by
    obtain ⟨ofId, placed⟩ := holds.placed row (same ▸ member)
    exact ⟨ofId, placed.kept grows kept⟩

/-- A new row is stored behind the others. -/
theorem Holds.append {row : CampaignRow} (holds : Holds tables records)
    (fresh : ¬ ∃ old ∈ tables.campaigns, old.id = row.id) (ofId : row.id = row.snapshot.id)
    (placed : Placed tables row.dropId row.snapshot.chainId) :
    Holds { tables with campaigns := tables.campaigns ++ [row] } (records ++ [row.snapshot]) where
  sound := ⟨holds.sound.profiles, holds.sound.chains, holds.sound.contracts,
    holds.sound.collections, holds.sound.drops⟩
  ids := by
    rw [List.map_append, List.map_singleton, List.nodup_append]
    refine ⟨holds.ids, List.nodup_singleton _, ?_⟩
    rintro _ oldId _ newId rfl
    obtain ⟨old, member, same⟩ := List.mem_map.mp oldId
    exact fresh ⟨old, member, same.trans (List.mem_singleton.mp newId)⟩
  snapshots := by rw [List.map_append, List.map_singleton, holds.snapshots]
  placed other member := by
    rcases List.mem_append.mp member with old | new
    · exact holds.placed other old
    · obtain rfl := List.mem_singleton.mp new
      exact ⟨ofId, placed⟩

/-- What the row of a campaign becomes when its state changes. -/
def moved (campaign : CampaignRecord) (row : CampaignRow) : CampaignRow :=
  { row with state := campaign.state, changedAt := some campaign.updatedAt }

theorem Holds.moved {campaign : CampaignRecord} (holds : Holds tables records) :
    Holds { tables with
      campaigns := Table.update CampaignRow.id campaign.id (moved campaign) tables.campaigns }
      records where
  sound := ⟨holds.sound.profiles, holds.sound.chains, holds.sound.contracts,
    holds.sound.collections, holds.sound.drops⟩
  ids := by
    have same := Table.map_key_update CampaignRow.id campaign.id (CampaignFees.moved campaign)
      (fun _ _ => rfl) tables.campaigns
    exact same ▸ holds.ids
  snapshots := by
    rw [← holds.snapshots, Table.update, List.map_map]
    refine List.map_congr_left fun row _ => ?_
    by_cases own : row.id = campaign.id <;> simp [own, CampaignFees.moved]
  placed row member := by
    rcases Table.mem_update.mp member with ⟨old, -⟩ | ⟨old, oldMember, -, rfl⟩
    · exact holds.placed row old
    · exact holds.placed old oldMember

theorem persistCampaign_ok {campaign : CampaignRecord} {prior : Option CampaignRecord}
    (holds : Holds tables records)
    (success : persistCampaign setup now campaign prior tables = .ok next) :
    Effect campaign.id tables next ∧
      Holds next (records ++ if prior = none then [campaign] else []) := by
  unfold persistCampaign at success
  split at success
  · rename_i same
    obtain rfl := pure_eq_ok.mp success
    exact ⟨Effect.refl tables, by simpa [same] using holds⟩
  · simp only [bind_eq_ok, Prod.exists] at success
    obtain ⟨dropId, graph, placing, written⟩ := success
    obtain ⟨grows, kept, sound, same, placed⟩ := ensureCampaignGraph_ok holds.sound placing
    have graphHolds := holds.of_same_campaigns sound grows kept same
    have graphGrows : ∀ campaigns, Grows tables { graph with campaigns := campaigns } := fun _ =>
      ⟨grows.profiles, grows.contracts, grows.collections, grows.drops⟩
    cases prior with
    | none =>
        simp only [bind_eq_ok, refuse_eq_ok, pure_eq_ok] at written
        obtain ⟨-, -, -, -, -, fresh, rfl⟩ := written
        refine ⟨⟨graphGrows _, kept, fun other differ => ?_⟩, ?_⟩
        · rw [Table.lookup, List.find?_append, ← Table.lookup, same]
          have mismatch : campaign.id ≠ other := Ne.symm differ
          simp [mismatch]
        · exact graphHolds.append fresh rfl placed
    | some prior =>
        rw [if_neg (Option.some_ne_none prior), List.append_nil]
        simp only at written
        split at written
        · obtain rfl := pure_eq_ok.mp written
          exact ⟨⟨grows, kept, fun other _ => by rw [same]⟩, graphHolds⟩
        · simp only [bind_eq_ok, refuse_eq_ok, pure_eq_ok] at written
          obtain ⟨-, -, rfl⟩ := written
          refine ⟨⟨graphGrows _, kept, fun other differ => ?_⟩, graphHolds.moved⟩
          rw [← same]
          exact Table.lookup_update_other CampaignRow.id differ (moved campaign) (fun _ => rfl) _

/-! ## Reading -/

theorem Holds.read (holds : Holds tables records) {row : CampaignRow}
    (member : row ∈ tables.campaigns) : ∃ read, tables.readCampaign row = some read := by
  obtain ⟨-, place, found, -⟩ := holds.placed row member
  exact ⟨_, by rw [Tables.readCampaign, found]; rfl⟩

theorem readCampaign_id {row : CampaignRow} {read : CampaignRecord}
    (found : tables.readCampaign row = some read) : read.id = row.id := by
  simp only [Tables.readCampaign, Option.bind_eq_bind, Option.bind_eq_some_iff, Option.pure_def,
    Option.some.injEq] at found
  obtain ⟨_, -, rfl⟩ := found
  rfl

/-- In a snapshot a campaign is the reading of its row. -/
theorem campaign_eq (all : ∀ row ∈ tables.campaigns, ∃ read, tables.readCampaign row = some read)
    (id : String) :
    tables.campaign id =
      (Table.lookup CampaignRow.id id tables.campaigns).bind tables.readCampaign := by
  have folded : ∀ rows : List CampaignRow,
      (∀ row ∈ rows, ∃ read, tables.readCampaign row = some read) →
      Table.lookup CampaignRecord.id id (rows.filterMap tables.readCampaign) =
        (Table.lookup CampaignRow.id id rows).bind tables.readCampaign := by
    intro rows
    induction rows with
    | nil => exact fun _ => rfl
    | cons row rest inductionHypothesis =>
        intro all
        obtain ⟨read, found⟩ := all row List.mem_cons_self
        have rest := inductionHypothesis fun other member =>
          all other (List.mem_cons_of_mem _ member)
        unfold Table.lookup at rest ⊢
        rw [List.filterMap_cons_some found, List.find?_cons, List.find?_cons, readCampaign_id found]
        by_cases own : row.id = id
        · simp [own, found]
        · simpa [own] using rest
  exact folded tables.campaigns all

/-- The policy that was active where a campaign is stored is still active there. -/
theorem Effect.readCampaign (effect : Effect id tables next) (holds : Holds tables records)
    {row : CampaignRow} (member : row ∈ tables.campaigns) :
    next.readCampaign row = tables.readCampaign row := by
  obtain ⟨-, place, found, -, active⟩ := holds.placed row member
  have policy : ∀ price fallback, next.readFeePolicy place.profile.id price fallback =
      tables.readFeePolicy place.profile.id price fallback := by
    intro price fallback
    unfold Tables.readFeePolicy
    rw [effect.kept _ active]
  simp only [Tables.readCampaign, found, effect.grows.place found, policy, Option.bind_eq_bind,
    Option.bind_some]

/-- A campaign that is not written is read as before. -/
theorem Effect.campaign (effect : Effect id tables next) (before : Holds tables records)
    {records' : List CampaignRecord} (after : Holds next records') {other : String}
    (differ : other ≠ id) : next.campaign other = tables.campaign other := by
  rw [campaign_eq (fun _ => after.read), campaign_eq (fun _ => before.read),
    effect.others other differ]
  cases found : Table.lookup CampaignRow.id other tables.campaigns with
  | none => rfl
  | some row => exact effect.readCampaign before (Table.lookup_eq_some found).1

/-! ## Transactions -/

theorem readCampaigns_nodup (holds : Holds tables records) :
    (tables.readCampaigns.map CampaignRecord.id).Nodup :=
  (Table.filterMap_keys_sublist (fun _ _ found => readCampaign_id found)
    tables.campaigns).nodup holds.ids

/-- A campaign that the transaction left alone is not written. -/
theorem persistCampaign_same (campaign : CampaignRecord) (tables : Tables) :
    persistCampaign setup now campaign (some campaign) tables = .ok tables := by
  rw [persistCampaign, if_pos rfl]
  rfl

theorem createCampaign_ok {input : CampaignInput} (holds : Holds tables records)
    (success : createCampaign setup now id input tables = .ok next) :
    checkCampaign setup now tables input = .ok () ∧ Effect id tables next ∧
      Holds next
        (records ++ if tables.campaign id = none then [input.campaign id now] else []) := by
  simp only [createCampaign, transaction, bind_eq_ok, List.foldlM_append, List.foldlM_cons,
    List.foldlM_nil, pure_eq_ok] at success
  obtain ⟨⟨⟩, checked, middle, others, _, own, rfl⟩ := success
  obtain rfl : middle = tables := by
    refine foldlM_invariant (I := fun state => state = tables) ?_ rfl others
    rintro _ campaign member after rfl stored
    rw [Table.lookup_of_mem (readCampaigns_nodup holds) member, persistCampaign_same] at stored
    exact (Except.ok.inj stored).symm
  exact ⟨checked, persistCampaign_ok holds own⟩

theorem changeState_ok {state : CampaignState} (holds : Holds tables records)
    (success : changeState setup now id state tables = .ok next) :
    Effect id tables next ∧ Holds next records := by
  refine foldlM_invariant (I := fun middle => Effect id tables middle ∧ Holds middle records) ?_
    ⟨Effect.refl tables, holds⟩ success
  rintro middle campaign member after ⟨effect, middleHolds⟩ stored
  rcases Table.mem_update.mp member with ⟨kept, -⟩ | ⟨old, oldMember, own, rfl⟩
  · rw [Table.lookup_of_mem (readCampaigns_nodup holds) kept, persistCampaign_same] at stored
    obtain rfl := Except.ok.inj stored
    exact ⟨effect, middleHolds⟩
  · have prior := Table.lookup_of_mem (readCampaigns_nodup holds) oldMember
    simp only [prior] at stored
    obtain ⟨written, storedHolds⟩ := persistCampaign_ok middleHolds stored
    rw [if_neg (Option.some_ne_none old), List.append_nil] at storedHolds
    exact ⟨effect.trans (own ▸ written), storedHolds⟩

/-! ## Runs -/

theorem activeFeePolicy_deactivated {profileId otherId : String} (differ : otherId ≠ profileId) :
    (tables.deactivateFeePolicies profileId).activeFeePolicy otherId =
      tables.activeFeePolicy otherId := by
  have same : ∀ rows : List FeePolicyVersion, activeOf otherId (rows.map fun row =>
      if row.active = true ∧ row.chainProfileId = profileId then { row with active := false }
      else row) = activeOf otherId rows := by
    intro rows
    induction rows with
    | nil => rfl
    | cons row rest inductionHypothesis =>
        rw [List.map_cons, activeOf_cons, activeOf_cons, inductionHypothesis]
        congr 1
        by_cases own : row.active = true ∧ row.chainProfileId = profileId
        · simp [own, Ne.symm differ]
        · simp [own]
  unfold Tables.activeFeePolicy
  exact congrArg List.getLast? (same tables.feePolicies)

/-- Replacing the policy of a chain leaves every campaign under an active policy. -/
theorem replaceFeePolicy_ok {row : FeePolicyVersion} (holds : Holds tables records)
    (success : replaceFeePolicy row tables = .ok next) : Holds next records := by
  obtain ⟨written, own, others⟩ := insertFeePolicy_ok rfl success
  have active : ∀ profileId, tables.activeFeePolicy profileId ≠ none →
      next.activeFeePolicy profileId ≠ none := by
    intro profileId present
    by_cases same : profileId = row.chainProfileId
    · rw [same]
      exact ne_of_eq_of_ne own (Option.some_ne_none _)
    · rwa [others profileId same, activeFeePolicy_deactivated same]
  rw [written] at active ⊢
  refine ⟨⟨holds.sound.profiles, holds.sound.chains, holds.sound.contracts,
    holds.sound.collections, holds.sound.drops⟩, holds.ids, holds.snapshots, fun stored member => ?_⟩
  obtain ⟨ofId, place, found, ofChain, present⟩ := holds.placed stored member
  exact ⟨ofId, place, found, ofChain, active _ present⟩

theorem step_ok {call : Time × Call} (holds : Holds tables records)
    (success : step setup call tables = .ok next) :
    Holds next (records ++ (created setup tables call).toList) ∧
      ∀ id, call.2.campaignId = some id → Effect id tables next := by
  obtain ⟨now, call⟩ := call
  cases call with
  | insertProfile row =>
      obtain ⟨rfl, sound⟩ := insertProfile_ok holds.sound success
      have grows : Grows tables { tables with profiles := tables.profiles ++ [row] } :=
        ⟨List.prefix_append _ _, List.prefix_rfl, List.prefix_rfl, List.prefix_rfl⟩
      refine ⟨?_, nofun⟩
      simpa [created] using holds.of_same_campaigns sound grows (fun _ _ => rfl) rfl
  | enable robinhood base =>
      obtain rfl := Except.ok.inj success
      refine ⟨?_, nofun⟩
      have same : Holds { tables with
          robinhoodEnablement := robinhood, baseEnablement := base } records :=
        ⟨⟨holds.sound.profiles, holds.sound.chains, holds.sound.contracts,
          holds.sound.collections, holds.sound.drops⟩, holds.ids, holds.snapshots, holds.placed⟩
      simpa [created] using same
  | replaceFeePolicy row =>
      refine ⟨?_, nofun⟩
      simpa [created] using replaceFeePolicy_ok holds success
  | createCampaign id input =>
      obtain ⟨-, effect, stored⟩ := createCampaign_ok holds success
      refine ⟨?_, fun _ named => Option.some.inj named ▸ effect⟩
      have written : (created setup tables (now, .createCampaign id input)).toList =
          if tables.campaign id = none then [input.campaign id now] else [] := by
        rw [created, success]
        by_cases fresh : tables.campaign id = none <;> simp [fresh]
      rwa [written]
  | changeState id state =>
      obtain ⟨effect, stored⟩ := changeState_ok holds success
      refine ⟨?_, fun _ named => Option.some.inj named ▸ effect⟩
      simpa [created] using stored

/-- The fees of a policy that creation accepts: the total is the sum of its parts. -/
structure Accepted (fees : FeePolicy) : Prop where
  priority : 0 ≤ fees.configuredPriorityFeeWei
  l2 : 0 ≤ fees.l2ExecutionGasBudgetWei.getD 0
  l1 : 0 ≤ fees.l1DataGasBudgetWei.getD 0
  total : fees.totalFeeBudgetWei = some (fees.configuredPriorityFeeWei +
    fees.l2ExecutionGasBudgetWei.getD 0 + fees.l1DataGasBudgetWei.getD 0)

theorem checkCampaign_accepted {input : CampaignInput}
    (checked : checkCampaign setup now tables input = .ok ()) : Accepted input.feePolicy := by
  simp only [checkCampaign, bind_eq_ok, refuse_eq_ok, not_or, not_exists, not_and, not_lt,
    not_not] at checked
  obtain ⟨-, -, -, -, -, -, -, -, -, -, -, -, -, -, -, priority, -, ⟨hasL2, hasL1, l2, l1⟩, -, total,
    -⟩ := checked
  obtain ⟨l2Budget, isL2⟩ := Option.ne_none_iff_exists'.mp hasL2
  obtain ⟨l1Budget, isL1⟩ := Option.ne_none_iff_exists'.mp hasL1
  refine ⟨priority, ?_, ?_, total⟩
  · rw [isL2]
    exact l2 l2Budget isL2
  · rw [isL1]
    exact l1 l1Budget isL1

/-! ## What a snapshot returns -/

/-- The fees that are read of a campaign under the active policy of its chain. -/
structure Follows (created : FeePolicy) (policy : FeePolicyVersion) (read : FeePolicy) : Prop where
  priority : read.configuredPriorityFeeWei = policy.freeMintPriorityFeeComponentWei
  freeCap : read.freeTotalSpendCapWei = some policy.freeMintTotalFeeCapWei
  total : ∀ total ∈ created.totalFeeBudgetWei, 0 < total →
    read.totalFeeBudgetWei = some (max total (created.l2ExecutionGasBudgetWei.getD 0 +
      created.l1DataGasBudgetWei.getD 0 + policy.freeMintPriorityFeeComponentWei))

/-- Each of the three amounts is at most the one that was given, where that one is positive. -/
structure AtMost (read created : FeePolicy) : Prop where
  priority : 0 < created.configuredPriorityFeeWei →
    read.configuredPriorityFeeWei ≤ created.configuredPriorityFeeWei
  freeCap : ∀ given ∈ created.freeTotalSpendCapWei, 0 < given →
    ∀ cap ∈ read.freeTotalSpendCapWei, cap ≤ given
  total : ∀ given ∈ created.totalFeeBudgetWei, 0 < given →
    ∀ total ∈ read.totalFeeBudgetWei, total ≤ given

/-- The active policy of the chain does not ask for more than a campaign was created with. -/
structure Covered (policy : FeePolicyVersion) (created : FeePolicy) : Prop where
  priority : ∀ total ∈ created.totalFeeBudgetWei, 0 < total →
    policy.freeMintPriorityFeeComponentWei ≤ created.configuredPriorityFeeWei
  freeCap : ∀ given ∈ created.freeTotalSpendCapWei, 0 < given →
    policy.freeMintTotalFeeCapWei ≤ given

theorem readFeePolicy_follows {profileId : String} {policy : FeePolicyVersion}
    (active : tables.activeFeePolicy profileId = some policy) (created : FeePolicy) (price : Wei) :
    Follows created policy (tables.readFeePolicy profileId price (some created)) := by
  refine ⟨?_, ?_, fun total given positive => ?_⟩
  · simp only [Tables.readFeePolicy, active]
  · simp only [Tables.readFeePolicy, active]
  · have given : created.totalFeeBudgetWei = some total := given
    simp only [Tables.readFeePolicy, active, mapFeePolicy, Option.bind_some, given,
      Option.getD_some, if_neg positive.ne', Option.some.injEq]
    split
    · rename_i less
      exact (max_eq_left less.le).symm
    · rename_i more
      exact (max_eq_right (not_lt.mp more)).symm

/-- A snapshot stays within what a campaign was created with exactly when the policy does. -/
theorem Follows.atMost_iff {created read : FeePolicy} {policy : FeePolicyVersion}
    (follows : Follows created policy read) (accepted : Accepted created) :
    AtMost read created ↔ Covered policy created := by
  have needed := accepted.total
  constructor
  · intro atMost
    constructor
    · intro total given positive
      have within := atMost.total total given positive _ (follows.total total given positive)
      obtain rfl := Option.some.inj (needed.symm.trans given)
      have := le_trans (le_max_right _ _) within
      linarith
    · intro given isGiven positive
      exact atMost.freeCap given isGiven positive _ follows.freeCap
  · intro covered
    constructor
    · intro positive
      rw [follows.priority]
      refine covered.priority _ needed ?_
      linarith [accepted.l2, accepted.l1]
    · intro given isGiven positive cap isCap
      obtain rfl := Option.some.inj (follows.freeCap.symm.trans isCap)
      exact covered.freeCap given isGiven positive
    · intro given isGiven positive total isTotal
      obtain rfl := Option.some.inj ((follows.total given isGiven positive).symm.trans isTotal)
      refine max_le le_rfl ?_
      have within := covered.priority given isGiven positive
      obtain rfl := Option.some.inj (needed.symm.trans isGiven)
      linarith

/-! ## Every run -/

theorem holds_empty : Holds Tables.empty [] where
  sound := ⟨List.nodup_nil, List.nodup_nil, List.nodup_nil, List.nodup_nil, List.nodup_nil⟩
  ids := List.nodup_nil
  snapshots := rfl
  placed _ member := absurd member List.not_mem_nil

theorem created_accepted {call : Time × Call} {record : CampaignRecord}
    (holds : Holds tables records) (new : created setup tables call = some record) :
    Accepted record.feePolicy := by
  obtain ⟨now, call⟩ := call
  cases call with
  | insertProfile row | enable robinhood base | replaceFeePolicy row | changeState id state =>
      simp [created] at new
  | createCampaign id input =>
      cases outcome : step setup (now, .createCampaign id input) tables with
      | error failure => simp [created, outcome] at new
      | ok next =>
          obtain ⟨checked, -⟩ := createCampaign_ok holds outcome
          by_cases fresh : tables.campaign id = none
          · simp only [created, outcome, if_pos fresh, Option.some.injEq] at new
            exact new ▸ checkCampaign_accepted checked
          · simp [created, outcome, fresh] at new

theorem created_error {call : Time × Call} {failure : Error}
    (failed : step setup call tables = .error failure) : created setup tables call = none := by
  obtain ⟨now, call⟩ := call
  cases call <;> simp [created, failed]

/-- After any calls the tables hold exactly the campaigns that were created, all accepted. -/
theorem holds_applyAll (calls : List (Time × Call)) (holds : Holds tables records)
    (accepted : ∀ record ∈ records, Accepted record.feePolicy) :
    Holds (Machine.applyAll (step setup) tables calls) (records ++ creations setup tables calls) ∧
      ∀ record ∈ records ++ creations setup tables calls, Accepted record.feePolicy := by
  induction calls generalizing tables records with
  | nil => simpa [creations, Machine.applyAll] using ⟨holds, accepted⟩
  | cons call rest inductionHypothesis =>
      have stepped : Holds (Machine.apply (step setup) tables call)
          (records ++ (created setup tables call).toList) := by
        cases outcome : step setup call tables with
        | error failure =>
            rw [Machine.apply_error outcome, created_error outcome]
            simpa using holds
        | ok next =>
            rw [Machine.apply_ok outcome]
            exact (step_ok holds outcome).1
      have acceptedNow : ∀ record ∈ records ++ (created setup tables call).toList,
          Accepted record.feePolicy := by
        refine List.forall_mem_append.mpr ⟨accepted, fun record member => ?_⟩
        exact created_accepted holds (Option.mem_toList.mp member)
      have ran := inductionHypothesis stepped acceptedNow
      rwa [List.append_assoc] at ran

theorem holds_after (setup : Setup) (calls : List (Time × Call)) :
    Holds (Tables.after setup calls) (creations setup Tables.empty calls) ∧
      ∀ record ∈ creations setup Tables.empty calls, Accepted record.feePolicy :=
  holds_applyAll calls holds_empty (fun _ member => absurd member List.not_mem_nil)

/-- A stored campaign is read under the active policy of its chain. -/
theorem Holds.follows (holds : Holds tables records) {record : CampaignRecord}
    (member : record ∈ records) :
    ∃ read ∈ tables.campaign record.id, ∃ policy ∈ tables.chainPolicy record.chainId,
      Follows record.feePolicy policy read.feePolicy := by
  rw [← holds.snapshots] at member
  obtain ⟨row, rowMember, rfl⟩ := List.mem_map.mp member
  obtain ⟨ofId, place, found, ofChain, active⟩ := holds.placed row rowMember
  obtain ⟨policy, isActive⟩ := Option.ne_none_iff_exists'.mp active
  have ofProfile : Table.lookup ProfileRow.chainId row.snapshot.chainId tables.profiles =
      some place.profile := by
    obtain ⟨-, -, -, -, profile⟩ := place_eq_some.mp found
    rw [← ofChain]
    exact Table.lookup_of_mem holds.sound.chains (Table.lookup_eq_some profile).1
  obtain ⟨read, isRead, fees⟩ : ∃ read, tables.readCampaign row = some read ∧
      read.feePolicy = tables.readFeePolicy place.profile.id place.drop.mintPriceWei
        (some row.snapshot.feePolicy) :=
    ⟨_, by rw [Tables.readCampaign, found]; rfl, rfl⟩
  refine ⟨read, ?_, policy, ?_, ?_⟩
  · rw [campaign_eq (fun _ => holds.read), ← ofId, Table.lookup_of_mem holds.ids rowMember]
    exact isRead
  · rw [Tables.chainPolicy, ofProfile]
    exact isActive
  · rw [fees]
    exact readFeePolicy_follows isActive row.snapshot.feePolicy place.drop.mintPriceWei

/-- After any calls, every created campaign is returned with the priority fee and the free cap of
the active policy of its chain and with its own total, raised to what that priority fee needs;
they are at most what it was created with exactly when the policy covers it.  A creation or a
change of state changes the digest of no other campaign. -/
theorem stored_fees_follow_policy (setup : Setup) (digest : CampaignInputs → String)
    (calls : List (Time × Call)) :
    (∀ record ∈ creations setup Tables.empty calls,
      ∃ read ∈ (Tables.after setup calls).campaign record.id,
        ∃ policy ∈ (Tables.after setup calls).chainPolicy record.chainId,
          Follows record.feePolicy policy read.feePolicy ∧
            (AtMost read.feePolicy record.feePolicy ↔ Covered policy record.feePolicy)) ∧
    ∀ call id, call.2.campaignId = some id → ∀ other, other ≠ id →
      ((Tables.after setup (calls ++ [call])).campaign other).map (campaignInputDigest digest) =
        ((Tables.after setup calls).campaign other).map (campaignInputDigest digest) := by
  obtain ⟨holds, accepted⟩ := holds_after setup calls
  constructor
  · intro record member
    obtain ⟨read, found, policy, active, follows⟩ := holds.follows member
    exact ⟨read, found, policy, active, follows, follows.atMost_iff (accepted record member)⟩
  · intro call id named other differ
    congr 1
    have last : Tables.after setup (calls ++ [call]) =
        Machine.apply (step setup) (Tables.after setup calls) call := by
      rw [Tables.after, Machine.applyAll, List.foldl_append]
      rfl
    rw [last]
    cases outcome : step setup call (Tables.after setup calls) with
    | error failure => rw [Machine.apply_error outcome]
    | ok next =>
        rw [Machine.apply_ok outcome]
        obtain ⟨stored, effect⟩ := step_ok holds outcome
        exact (effect id named).campaign holds stored differ

/-! ## Two campaigns on one chain -/

/-- A store without a fleet policy. -/
def plainSetup : Setup where
  applicationPolicy := none
  fleetPolicy := none
  names := {
    toISOString := fun now => toString now
    secretLike := fun _ => false
    contractId := fun profileId contract => profileId ++ ":" ++ contract
    collectionId := fun contractId => contractId ++ ":collection"
    dropId := fun collectionId strategy _ => collectionId ++ ":" ++ strategy
    feePolicyId := fun profileId sequence _ _ => profileId ++ ":" ++ toString sequence
    feePolicyVersion := fun _ sequence _ _ => toString sequence }
  ethereumProfileId := "ethereum"
  secretLike := fun _ => false

/-- A free campaign with a priority fee, and the gas budgets that fit under twice of it. -/
def freeInput (priorityFeeWei : Wei) : CampaignInput where
  chainId := .ethereum
  contract := "0xc0"
  strategy := "seadrop-v1-public"
  quantity := 1
  maxRunWei := 100
  dailyCapWei := 100
  gasCeilingWei := 100
  broadcastMode := some .publicMode
  mintPriceWei := none
  feePolicy :=
    { kind := .free
      configuredPriorityFeeWei := priorityFeeWei
      l2ExecutionGasBudgetWei := some 5
      l1DataGasBudgetWei := some 2
      totalFeeBudgetWei := some (priorityFeeWei + 7)
      freeTotalSpendCapWei := some (priorityFeeWei * 2) }
  custodyPolicy := none

/-- The second campaign of a chain is returned with the fees of the first. -/
theorem second_campaign_looser :
    ¬ ∀ (setup : Setup) (calls : List (Time × Call)),
      ∀ record ∈ creations setup Tables.empty calls,
        ∀ read ∈ (Tables.after setup calls).campaign record.id,
          AtMost read.feePolicy record.feePolicy := by
  intro claimed
  let calls : List (Time × Call) :=
    [(1, .createCampaign "first" (freeInput 20)), (2, .createCampaign "second" (freeInput 10))]
  have stored : (freeInput 10).campaign "second" 2 ∈
      creations plainSetup Tables.empty calls := by
    decide +kernel
  have read : ((Tables.after plainSetup calls).campaign "second").map
      (fun read => read.feePolicy.configuredPriorityFeeWei) = some 20 := by
    decide +kernel
  obtain ⟨campaign, found, fee⟩ := Option.map_eq_some_iff.mp read
  have within := (claimed plainSetup calls _ stored campaign found).priority (by decide)
  rw [fee] at within
  exact absurd within (by decide)

end MintBot.CampaignFees
