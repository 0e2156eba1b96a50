import MintBot.Library.IntegerText
import MintBot.Replication.Once

/-!
# Which fresh contracts a tick claims

A tick looks at the newest scores of twenty contracts: those that were scored for the first time
last.  For each of them it tries the newest mint by a watched wallet and no other.  A fresh
contract is claimed exactly when it is among these contracts and that mint qualifies.
-/

namespace MintBot.Replication

open Fallible Machine

/-! ## The contracts that a tick looks at -/

/-- The contract that an opportunity event scores. -/
def EventRecord.scored (event : EventRecord) : Option ContractOnChain :=
  if event.isOpportunity then
    event.data.contract.map fun contract => (event.data.chainId, contract)
  else none

/-- The contracts with a score, in the order of their first scores. -/
def scoredContracts (events : List EventRecord) : List ContractOnChain :=
  OrderedMap.firsts (events.filterMap EventRecord.scored)

/-- The twenty contracts that were scored for the first time last. -/
def lastScored (events : List EventRecord) : List ContractOnChain :=
  (scoredContracts events).drop ((scoredContracts events).length - 20)

def newestScoreOf (events : List EventRecord) (contract : ContractOnChain) : Option EventRecord :=
  events.reverse.find? fun event => event.scored = some contract

/-- The key of a contract in the map of scores. -/
def scoreText (contract : ContractOnChain) : String :=
  chainText contract.1 ++ ":" ++ contract.2

theorem colon_notMem_chainText (chainId : Option Int) : ':' ∉ (chainText chainId).toList := by
  have digits (amount : Nat) : ':' ∉ amount.repr.toList := by
    intro member
    rw [Nat.toList_repr] at member
    exact absurd (IntegerText.isDigit_toDigits amount member) (by decide)
  rcases chainId with _ | amount | amount
  · decide
  · exact digits amount
  · change ':' ∉ ("-" ++ (amount + 1).repr).toList
    rw [String.toList_append, List.mem_append, not_or]
    exact ⟨by decide, digits (amount + 1)⟩

theorem chainText_injective : Function.Injective chainText := by
  intro first second same
  have read := congrArg IntegerText.readInteger same
  have missing : IntegerText.readInteger "undefined" = none := by decide
  rcases first with _ | first
  · rcases second with _ | second
    · rfl
    · rw [chainText, chainText, missing, IntegerText.readInteger_toString] at read
      cases read
  · rcases second with _ | second
    · rw [chainText, chainText, missing, IntegerText.readInteger_toString] at read
      cases read
    · rw [chainText, chainText, IntegerText.readInteger_toString,
        IntegerText.readInteger_toString] at read
      exact read

/-- The text of a chain ends at the first colon. -/
theorem scoreText_injective : Function.Injective scoreText := by
  rintro ⟨first, firstContract⟩ ⟨second, secondContract⟩ same
  have chars := congrArg String.toList same
  simp only [scoreText, String.toList_append] at chars
  have whole (chainId : Option Int) : ∀ char ∈ (chainText chainId).toList, (char != ':') = true := by
    intro char member
    rw [bne_iff_ne]
    rintro rfl
    exact colon_notMem_chainText chainId member
  have before := congrArg (List.takeWhile (· != ':')) chars
  simp only [List.append_assoc, List.takeWhile_append_of_pos (whole _)] at before
  obtain rfl : first = second :=
    chainText_injective (String.ext (by simpa using before))
  simp only [List.append_cancel_left_eq] at chars
  rw [String.ext chars]

theorem claimKey_eq (contract : ContractOnChain) :
    claimKey contract.1 contract.2 = "replication_claim:" ++ scoreText contract := by
  unfold claimKey scoreText
  rw [String.append_assoc, String.append_assoc, String.append_assoc]

theorem claimKey_inj {first second : ContractOnChain} :
    claimKey first.1 first.2 = claimKey second.1 second.2 ↔ first = second := by
  constructor
  · intro same
    rw [claimKey_eq, claimKey_eq] at same
    have chars := congrArg String.toList same
    rw [String.toList_append, String.toList_append, List.append_cancel_left_eq] at chars
    exact scoreText_injective (String.ext chars)
  · rintro rfl
    rfl

/-- The events that the map of scores is filled from. -/
def scoreRows (events : List EventRecord) : List (ContractOnChain × EventRecord) :=
  events.filterMap fun event => event.scored.map fun contract => (contract, event)

theorem newestScores_eq (events : List EventRecord) :
    newestScores events = (scoreRows events).foldl
      (fun scores row => OrderedMap.set scores (scoreText row.1) row.2) [] := by
  rw [newestScores, scoreRows, List.foldl_filterMap]
  congr 1
  funext scores event
  unfold EventRecord.scored
  cases event.data.contract with
  | none => simp
  | some contract => cases event.isOpportunity <;> rfl

theorem keys_newestScores (events : List EventRecord) :
    (newestScores events).map Prod.fst = (scoredContracts events).map scoreText := by
  have contracts : (scoreRows events).map Prod.fst = events.filterMap EventRecord.scored := by
    rw [scoreRows, List.map_filterMap]
    congr 1
    funext event
    cases event.scored <;> rfl
  rw [newestScores_eq, OrderedMap.keys_foldl_set, scoredContracts, ← contracts,
    ← OrderedMap.firsts_map scoreText_injective, List.map_map]
  rfl

theorem get_newestScores (events : List EventRecord) (contract : ContractOnChain) :
    (newestScores events).get (scoreText contract) = newestScoreOf events contract := by
  rw [newestScores_eq, OrderedMap.get_foldl_set, scoreRows, ← List.filterMap_reverse,
    newestScoreOf, OrderedMap.get, List.find?_nil, Option.map_none, Option.or_none,
    List.find?_filterMap]
  have same (event : EventRecord) :
      ((event.scored.map fun scored => (scored, event)).any fun row =>
        decide (scoreText row.1 = scoreText contract)) = decide (event.scored = some contract) := by
    cases event.scored with
    | none => rfl
    | some scored => simp [scoreText_injective.eq_iff]
  simp only [same]
  cases found : events.reverse.find? fun event => event.scored = some contract with
  | none => rfl
  | some event =>
      have scored : event.scored = some contract := by simpa using List.find?_some found
      rw [Option.bind_some, scored]
      rfl

/-- Every entry is the newest score of the contract that its key writes. -/
theorem newestScores_entry {events : List EventRecord} {entry : String × EventRecord}
    (member : entry ∈ newestScores events) :
    ∃ contract, entry.1 = scoreText contract ∧ entry.2.scored = some contract ∧
      newestScoreOf events contract = some entry.2 := by
  have key : entry.1 ∈ (scoredContracts events).map scoreText := by
    rw [← keys_newestScores]
    exact List.mem_map_of_mem member
  obtain ⟨contract, -, same⟩ := List.mem_map.mp key
  have distinct : ((newestScores events).map Prod.fst).Nodup := by
    rw [newestScores_eq]
    exact OrderedMap.nodup_foldl_set _ _ _ List.nodup_nil
  have newest : newestScoreOf events contract = some entry.2 := by
    rw [← get_newestScores, same]
    exact OrderedMap.get_of_mem distinct member
  exact ⟨contract, same.symm, by simpa using List.find?_some newest, newest⟩

/-- The queue of a tick holds one score for each of the contracts scored for the first time
last. -/
theorem scored_scoreQueue (events : List EventRecord) :
    (scoreQueue events).map EventRecord.scored = (lastScored events).map some := by
  have contracts : (newestScores events).map (fun entry => entry.2.scored) =
      (scoredContracts events).map some := by
    have texts : ((newestScores events).map fun entry => entry.2.scored).map
        (Option.map scoreText) = ((scoredContracts events).map some).map
          (Option.map scoreText) := by
      rw [List.map_map, List.map_map]
      have keys := congrArg (List.map some) (keys_newestScores events)
      rw [List.map_map, List.map_map] at keys
      refine Eq.trans (List.map_congr_left fun entry member => ?_) keys
      obtain ⟨contract, key, scored, -⟩ := newestScores_entry member
      rw [Function.comp_apply, Function.comp_apply, scored, key]
      rfl
    exact List.map_injective_iff.mpr (Option.map_injective scoreText_injective) texts
  have lengths : (newestScores events).length = (scoredContracts events).length := by
    simpa using congrArg List.length contracts
  rw [scoreQueue, lastScored, List.map_drop, List.map_drop, List.map_map, ← contracts,
    List.length_map, lengths]
  rfl

theorem mem_scoreQueue {events : List EventRecord} {score : EventRecord}
    (member : score ∈ scoreQueue events) :
    ∃ contract ∈ lastScored events, score.scored = some contract ∧
      newestScoreOf events contract = some score := by
  obtain ⟨entry, inside, rfl⟩ := List.mem_map.mp (List.mem_of_mem_drop member)
  obtain ⟨contract, -, scored, newest⟩ := newestScores_entry inside
  refine ⟨contract, ?_, scored, newest⟩
  have listed := List.mem_map_of_mem (f := EventRecord.scored) member
  rw [scored_scoreQueue, scored] at listed
  obtain ⟨other, inside, same⟩ := List.mem_map.mp listed
  rwa [← Option.some.inj same]

/-- The score of another contract. -/
def Elsewhere (contract : ContractOnChain) (score : EventRecord) : Prop :=
  ∃ other, score.scored = some other ∧ other ≠ contract

theorem elsewhere_of_mem {events : List EventRecord} {contract : ContractOnChain}
    {score : EventRecord} (member : score ∈ scoreQueue events)
    (different : score.scored ≠ some contract) : Elsewhere contract score := by
  obtain ⟨other, -, scored, -⟩ := mem_scoreQueue member
  exact ⟨other, scored, fun same => different (same ▸ scored)⟩

/-- The score of a contract stands in the queue among scores of other contracts. -/
theorem scoreQueue_split {events : List EventRecord} {contract : ContractOnChain}
    {score : EventRecord} (looked : contract ∈ lastScored events)
    (newest : newestScoreOf events contract = some score) :
    ∃ before after, scoreQueue events = before ++ score :: after ∧
      (∀ earlier ∈ before, Elsewhere contract earlier) ∧
      ∀ later ∈ after, Elsewhere contract later := by
  have listed : some contract ∈ (scoreQueue events).map EventRecord.scored := by
    rw [scored_scoreQueue]
    exact List.mem_map_of_mem looked
  have distinct : ((scoreQueue events).map EventRecord.scored).Nodup := by
    rw [scored_scoreQueue]
    exact ((OrderedMap.nodup_firsts _).sublist (List.drop_sublist _ _)).map
      fun _ _ => Option.some.inj
  obtain ⟨found, inside, scored⟩ := List.mem_map.mp listed
  obtain ⟨other, -, same, newestFound⟩ := mem_scoreQueue inside
  obtain rfl : other = contract := Option.some.inj (same.symm.trans scored)
  obtain rfl : found = score := Option.some.inj (newestFound.symm.trans newest)
  obtain ⟨before, after, split⟩ := List.append_of_mem inside
  rw [split, List.map_append, List.map_cons, List.nodup_append, List.nodup_cons] at distinct
  obtain ⟨-, ⟨onceAfter, -⟩, onceBefore⟩ := distinct
  refine ⟨before, after, split, fun earlier member => ?_, fun later member => ?_⟩
  · refine elsewhere_of_mem (split ▸ List.mem_append_left _ member) fun repeated => ?_
    exact onceBefore _ (List.mem_map_of_mem member) _ List.mem_cons_self
      (repeated.trans scored.symm)
  · have inside : later ∈ scoreQueue events :=
      split ▸ List.mem_append_right _ (List.mem_cons_of_mem _ member)
    refine elsewhere_of_mem inside fun repeated => ?_
    exact onceAfter (scored.trans repeated.symm ▸ List.mem_map_of_mem member)

/-! ## What the dependencies answer -/

structure Dependencies where
  watchedWallets : Option Int → List String
  wallets : List String
  qualify : EventRecord → List String → QualifiedSource

namespace Dependencies

variable (deps : Dependencies)

/-- A mint of the contract by a wallet that is watched. -/
def watchedMint (contract : ContractOnChain) (event : EventRecord) : Bool :=
  event.type = "watched_wallet_mint" && event.data.chainId = contract.1 &&
    event.data.contract = some contract.2 &&
    (deps.watchedWallets contract.1).any fun wallet =>
      toLowerCase wallet = toLowerCase (event.data.wallet.getD "undefined")

def newestWatchedMint (events : List EventRecord) (contract : ContractOnChain) :
    Option EventRecord :=
  events.reverse.find? (deps.watchedMint contract)

/-- The mint qualifies for the wallets of the owner. -/
def Replicable (source : EventRecord) : Prop :=
  (deps.qualify source deps.wallets).verdict = .replicable

/-- An answer of a dependency that succeeds. -/
def Succeeds (tick : Tick) : Answer → Prop
  | .watched outcome =>
      ∀ score ∈ tick.queue.head?, outcome = .ok (deps.watchedWallets score.data.chainId)
  | .wallets outcome => outcome = .ok deps.wallets
  | .qualified outcome =>
      ∀ job wallets, tick.stage = .qualifying job wallets →
        outcome = .ok (deps.qualify job.source wallets)
  | .claimed ending _ | .stored ending _ _ | .requested ending _ _ => ending = .committed
  | .prepared outcome => ∃ prepared, outcome = .ok prepared
  | .simulated outcome => ∃ recorded, outcome = .ok recorded
  | .ready outcome | .notified outcome => outcome = .ok ()
  | .requalified outcome withinCaps =>
      (∃ qualified, outcome = .ok qualified) ∧ ∃ within, withinCaps = .ok within
  | .fired outcome => ∃ requestId, outcome = .ok requestId

/-- One tick runs, its dependencies succeed, and time goes on. -/
def Undisturbed (process : Nat) (state : Automations) : Command → Prop
  | .answer other answer =>
      other = process ∧ ∀ tick, state.ticks process = some tick → deps.Succeeds tick answer
  | .setClock now => state.store.clock ≤ now
  | .setKillSwitch _ | .createCampaign _ => True
  | .append _ _ | .tick _ | .crash _ => False

theorem findSource_eq {events : List EventRecord} {score : EventRecord}
    {contract : ContractOnChain} (scored : score.scored = some contract) :
    findSource events (.ok (deps.watchedWallets score.data.chainId)) score =
      .ok (deps.newestWatchedMint events contract) := by
  have parts : score.data.chainId = contract.1 ∧ score.data.contract = some contract.2 := by
    simp only [EventRecord.scored, Option.ite_none_right_eq_some, Option.map_eq_some_iff] at scored
    obtain ⟨-, name, found, rfl⟩ := scored
    exact ⟨rfl, found⟩
  have search : ∀ mints, mints = events.reverse.filter (fun event =>
      event.type = "watched_wallet_mint" && event.data.chainId = contract.1 &&
        event.data.contract = some contract.2) →
      (mints.find? fun event => (deps.watchedWallets contract.1).any fun wallet =>
        toLowerCase wallet = toLowerCase (event.data.wallet.getD "undefined")) =
        deps.newestWatchedMint events contract := by
    rintro mints rfl
    rw [List.find?_filter, newestWatchedMint]
    congr 1
    funext event
    rw [watchedMint, Bool.decide_and, Bool.decide_eq_true, Bool.decide_eq_true]
  rw [findSource, parts.1, parts.2]
  split
  · rename_i none
    rw [← search _ none.symm]
    rfl
  · rw [search _ rfl]

end Dependencies

/-! ## What an answer does to the scores of a tick -/

/-- The contract that a tick is about to claim. -/
def Stage.candidate : Stage → Option Job
  | .choosing job | .qualifying job _ | .claiming job _ _ => some job
  | _ => none

/-- What a stage holds came from the dependencies. -/
def Stage.Tells (deps : Dependencies) : Stage → Prop
  | .qualifying _ wallets => wallets = deps.wallets
  | .claiming job wallets qualified =>
      wallets = deps.wallets ∧ qualified = deps.qualify job.source deps.wallets ∧
        deps.Replicable job.source
  | _ => True

/-- A score that is taken up has a source, and its contract is not claimed. -/
structure Takes (deps : Dependencies) (store : AutomationStore) (tick : Tick) (score : EventRecord)
    (source : EventRecord) : Prop where
  counts : scoreCounts store.clock score = true
  found : findSource tick.events (.ok (deps.watchedWallets score.data.chainId)) score =
    .ok (some source)
  unclaimed : (⟨score, source⟩ : Job).key ∉ tick.claims

/-- The same claims are known, and the same ids that a claim could have. -/
def SameClaims (before after : AutomationStore) : Prop :=
  ∀ contract : ContractOnChain,
    (claimKey contract.1 contract.2 ∈ claimIds after.events ↔
      claimKey contract.1 contract.2 ∈ claimIds before.events) ∧
    (claimKey contract.1 contract.2 ∈ after.events.map EventRecord.id ↔
      claimKey contract.1 contract.2 ∈ before.events.map EventRecord.id)

/-- What an answer of a dependency that succeeds does to the scores of a tick. -/
inductive Move (deps : Dependencies) (store : AutomationStore) (tick : Tick) : Turn → Prop
  | finished {acts : List Act} (empty : tick.queue = []) (idle : tick.stage.candidate = none) :
      Move deps store tick { store := store, tick := none, acts := acts }
  | skips {score : EventRecord} {rest : List EventRecord} (queue : tick.queue = score :: rest)
      (looping : tick.stage = .looping) (reason : ∀ source, ¬ Takes deps store tick score source) :
      Move deps store tick { store := store, tick := some { tick with queue := rest } }
  | takes {score source : EventRecord} {rest : List EventRecord}
      (queue : tick.queue = score :: rest) (idle : tick.stage.candidate = none)
      (takes : Takes deps store tick score source) :
      Move deps store tick
        { store := store, tick := some ({ tick with queue := rest }.move (.choosing ⟨score, source⟩)) }
  | tries {job : Job} {stage : Stage} (candidate : tick.stage.candidate = some job)
      (same : stage.candidate = some job) (tells : stage.Tells deps) :
      Move deps store tick { store := store, tick := some (tick.move stage) }
  | leaves {job : Job} (candidate : tick.stage.candidate = some job)
      (reason : store.knows job.key = true ∨ ¬ deps.Replicable job.source) :
      Move deps store tick { store := store, tick := some (tick.move .looping) }
  | claims {job : Job} {stage : Stage} {place : Nat} {acts : List Act}
      (candidate : tick.stage.candidate = some job) (replicable : deps.Replicable job.source)
      (unknown : store.knows job.key = false) (idle : stage.candidate = none)
      (tells : stage.Tells deps) :
      Move deps store tick
        { store := store.push place (claimEvent store job)
          tick := some ({ tick with claims := job.key :: tick.claims }.move stage)
          acts := acts }
  | works {after : AutomationStore} {stage : Stage} {acts : List Act}
      (working : tick.stage.candidate = none) (idle : stage.candidate = none)
      (tells : stage.Tells deps) (clock : after.clock = store.clock)
      (same : SameClaims store after) :
      Move deps store tick { store := after, tick := some (tick.move stage), acts := acts }

namespace SameClaims

variable {before after : AutomationStore}

theorem of_events (same : after.events = before.events) : SameClaims before after := by
  intro contract
  rw [same]
  exact ⟨Iff.rfl, Iff.rfl⟩

theorem push {event : EventRecord} (place : Nat) (type : event.type ≠ "replication_claim")
    (id : ∀ chainId contract, event.id ≠ claimKey chainId contract) :
    SameClaims before (before.push place event) := by
  intro contract
  have perm : (before.push place event).events.Perm (event :: before.events) :=
    perm_push place event
  constructor
  · have filtered := (perm.filter fun event => event.type = "replication_claim").map EventRecord.id
    rw [List.filter_cons_of_neg (by simpa using type)] at filtered
    exact filtered.mem_iff
  · rw [(perm.map EventRecord.id).mem_iff, List.map_cons, List.mem_cons, or_iff_right]
    exact fun same => id _ _ same.symm

end SameClaims

theorem prepared_ne_claimKey (uuid : String) (chainId : Option Int) (contract : String) :
    "replication_prepared_" ++ uuid ≠ claimKey chainId contract := by
  intro same
  rw [claimKey_eq (chainId, contract)] at same
  have chars := congrArg String.toList same
  simp [String.toList_append] at chars

theorem requested_ne_claimKey (uuid : String) (chainId : Option Int) (contract : String) :
    "replication_requested_" ++ uuid ≠ claimKey chainId contract := by
  intro same
  rw [claimKey_eq (chainId, contract)] at same
  have chars := congrArg String.toList same
  simp [String.toList_append] at chars

namespace Tick

variable {tick : Tick} {job : Job} {qualified : QualifiedSource} {error : Thrown}

theorem stop_eq (tick : Tick) (job : Job) (claimed : Bool) (error : Thrown) :
    ∃ stage : Stage, tick.stop job claimed error = tick.move stage ∧ stage.candidate = none ∧
      ∀ deps, stage.Tells deps := by
  unfold stop
  cases claimed
  · exact ⟨_, rfl, rfl, fun _ => trivial⟩
  · exact ⟨_, rfl, rfl, fun _ => trivial⟩

theorem nextPrepared_eq (tick : Tick) (job : Job) (qualified : QualifiedSource)
    (rest : List Prepared) :
    ∃ stage : Stage, tick.nextPrepared job qualified rest = tick.move stage ∧
      stage.candidate = none ∧ ∀ deps, stage.Tells deps := by
  cases rest
  · exact ⟨_, rfl, rfl, fun _ => trivial⟩
  · exact ⟨_, rfl, rfl, fun _ => trivial⟩

end Tick

namespace Move

variable {deps : Dependencies} {store : AutomationStore} {tick : Tick} {turn : Turn}

theorem works_stop {job : Job} {error : Thrown} {after : AutomationStore} {acts : List Act}
    (claimed : Bool) (working : tick.stage.candidate = none) (clock : after.clock = store.clock)
    (same : SameClaims store after) :
    Move deps store tick { store := after, tick := some (tick.stop job claimed error), acts := acts } := by
  obtain ⟨stage, stops, idle, tells⟩ := tick.stop_eq job claimed error
  rw [stops]
  exact .works working idle (tells deps) clock same

theorem works_next {job : Job} {qualified : QualifiedSource} {rest : List Prepared}
    {after : AutomationStore} {acts : List Act} (working : tick.stage.candidate = none)
    (clock : after.clock = store.clock) (same : SameClaims store after) :
    Move deps store tick
      { store := after, tick := some (tick.nextPrepared job qualified rest), acts := acts } := by
  obtain ⟨stage, goes, idle, tells⟩ := tick.nextPrepared_eq job qualified rest
  rw [goes]
  exact .works working idle (tells deps) clock same

theorem of_takeScore {watched : Except Thrown (List String)} (looping : tick.stage = .looping)
    (succeeds : deps.Succeeds tick (.watched watched)) :
    Move deps store tick { store := store, tick := tick.takeScore store.clock watched } := by
  have idle : tick.stage.candidate = none := by
    rw [looping]
    rfl
  unfold Tick.takeScore
  split
  · rename_i empty
    exact .finished empty idle
  · rename_i score rest queue
    obtain rfl := succeeds score (by rw [queue]; rfl)
    dsimp only
    split
    · rename_i tooLow
      exact .skips queue looping fun source takes => by rw [takes.counts] at tooLow; cases tooLow
    · rename_i counts
      split
      · rename_i error failed
        unfold findSource at failed
        dsimp only at failed
        split at failed <;> cases failed
      · rename_i missing
        exact .skips queue looping fun source takes => by
          have found := takes.found
          rw [missing] at found
          cases found
      · rename_i source found
        split
        · rename_i claimed
          refine .skips queue looping fun other takes => ?_
          obtain rfl : source = other :=
            Option.some.inj (Except.ok.inj (found.symm.trans takes.found))
          exact takes.unclaimed claimed
        · rename_i unclaimed
          exact .takes queue idle ⟨by simpa using counts, found, unclaimed⟩

variable {campaignInputDigest : CampaignInputDigest}

/-- What an answer does is one of the moves. -/
theorem of_advance {stage : Stage} (current : tick.stage = stage) (tells : stage.Tells deps)
    {answer : Answer} (succeeds : deps.Succeeds tick answer)
    (success : advance campaignInputDigest store tick stage answer = .ok turn) :
    Move deps store tick turn := by
  have same : SameClaims store store := .of_events rfl
  unfold advance at success
  split at success
  case h_1 watched =>
    cases success
    exact of_takeScore current succeeds
  case h_2 job outcome =>
    obtain rfl : outcome = .ok deps.wallets := succeeds
    cases success
    exact .tries (by rw [current]; rfl) rfl rfl
  case h_3 job wallets outcome =>
    obtain rfl := succeeds job wallets current
    obtain rfl : wallets = deps.wallets := tells
    have candidate : tick.stage.candidate = some job := by rw [current]; rfl
    dsimp only at success
    split at success
    · rename_i refused
      cases success
      exact .leaves candidate (.inr refused)
    · rename_i qualifies
      cases success
      exact .tries candidate rfl ⟨rfl, rfl, not_not.mp qualifies⟩
  case h_4 job wallets qualified ending place =>
    obtain rfl : ending = .committed := succeeds
    have candidate : tick.stage.candidate = some job := by rw [current]; rfl
    cases success
    cases known : store.knows job.key with
    | true =>
        simp only [claim, known, Bool.not_true, Bool.and_false, Bool.false_and,
          Bool.false_eq_true, if_false]
        exact .leaves candidate (.inl known)
    | false =>
        simp only [claim, known, TransactionEnd.ran, TransactionEnd.writes, Bool.not_false,
          Bool.and_self, if_true]
        exact .claims candidate tells.2.2 known rfl trivial
  case h_5 job qualified outcome =>
    obtain ⟨prepared, rfl⟩ := succeeds
    simp only [bind_eq_ok, refuse_eq_ok, pure_eq_ok, not_or, not_not] at success
    obtain ⟨-, -, rfl⟩ := success
    exact works_next (by rw [current]; rfl) rfl (SameClaims.of_events rfl)
  case h_6 work outcome =>
    have working : tick.stage.candidate = none := by rw [current]; rfl
    split at success
    · cases success; exact works_stop true working rfl same
    · cases success; exact works_stop true working rfl same
    · cases success; exact .works working rfl trivial rfl same
  case h_7 work recorded ending uuid place =>
    obtain rfl : ending = .committed := succeeds
    cases success
    simp only [Replication.store, TransactionEnd.writes, if_true]
    have working : tick.stage.candidate = none := by rw [current]; rfl
    have pushed : SameClaims store (store.push place
        (authorityEvent campaignInputDigest store work recorded
          ("replication_prepared_" ++ uuid))) := .push place
      (show "replication_prepared" ≠ "replication_claim" by decide) (prepared_ne_claimKey uuid)
    split
    · exact .works working rfl trivial rfl pushed
    · exact .works working rfl trivial rfl pushed
  case h_8 work notice outcome =>
    obtain rfl : outcome = .ok () := succeeds
    cases success
    exact works_next (by rw [current]; rfl) rfl same
  case h_9 authority outcome =>
    obtain rfl : outcome = .ok () := succeeds
    cases success
    unfold assertAuthority
    split
    · exact works_stop true (by rw [current]; rfl) rfl same
    · exact .works (by rw [current]; rfl) rfl trivial rfl same
  case h_10 authority outcome withinCaps =>
    have working : tick.stage.candidate = none := by rw [current]; rfl
    split at success
    · cases success; exact works_stop true working rfl same
    · cases success; exact .works working rfl trivial rfl same
  case h_11 authority outcome =>
    obtain ⟨requestId, rfl⟩ := succeeds
    cases success
    exact .works (by rw [current]; rfl) rfl trivial rfl same
  case h_12 authority requestId ending uuid place =>
    obtain rfl : ending = .committed := succeeds
    cases success
    exact works_next (by rw [current]; rfl) rfl
      (SameClaims.push place (show "replication_requested" ≠ "replication_claim" by decide)
        (requested_ne_claimKey uuid))
  case h_13 => cases success; exact .works (by rw [current]; rfl) rfl trivial rfl same
  case h_14 => cases success

end Move

/-! ## Contracts that should be claimed, and those that are -/

/-- A fresh contract without a claim whose newest score counts, with a mint by a watched wallet
that qualifies; `first` and `last` are the times when the tick begins and ends. -/
structure Eligible (deps : Dependencies) (events : List EventRecord) (first last : Time)
    (contract : ContractOnChain) : Prop where
  unclaimed : claimKey contract.1 contract.2 ∉ claimIds events
  fresh : ∃ score instant value, newestScoreOf events contract = some score ∧
    score.instant = some instant ∧ instant ≤ first ∧ last - instant ≤ 15 * 60000 ∧
    score.data.blocked = false ∧ score.data.score = some (.number value) ∧
    70 ≤ value ∧ value ≤ 100
  minted : ∃ event ∈ events, deps.watchedMint contract event = true ∧ deps.Replicable event

/-- The contract is among the twenty that a tick looks at, no event has the id of its claim, and
the newest mint by a watched wallet qualifies. -/
structure Considered (deps : Dependencies) (events : List EventRecord)
    (contract : ContractOnChain) : Prop where
  looked : contract ∈ lastScored events
  free : claimKey contract.1 contract.2 ∉ events.map EventRecord.id
  qualifies : ∃ source, deps.newestWatchedMint events contract = some source ∧
    deps.Replicable source

section Course

variable (deps : Dependencies) (events : List EventRecord) (process : Nat)
  (contract : ContractOnChain)

/-- How far a tick has come with a contract. -/
inductive Course (state : Automations) : Prop
  | awaits {tick : Tick} {before after : List EventRecord} {score : EventRecord}
      (found : state.ticks process = some tick) (queue : tick.queue = before ++ score :: after)
      (earlier : ∀ other ∈ before, Elsewhere contract other)
      (later : ∀ other ∈ after, Elsewhere contract other)
      (newest : newestScoreOf events contract = some score)
      (looked : contract ∈ lastScored events)
      (other : ∀ job, tick.stage.candidate = some job → Elsewhere contract job.score)
      (unclaimed : claimKey contract.1 contract.2 ∉ claimIds state.store.events)
      (unnoted : claimKey contract.1 contract.2 ∉ tick.claims)
  | tries {tick : Tick} {job : Job} (found : state.ticks process = some tick)
      (candidate : tick.stage.candidate = some job) (here : job.score.scored = some contract)
      (newest : deps.newestWatchedMint events contract = some job.source)
      (looked : contract ∈ lastScored events)
      (later : ∀ other ∈ tick.queue, Elsewhere contract other)
      (unclaimed : claimKey contract.1 contract.2 ∉ claimIds state.store.events)
  | claimed (stored : claimKey contract.1 contract.2 ∈ claimIds state.store.events)
      (considered : Considered deps events contract)
  | passed (unclaimed : claimKey contract.1 contract.2 ∉ claimIds state.store.events)
      (ignored : ¬ Considered deps events contract)
      (gone : ∀ tick, state.ticks process = some tick →
        (∀ other ∈ tick.queue, Elsewhere contract other) ∧
          ∀ job, tick.stage.candidate = some job → Elsewhere contract job.score)

/-- What is known of a tick that began at `first`, while the clock is not past `last`. -/
structure Tracks (first last : Time) (state : Automations) : Prop where
  clock : first ≤ state.store.clock
  tick : ∀ tick, state.ticks process = some tick →
    tick.events = events ∧ tick.stage.Tells deps
  ids : claimKey contract.1 contract.2 ∉ claimIds state.store.events →
    (claimKey contract.1 contract.2 ∈ state.store.events.map EventRecord.id ↔
      claimKey contract.1 contract.2 ∈ events.map EventRecord.id)
  course : state.store.clock ≤ last → Course deps events process contract state

end Course

variable {deps : Dependencies} {events : List EventRecord} {process : Nat}
  {contract : ContractOnChain} {first last : Time} {state : Automations} {tick : Tick}
  {turn : Turn}

theorem Job.contract_of_scored {job : Job} (scored : job.score.scored = some contract) :
    job.contract = contract := by
  simp only [EventRecord.scored, Option.ite_none_right_eq_some, Option.map_eq_some_iff] at scored
  obtain ⟨-, name, found, rfl⟩ := scored
  rw [Job.contract, found]
  rfl

theorem Elsewhere.key_ne {job : Job} (elsewhere : Elsewhere contract job.score) :
    claimKey contract.1 contract.2 ≠ job.key := by
  obtain ⟨other, scored, different⟩ := elsewhere
  rw [Job.key, Job.contract_of_scored scored]
  exact fun same => different (claimKey_inj.mp same).symm

/-- A claim adds its own id and no other. -/
theorem mem_claimIds_claim {store : AutomationStore} {job : Job} (place : Nat) (id : String) :
    (id ∈ claimIds (store.push place (claimEvent store job)).events ↔
      id = job.key ∨ id ∈ claimIds store.events) ∧
    (id ∈ (store.push place (claimEvent store job)).events.map EventRecord.id ↔
      id = job.key ∨ id ∈ store.events.map EventRecord.id) := by
  have perm : (store.push place (claimEvent store job)).events.Perm
      (claimEvent store job :: store.events) := perm_push place _
  constructor
  · have filtered := (perm.filter fun event => event.type = "replication_claim").map EventRecord.id
    rw [List.filter_cons_of_pos (by simp [claimEvent]), List.map_cons] at filtered
    exact filtered.mem_iff.trans List.mem_cons
  · exact (perm.map EventRecord.id).mem_iff.trans List.mem_cons

/-- A fresh contract is taken up when its turn comes. -/
theorem Eligible.takes {store : AutomationStore} {score : EventRecord}
    (eligible : Eligible deps events first last contract)
    (newest : newestScoreOf events contract = some score) (same : tick.events = events)
    (begun : first ≤ store.clock) (ends : store.clock ≤ last)
    (unnoted : claimKey contract.1 contract.2 ∉ tick.claims) :
    ∃ source, Takes deps store tick score source ∧
      deps.newestWatchedMint events contract = some source := by
  obtain ⟨other, instant, value, newestOther, dated, past, recent, unblocked, number, low, high⟩ :=
    eligible.fresh
  obtain rfl : other = score := Option.some.inj (newestOther.symm.trans newest)
  have scored : other.scored = some contract := by simpa using List.find?_some newest
  obtain ⟨event, member, watched, -⟩ := eligible.minted
  have some_mint : (deps.newestWatchedMint events contract).isSome := by
    rw [Dependencies.newestWatchedMint, List.find?_isSome]
    exact ⟨event, List.mem_reverse.mpr member, watched⟩
  obtain ⟨source, mint⟩ := Option.isSome_iff_exists.mp some_mint
  refine ⟨source, ⟨?_, ?_, ?_⟩, mint⟩
  · have known : instant ≤ store.clock := Int.le_trans past begun
    have young : store.clock - instant ≤ 900000 :=
      Int.le_trans (Int.sub_le_sub_right ends _) recent
    simp [scoreCounts, dated, number, inScoreRange, unblocked, low, high, known, young]
  · rw [same, deps.findSource_eq scored, mint]
  · rw [Job.key, @Job.contract_of_scored _ ⟨other, source⟩ scored]
    exact unnoted

namespace Move

variable {store : AutomationStore}

theorem clock (moved : Move deps store tick turn) : turn.store.clock = store.clock := by
  cases moved with
  | works working idle tells clock same => exact clock
  | _ => rfl

theorem going {next : Tick} (moved : Move deps store tick turn) (goes : turn.tick = some next) :
    next.events = tick.events ∧ next.stage.Tells deps := by
  cases moved with
  | finished => cases goes
  | skips queue looping =>
      obtain rfl := Option.some.inj goes
      refine ⟨rfl, ?_⟩
      dsimp only
      rw [looping]
      trivial
  | takes =>
      obtain rfl := Option.some.inj goes
      exact ⟨rfl, trivial⟩
  | leaves =>
      obtain rfl := Option.some.inj goes
      exact ⟨rfl, trivial⟩
  | tries candidate same tells =>
      obtain rfl := Option.some.inj goes
      exact ⟨rfl, tells⟩
  | claims candidate replicable unknown idle tells =>
      obtain rfl := Option.some.inj goes
      exact ⟨rfl, tells⟩
  | works working idle tells =>
      obtain rfl := Option.some.inj goes
      exact ⟨rfl, tells⟩

/-- A contract that is not being claimed has no claim afterwards that it did not have. -/
theorem unclaimed (moved : Move deps store tick turn)
    (other : ∀ job, tick.stage.candidate = some job → Elsewhere contract job.score)
    (absent : claimKey contract.1 contract.2 ∉ claimIds store.events) :
    claimKey contract.1 contract.2 ∉ claimIds turn.store.events := by
  cases moved with
  | @claims job stage place acts candidate =>
      rw [(mem_claimIds_claim place _).1, not_or]
      exact ⟨(other job candidate).key_ne, absent⟩
  | works working idle tells clock same => exact mt (same contract).1.mp absent
  | _ => exact absent

theorem ids (moved : Move deps store tick turn)
    (absent : claimKey contract.1 contract.2 ∉ claimIds turn.store.events) :
    claimKey contract.1 contract.2 ∉ claimIds store.events ∧
      (claimKey contract.1 contract.2 ∈ turn.store.events.map EventRecord.id ↔
        claimKey contract.1 contract.2 ∈ store.events.map EventRecord.id) := by
  cases moved with
  | @claims job stage place acts candidate =>
      rw [(mem_claimIds_claim place _).1, not_or] at absent
      exact ⟨absent.2, (mem_claimIds_claim place _).2.trans (or_iff_right absent.1)⟩
  | works working idle tells clock same =>
      exact ⟨mt (same contract).1.mpr absent, (same contract).2⟩
  | _ => exact ⟨absent, Iff.rfl⟩

/-- A claim stays. -/
theorem stored (moved : Move deps store tick turn)
    (present : claimKey contract.1 contract.2 ∈ claimIds store.events) :
    claimKey contract.1 contract.2 ∈ claimIds turn.store.events := by
  by_contra absent
  exact (moved.ids absent).1 present

end Move

namespace Course

/-- A tick that was through with a contract stays so. -/
theorem passed_move (moved : Move deps state.store tick turn)
    (unclaimed : claimKey contract.1 contract.2 ∉ claimIds state.store.events)
    (ignored : ¬ Considered deps events contract)
    (later : ∀ other ∈ tick.queue, Elsewhere contract other)
    (other : ∀ job, tick.stage.candidate = some job → Elsewhere contract job.score) :
    Course deps events process contract (state.take process tick turn) := by
  refine .passed (moved.unclaimed other unclaimed) ignored fun next goes => ?_
  replace goes : turn.tick = some next := by
    simpa [Automations.take, Automations.setTick] using goes
  cases moved with
  | finished => cases goes
  | skips queue looping =>
      obtain rfl := Option.some.inj goes
      rw [queue] at later
      exact ⟨fun score member => later score (List.mem_cons_of_mem _ member), other⟩
  | takes queue =>
      obtain rfl := Option.some.inj goes
      rw [queue] at later
      refine ⟨fun score member => later score (List.mem_cons_of_mem _ member), ?_⟩
      rintro job ⟨⟩
      exact later _ List.mem_cons_self
  | tries candidate same =>
      obtain rfl := Option.some.inj goes
      refine ⟨later, fun job tried => other job ?_⟩
      rw [Tick.move_stage, same] at tried
      rw [candidate, tried]
  | leaves =>
      obtain rfl := Option.some.inj goes
      refine ⟨later, fun _ tried => ?_⟩
      cases tried
  | claims candidate replicable unknown idle =>
      obtain rfl := Option.some.inj goes
      refine ⟨later, fun job tried => ?_⟩
      rw [Tick.move_stage, idle] at tried
      cases tried
  | works working idle =>
      obtain rfl := Option.some.inj goes
      refine ⟨later, fun job tried => ?_⟩
      rw [Tick.move_stage, idle] at tried
      cases tried

/-- A contract whose turn has not come waits on, or it is taken up. -/
theorem awaits_move {before after : List EventRecord} {score : EventRecord}
    (eligible : Eligible deps events first last contract)
    (moved : Move deps state.store tick turn) (same : tick.events = events) (begun : first ≤ state.store.clock)
    (ends : state.store.clock ≤ last) (queue : tick.queue = before ++ score :: after)
    (earlier : ∀ other ∈ before, Elsewhere contract other)
    (later : ∀ other ∈ after, Elsewhere contract other)
    (newest : newestScoreOf events contract = some score)
    (looked : contract ∈ lastScored events)
    (other : ∀ job, tick.stage.candidate = some job → Elsewhere contract job.score)
    (unclaimed : claimKey contract.1 contract.2 ∉ claimIds state.store.events)
    (unnoted : claimKey contract.1 contract.2 ∉ tick.claims) :
    Course deps events process contract (state.take process tick turn) := by
  have unclaimedAfter := moved.unclaimed other unclaimed
  obtain ⟨source, taken, mint⟩ := eligible.takes newest same begun ends unnoted
  have scored : score.scored = some contract := by simpa using List.find?_some newest
  have goes {next : Tick} (goes : turn.tick = some next) :
      (state.take process tick turn).ticks process = some next := by
    simpa [Automations.take, Automations.setTick] using goes
  cases moved with
  | finished empty =>
      rw [empty] at queue
      simp at queue
  | skips skipped looping reason =>
      rw [skipped] at queue
      rcases before with _ | ⟨front, before⟩
      · obtain ⟨rfl, rfl⟩ := List.cons_eq_cons.mp queue
        exact absurd taken (reason source)
      · obtain ⟨rfl, rfl⟩ := List.cons_eq_cons.mp queue
        exact .awaits (goes rfl) rfl
          (fun other member => earlier other (List.mem_cons_of_mem _ member)) later newest looked
          other unclaimedAfter unnoted
  | @takes taker chosen rest skipped idle takes =>
      rw [skipped] at queue
      rcases before with _ | ⟨front, before⟩
      · obtain ⟨rfl, rfl⟩ := List.cons_eq_cons.mp queue
        obtain rfl : source = chosen :=
          Option.some.inj (Except.ok.inj (taken.found.symm.trans takes.found))
        exact .tries (goes rfl) rfl scored mint looked later unclaimedAfter
      · obtain ⟨rfl, rfl⟩ := List.cons_eq_cons.mp queue
        refine .awaits (goes rfl) rfl
          (fun other member => earlier other (List.mem_cons_of_mem _ member)) later newest looked
          ?_ unclaimedAfter unnoted
        rintro job ⟨⟩
        exact earlier _ List.mem_cons_self
  | tries candidate kept =>
      refine .awaits (goes rfl) queue earlier later newest looked (fun job tried => other job ?_)
        unclaimedAfter unnoted
      rw [Tick.move_stage, kept] at tried
      rw [candidate, tried]
  | leaves =>
      refine .awaits (goes rfl) queue earlier later newest looked (fun _ tried => ?_)
        unclaimedAfter unnoted
      cases tried
  | claims candidate replicable unknown idle =>
      refine .awaits (goes rfl) queue earlier later newest looked (fun job tried => ?_)
        unclaimedAfter ?_
      · rw [Tick.move_stage, idle] at tried
        cases tried
      · exact fun noted => (List.mem_cons.mp noted).elim (other _ candidate).key_ne unnoted
  | works working idle =>
      refine .awaits (goes rfl) queue earlier later newest looked (fun job tried => ?_)
        unclaimedAfter unnoted
      rw [Tick.move_stage, idle] at tried
      cases tried

/-- A contract that was taken up is claimed, unless its mint does not qualify or the id of its
claim is in use. -/
theorem tries_move {job : Job} (moved : Move deps state.store tick turn)
    (candidate : tick.stage.candidate = some job)
    (here : job.score.scored = some contract)
    (newest : deps.newestWatchedMint events contract = some job.source)
    (looked : contract ∈ lastScored events)
    (later : ∀ other ∈ tick.queue, Elsewhere contract other)
    (unclaimed : claimKey contract.1 contract.2 ∉ claimIds state.store.events)
    (ids : claimKey contract.1 contract.2 ∈ state.store.events.map EventRecord.id ↔
      claimKey contract.1 contract.2 ∈ events.map EventRecord.id) :
    Course deps events process contract (state.take process tick turn) := by
  have key : job.key = claimKey contract.1 contract.2 := by
    rw [Job.key, Job.contract_of_scored here]
  have goes {next : Tick} (goes : turn.tick = some next) :
      (state.take process tick turn).ticks process = some next := by
    simpa [Automations.take, Automations.setTick] using goes
  cases moved with
  | finished empty idle =>
      rw [idle] at candidate
      cases candidate
  | skips queue looping =>
      rw [looping] at candidate
      cases candidate
  | takes queue idle =>
      rw [idle] at candidate
      cases candidate
  | works working =>
      rw [working] at candidate
      cases candidate
  | @tries other stage tried kept =>
      obtain rfl : other = job := Option.some.inj (tried.symm.trans candidate)
      exact .tries (goes rfl) kept here newest looked later unclaimed
  | @leaves other tried reason =>
      obtain rfl : other = job := Option.some.inj (tried.symm.trans candidate)
      refine .passed unclaimed (fun considered => ?_) fun next found => ?_
      · rcases reason with known | refused
        · refine considered.free (ids.mp ?_)
          rw [← key]
          simpa [AutomationStore.knows] using known
        · obtain ⟨source, mint, replicable⟩ := considered.qualifies
          obtain rfl := Option.some.inj (mint.symm.trans newest)
          exact refused replicable
      · obtain rfl := Option.some.inj ((goes rfl).symm.trans found)
        refine ⟨later, fun _ tried => ?_⟩
        cases tried
  | @claims other stage place acts tried replicable unknown =>
      obtain rfl : other = job := Option.some.inj (tried.symm.trans candidate)
      have free := not_knows unknown
      rw [key] at free
      exact .claimed ((mem_claimIds_claim place _).1.mpr (.inl key.symm))
        ⟨looked, mt ids.mpr free, other.source, newest, replicable⟩

/-- A course reads the events of the store and the tick alone. -/
theorem quiet {next : Automations} (course : Course deps events process contract state)
    (stored : next.store.events = state.store.events) (ticks : next.ticks = state.ticks) :
    Course deps events process contract next := by
  cases course with
  | awaits found queue earlier later newest looked other unclaimed unnoted =>
      exact .awaits (ticks ▸ found) queue earlier later newest looked other (stored ▸ unclaimed)
        unnoted
  | tries found candidate here newest looked later unclaimed =>
      exact .tries (ticks ▸ found) candidate here newest looked later (stored ▸ unclaimed)
  | claimed claim considered => exact .claimed (stored ▸ claim) considered
  | passed unclaimed ignored gone => exact .passed (stored ▸ unclaimed) ignored (ticks ▸ gone)

end Course

namespace Tracks

/-- Every move of a tick keeps what is known of it. -/
theorem move (tracks : Tracks deps events process contract first last state)
    (eligible : Eligible deps events first last contract)
    (found : state.ticks process = some tick) (moved : Move deps state.store tick turn) :
    Tracks deps events process contract first last (state.take process tick turn) := by
  obtain ⟨same, tells⟩ := tracks.tick tick found
  refine ⟨?_, fun next goes => ?_, fun absent => ?_, fun ends => ?_⟩
  · exact moved.clock.symm ▸ tracks.clock
  · have goes : turn.tick = some next := by
      simpa [Automations.take, Automations.setTick] using goes
    obtain ⟨events, tells⟩ := moved.going goes
    exact ⟨events.trans same, tells⟩
  · obtain ⟨absentBefore, ids⟩ := moved.ids absent
    exact ids.trans (tracks.ids absentBefore)
  · replace ends : state.store.clock ≤ last := moved.clock ▸ ends
    cases tracks.course ends with
    | @awaits other before after score going queue earlier later newest looked others unclaimed
        unnoted =>
        obtain rfl := Option.some.inj (going.symm.trans found)
        exact Course.awaits_move eligible moved same tracks.clock ends queue earlier later
          newest looked others unclaimed unnoted
    | @tries other job going candidate here newest looked later unclaimed =>
        obtain rfl := Option.some.inj (going.symm.trans found)
        exact Course.tries_move moved candidate here newest looked later unclaimed
          (tracks.ids unclaimed)
    | claimed stored considered => exact .claimed (moved.stored stored) considered
    | passed unclaimed ignored gone =>
        exact Course.passed_move moved unclaimed ignored (gone tick found).1
          (gone tick found).2

theorem quiet {next : Automations}
    (tracks : Tracks deps events process contract first last state)
    (stored : next.store.events = state.store.events) (ticks : next.ticks = state.ticks)
    (later : state.store.clock ≤ next.store.clock) :
    Tracks deps events process contract first last next where
  clock := Int.le_trans tracks.clock later
  tick := ticks ▸ tracks.tick
  ids := stored ▸ tracks.ids
  course ends := (tracks.course (Int.le_trans later ends)).quiet stored ticks

variable {campaignInputDigest : CampaignInputDigest}

theorem step {command : Command} {next : Automations}
    (tracks : Tracks deps events process contract first last state)
    (eligible : Eligible deps events first last contract)
    (allowed : deps.Undisturbed process state command)
    (success : Automations.step campaignInputDigest command state = .ok next) :
    Tracks deps events process contract first last next := by
  cases command with
  | append event place => exact allowed.elim
  | tick other => exact allowed.elim
  | crash other => exact allowed.elim
  | setKillSwitch engaged => cases success; exact tracks.quiet rfl rfl (Int.le_refl _)
  | createCampaign campaignId => cases success; exact tracks.quiet rfl rfl (Int.le_refl _)
  | setClock now => cases success; exact tracks.quiet rfl rfl allowed
  | answer other answer =>
      simp only [Automations.step, bind_eq_ok, require_eq_ok, pure_eq_ok] at success
      obtain ⟨tick, found, turn, advanced, rfl⟩ := success
      obtain ⟨rfl, succeeds⟩ := allowed
      exact tracks.move eligible found
        (Move.of_advance rfl (tracks.tick tick found).2 (succeeds tick found) advanced)

/-- A contract waits from the beginning of a tick when it is among the twenty. -/
theorem begin (eligible : Eligible deps state.store.events state.store.clock last contract) :
    Tracks deps state.store.events process contract state.store.clock last
      { state.setTick process (some state.begin) with nextTick := state.nextTick + 1 } where
  clock := Int.le_refl _
  tick tick found := by
    obtain rfl : state.begin = tick := by simpa [Automations.setTick] using found
    exact ⟨rfl, trivial⟩
  ids _ := Iff.rfl
  course _ := by
    by_cases looked : contract ∈ lastScored state.store.events
    · obtain ⟨score, _, _, newest, -⟩ := eligible.fresh
      obtain ⟨before, after, queue, earlier, later⟩ := scoreQueue_split looked newest
      have started : (state.setTick process (some state.begin)).ticks process =
          some state.begin := by
        simp [Automations.setTick]
      refine .awaits started queue earlier later newest looked
        (fun _ tried => ?_) eligible.unclaimed eligible.unclaimed
      cases tried
    · refine .passed eligible.unclaimed (fun considered => looked considered.looked) ?_
      intro tick found
      obtain rfl : state.begin = tick := by simpa [Automations.setTick] using found
      refine ⟨fun other member => ?_, fun _ tried => ?_⟩
      · obtain ⟨scoredContract, listed, scored, -⟩ := mem_scoreQueue member
        exact ⟨scoredContract, scored, fun same => looked (same ▸ listed)⟩
      · cases tried

end Tracks

/-! ## A tick ends -/

/-- How much is left of the work on one contract. -/
def Stage.left : Stage → ℕ × ℕ
  | .choosing _ => (6, 0)
  | .qualifying _ _ => (5, 0)
  | .claiming _ _ _ => (4, 0)
  | .preparing _ _ => (3, 0)
  | .simulating work => (2, 6 * work.rest.length + 6)
  | .storing work _ => (2, 6 * work.rest.length + 5)
  | .announcing work _ => (2, 6 * work.rest.length + 4)
  | .asserting authority => (2, 6 * authority.work.rest.length + 4)
  | .requalifying authority => (2, 6 * authority.work.rest.length + 3)
  | .firing authority => (2, 6 * authority.work.rest.length + 2)
  | .requesting authority _ => (2, 6 * authority.work.rest.length + 1)
  | .stopping _ => (1, 0)
  | .looping => (0, 0)

/-- One tick has less left than another. -/
def Tick.Less (next tick : Tick) : Prop :=
  Prod.Lex (· < ·) (Prod.Lex (· < ·) (· < ·)) (next.queue.length, next.stage.left)
    (tick.queue.length, tick.stage.left)

theorem Tick.less_wf : WellFounded Tick.Less :=
  InvImage.wf (fun tick : Tick => (tick.queue.length, tick.stage.left))
    (Prod.lex ⟨_, Nat.lt_wfRel.wf⟩ (Prod.lex ⟨_, Nat.lt_wfRel.wf⟩ ⟨_, Nat.lt_wfRel.wf⟩)).wf

namespace Tick

variable {job : Job} {qualified : QualifiedSource} {error : Thrown}

theorem less_of_left {next : Tick} (queue : next.queue = tick.queue)
    (left : next.stage.left.1 < tick.stage.left.1 ∨
      next.stage.left.1 = tick.stage.left.1 ∧ next.stage.left.2 < tick.stage.left.2) :
    next.Less tick := by
  rw [Less, queue]
  exact .right _ ((Prod.lex_def).mpr left)

theorem less_stop {claimed : Bool} (left : 1 < tick.stage.left.1) :
    (tick.stop job claimed error).Less tick := by
  cases claimed with
  | false => exact less_of_left rfl (.inl (Nat.lt_trans Nat.zero_lt_one left))
  | true => exact less_of_left rfl (.inl left)

/-- The work on the next campaign is less than what was left of the one before it. -/
theorem less_nextPrepared {rest : List Prepared}
    (left : 2 < tick.stage.left.1 ∨
      tick.stage.left.1 = 2 ∧ 6 * rest.length < tick.stage.left.2) :
    (tick.nextPrepared job qualified rest).Less tick := by
  cases rest with
  | nil =>
      refine less_of_left rfl (.inl ?_)
      change 0 < tick.stage.left.1
      omega
  | cons prepared rest =>
      refine less_of_left rfl ?_
      change 2 < tick.stage.left.1 ∨ 2 = tick.stage.left.1 ∧ 6 * rest.length + 6 < tick.stage.left.2
      rw [List.length_cons] at left
      omega

theorem less_takeScore {now : Time} {watched : Except Thrown (List String)} {going : Tick}
    (taken : tick.takeScore now watched = some going) : going.Less tick := by
  unfold takeScore at taken
  split at taken
  · cases taken
  · rename_i score rest queue
    have shorter : rest.length < tick.queue.length := by
      rw [queue]
      exact Nat.lt_succ_self _
    split at taken
    · obtain rfl := Option.some.inj taken
      exact .left _ _ shorter
    · dsimp only at taken
      split at taken
      · cases taken
      · obtain rfl := Option.some.inj taken
        exact .left _ _ shorter
      · split at taken
        · obtain rfl := Option.some.inj taken
          exact .left _ _ shorter
        · obtain rfl := Option.some.inj taken
          exact .left _ _ shorter

end Tick

variable {campaignInputDigest : CampaignInputDigest} {store : AutomationStore}

/-- Every answer, of a dependency that succeeds or of one that fails, leaves less of a tick. -/
theorem advance_less {stage : Stage} (current : tick.stage = stage) {answer : Answer}
    (success : advance campaignInputDigest store tick stage answer = .ok turn) :
    ∀ going, turn.tick = some going → going.Less tick := by
  unfold advance at success
  split at success
  case h_1 watched =>
    cases success
    exact fun going taken => Tick.less_takeScore taken
  case h_2 job outcome =>
    cases outcome <;> cases success <;> rintro going ⟨⟩
    · exact Tick.less_stop (by simp [current, Stage.left])
    · exact Tick.less_of_left rfl (.inl (by simp [current, Stage.left]))
  case h_3 job wallets outcome =>
    cases outcome with
    | error error =>
        cases success
        rintro going ⟨⟩
        exact Tick.less_stop (by simp [current, Stage.left])
    | ok qualified =>
        dsimp only at success
        split at success
        · cases success
          rintro going ⟨⟩
          exact Tick.less_of_left rfl (.inl (by simp [current, Stage.left]))
        · cases success
          rintro going ⟨⟩
          exact Tick.less_of_left rfl (.inl (by simp [current, Stage.left]))
  case h_4 job wallets qualified ending place =>
    cases success
    unfold claim
    cases ending with
    | refused error | rolledBack error | lost error =>
        rintro going ⟨⟩
        exact Tick.less_stop (by simp [current, Stage.left])
    | committed =>
        dsimp only
        split
        · rintro going ⟨⟩
          exact Tick.less_of_left rfl (.inl (by simp [current, Stage.left]))
        · rintro going ⟨⟩
          exact Tick.less_of_left rfl (.inl (by simp [current, Stage.left]))
  case h_5 job qualified outcome =>
    cases outcome with
    | error error =>
        cases success
        rintro going ⟨⟩
        exact Tick.less_stop (by simp [current, Stage.left])
    | ok prepared =>
        simp only [bind_eq_ok, refuse_eq_ok, pure_eq_ok] at success
        obtain ⟨-, -, rfl⟩ := success
        rintro going ⟨⟩
        exact Tick.less_nextPrepared (.inl (by simp [current, Stage.left]))
  case h_6 work outcome =>
    split at success
    · cases success
      rintro going ⟨⟩
      exact Tick.less_stop (by simp [current, Stage.left])
    · cases success
      rintro going ⟨⟩
      exact Tick.less_stop (by simp [current, Stage.left])
    · cases success
      rintro going ⟨⟩
      refine Tick.less_of_left rfl (.inr ?_)
      rw [current]
      exact ⟨rfl, Nat.lt_succ_self _⟩
  case h_7 work recorded ending uuid place =>
    cases success
    unfold Replication.store
    cases ending with
    | refused error | rolledBack error | lost error =>
        rintro going ⟨⟩
        exact Tick.less_stop (by simp [current, Stage.left])
    | committed =>
        rintro going ⟨⟩
        refine Tick.less_of_left rfl (.inr ?_)
        rw [current, Tick.move_stage]
        split
        · exact ⟨rfl, Nat.lt_succ_self _⟩
        · exact ⟨rfl, Nat.lt_succ_self _⟩
  case h_8 work notice outcome =>
    cases outcome with
    | error error =>
        cases success
        rintro going ⟨⟩
        exact Tick.less_stop (by simp [current, Stage.left])
    | ok =>
        cases success
        rintro going ⟨⟩
        refine Tick.less_nextPrepared (.inr ?_)
        rw [current]
        exact ⟨rfl, Nat.lt_add_of_pos_right (by decide)⟩
  case h_9 authority outcome =>
    cases outcome with
    | error error =>
        cases success
        rintro going ⟨⟩
        exact Tick.less_stop (by simp [current, Stage.left])
    | ok =>
        cases success
        unfold assertAuthority
        split
        · rintro going ⟨⟩
          exact Tick.less_stop (by simp [current, Stage.left])
        · rintro going ⟨⟩
          refine Tick.less_of_left rfl (.inr ?_)
          rw [current]
          exact ⟨rfl, Nat.lt_succ_self _⟩
  case h_10 authority outcome withinCaps =>
    split at success
    · cases success
      rintro going ⟨⟩
      exact Tick.less_stop (by simp [current, Stage.left])
    · cases success
      rintro going ⟨⟩
      refine Tick.less_of_left rfl (.inr ?_)
      rw [current]
      exact ⟨rfl, Nat.lt_succ_self _⟩
  case h_11 authority outcome =>
    cases outcome with
    | error error =>
        cases success
        rintro going ⟨⟩
        exact Tick.less_stop (by simp [current, Stage.left])
    | ok requestId =>
        cases success
        rintro going ⟨⟩
        refine Tick.less_of_left rfl (.inr ?_)
        rw [current]
        exact ⟨rfl, Nat.lt_succ_self _⟩
  case h_12 authority requestId ending uuid place =>
    cases ending with
    | refused error | rolledBack error | lost error =>
        cases success
        rintro going ⟨⟩
        exact Tick.less_stop (by simp [current, Stage.left])
    | committed =>
        cases success
        rintro going ⟨⟩
        refine Tick.less_nextPrepared (.inr ?_)
        rw [current]
        exact ⟨rfl, Nat.lt_succ_self _⟩
  case h_13 =>
    cases success
    rintro going ⟨⟩
    exact Tick.less_of_left rfl (.inl (by simp [current, Stage.left]))
  case h_14 => cases success

variable (campaignInputDigest) in
/-- A tick never waits for an answer that no dependency can give. -/
theorem exists_answer (deps : Dependencies) (store : AutomationStore) (tick : Tick) :
    ∃ answer, deps.Succeeds tick answer ∧
      ∃ turn, advance campaignInputDigest store tick tick.stage answer = .ok turn := by
  cases current : tick.stage with
  | looping =>
      refine ⟨.watched (.ok (deps.watchedWallets
        (tick.queue.head?.bind fun score => score.data.chainId))), fun score member => ?_, _, rfl⟩
      rw [Option.mem_def.mp member]
      rfl
  | choosing job => exact ⟨.wallets (.ok deps.wallets), rfl, _, rfl⟩
  | qualifying job wallets =>
      refine ⟨.qualified (.ok (deps.qualify job.source wallets)), ?_, ?_⟩
      · intro other otherWallets same
        obtain ⟨rfl, rfl⟩ := Stage.qualifying.inj (current.symm.trans same)
        rfl
      · simp only [advance]
        split
        · exact ⟨_, rfl⟩
        · exact ⟨_, rfl⟩
  | claiming job wallets qualified => exact ⟨.claimed .committed 0, rfl, _, rfl⟩
  | preparing job qualified =>
      refine ⟨.prepared (.ok []), ⟨[], rfl⟩,
        { store := { store with campaignIds := store.campaignIds ++ [] }
          tick := some (tick.nextPrepared job qualified []) }, ?_⟩
      simp only [advance, bind_eq_ok, refuse_eq_ok, pure_eq_ok]
      exact ⟨⟨⟩, by simp, rfl⟩
  | simulating work => exact ⟨.simulated (.ok []), ⟨[], rfl⟩, _, rfl⟩
  | storing work recorded => exact ⟨.stored .committed "" 0, rfl, _, rfl⟩
  | announcing work notice => exact ⟨.notified (.ok ()), rfl, _, rfl⟩
  | asserting authority => exact ⟨.ready (.ok ()), rfl, _, rfl⟩
  | requalifying authority =>
      refine ⟨.requalified (.ok authority.work.qualified) (.ok true), ⟨⟨_, rfl⟩, _, rfl⟩, ?_⟩
      simp only [advance]
      split
      · exact ⟨_, rfl⟩
      · exact ⟨_, rfl⟩
  | firing authority => exact ⟨.fired (.ok ""), ⟨"", rfl⟩, _, rfl⟩
  | requesting authority requestId => exact ⟨.requested .committed "" 0, rfl, _, rfl⟩
  | stopping notice => exact ⟨.notified (.ok ()), rfl, _, rfl⟩

/-- A tick under way can always be finished. -/
theorem exists_finish (deps : Dependencies) {start : Automations}
    (run : Reaches (Automations.step campaignInputDigest) (deps.Undisturbed process) start state) :
    ∃ finish, Reaches (Automations.step campaignInputDigest) (deps.Undisturbed process) start
      finish ∧ finish.ticks process = none := by
  cases found : state.ticks process with
  | none => exact ⟨state, run, found⟩
  | some tick =>
      induction tick using Tick.less_wf.induction generalizing state with
      | _ tick inductionHypothesis =>
          obtain ⟨answer, succeeds, turn, advanced⟩ :=
            exists_answer campaignInputDigest deps state.store tick
          have stepped : Automations.step campaignInputDigest (.answer process answer) state =
              .ok (state.take process tick turn) := by
            simp [Automations.step, found, bind_eq_ok, require, advanced]
          have further := run.tail (.answer process answer)
            ⟨rfl, fun other same => Option.some.inj (found.symm.trans same) ▸ succeeds⟩
          rw [apply_ok stepped] at further
          have here : (state.take process tick turn).ticks process = turn.tick := by
            simp [Automations.take, Automations.setTick]
          cases goes : turn.tick with
          | none => exact ⟨_, further, here.trans goes⟩
          | some next =>
              exact inductionHypothesis next (advance_less rfl advanced next goes) further
                (here.trans goes)

/-! ## Every fresh contract -/

/-- One tick ends, and of the contracts that should be claimed it claims those that are among the
twenty, whose newest mint qualifies and whose claim has an id of its own. -/
theorem tick_claims_iff (deps : Dependencies) {started current : Automations}
    (begun : Automations.step campaignInputDigest (.tick process) state = .ok started)
    (run : Reaches (Automations.step campaignInputDigest) (deps.Undisturbed process) started
      current) :
    (∃ finish, Reaches (Automations.step campaignInputDigest) (deps.Undisturbed process) current
      finish ∧ finish.ticks process = none) ∧
    (current.ticks process = none → ∀ contract,
      Eligible deps state.store.events state.store.clock current.store.clock contract →
        (claimKey contract.1 contract.2 ∈ claimIds current.store.events ↔
          Considered deps state.store.events contract)) := by
  refine ⟨exists_finish deps (.refl current), fun ended contract eligible => ?_⟩
  simp only [Automations.step, bind_eq_ok, refuse_eq_ok, pure_eq_ok] at begun
  obtain ⟨-, -, rfl⟩ := begun
  have tracks : Tracks deps state.store.events process contract state.store.clock
      current.store.clock current :=
    run.invariant (Tracks.begin eligible) fun before command next known allowed success =>
      known.step eligible allowed success
  cases tracks.course (Int.le_refl _) with
  | awaits found =>
      rw [ended] at found
      cases found
  | tries found =>
      rw [ended] at found
      cases found
  | claimed stored considered => exact iff_of_true stored considered
  | passed unclaimed ignored => exact iff_of_false unclaimed ignored

/-- The contracts with a score of the last quarter of an hour. -/
def recentlyScored (events : List EventRecord) (now : Time) : List ContractOnChain :=
  OrderedMap.firsts (events.filterMap fun event =>
    match event.instant with
    | some instant => if instant ≤ now ∧ now - instant ≤ 15 * 60000 then event.scored else none
    | none => none)

/-! ### A contract that was first scored long ago -/

def sampleDependencies : Dependencies where
  watchedWallets _ := ["0xwhale"]
  wallets := ["0xa"]
  qualify _ _ := Automations.sampleSource

/-- A score from an hour before the others. -/
def oldScore (place : Nat) : EventRecord where
  id := "old-" ++ toString place
  type := "opportunity_notified"
  instant := some (-3600000)
  data :=
    { chainId := some 1
      contract := some (if place = 0 then "0xnft" else toString place)
      score := some (.number 40) }

/-- The store when `others` more contracts were scored after the first score of the contract. -/
def sampleStore (others : Nat) : Automations where
  store := { events := (List.range (others + 1)).map oldScore ++ Automations.sampleEvents }

def startedTick (others : Nat) : Automations :=
  { (sampleStore others).setTick 0 (some (sampleStore others).begin) with nextTick := 1 }

theorem sample_eligible (others : Nat) :
    Eligible sampleDependencies (sampleStore others).store.events 0 0 (some 1, "0xnft") where
  unclaimed := by
    have old : ((List.range (others + 1)).map oldScore).filter
        (fun event => event.type = "replication_claim") = [] := by
      rw [List.filter_eq_nil_iff]
      intro event member
      obtain ⟨place, -, rfl⟩ := List.mem_map.mp member
      change ¬ decide ("opportunity_notified" = "replication_claim") = true
      decide
    have none : claimIds (sampleStore others).store.events = [] := by
      rw [claimIds, sampleStore, List.filter_append, old]
      rfl
    rw [none]
    exact List.not_mem_nil
  fresh := by
    refine ⟨Automations.sampleEvents[1], 0, 70, ?_, rfl, by decide, by decide, rfl, rfl, by decide,
      by decide⟩
    rw [newestScoreOf, sampleStore, List.reverse_append, List.find?_append]
    rfl
  minted := ⟨_, List.mem_append_right _ List.mem_cons_self, by decide, rfl⟩

/-- The whole tick when nothing counts. -/
def idleAnswers : List Command := List.replicate 21 (.answer 0 (.watched (.ok ["0xwhale"])))

/-- The whole tick that claims the contract and prepares nothing for it. -/
def claimingAnswers : List Command :=
  Automations.sampleClaim 0 ++
    [.answer 0 (.prepared (.ok [])), .answer 0 (.watched (.ok ["0xwhale"]))]

theorem allowed_watched (step : Command → Automations → Except Error Automations) (times : Nat)
    (state : Automations) :
    Allowed step (sampleDependencies.Undisturbed 0) state
      (List.replicate times (.answer 0 (.watched (.ok ["0xwhale"])))) := by
  induction times generalizing state with
  | zero => trivial
  | succ times inductionHypothesis =>
      exact ⟨⟨rfl, fun _ _ _ _ => rfl⟩, inductionHypothesis _⟩

/-- A contract that is the only one with a score is claimed. -/
theorem sample_contract_claimed :
    claimKey (some 1) "0xnft" ∈ claimIds
      (applyAll (Automations.step fun campaign => campaign.id) (startedTick 0)
        claimingAnswers).store.events := by
  have begun : Automations.step (fun campaign => campaign.id) (.tick 0) (sampleStore 0) =
      .ok (startedTick 0) := rfl
  have allowed : Allowed (Automations.step fun campaign => campaign.id)
      (sampleDependencies.Undisturbed 0) (startedTick 0) claimingAnswers :=
    ⟨⟨rfl, fun _ _ _ _ => rfl⟩, ⟨rfl, fun _ _ => rfl⟩, ⟨rfl, fun _ _ _ _ _ => rfl⟩,
      ⟨rfl, fun _ _ => rfl⟩, ⟨rfl, fun _ _ => ⟨_, rfl⟩⟩, ⟨rfl, fun _ _ _ _ => rfl⟩, trivial⟩
  have claimed := (tick_claims_iff _ begun ((Reaches.refl _).applyAll allowed)).2
    (by decide +kernel) (some 1, "0xnft")
  have clock : (applyAll (Automations.step fun campaign => campaign.id) (startedTick 0)
      claimingAnswers).store.clock = 0 := by decide +kernel
  rw [clock] at claimed
  exact (claimed (sample_eligible 0)).mpr
    ⟨by decide +kernel, by decide +kernel, Automations.sampleEvents[0], by rfl, rfl⟩

/-- After twenty more contracts the first one is passed over, although it was scored again and
nothing else is fresh. -/
theorem rescored_contract_missed :
    ¬ ∀ (campaignInputDigest : CampaignInputDigest) (deps : Dependencies) (process : Nat)
        (state started finish : Automations),
      Automations.step campaignInputDigest (.tick process) state = .ok started →
      Reaches (Automations.step campaignInputDigest) (deps.Undisturbed process) started finish →
      finish.ticks process = none →
      (recentlyScored state.store.events state.store.clock).length ≤ 20 →
      ∀ contract,
        Eligible deps state.store.events state.store.clock finish.store.clock contract →
        claimKey contract.1 contract.2 ∈ claimIds finish.store.events := by
  intro claimed
  have begun : Automations.step (fun campaign => campaign.id) (.tick 0) (sampleStore 20) =
      .ok (startedTick 20) := rfl
  have run : Reaches (Automations.step fun campaign => campaign.id)
      (sampleDependencies.Undisturbed 0) (startedTick 20)
      (applyAll (Automations.step fun campaign => campaign.id) (startedTick 20) idleAnswers) :=
    (Reaches.refl _).applyAll (allowed_watched _ 21 _)
  have ended : (applyAll (Automations.step fun campaign => campaign.id) (startedTick 20)
      idleAnswers).ticks 0 = none := by decide +kernel
  have clock : (applyAll (Automations.step fun campaign => campaign.id) (startedTick 20)
      idleAnswers).store.clock = 0 := by decide +kernel
  have eligible := sample_eligible 20
  have stored := claimed _ _ _ _ _ _ begun run ended (by decide +kernel) (some 1, "0xnft")
    (by rw [clock]; exact eligible)
  have considered := ((tick_claims_iff _ begun run).2 ended (some 1, "0xnft")
    (by rw [clock]; exact eligible)).mp stored
  exact absurd considered.looked (by decide +kernel)

end MintBot.Replication
