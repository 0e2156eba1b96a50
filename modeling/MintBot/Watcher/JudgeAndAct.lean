import Mathlib.Algebra.Order.Ring.Rat
import MintBot.Watcher.FleetWatcher

/-!
# Acting on a judgement

`judgeAndAct` confirms a finding that would stop signing by one more read, lets a
proven treasury return through, and then moves the baseline or reports the
finding.  With the other pieces of a tick it makes the machine of one watcher on
a store that other processes append to.
-/

namespace MintBot

open Fallible

/-! ## Treasury returns -/

/-- The two-provider proof that a wallet returned money to the treasury. -/
structure TreasuryWatchProof where
  chainId : ChainId
  address : String
  fromNonce : Number
  toNonce : Number
  nonce : Number
  balanceWei : Wei
  baselineNonce : Number
  baselineBalanceWei : String
  baselineObservedAt : Time
  hashes : List String
  blockNumber : Int
  blockHash : String
  totalValueWei : Wei
  totalFeeWei : Wei
  deriving DecidableEq, Repr

/-- `/^0x[0-9a-f]{64}$/i`. -/
def IsHash (text : String) : Prop :=
  text.toList.length = 66 ∧ text.toList.take 1 = ['0'] ∧
    (text.toList.drop 1).take 1 ∈ [['x'], ['X']] ∧
    ∀ char ∈ text.toList.drop 2, char ∈ "0123456789abcdefABCDEF".toList

instance (text : String) : Decidable (IsHash text) := by
  unfold IsHash
  have := List.decidableBAll (fun char => char ∈ "0123456789abcdefABCDEF".toList) (text.toList.drop 2)
  infer_instance

/-- Everything `provenReturn` asks of a proof, apart from the records. -/
def TreasuryWatchProof.Holds (proof : TreasuryWatchProof) (options : FleetWatcherOptions)
    (target : WatchTarget) (baseline : WalletBaseline) (reading : WalletReading)
    (ledger : WalletLedger) : Prop :=
  let start := expectedNonce baseline ledger
  proof.chainId = target.chainId ∧ toLowerCase proof.address = toLowerCase target.address ∧
    proof.baselineNonce = baseline.nonce ∧ proof.baselineBalanceWei = baseline.balanceWei ∧
    proof.baselineObservedAt = baseline.observedAt ∧
    proof.fromNonce = start ∧ proof.toNonce = reading.nonce ∧ proof.nonce = reading.nonce ∧
    proof.balanceWei = reading.balanceWei ∧
    start < reading.nonce ∧ (reading.nonce : Number) - start ≤ 8 ∧
    (proof.hashes.length : Number) = reading.nonce - start ∧
    (proof.hashes.map toLowerCase).Nodup ∧ (∀ hash ∈ proof.hashes, IsHash hash) ∧
    IsHash proof.blockHash ∧ 0 ≤ proof.blockNumber ∧ 0 < proof.totalValueWei ∧
    0 ≤ proof.totalFeeWei ∧
    (∃ ceiling ∈ options.ceilings target.chainId, proof.totalFeeWei ≤ ceiling.walletMaxWei) ∧
    ∃ before ∈ (bigInt baseline.balanceWei).toOption,
      before - reading.balanceWei ≤
        proof.totalValueWei + proof.totalFeeWei + ledger.allowedFallWei

instance (proof : TreasuryWatchProof) (options : FleetWatcherOptions) (target : WatchTarget)
    (baseline : WalletBaseline) (reading : WalletReading) (ledger : WalletLedger) :
    Decidable (proof.Holds options target baseline reading ledger) := by
  unfold TreasuryWatchProof.Holds
  infer_instance

/-- What the outside answers while a wallet is judged. -/
structure JudgeAnswers where
  /-- The confirming read, absent when it throws, and the records after it. -/
  second : Option WalletReading
  secondRecords : WatchedRecords
  /-- The treasury proof, absent when there is none or the verifier throws, the
  records before and after it, and those of the transaction that commits it. -/
  proof : Option TreasuryWatchProof
  proofRecords : WatchedRecords
  provenRecords : WatchedRecords
  returnRecords : WatchedRecords
  returnWrite : StoreWrite
  returnBaseline : StoreWrite
  /-- The time at which a proven return is taken in. -/
  returnedAt : Time
  /-- The kill switch is engaged already, or engaging it throws. -/
  killed : Bool
  killThrows : Bool
  /-- The date of the newest kill event after that. -/
  stoppedAt : Option Time
  write : StoreWrite
  deriving DecidableEq, Repr

/-- `provenReturn`: the ledger that the proof was made under. -/
def provenReturn (options : FleetWatcherOptions) (target : WatchTarget)
    (baseline : WalletBaseline) (reading : WalletReading) (answers : JudgeAnswers) :
    Option WalletLedger :=
  let ledger := ledgerFor answers.proofRecords target baseline
  if ReturnBlocked answers.proofRecords target then none
  else match answers.proof with
    | none => none
    | some proof =>
        if ¬ ReturnBlocked answers.provenRecords target ∧
            ledgerFor answers.provenRecords target baseline = ledger ∧
            proof.Holds options target baseline reading ledger then some ledger
        else none

/-- The newest baseline or accept event that names the wallet is the baseline. -/
def LatestIs (state : WatchState) (target : WatchTarget) (baseline : WalletBaseline) : Prop :=
  ∃ latest ∈ state.events.reverse.find? fun event =>
      (event.type = .baseline ∨ event.type = .accept) ∧ event.data.chainId = some target.chainId ∧
        event.data.address = some (toLowerCase target.address),
    latest.data.nonce = some baseline.nonce ∧ latest.data.balanceWei = some baseline.balanceWei ∧
      latest.data.observedAt.getD latest.date = baseline.observedAt

instance (state : WatchState) (target : WatchTarget) (baseline : WalletBaseline) :
    Decidable (LatestIs state target baseline) := by
  unfold LatestIs
  infer_instance

/-- The baseline that a reading makes. -/
def baselineOf (reading : WalletReading) (observedAt : Time)
    (previous : Option WalletBaseline) : WalletBaseline where
  nonce := reading.nonce
  balanceWei := toString reading.balanceWei
  observedAt := observedAt
  excess := previous.bind WalletBaseline.excess

/-- The event of a proven return. -/
def verifiedEvent (target : WatchTarget) (answers : JudgeAnswers) : WatchEvent where
  id := answers.returnWrite.eventId
  type := .treasuryReturnVerified
  date := answers.returnWrite.date
  data := { chainId := some target.chainId, address := some (toLowerCase target.address) }

/-- The event of the baseline after a proven return. -/
def returnedEvent (target : WatchTarget) (next : WalletBaseline) (answers : JudgeAnswers) :
    WatchEvent where
  id := answers.returnBaseline.eventId
  type := .baseline
  date := answers.returnBaseline.date
  data := next.data (keyOf target)

/-- The transaction of a proven return: its two events are written, and the
wallet has the reading as its baseline. -/
def takeReturn (options : FleetWatcherOptions) (target : WatchTarget) (baseline : WalletBaseline)
    (reading : WalletReading) (answers : JudgeAnswers) (state : WatchState) : Option WatchState :=
  match provenReturn options target baseline reading answers with
  | none => none
  | some ledger =>
      let key := keyOf target
      let next := baselineOf reading answers.returnedAt (some baseline)
      if ReturnBlocked answers.returnRecords target ∨
          ledgerFor answers.returnRecords target baseline ≠ ledger ∨
          ¬ LatestIs state target baseline then none
      else if answers.returnWrite.Commits state ∧ answers.returnBaseline.Commits state ∧
          answers.returnWrite.eventId ≠ answers.returnBaseline.eventId then
        let recorded := (state.push (verifiedEvent target answers) none).push
          (returnedEvent target next answers) (some (.read reading))
        some ((recorded.adopt key next (.read reading)).forgetFinding key)
      else some state

/-! ## The verdict -/

/-- A finding that would stop signing is confirmed by one more read: the verdict
to act on, and the reading it is about.  Without an answer the first one stands. -/
def confirm (target : WatchTarget) (baseline : Option WalletBaseline) (reading : WalletReading)
    (verdict : WalletVerdict) (answers : JudgeAnswers) : WalletVerdict × WalletReading :=
  if ¬ verdict.IsKillClass then (verdict, reading)
  else match answers.second with
    | none => (verdict, reading)
    | some second =>
        match judgeWallet second baseline (ledgerFor answers.secondRecords target baseline) with
        | .error _ => (verdict, reading)
        | .ok again =>
            if again.IsKillClass then (again, second) else (.rpcInconsistent, reading)

/-- `remember`: the reading becomes the baseline, and then it is persisted. -/
def remember (target : WatchTarget) (effective : WalletReading) (write : StoreWrite)
    (state : WatchState) : WatchState :=
  let key := keyOf target
  let next := baselineOf effective state.now (state.baselines key)
  (state.adopt key next (.read effective)).persist write .baseline (next.data key)
    (some (.read effective))

/-- The owner was asked for this wallet's money within the last day. -/
def RecentlyRequested (state : WatchState) (target : WatchTarget) : Prop :=
  ∃ event ∈ state.events.reverse.takeWhile fun event => decide (state.now - dayMs ≤ event.date),
    event.type = .fundingRequested ∧ event.data.chainId = some target.chainId ∧
      toLowerCase target.address ∈ event.data.items.map toLowerCase

instance (state : WatchState) (target : WatchTarget) :
    Decidable (RecentlyRequested state target) := by
  unfold RecentlyRequested
  infer_instance

/-- The reading differs from the baseline, or the baseline is a day old. -/
def NeedsRemembering (state : WatchState) (baseline : Option WalletBaseline)
    (effective : WalletReading) : Prop :=
  match baseline with
  | none => True
  | some known =>
      known.nonce ≠ effective.nonce ∨ known.balanceWei ≠ toString effective.balanceWei ∨
        baselineRefreshMs ≤ state.now - known.observedAt

instance (state : WatchState) (baseline : Option WalletBaseline) (effective : WalletReading) :
    Decidable (NeedsRemembering state baseline effective) := by
  unfold NeedsRemembering
  cases baseline <;> infer_instance

/-- A balance rise: it is remembered, and reported when it is above the limit and
nobody asked for it. -/
def actOnRise (options : FleetWatcherOptions) (records : WatchedRecords) (target : WatchTarget)
    (effective : WalletReading) (answers : JudgeAnswers) (state : WatchState) : WatchState :=
  let remembered := remember target effective answers.write state
  let aboveLimit : Prop :=
    ∃ ceiling ∈ options.ceilings target.chainId, ceiling.walletMaxWei < effective.balanceWei
  if answers.write.Commits state ∧ aboveLimit ∧ ¬ records.RunActive ∧
      ¬ RecentlyRequested state target then
    remembered.report
      { finding := .riseAboveLimit
        target := target
        identity := .rise effective.balanceWei (dayOf state.now)
        priority := .grouped }
  else remembered

/-- A finding on a wallet joins the result of the tick. -/
def WatchState.found (state : WatchState) (target : WatchTarget) (finding : FleetWatchFinding) :
    WatchState :=
  { state with
    result := { state.result with
      findings := state.result.findings ++ [(keyOf target, finding)] } }

def actOnInconsistency (target : WatchTarget) (state : WatchState) : WatchState :=
  let key := keyOf target
  let count := state.inconsistent key + 1
  let day := dayOf state.now
  let counted :=
    { state.found target .rpcInconsistent with
      inconsistent := Function.update state.inconsistent key count }
  let told := counted.report
    { finding := .rpcInconsistent
      target := target
      identity := .day day
      priority := .grouped }
  if watchBlindAfterFailures ≤ count then
    told.report
      { finding := .watcherBlind
        target := target
        identity := .inconsistentDay day
        priority := .immediate }
  else told

/-- The same finding was recorded since the baseline. -/
def FoundBefore (state : WatchState) (target : WatchTarget) (baseline : Option WalletBaseline)
    (finding : FleetWatchFinding) (effective : WalletReading) : Prop :=
  state.lastFinding (keyOf target) = some (finding, effective.nonce, effective.balanceWei) ∨
    ∃ event ∈ state.events, event.type = .finding ∧
      (∀ known ∈ baseline, known.observedAt ≤ event.date) ∧
      event.data.chainId = some target.chainId ∧
      event.data.address = some (toLowerCase target.address) ∧ event.data.kind = some finding ∧
      event.data.nonce = some (effective.nonce : Number) ∧
      event.data.balanceWei = some (toString effective.balanceWei)

instance (state : WatchState) (target : WatchTarget) (baseline : Option WalletBaseline)
    (finding : FleetWatchFinding) (effective : WalletReading) :
    Decidable (FoundBefore state target baseline finding effective) := by
  unfold FoundBefore
  infer_instance

/-- The kill switch is engaged, the owner is told, and a new finding is recorded;
the baseline stays where it was. -/
def actOnStop (target : WatchTarget) (finding : FleetWatchFinding) (effective : WalletReading)
    (answers : JudgeAnswers) (state : WatchState) : WatchState :=
  let key := keyOf target
  let killFailed := !answers.killed && answers.killThrows
  let found := state.found target finding
  let judged :=
    { found with
      result := { found.result with
        killFailed := found.result.killFailed || killFailed
        killed := found.result.killed || !killFailed } }
  let repeated := decide (FoundBefore state target (state.baselines key) finding effective)
  let told := judged.report
    { finding := finding
      target := target
      identity := .stop effective.nonce effective.balanceWei (dayOf state.now) answers.stoppedAt
        repeated killFailed
      priority := .immediate
      killFailed := killFailed
      repeated := repeated }
  let findingKey := (finding, effective.nonce, effective.balanceWei)
  if state.lastFinding key = some findingKey then told
  else
    (told.keepFinding key findingKey).persist answers.write .finding
      { chainId := some key.chainId
        address := some key.address
        nonce := some effective.nonce
        balanceWei := some (toString effective.balanceWei)
        kind := some finding } none

/-- The readings that are judged: the one of the tick, and the confirming one. -/
def noteReadings (target : WatchTarget) (reading : WalletReading) (verdict : WalletVerdict)
    (answers : JudgeAnswers) (state : WatchState) : WatchState :=
  let noted := state.observed (keyOf target) reading
  match answers.second with
  | some second => if verdict.IsKillClass then noted.observed (keyOf target) second else noted
  | none => noted

/-- What follows from a verdict, apart from treasury returns. -/
def act (options : FleetWatcherOptions) (records : WatchedRecords) (target : WatchTarget)
    (verdict : WalletVerdict) (effective : WalletReading) (answers : JudgeAnswers)
    (state : WatchState) : WatchState :=
  let key := keyOf target
  let consistent := { state with inconsistent := Function.update state.inconsistent key 0 }
  match verdict with
  | .baseline => remember target effective answers.write consistent
  | .ok =>
      let settled := consistent.forgetFinding key
      if NeedsRemembering settled (settled.baselines key) effective then
        remember target effective answers.write settled
      else settled
  | .rise => actOnRise options records target effective answers consistent
  | .rpcInconsistent => actOnInconsistency target state
  | .unknownActivity _ _ => actOnStop target .unknownActivity effective answers consistent
  | .unexplainedFall _ _ => actOnStop target .unexplainedFall effective answers consistent

/-- A treasury return is looked for when the verdict is unknown activity. -/
def returned (options : FleetWatcherOptions) (target : WatchTarget) (verdict : WalletVerdict)
    (effective : WalletReading) (answers : JudgeAnswers) (state : WatchState) :
    Option WatchState :=
  match verdict, state.baselines (keyOf target) with
  | .unknownActivity _ _, some baseline =>
      takeReturn options target baseline effective answers state
  | _, _ => none

def judgeAndAct (options : FleetWatcherOptions) (records : WatchedRecords) (target : WatchTarget)
    (reading : WalletReading) (answers : JudgeAnswers) (state : WatchState) :
    Except Error WatchState := do
  let baseline := state.baselines (keyOf target)
  let first ← judgeWallet reading baseline (ledgerFor records target baseline)
  let state := noteReadings target reading first answers state
  let (verdict, effective) := confirm target baseline reading first answers
  match returned options target verdict effective answers state with
  | some taken => return taken
  | none => return act options records target verdict effective answers state

/-- `trackExcess` for one wallet, whose left-over balance clock is now `after`. -/
def trackExcess (target : WatchTarget) (after : Option ExcessState) (write : StoreWrite)
    (state : WatchState) : WatchState :=
  let key := keyOf target
  match state.baselines key with
  | none => state
  | some baseline =>
      if after = baseline.excess then state
      else
        let updated := { baseline with excess := after }
        { state with baselines := Function.update state.baselines key (some updated) }.persist write
          .baseline (updated.data key) (state.history.adoption key)

/-! ## The machine -/

/-- The pieces of a tick, restarts of the watcher, and the commits of other
processes. -/
inductive WatchCommand
  | commit (event : WatchEvent)
  | restart
  | openTick (now : Time) (answers : List (Option WalletReading))
  | syncAccepts
  | judgeAndAct (records : WatchedRecords) (target : WatchTarget) (reading : WalletReading)
      (answers : JudgeAnswers)
  | trackExcess (target : WatchTarget) (after : Option ExcessState) (write : StoreWrite)
  deriving Repr

def watchStep (options : FleetWatcherOptions) (command : WatchCommand) (state : WatchState) :
    Except Error WatchState :=
  match command with
  | .commit event => do
      refuse (¬ state.Unused event.id) "duplicate event"
      return state.push event none
  | .restart => .ok (.opened state.events state.reports state.history)
  | .openTick now answers => .ok (openTick options now answers state)
  | .syncAccepts => .ok (syncAccepts options state)
  | .judgeAndAct records target reading answers => do
      refuse ((target, reading) ∉ state.observations) "not read in this tick"
      judgeAndAct options records target reading answers state
  | .trackExcess target after write => .ok (trackExcess target after write state)

/-! ## A watcher of one wallet -/

namespace WatchSample

def target : WatchTarget := ⟨.ethereum, "0x00000000000000000000000000000000000000A1"⟩

def options : FleetWatcherOptions where
  targets := [target]
  ceilings := fun _ => none

def records : WatchedRecords where
  campaigns := []
  runs := []
  intents := []
  attempts := []
  reservations := []

def answers (eventId : String) (date : Time) : JudgeAnswers where
  second := none
  secondRecords := records
  proof := none
  proofRecords := records
  provenRecords := records
  returnRecords := records
  returnWrite := ⟨eventId, date, false⟩
  returnBaseline := ⟨eventId, date, false⟩
  returnedAt := date
  killed := false
  killThrows := false
  stoppedAt := none
  write := ⟨eventId, date, true⟩

def reading : WalletReading := ⟨5, 1000⟩

end WatchSample

end MintBot
