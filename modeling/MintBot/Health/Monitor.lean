import Mathlib.Algebra.Order.Field.Rat
import MintBot.Library.Episodes
import MintBot.Library.OrderedMap
import MintBot.Types

/-!
# The health monitor

`HealthMonitor` decides from a sample which troubles are there and reports them by
episodes.  The thresholds of the connection, disk and backup troubles are those of
`evaluateOperationalAlerts`.  While an episode of connection errors is open its
threshold is halved.

The words of the cards are left to the presentation: no decision reads them.
-/

namespace MintBot

/-! ## Operational alerts -/

/-- A quotient of two counts as the language computes it. -/
inductive Share
  | undefined
  | infinite
  | ratio (value : ℚ)
  deriving DecidableEq

def Share.of (part whole : Nat) : Share :=
  if whole = 0 then if part = 0 then .undefined else .infinite else .ratio (part / whole)

def Share.AtLeast (threshold : ℚ) : Share → Prop
  | undefined => False
  | infinite => True
  | ratio value => threshold ≤ value

instance (threshold : ℚ) (share : Share) : Decidable (share.AtLeast threshold) := by
  cases share <;> unfold Share.AtLeast <;> infer_instance

structure OperationalSnapshot where
  processAlive : Bool
  reconciliationAgeSeconds : Option ℚ
  unresolvedSubmissions : Nat
  endpointErrorRatio : Option Share
  diskFreeBytes : Option ℚ
  diskFreeRatio : Option ℚ
  backupAgeSeconds : Option ℚ
  backupFailed : Bool
  killSwitchEngaged : Bool
  capHit : Bool
  notificationConnected : Bool

structure AlertThresholds where
  reconciliationMaxAgeSeconds : ℚ := 300
  endpointErrorRatio : ℚ := 1 / 4
  diskFreeBytes : ℚ := 512 * 1024 * 1024
  diskFreeRatio : ℚ := 1 / 10
  backupMaxAgeSeconds : ℚ := 36 * 60 * 60
  cooldownMs : ℚ := 15 * 60 * 1000

inductive OperationalKey
  | processDown
  | reconciliationStale
  | endpointDegraded
  | diskPressure
  | backupStale
  | killSwitch
  | spendCap
  | notificationDisconnect
  deriving DecidableEq, Repr

inductive OperationalSeverity
  | warning
  | critical
  deriving DecidableEq, Repr

structure OperationalAlert where
  key : OperationalKey
  severity : OperationalSeverity
  reason : String
  message : String
  now : Time

/-- A missing age is infinite. -/
def olderThan (limit : ℚ) : Option ℚ → Prop
  | some age => limit < age
  | none => True

instance (limit : ℚ) (age : Option ℚ) : Decidable (olderThan limit age) := by
  cases age <;> unfold olderThan <;> infer_instance

/-- The tests of `evaluateOperationalAlerts`. -/
def OperationalSnapshot.Fires (snapshot : OperationalSnapshot) (thresholds : AlertThresholds) :
    OperationalKey → Prop
  | .processDown => snapshot.processAlive = false
  | .reconciliationStale =>
      0 < snapshot.unresolvedSubmissions ∨
        olderThan thresholds.reconciliationMaxAgeSeconds snapshot.reconciliationAgeSeconds
  | .endpointDegraded =>
      (snapshot.endpointErrorRatio.getD (.ratio 0)).AtLeast thresholds.endpointErrorRatio
  | .diskPressure =>
      (∃ bytes ∈ snapshot.diskFreeBytes, bytes < thresholds.diskFreeBytes) ∨
        snapshot.diskFreeRatio.getD 1 < thresholds.diskFreeRatio
  | .backupStale =>
      snapshot.backupFailed = true ∨
        olderThan thresholds.backupMaxAgeSeconds snapshot.backupAgeSeconds
  | .killSwitch => snapshot.killSwitchEngaged = true
  | .spendCap => snapshot.capHit = true
  | .notificationDisconnect => snapshot.notificationConnected = false

instance (snapshot : OperationalSnapshot) (thresholds : AlertThresholds) (key : OperationalKey) :
    Decidable (snapshot.Fires thresholds key) := by
  cases key <;> unfold OperationalSnapshot.Fires <;> infer_instance

/-- Every alert that `evaluateOperationalAlerts` can make, in its order. -/
def operationalAlerts (now : Time) : List OperationalAlert :=
  [⟨.processDown, .critical, "PROCESS_DOWN",
      "Orchestrator process is not alive; no new work is admitted.", now⟩,
    ⟨.reconciliationStale, .critical, "RECONCILIATION_STALE",
      "Reconciliation is stale or unresolved; keep admission blocked.", now⟩,
    ⟨.endpointDegraded, .warning, "ENDPOINT_ERROR_RATE_HIGH",
      "RPC endpoint errors exceed the configured threshold.", now⟩,
    ⟨.diskPressure, .critical, "DISK_PRESSURE",
      "Persistent state or logs are low on disk space.", now⟩,
    ⟨.backupStale, .critical, "BACKUP_STALE_OR_FAILED",
      "The latest encrypted backup is stale or failed.", now⟩,
    ⟨.killSwitch, .critical, "KILL_SWITCH_ENGAGED",
      "Kill switch is engaged; submitted work still requires reconciliation.", now⟩,
    ⟨.spendCap, .critical, "SPEND_CAP_REACHED",
      "A durable spend cap blocked or stopped admission.", now⟩,
    ⟨.notificationDisconnect, .warning, "NOTIFICATION_DISCONNECTED",
      "One-way notification delivery is unavailable.", now⟩]

/-- `evaluateOperationalAlerts`. -/
def evaluateOperationalAlerts (snapshot : OperationalSnapshot) (thresholds : AlertThresholds)
    (now : Time) : List OperationalAlert :=
  (operationalAlerts now).filter fun alert => snapshot.Fires thresholds alert.key

theorem mem_firing {snapshot : OperationalSnapshot} {thresholds : AlertThresholds} {now : Time}
    {key : OperationalKey} :
    key ∈ (evaluateOperationalAlerts snapshot thresholds now).map OperationalAlert.key ↔
      snapshot.Fires thresholds key := by
  constructor
  · intro member
    obtain ⟨alert, kept, rfl⟩ := List.mem_map.mp member
    exact of_decide_eq_true (List.mem_filter.mp kept).2
  · intro fires
    have listed : ∃ alert ∈ operationalAlerts now, alert.key = key := by
      cases key <;> simp [operationalAlerts]
    obtain ⟨alert, member, rfl⟩ := listed
    exact List.mem_map.mpr ⟨alert, List.mem_filter.mpr ⟨member, decide_eq_true fires⟩, rfl⟩

/-! ## Samples -/

inductive HealthKey
  | scanStalled
  | endpointErrors
  | diskPressure
  | backupStale
  | deliveryTrouble
  | pendingExposure
  deriving DecidableEq, Repr

def HealthKey.text : HealthKey → String
  | scanStalled => "scan_stalled"
  | endpointErrors => "endpoint_errors"
  | diskPressure => "disk_pressure"
  | backupStale => "backup_stale"
  | deliveryTrouble => "delivery_trouble"
  | pendingExposure => "pending_exposure"

structure ScanSample where
  startedAt : Time
  lastOkAt : Option Time
  lastOkBlock : Option String
  lastProblem : Option String

structure EndpointSample where
  total : Nat
  failed : Nat

structure DiskSample where
  freeBytes : Nat
  totalBytes : Nat

inductive BackupStatus
  | ok
  | failed
  deriving DecidableEq, Repr

structure BackupSample where
  status : BackupStatus
  recordedAt : Time

structure DeliverySample where
  failed : Nat
  oldestFailedAt : Option Time

structure ExposureSample where
  stalePending : Nat
  oldestPendingAt : Option Time

structure HealthSample where
  now : Time
  scan : ScanSample
  endpoint : EndpointSample
  disk : Option DiskSample
  backup : Option BackupSample
  delivery : DeliverySample
  exposure : Option ExposureSample

structure HealthMonitorOptions where
  thresholds : AlertThresholds := {}
  scanStalledMs : Int := 15 * 60000
  scanCriticalMs : Int := 60 * 60000
  minEndpointSample : Nat := 6
  reminderMs : Int := 6 * 60 * 60000

/-- A trouble that is there. -/
structure HealthFacts (Words : Type) where
  key : HealthKey
  severity : Episodes.Severity
  words : Words
  since : Time

/-- The presentation: what the facts of a trouble say, and the cards. -/
structure HealthWording (Words Card : Type) where
  words : HealthKey → HealthSample → Words
  healthCard : HealthFacts Words → (reminder : Option Nat) → Card
  recoveredCard : HealthKey → (since now : Time) → Card
  plainSystemText : Card → String
  toISOString : Time → String

structure Episode where
  id : String
  since : Time
  severity : Episodes.Severity
  lastSentAt : Time
  reminders : Nat

namespace HealthMonitorOptions

variable {Words Card : Type} (options : HealthMonitorOptions) (wording : HealthWording Words Card)

/-- `endpointThresholds`. -/
def endpointThresholds (episodes : OrderedMap HealthKey Episode) : AlertThresholds :=
  if (episodes.get .endpointErrors).isSome then
    { options.thresholds with
      endpointErrorRatio := options.thresholds.endpointErrorRatio / 2 }
  else options.thresholds

/-- The failure ratio of a sample, where there are attempts enough to judge it. -/
def endpointErrorRatio (sample : HealthSample) : Share :=
  if options.minEndpointSample ≤ sample.endpoint.total then
    .of sample.endpoint.failed sample.endpoint.total
  else .ratio 0

def operationalSnapshot (sample : HealthSample) : OperationalSnapshot where
  processAlive := true
  reconciliationAgeSeconds := some 0
  unresolvedSubmissions := 0
  endpointErrorRatio := some (options.endpointErrorRatio sample)
  diskFreeBytes := sample.disk.map fun disk => disk.freeBytes
  diskFreeRatio := sample.disk.map fun disk =>
    if 0 < disk.totalBytes then disk.freeBytes / disk.totalBytes else 1
  backupAgeSeconds := some <|
    match sample.backup with
    | some backup => ((sample.now - backup.recordedAt : Int) : ℚ) / 1000
    | none => 0
  backupFailed := sample.backup.any fun backup => backup.status = .failed
  killSwitchEngaged := false
  capHit := false
  notificationConnected := true

/-- `evaluate`, after which episodes are open. -/
def evaluate (episodes : OrderedMap HealthKey Episode) (sample : HealthSample) :
    List (HealthFacts Words) :=
  let facts (key : HealthKey) (severity : Episodes.Severity) (since : Time) : HealthFacts Words :=
    ⟨key, severity, wording.words key sample, since⟩
  let reference := sample.scan.lastOkAt.getD sample.scan.startedAt
  let stalledFor := sample.now - reference
  let firing := (evaluateOperationalAlerts (options.operationalSnapshot sample)
    (options.endpointThresholds episodes) sample.now).map OperationalAlert.key
  (if options.scanStalledMs ≤ stalledFor then
    [facts .scanStalled
      (if options.scanCriticalMs ≤ stalledFor then .critical else .attention) reference]
  else []) ++
  (if OperationalKey.endpointDegraded ∈ firing then
    [facts .endpointErrors .attention (sample.now - 60 * 60000)]
  else []) ++
  (if OperationalKey.diskPressure ∈ firing ∧ sample.disk.isSome then
    [facts .diskPressure .critical sample.now]
  else []) ++
  (match sample.backup with
  | some backup =>
      if OperationalKey.backupStale ∈ firing then
        [facts .backupStale .critical backup.recordedAt]
      else []
  | none => []) ++
  (if 0 < sample.delivery.failed then
    [facts .deliveryTrouble .attention (sample.delivery.oldestFailedAt.getD sample.now)]
  else []) ++
  (match sample.exposure with
  | some exposure =>
      if 0 < exposure.stalePending then
        [facts .pendingExposure .critical (exposure.oldestPendingAt.getD sample.now)]
      else []
  | none => [])

end HealthMonitorOptions

/-! ## Checks -/

/-- The stage as an identity writes it. -/
def stageText : Episodes.Stage → String
  | .opened => "open"
  | .critical => "critical"
  | .reminder number => "reminder" ++ toString number
  | .recovered => "recovered"

/-- What `emit` is called with, and when. -/
structure Emission (Card : Type) where
  key : HealthKey
  id : String
  stage : Episodes.Stage
  card : Card
  now : Time

structure IntelligenceAlertInput (Card : Type) where
  kind : String
  dedupe : String
  text : String
  priority : String
  system : Card
  instant : String

namespace Emission

variable {Words Card : Type}

def dedupe (emission : Emission Card) : String :=
  "health:" ++ emission.key.text ++ ":" ++ emission.id ++ ":" ++ stageText emission.stage

/-- What the sink receives. -/
def input (wording : HealthWording Words Card) (emission : Emission Card) :
    IntelligenceAlertInput Card where
  kind := "health"
  dedupe := emission.dedupe
  text := wording.plainSystemText emission.card
  priority := "immediate"
  system := emission.card
  instant := wording.toISOString emission.now

/-- What `check` returns for a message. -/
def sent (emission : Emission Card) : String :=
  emission.key.text ++ ":" ++ stageText emission.stage

end Emission

/-- The loop of `check`: the open episodes and the messages of the check so far. -/
structure Checking (Card : Type) where
  episodes : OrderedMap HealthKey Episode
  emitted : List (Emission Card)

/-- The keys in the order of the loop. -/
def HealthKey.all : List HealthKey :=
  [.scanStalled, .endpointErrors, .diskPressure, .backupStale, .deliveryTrouble, .pendingExposure]

namespace HealthMonitorOptions

variable {Words Card : Type} (options : HealthMonitorOptions) (wording : HealthWording Words Card)

/-- The turn of one key. -/
def checkKey (sample : HealthSample) (active : List (HealthFacts Words)) (state : Checking Card)
    (key : HealthKey) : Checking Card :=
  match active.find? (·.key = key), state.episodes.get key with
  | some current, none =>
      let opened : Episode :=
        { id := wording.toISOString sample.now
          since := current.since
          severity := current.severity
          lastSentAt := sample.now
          reminders := 0 }
      { episodes := state.episodes.set key opened
        emitted := state.emitted ++ [⟨key, opened.id,
          if current.severity = .critical then .critical else .opened,
          wording.healthCard current none, sample.now⟩] }
  | some current, some episode =>
      if current.severity = .critical ∧ episode.severity = .attention then
        { episodes := state.episodes.set key
            { episode with severity := .critical, lastSentAt := sample.now }
          emitted := state.emitted ++ [⟨key, episode.id, .critical,
            wording.healthCard { current with since := episode.since } none, sample.now⟩] }
      else if options.reminderMs ≤ sample.now - episode.lastSentAt then
        { episodes := state.episodes.set key
            { episode with
              reminders := episode.reminders + 1
              lastSentAt := sample.now }
          emitted := state.emitted ++ [⟨key, episode.id, .reminder (episode.reminders + 1),
            wording.healthCard { current with since := episode.since }
              (some (episode.reminders + 1)), sample.now⟩] }
      else state
  | none, some episode =>
      { episodes := state.episodes.delete key
        emitted := state.emitted ++ [⟨key, episode.id, .recovered,
          wording.recoveredCard key episode.since sample.now, sample.now⟩] }
  | none, none => state

end HealthMonitorOptions

/-- A call of `check`, with the answers of the sink to its messages in turn. -/
structure HealthCheck where
  sample : HealthSample
  answers : Nat → Except Error Bool

/-- The monitor, everything it handed to the sink, and the errors it reported. -/
structure HealthMonitor (Card : Type) where
  episodes : OrderedMap HealthKey Episode := []
  handed : List (Emission Card) := []
  errors : List Error := []

namespace HealthMonitor

variable {Words Card : Type} (options : HealthMonitorOptions) (wording : HealthWording Words Card)

/-- `openKeys`. -/
def openKeys (monitor : HealthMonitor Card) : List HealthKey :=
  monitor.episodes.map Prod.fst

/-- What the loop of a check leaves. -/
def checking (monitor : HealthMonitor Card) (sample : HealthSample) : Checking Card :=
  HealthKey.all.foldl
    (options.checkKey wording sample (options.evaluate wording monitor.episodes sample))
    ⟨monitor.episodes, []⟩

/-- `check`.  A message that the sink refuses is reported and counts as sent. -/
def check (monitor : HealthMonitor Card) (call : HealthCheck) :
    HealthMonitor Card × List String :=
  let done := monitor.checking options wording call.sample
  let refused := (List.range done.emitted.length).filterMap fun place =>
    match call.answers place with
    | .ok _ => none
    | .error error => some error
  ({ episodes := done.episodes
     handed := monitor.handed ++ done.emitted
     errors := monitor.errors ++ refused },
    done.emitted.map Emission.sent)

/-- Checks one after the other. -/
def run (calls : List HealthCheck) : HealthMonitor Card :=
  calls.foldl (fun monitor call => (monitor.check options wording call).1) {}

end HealthMonitor

end MintBot
