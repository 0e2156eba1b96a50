import MintBot.Health.Monitor
import MintBot.Library.IntegerText

/-!
# Health warnings follow their episodes

For each key the monitor is a tracker of episodes: the loop of a check is one
reading of each of the six.  The messages of a key are therefore exactly those that
are due, and no two messages of a run have the same identity.
-/

namespace MintBot

open Episodes (Reading Report Tracker)

/-! ## One key of a check -/

def Episode.tracker (episode : Episode) : Tracker String :=
  ⟨episode.id, episode.severity, episode.lastSentAt, episode.reminders⟩

namespace Emission

variable {Card : Type}

def report (emission : Emission Card) : Report String :=
  ⟨emission.id, emission.stage, emission.now⟩

/-- The messages of one key. -/
def reportsOf (key : HealthKey) (emissions : List (Emission Card)) : List (Report String) :=
  (emissions.filter (·.key = key)).map report

theorem reportsOf_append (key : HealthKey) (first second : List (Emission Card)) :
    reportsOf key (first ++ second) = reportsOf key first ++ reportsOf key second := by
  rw [reportsOf, List.filter_append, List.map_append]
  rfl

theorem reportsOf_same {emission : Emission Card} :
    reportsOf emission.key [emission] = [emission.report] := by
  simp [reportsOf]

theorem reportsOf_other {key : HealthKey} {emission : Emission Card}
    (different : emission.key ≠ key) : reportsOf key [emission] = [] := by
  simp [reportsOf, different]

end Emission

open Emission

namespace HealthMonitorOptions

variable {Words Card : Type} {options : HealthMonitorOptions} {wording : HealthWording Words Card}
variable {sample : HealthSample} {active : List (HealthFacts Words)} {key : HealthKey}

/-- What a check reads of a key. -/
def reading (sample : HealthSample) (active : List (HealthFacts Words)) (key : HealthKey) :
    Reading :=
  ⟨sample.now, (active.find? (·.key = key)).map HealthFacts.severity⟩

/-- The step of the tracker of a key. -/
def stepOf (options : HealthMonitorOptions) (wording : HealthWording Words Card)
    (sample : HealthSample) (active : List (HealthFacts Words)) (key : HealthKey)
    (episode : Option Episode) : Option (Tracker String) × Option (Report String) :=
  Episodes.step wording.toISOString options.reminderMs (reading sample active key)
    (episode.map Episode.tracker)

variable (options wording) in
theorem checkKey_other (state : Checking Card) {other : HealthKey} (different : other ≠ key) :
    ((options.checkKey wording sample active state key).episodes.get other =
      state.episodes.get other) ∧
    reportsOf other (options.checkKey wording sample active state key).emitted =
      reportsOf other state.emitted := by
  unfold checkKey
  split
  · exact ⟨OrderedMap.get_set_other different,
      by rw [reportsOf_append, reportsOf_other different.symm, List.append_nil]⟩
  · split
    · exact ⟨OrderedMap.get_set_other different,
        by rw [reportsOf_append, reportsOf_other different.symm, List.append_nil]⟩
    · split
      · exact ⟨OrderedMap.get_set_other different,
          by rw [reportsOf_append, reportsOf_other different.symm, List.append_nil]⟩
      · exact ⟨rfl, rfl⟩
  · exact ⟨OrderedMap.get_delete_other different,
      by rw [reportsOf_append, reportsOf_other different.symm, List.append_nil]⟩
  · exact ⟨rfl, rfl⟩

/-- The turn of a key is a step of its tracker. -/
theorem checkKey_same (state : Checking Card) :
    ((options.checkKey wording sample active state key).episodes.get key).map Episode.tracker =
      (options.stepOf wording sample active key (state.episodes.get key)).1 ∧
    reportsOf key (options.checkKey wording sample active state key).emitted =
      reportsOf key state.emitted ++
        (options.stepOf wording sample active key (state.episodes.get key)).2.toList := by
  unfold checkKey stepOf reading
  split
  · rename_i current found unknown
    simp only [found, unknown, Option.map_some, Option.map_none, Episodes.step,
      OrderedMap.get_set_same, reportsOf_append]
    refine ⟨rfl, congrArg _ (reportsOf_same.trans ?_)⟩
    cases current.severity <;> simp [Emission.report, Episodes.Severity.stage]
  · rename_i current episode found known
    simp only [found, known, Option.map_some, Episodes.step, Episode.tracker]
    split
    · simp only [OrderedMap.get_set_same, reportsOf_append, Option.map_some]
      exact ⟨rfl, congrArg _ reportsOf_same⟩
    · split
      · simp only [OrderedMap.get_set_same, reportsOf_append, Option.map_some]
        exact ⟨rfl, congrArg _ reportsOf_same⟩
      · simp [known, Episode.tracker]
  · rename_i episode none known
    simp only [none, known, Option.map_some, Option.map_none, Episodes.step,
      OrderedMap.get_delete_same, reportsOf_append, true_and]
    exact congrArg _ reportsOf_same
  · rename_i none unknown
    simp [none, unknown, Episodes.step]

/-- The loop takes each key once. -/
theorem foldl_checkKey {keys : List HealthKey} (distinct : keys.Nodup) (state : Checking Card) :
    (∀ key ∈ keys,
      ((keys.foldl (options.checkKey wording sample active) state).episodes.get key).map
          Episode.tracker =
        (options.stepOf wording sample active key (state.episodes.get key)).1 ∧
      reportsOf key (keys.foldl (options.checkKey wording sample active) state).emitted =
        reportsOf key state.emitted ++
          (options.stepOf wording sample active key (state.episodes.get key)).2.toList) ∧
    ∀ key ∉ keys,
      (keys.foldl (options.checkKey wording sample active) state).episodes.get key =
        state.episodes.get key ∧
      reportsOf key (keys.foldl (options.checkKey wording sample active) state).emitted =
        reportsOf key state.emitted := by
  induction keys generalizing state with
  | nil => exact ⟨nofun, fun key _ => ⟨rfl, rfl⟩⟩
  | cons first rest inductionHypothesis =>
      obtain ⟨notLater, distinctRest⟩ := List.nodup_cons.mp distinct
      obtain ⟨inside, outside⟩ := inductionHypothesis distinctRest
        (options.checkKey wording sample active state first)
      rw [List.foldl_cons]
      constructor
      · intro key member
        rcases List.mem_cons.mp member with rfl | later
        · rw [(outside key notLater).1, (outside key notLater).2]
          exact checkKey_same state
        · have different : key ≠ first := fun same => notLater (same ▸ later)
          rw [(inside key later).1, (inside key later).2, (checkKey_other _ _ state different).1,
            (checkKey_other _ _ state different).2]
          exact ⟨rfl, rfl⟩
      · intro key outsideAll
        obtain ⟨different, notInRest⟩ := not_or.mp fun either => outsideAll (List.mem_cons.mpr either)
        rw [(outside key notInRest).1, (outside key notInRest).2]
        exact checkKey_other _ _ state different

end HealthMonitorOptions

namespace HealthMonitor

variable {Words Card : Type} {options : HealthMonitorOptions} {wording : HealthWording Words Card}

/-- What a check reads of a key, with the episodes that are open before it. -/
def reading (options : HealthMonitorOptions) (wording : HealthWording Words Card)
    (monitor : HealthMonitor Card) (sample : HealthSample) (key : HealthKey) : Reading :=
  HealthMonitorOptions.reading sample (options.evaluate wording monitor.episodes sample) key

theorem mem_all (key : HealthKey) : key ∈ HealthKey.all := by
  cases key <;> decide

variable (options wording) in
/-- A check is one step of the tracker of every key. -/
theorem checking_step (monitor : HealthMonitor Card) (sample : HealthSample) (key : HealthKey) :
    ((monitor.checking options wording sample).episodes.get key).map Episode.tracker =
      (Episodes.step wording.toISOString options.reminderMs
        (monitor.reading options wording sample key)
        ((monitor.episodes.get key).map Episode.tracker)).1 ∧
    reportsOf key (monitor.checking options wording sample).emitted =
      (Episodes.step wording.toISOString options.reminderMs
        (monitor.reading options wording sample key)
        ((monitor.episodes.get key).map Episode.tracker)).2.toList :=
  (HealthMonitorOptions.foldl_checkKey (by decide) _).1 key (mem_all key)

theorem run_concat (calls : List HealthCheck) (call : HealthCheck) :
    run options wording (calls ++ [call]) =
      ((run options wording calls).check options wording call).1 := by
  rw [run, List.foldl_append]
  rfl

variable {calls : List HealthCheck}

/-- The instants of the checks. -/
def instants (calls : List HealthCheck) : List Time :=
  calls.map fun call => call.sample.now

/-- After any run, the open episode of a key is what its tracker remembers. -/
theorem run_kept (injective : Function.Injective wording.toISOString)
    (distinct : (instants calls).Nodup) (key : HealthKey) :
    Episodes.Kept wording.toISOString options.reminderMs (instants calls)
      (reportsOf key (run options wording calls).handed)
      (((run options wording calls).episodes.get key).map Episode.tracker) := by
  induction calls using List.reverseRecOn with
  | nil => exact .start _ _
  | append_singleton calls call inductionHypothesis =>
      rw [instants, List.map_append, List.map_singleton, ← instants] at distinct ⊢
      obtain ⟨distinctBefore, -, apart⟩ := List.nodup_append.mp distinct
      have later :
          ((run options wording calls).reading options wording call.sample key).now ∉
            instants calls :=
        fun known => apart _ known _ (List.mem_singleton_self _) rfl
      obtain ⟨tracker, reports⟩ :=
        checking_step options wording (run options wording calls)
          call.sample key
      rw [run_concat, check]
      dsimp only
      rw [reportsOf_append, tracker, reports]
      exact (inductionHypothesis distinctBefore).step injective later

/-! ## Identities -/

theorem stageText_injective : Function.Injective stageText := by
  have head (number : Nat) : (stageText (.reminder number)).toList =
      ['r', 'e', 'm', 'i', 'n', 'd', 'e', 'r'] ++ Nat.toDigits 10 number := by
    rw [stageText, String.toList_append, Nat.toString_eq_repr, Nat.toList_repr]
    rfl
  have start (number : Nat) :
      (stageText (.reminder number)).toList.take 3 = ['r', 'e', 'm'] := by
    rw [head]
    rfl
  intro first second same
  match first, second with
  | .reminder first, .reminder second =>
      have chars := congrArg String.toList same
      rw [head, head, List.append_cancel_left_eq] at chars
      have numbers := congrArg (fun digits => Nat.ofDigitChars 10 digits 0) chars
      simp only [Nat.ofDigitChars_ten_toDigits] at numbers
      rw [numbers]
  | .reminder number, .opened | .reminder number, .critical | .reminder number, .recovered =>
      exact absurd (same ▸ start number) (by decide)
  | .opened, .reminder number | .critical, .reminder number | .recovered, .reminder number =>
      exact absurd (same ▸ start number) (by decide)
  | .opened, .opened | .critical, .critical | .recovered, .recovered => rfl
  | .opened, .critical | .opened, .recovered | .critical, .opened | .critical, .recovered
  | .recovered, .opened | .recovered, .critical => exact absurd same (by decide)

theorem key_text_injective : Function.Injective HealthKey.text := by
  intro first second
  cases first <;> cases second <;> decide

theorem colon_notMem_key (key : HealthKey) : ':' ∉ key.text.toList := by
  cases key <;> decide

theorem colon_notMem_stage (stage : Episodes.Stage) : ':' ∉ (stageText stage).toList := by
  cases stage with
  | reminder number =>
      rw [stageText, String.toList_append, Nat.toString_eq_repr, Nat.toList_repr, List.mem_append,
        not_or]
      refine ⟨by decide, fun member => ?_⟩
      exact absurd (IntegerText.isDigit_toDigits number member) (by decide)
  | opened | critical | recovered => decide

/-- The parts of a list before and behind its first separator. -/
theorem append_separator_inj {α : Type*} [DecidableEq α] {separator : α}
    {first second before after : List α} (firstFree : separator ∉ first)
    (secondFree : separator ∉ second)
    (same : first ++ separator :: before = second ++ separator :: after) :
    first = second ∧ before = after := by
  have whole {part : List α} (free : separator ∉ part) : ∀ letter ∈ part,
      (letter != separator) = true := fun letter member =>
    bne_iff_ne.mpr fun same => free (same ▸ member)
  have front := congrArg (List.takeWhile (· != separator)) same
  rw [List.takeWhile_append_of_pos (whole firstFree),
    List.takeWhile_append_of_pos (whole secondFree)] at front
  obtain rfl : first = second := by simpa using front
  exact ⟨rfl, (List.cons.inj (List.append_cancel_left same)).2⟩

/-- The parts of a list before and behind its last separator. -/
theorem append_last_separator_inj {α : Type*} [DecidableEq α] {separator : α}
    {first second before after : List α} (beforeFree : separator ∉ before)
    (afterFree : separator ∉ after)
    (same : first ++ separator :: before = second ++ separator :: after) :
    first = second ∧ before = after := by
  have backwards := congrArg List.reverse same
  simp only [List.reverse_append, List.reverse_cons, List.append_assoc, List.singleton_append]
    at backwards
  obtain ⟨behind, front⟩ := append_separator_inj (by simpa using beforeFree)
    (by simpa using afterFree) backwards
  exact ⟨List.reverse_inj.mp front, List.reverse_inj.mp behind⟩

/-- The identity of a message names its key, its episode and its stage. -/
theorem dedupe_inj {Card : Type} {first second : Emission Card}
    (same : first.dedupe = second.dedupe) :
    first.key = second.key ∧ first.report.identity = second.report.identity := by
  have chars := congrArg String.toList same
  simp only [Emission.dedupe, String.toList_append, List.append_assoc,
    List.append_cancel_left_eq] at chars
  obtain ⟨keys, rest⟩ := append_separator_inj (colon_notMem_key _) (colon_notMem_key _) chars
  obtain ⟨ids, stages⟩ :=
    append_last_separator_inj (colon_notMem_stage _) (colon_notMem_stage _) rest
  refine ⟨key_text_injective (String.ext keys), Prod.ext (String.ext ids) ?_⟩
  exact stageText_injective (String.ext stages)

/-- A list without repetitions under each key is one without repetitions. -/
theorem nodup_of_keys {α κ β : Type*} [DecidableEq κ] (key : α → κ) (identity : α → β)
    (entries : List α)
    (distinct : ∀ k, ((entries.filter (key · = k)).map identity).Nodup) :
    entries.Pairwise fun first second =>
      ¬ (key first = key second ∧ identity first = identity second) := by
  induction entries with
  | nil => exact .nil
  | cons entry entries inductionHypothesis =>
      refine List.pairwise_cons.mpr ⟨fun other member => ?_, inductionHypothesis fun k => ?_⟩
      · rintro ⟨sameKey, sameIdentity⟩
        have own := distinct (key entry)
        rw [List.filter_cons_of_pos (by simp), List.map_cons, List.nodup_cons] at own
        refine own.1 (List.mem_map.mpr ⟨other, List.mem_filter.mpr ⟨member, ?_⟩, sameIdentity.symm⟩)
        simp [sameKey]
      · exact ((List.sublist_cons_self entry entries).filter _ |>.map identity).nodup (distinct k)

/-! ## Connection errors -/

/-- There is no failure ratio to judge. -/
def TooFewAttempts (options : HealthMonitorOptions) (sample : HealthSample) : Prop :=
  sample.endpoint.total < options.minEndpointSample ∨ sample.endpoint.total = 0

/-- While an episode is open, connection errors are over only where the ratio is below half of the
trigger. -/
theorem below_half_of_inactive {monitor : HealthMonitor Card} {sample : HealthSample}
    (isOpen : (monitor.episodes.get .endpointErrors).isSome)
    (inactive : (monitor.reading options wording sample .endpointErrors).active = none) :
    TooFewAttempts options sample ∨
      (sample.endpoint.failed : ℚ) / sample.endpoint.total ≤
        options.thresholds.endpointErrorRatio / 2 := by
  have quiet : OperationalKey.endpointDegraded ∉
      (evaluateOperationalAlerts (options.operationalSnapshot sample)
        (options.endpointThresholds monitor.episodes) sample.now).map OperationalAlert.key := by
    intro fires
    have absent := Option.map_eq_none_iff.mp inactive
    rw [List.find?_eq_none] at absent
    refine absent ⟨.endpointErrors, .attention, wording.words .endpointErrors sample,
      sample.now - 60 * 60000⟩ ?_ (by simp)
    simp [HealthMonitorOptions.evaluate, fires]
  have calm : ¬ (options.endpointErrorRatio sample).AtLeast
      (options.thresholds.endpointErrorRatio / 2) := by
    intro high
    refine quiet (mem_firing.mpr ?_)
    rw [HealthMonitorOptions.endpointThresholds, if_pos isOpen]
    exact high
  by_cases few : TooFewAttempts options sample
  · exact .inl few
  · obtain ⟨enough, some⟩ := not_or.mp few
    rw [HealthMonitorOptions.endpointErrorRatio, if_pos (Nat.not_lt.mp enough), Share.of,
      if_neg some] at calm
    exact .inr (le_of_lt (not_le.mp calm))

/-! ## Whole runs -/

/-- The messages of a check after other checks. -/
def emittedBy (options : HealthMonitorOptions) (wording : HealthWording Words Card)
    (before : List HealthCheck) (call : HealthCheck) : List (Emission Card) :=
  ((run options wording before).checking options wording call.sample).emitted

/-- What a check reads of a key after other checks. -/
def readingAfter (options : HealthMonitorOptions) (wording : HealthWording Words Card)
    (before : List HealthCheck) (call : HealthCheck) (key : HealthKey) : Reading :=
  (run options wording before).reading options wording call.sample key

/-- Every message is one that is due by the messages of its episode, every message that is due is
sent, no two messages have one identity, and connection errors are over only well below the
trigger. -/
theorem warnings_follow_episodes (injective : Function.Injective wording.toISOString)
    (options : HealthMonitorOptions) (calls : List HealthCheck)
    (increasing : calls.Pairwise fun earlier later => earlier.sample.now < later.sample.now) :
    (∀ before call after, calls = before ++ call :: after → ∀ key,
      (∀ report, report ∈ reportsOf key (emittedBy options wording before call) ↔
        Episodes.Due wording.toISOString options.reminderMs
          (Episodes.openEpisode (reportsOf key (run options wording before).handed))
          (readingAfter options wording before call key) report) ∧
      (reportsOf key (emittedBy options wording before call)).length ≤ 1) ∧
    (∀ key, Episodes.InEpisodes options.reminderMs
      (reportsOf key (run options wording calls).handed)) ∧
    (((run options wording calls).handed.map (Emission.input wording)).map
      fun input => (input.kind, input.dedupe)).Nodup ∧
    ∀ before call after, calls = before ++ call :: after →
      ∀ emission ∈ emittedBy options wording before call,
        emission.key = .endpointErrors → emission.stage = .recovered →
          TooFewAttempts options call.sample ∨
            (call.sample.endpoint.failed : ℚ) / call.sample.endpoint.total ≤
              options.thresholds.endpointErrorRatio / 2 := by
  have distinct : (instants calls).Nodup :=
    List.pairwise_map.mpr (increasing.imp fun before => Int.ne_of_lt before)
  have kept (key : HealthKey) :
      Episodes.Kept wording.toISOString options.reminderMs (instants calls)
        (reportsOf key (run options wording calls).handed)
        (((run options wording calls).episodes.get key).map Episode.tracker) :=
    run_kept injective distinct key
  have keptBefore {before after : List HealthCheck} {call : HealthCheck}
      (same : calls = before ++ call :: after) (key : HealthKey) :
      Episodes.Kept wording.toISOString options.reminderMs (instants before)
        (reportsOf key (run options wording before).handed)
        (((run options wording before).episodes.get key).map Episode.tracker) := by
    refine run_kept injective (distinct.sublist ?_) key
    rw [same, instants, instants, List.map_append]
    exact List.sublist_append_left _ _
  refine ⟨fun before call after same key => ?_, fun key => (kept key).inEpisodes, ?_, ?_⟩
  · rw [emittedBy, (checking_step _ _ _ _ key).2]
    constructor
    · intro report
      rw [Option.mem_toList]
      exact (keptBefore same key).step_iff report
    · exact Option.length_toList_le
  · have once (key : HealthKey) : (((run options wording calls).handed.filter (·.key = key)).map
        fun emission => emission.report.identity).Nodup := by
      have own := (kept key).once
      rwa [reportsOf, List.map_map] at own
    have apart := nodup_of_keys Emission.key _ _ once
    rw [List.map_map]
    refine List.pairwise_map.mpr (apart.imp fun different same => different ?_)
    exact dedupe_inj (Prod.mk.inj same).2
  · intro before call after same emission member key stage
    have reported : emission.report ∈
        reportsOf .endpointErrors (emittedBy options wording before call) :=
      List.mem_map.mpr ⟨emission, List.mem_filter.mpr ⟨member, by simp [key]⟩, rfl⟩
    rw [emittedBy, (checking_step _ _ _ _ _).2, Option.mem_toList] at reported
    obtain ⟨isOpen, inactive⟩ := Episodes.step_recovered reported stage
    rw [Option.isSome_map] at isOpen
    exact below_half_of_inactive isOpen inactive

end HealthMonitor

/-! ## A trouble of one check -/

namespace WarningSample

open HealthMonitor

/-- Instants in the first hundredth of a second, and cards without words. -/
def wording : HealthWording Unit Unit where
  words _ _ := ()
  healthCard _ _ := ()
  recoveredCard _ _ _ := ()
  plainSystemText _ := ""
  toISOString instant := "1970-01-01T00:00:00.00" ++ toString instant ++ "Z"

theorem toISOString_injective : Function.Injective wording.toISOString := by
  intro first second same
  have texts : toString first = toString second := by
    have chars := congrArg String.toList same
    simp only [wording, String.toList_append, List.append_cancel_right_eq,
      List.append_cancel_left_eq] at chars
    exact String.ext chars
  have read := congrArg IntegerText.readInteger texts
  rw [IntegerText.readInteger_toString, IntegerText.readInteger_toString] at read
  exact Option.some.inj read

/-- A check at which `failed` messages wait for delivery; the sink refuses every message. -/
def call (now : Time) (failed : Nat) : HealthCheck where
  sample :=
    { now := now
      scan := ⟨now, none, none, none⟩
      endpoint := ⟨0, 0⟩
      disk := none
      backup := none
      delivery := ⟨failed, none⟩
      exposure := none }
  answers _ := .error "SINK_DOWN"

/-- One message opens the episode and one closes it. -/
theorem warnings_follow_sample :
    (run {} wording [call 0 2, call 1 0]).handed.map Emission.sent =
        ["delivery_trouble:open", "delivery_trouble:recovered"] ∧
      Episodes.InEpisodes (6 * 60 * 60000)
        (reportsOf .deliveryTrouble (run {} wording [call 0 2, call 1 0]).handed) := by
  have increasing : [call 0 2, call 1 0].Pairwise fun earlier later =>
      earlier.sample.now < later.sample.now := by
    simp [call]
  refine ⟨by decide +kernel, ?_⟩
  exact (warnings_follow_episodes toISOString_injective {} _ increasing).2.1 .deliveryTrouble

end WarningSample

end MintBot
