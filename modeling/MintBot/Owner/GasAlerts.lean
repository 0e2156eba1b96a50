import Mathlib.Data.Rat.Floor
import MintBot.Library.OrderedMap
import MintBot.Library.QuietAlarm
import MintBot.Types

/-!
# Fee alerts

The owner sets thresholds on the gas price of a chain.  The checker reads the prices from time to
time and sends a message when a price crosses a threshold; it remembers of each alert whether its
price was across, and when its last message went out.
-/

namespace MintBot.GasAlerts

open QuietAlarm

inductive Direction
  | below
  | above
  deriving DecidableEq, Repr

structure GasAlertRow where
  id : String
  chainId : ChainId
  direction : Direction
  thresholdGwei : String
  deriving DecidableEq, Repr

/-- The least time between two messages of an alert, `Number` of a text (none for `NaN`), and
`toFixed(4)`. -/
structure GasAlertDeps where
  minGapMs : ℚ := 600000
  number : String → Option ℚ
  toFixed : ℚ → String

/-- One pass: the alerts that are set, the finite price of each chain where it can be read, when
an alert is looked at, and whether its delivery succeeds. -/
structure Tick where
  alerts : List GasAlertRow
  gasGwei : ChainId → Option ℚ
  now : String → Int
  delivers : String → Bool
  distinct : (alerts.map GasAlertRow.id).Nodup := by decide

structure FeeMessage where
  alertId : String
  text : String
  dedupe : String
  sentAt : Int
  deriving DecidableEq, Repr

/-- The two maps of the checker. -/
structure Checker where
  crossed : OrderedMap String Bool := []
  lastSent : OrderedMap String Int := []
  deriving DecidableEq, Repr

def chainName : ChainId → String
  | .ethereum => "Ethereum"
  | .base => "Base"
  | .robinhood => "Robinhood"

def Direction.text : Direction → String
  | below => "below"
  | above => "above"

def gasAlertSentence (alert : GasAlertRow) : String :=
  chainName alert.chainId ++ " fees " ++ alert.direction.text ++ " " ++ alert.thresholdGwei ++ " gwei"

/-- The price is across the threshold of an alert. -/
def Crossed (deps : GasAlertDeps) (alert : GasAlertRow) (price : ℚ) : Prop :=
  ∃ threshold ∈ deps.number alert.thresholdGwei,
    match alert.direction with
    | .below => price < threshold
    | .above => threshold < price

instance (deps : GasAlertDeps) (alert : GasAlertRow) (price : ℚ) :
    Decidable (Crossed deps alert price) :=
  match isThreshold : deps.number alert.thresholdGwei, isDirection : alert.direction with
  | none, _ => .isFalse (by simp [Crossed, isThreshold])
  | some threshold, .below =>
      decidable_of_iff (price < threshold) (by simp [Crossed, isThreshold, isDirection])
  | some threshold, .above =>
      decidable_of_iff (threshold < price) (by simp [Crossed, isThreshold, isDirection])

/-- The key of a message: one for each gap. -/
def dedupeKey (deps : GasAlertDeps) (id : String) (sentAt : Int) : String :=
  "gas-alert:" ++ id ++ ":" ++ toString ⌊(sentAt : ℚ) / max deps.minGapMs 1⌋

def feeMessage (deps : GasAlertDeps) (alert : GasAlertRow) (price : ℚ) (sentAt : Int) :
    FeeMessage where
  alertId := alert.id
  text := "Fee alert: " ++ gasAlertSentence alert ++ ". Now " ++ deps.toFixed price ++ " gwei."
  dedupe := dedupeKey deps alert.id sentAt
  sentAt := sentAt

/-- The body of the loop: what the checker remembers after an alert, and the message. -/
def Checker.visit (deps : GasAlertDeps) (tick : Tick) (checker : Checker) (alert : GasAlertRow) :
    Checker × Option FeeMessage :=
  match tick.gasGwei alert.chainId with
  | none => (checker, none)
  | some price =>
      if ¬ Crossed deps alert price then
        ({ checker with crossed := checker.crossed.set alert.id false }, none)
      else if (checker.crossed.get alert.id).getD false = true then (checker, none)
      else
        let sentAt := tick.now alert.id
        if ∃ last ∈ checker.lastSent.get alert.id, ((sentAt - last : Int) : ℚ) < deps.minGapMs then
          ({ checker with crossed := checker.crossed.set alert.id true }, none)
        else if tick.delivers alert.id = true then
          ({ crossed := checker.crossed.set alert.id true
             lastSent := checker.lastSent.set alert.id sentAt },
            some (feeMessage deps alert price sentAt))
        else (checker, none)

/-- The loop over the alerts. -/
def Checker.visitAll (deps : GasAlertDeps) (tick : Tick) :
    List GasAlertRow → Checker → Checker × List FeeMessage
  | [], checker => (checker, [])
  | alert :: rest, checker =>
      let visited := checker.visit deps tick alert
      let others := visitAll deps tick rest visited.1
      (others.1, visited.2.toList ++ others.2)

/-- The loop that forgets the removed alerts among some. -/
def Checker.forgetKeys (live : List String) (keys : List String) (checker : Checker) : Checker :=
  keys.foldl (fun checker id =>
    if id ∈ live then checker
    else { crossed := checker.crossed.delete id, lastSent := checker.lastSent.delete id }) checker

/-- Alerts that the owner removed no longer need their state. -/
def Checker.forget (live : List String) (checker : Checker) : Checker :=
  checker.forgetKeys live (checker.crossed.map Prod.fst)

/-- `tick`, with the messages that were delivered. -/
def Checker.tick (deps : GasAlertDeps) (checker : Checker) (tick : Tick) :
    Checker × List FeeMessage :=
  let visited := checker.visitAll deps tick tick.alerts
  (visited.1.forget (tick.alerts.map GasAlertRow.id), visited.2)

/-- The checker after some passes. -/
def Checker.after (deps : GasAlertDeps) (ticks : List Tick) : Checker :=
  ticks.foldl (fun checker tick => (checker.tick deps tick).1) {}

/-- The messages that a pass delivers after others. -/
def delivered (deps : GasAlertDeps) (before : List Tick) (tick : Tick) : List FeeMessage :=
  ((Checker.after deps before).tick deps tick).2

/-! ## One alert as an alarm -/

/-- What the checker remembers of an alert. -/
def Checker.memory (checker : Checker) (id : String) : Memory where
  trouble := (checker.crossed.get id).getD false
  lastRing := checker.lastSent.get id

/-- What a pass sees of an alert. -/
def Tick.lookAt (deps : GasAlertDeps) (tick : Tick) (alert : GasAlertRow) : Look where
  now := tick.now alert.id
  trouble := (tick.gasGwei alert.chainId).map fun price => decide (Crossed deps alert price)
  rings := tick.delivers alert.id

def Tick.look (deps : GasAlertDeps) (tick : Tick) (id : String) : Option Look :=
  (tick.alerts.find? fun alert => alert.id = id).map (tick.lookAt deps)

/-- The message of an alert that rings. -/
def ringMessage (deps : GasAlertDeps) (tick : Tick) (memory : Memory) (alert : GasAlertRow) :
    Option FeeMessage :=
  if Rings deps.minGapMs memory (tick.lookAt deps alert) then
    (tick.gasGwei alert.chainId).map fun price =>
      feeMessage deps alert price (tick.now alert.id)
  else none

variable {deps : GasAlertDeps} {tick : Tick} {checker : Checker} {alert : GasAlertRow}
variable {alerts : List GasAlertRow} {id : String} {message : FeeMessage}

theorem memory_set_crossed {value : Bool} :
    ({ checker with crossed := checker.crossed.set id value } : Checker).memory id =
      { checker.memory id with trouble := value } := by
  simp [Checker.memory]

/-- An alert is an alarm. -/
theorem visit_own :
    (checker.visit deps tick alert).1.memory alert.id =
        remember deps.minGapMs (checker.memory alert.id) (some (tick.lookAt deps alert)) ∧
      (checker.visit deps tick alert).2 =
        ringMessage deps tick (checker.memory alert.id) alert := by
  unfold Checker.visit ringMessage Rings remember
  cases readable : tick.gasGwei alert.chainId with
  | none => simp [Tick.lookAt, readable]
  | some price =>
      by_cases crossed : Crossed deps alert price
      · cases was : (checker.crossed.get alert.id).getD false with
        | true => simp [Tick.lookAt, readable, crossed, Checker.memory, was]
        | false =>
            by_cases quiet : Quiet deps.minGapMs (checker.memory alert.id) (tick.now alert.id)
            · have isQuiet : ∃ last ∈ checker.lastSent.get alert.id,
                  ((tick.now alert.id - last : Int) : ℚ) < deps.minGapMs := quiet
              simp only [crossed, not_true_eq_false, if_false, Bool.false_eq_true, if_pos isQuiet]
              simp [Tick.lookAt, readable, crossed, memory_set_crossed, quiet]
              simp [Checker.memory, was]
            · have notQuiet : ¬ ∃ last ∈ checker.lastSent.get alert.id,
                  ((tick.now alert.id - last : Int) : ℚ) < deps.minGapMs := quiet
              simp only [crossed, not_true_eq_false, if_false, Bool.false_eq_true, if_neg notQuiet]
              have loud := quiet
              simp only [Checker.memory, was] at loud
              cases succeeds : tick.delivers alert.id with
              | true => simp [Tick.lookAt, readable, crossed, Checker.memory, was, succeeds, loud]
              | false => simp [Tick.lookAt, readable, crossed, Checker.memory, was, succeeds, loud]
      · simp [Tick.lookAt, readable, crossed, Checker.memory]

variable (deps tick checker alert) in
/-- A visit sets the crossing of its alert, or both maps, or nothing. -/
theorem visit_cases :
    (checker.visit deps tick alert).1 = checker ∨
      (∃ value, (checker.visit deps tick alert).1 =
        { checker with crossed := checker.crossed.set alert.id value }) ∨
      ∃ value sentAt, (checker.visit deps tick alert).1 =
        { crossed := checker.crossed.set alert.id value
          lastSent := checker.lastSent.set alert.id sentAt } := by
  unfold Checker.visit
  split
  · exact .inl rfl
  · dsimp only
    split_ifs
    · exact .inl rfl
    · exact .inr (.inl ⟨_, rfl⟩)
    · exact .inr (.inr ⟨_, _, rfl⟩)
    · exact .inl rfl
    · exact .inr (.inl ⟨_, rfl⟩)

/-- An alert leaves the memory of the others alone. -/
theorem visit_other (other : id ≠ alert.id) :
    (checker.visit deps tick alert).1.memory id = checker.memory id := by
  obtain same | ⟨value, same⟩ | ⟨value, sentAt, same⟩ :=
    visit_cases deps tick checker alert
  · rw [same]
  · simp [same, Checker.memory, OrderedMap.get_set_other other]
  · simp [same, Checker.memory, OrderedMap.get_set_other other]

/-- An alert with a last message was across. -/
def Checker.Tidy (checker : Checker) : Prop :=
  ∀ id, checker.crossed.get id = none → checker.lastSent.get id = none

theorem Checker.Tidy.set_crossed (tidy : checker.Tidy) {value : Bool} :
    ({ checker with crossed := checker.crossed.set id value } : Checker).Tidy := by
  intro other absent
  by_cases same : other = id
  · subst same
    simp at absent
  · exact tidy other (by simpa [OrderedMap.get_set_other same] using absent)

theorem Checker.Tidy.set_sent (tidy : checker.Tidy) {value : Bool} {sentAt : Int} :
    ({ crossed := checker.crossed.set id value
       lastSent := checker.lastSent.set id sentAt } : Checker).Tidy := by
  intro other absent
  by_cases same : other = id
  · subst same
    simp at absent
  · simp only [OrderedMap.get_set_other same] at absent ⊢
    exact tidy other absent

theorem Checker.Tidy.delete (tidy : checker.Tidy) :
    ({ crossed := checker.crossed.delete id
       lastSent := checker.lastSent.delete id } : Checker).Tidy := by
  intro other absent
  by_cases same : other = id
  · subst same
    simp
  · simp only [OrderedMap.get_delete_other same] at absent ⊢
    exact tidy other absent

theorem Checker.Tidy.visit (tidy : checker.Tidy) : (checker.visit deps tick alert).1.Tidy := by
  obtain same | ⟨value, same⟩ | ⟨value, sentAt, same⟩ :=
    visit_cases deps tick checker alert
  · rw [same]
    exact tidy
  · rw [same]
    exact tidy.set_crossed
  · rw [same]
    exact tidy.set_sent

theorem Checker.Tidy.visitAll (tidy : checker.Tidy) :
    (checker.visitAll deps tick alerts).1.Tidy := by
  induction alerts generalizing checker with
  | nil => exact tidy
  | cons alert rest inductionHypothesis => exact inductionHypothesis tidy.visit

/-! ## The loop -/

theorem visitAll_other (absent : id ∉ alerts.map GasAlertRow.id) :
    (checker.visitAll deps tick alerts).1.memory id = checker.memory id := by
  induction alerts generalizing checker with
  | nil => rfl
  | cons alert rest inductionHypothesis =>
      obtain ⟨other, notInRest⟩ := not_or.mp (mt List.mem_cons.mpr absent)
      exact (inductionHypothesis notInRest).trans (visit_other other)

/-- Each alert of the loop is looked at once. -/
theorem visitAll_own (distinct : (alerts.map GasAlertRow.id).Nodup) (member : alert ∈ alerts) :
    (checker.visitAll deps tick alerts).1.memory alert.id =
      remember deps.minGapMs (checker.memory alert.id) (some (tick.lookAt deps alert)) := by
  induction alerts generalizing checker with
  | nil => cases member
  | cons head rest inductionHypothesis =>
      obtain ⟨fresh, distinctRest⟩ := List.nodup_cons.mp distinct
      rcases List.mem_cons.mp member with rfl | inRest
      · exact (visitAll_other fresh).trans visit_own.1
      · have other : alert.id ≠ head.id := fun same => fresh (same ▸ List.mem_map_of_mem inRest)
        rw [Checker.visitAll, inductionHypothesis distinctRest inRest, visit_other other]

theorem mem_visitAll (distinct : (alerts.map GasAlertRow.id).Nodup) :
    message ∈ (checker.visitAll deps tick alerts).2 ↔
      ∃ alert ∈ alerts, message ∈ ringMessage deps tick (checker.memory alert.id) alert := by
  induction alerts generalizing checker with
  | nil => simp [Checker.visitAll]
  | cons head rest inductionHypothesis =>
      obtain ⟨fresh, distinctRest⟩ := List.nodup_cons.mp distinct
      have same : ∀ alert ∈ rest, (checker.visit deps tick head).1.memory alert.id =
          checker.memory alert.id := fun alert member =>
        visit_other fun same => fresh (same ▸ List.mem_map_of_mem member)
      rw [Checker.visitAll, List.mem_append, Option.mem_toList, visit_own.2,
        inductionHypothesis distinctRest, List.exists_mem_cons_iff]
      refine or_congr Iff.rfl (exists_congr fun alert => and_congr_right fun member => ?_)
      rw [same alert member]

theorem of_mem_ringMessage {memory : Memory} (member : message ∈ ringMessage deps tick memory alert) :
    Rings deps.minGapMs memory (tick.lookAt deps alert) ∧ message.alertId = alert.id ∧
      message.sentAt = tick.now alert.id ∧
      message.dedupe = dedupeKey deps alert.id (tick.now alert.id) := by
  unfold ringMessage at member
  split_ifs at member with rings
  · obtain ⟨price, -, rfl⟩ := Option.map_eq_some_iff.mp member
    exact ⟨rings, rfl, rfl, rfl⟩
  · cases member

theorem visitAll_ids : ((checker.visitAll deps tick alerts).2.map FeeMessage.alertId).Sublist
    (alerts.map GasAlertRow.id) := by
  induction alerts generalizing checker with
  | nil => exact List.Sublist.slnil
  | cons head rest inductionHypothesis =>
      have own : ((checker.visit deps tick head).2.toList.map FeeMessage.alertId).Sublist
          [head.id] := by
        rw [visit_own.2]
        cases isMessage : ringMessage deps tick (checker.memory head.id) head with
        | none => exact List.nil_sublist _
        | some message =>
            rw [Option.toList_some, List.map_singleton,
              (of_mem_ringMessage (Option.mem_def.mpr isMessage)).2.1]
      rw [Checker.visitAll, List.map_append, List.map_cons, ← List.singleton_append]
      exact own.append inductionHypothesis

/-! ## Removed alerts -/

theorem forgetKeys_memory {live keys : List String} :
    (checker.forgetKeys live keys).memory id =
      if id ∈ keys ∧ id ∉ live then Memory.blank else checker.memory id := by
  induction keys generalizing checker with
  | nil => simp [Checker.forgetKeys]
  | cons key rest inductionHypothesis =>
      rw [Checker.forgetKeys, List.foldl_cons, ← Checker.forgetKeys, inductionHypothesis]
      by_cases isLive : key ∈ live
      · by_cases same : id = key
        · simp [isLive, same]
        · simp [isLive, same]
      · by_cases same : id = key
        · simp [isLive, same, Checker.memory, Memory.blank]
        · simp [isLive, same, Checker.memory, OrderedMap.get_delete_other same]

theorem Checker.Tidy.forgetKeys {live keys : List String} (tidy : checker.Tidy) :
    (checker.forgetKeys live keys).Tidy := by
  induction keys generalizing checker with
  | nil => exact tidy
  | cons key rest inductionHypothesis =>
      rw [Checker.forgetKeys, List.foldl_cons, ← Checker.forgetKeys]
      split_ifs
      · exact inductionHypothesis tidy
      · exact inductionHypothesis tidy.delete

theorem tidy_tick (tidy : checker.Tidy) : (checker.tick deps tick).1.Tidy :=
  tidy.visitAll.forgetKeys

/-- A removed alert is forgotten whole. -/
theorem forget_memory {live : List String} (tidy : checker.Tidy) :
    (checker.forget live).memory id = if id ∈ live then checker.memory id else Memory.blank := by
  rw [Checker.forget, forgetKeys_memory]
  by_cases isLive : id ∈ live
  · simp [isLive]
  · by_cases known : id ∈ checker.crossed.map Prod.fst
    · simp only [isLive, known, not_false_eq_true, and_self, if_true, if_false]
    · have absent : checker.crossed.get id = none :=
        OrderedMap.get_eq_none_iff.mpr fun entry member same =>
          known (same ▸ List.mem_map_of_mem member)
      simp only [isLive, known, not_false_eq_true, false_and, if_false]
      simp [Checker.memory, Memory.blank, absent, tidy id absent]

/-! ## Passes -/

theorem look_of_mem (member : alert ∈ tick.alerts) :
    tick.look deps alert.id = some (tick.lookAt deps alert) := by
  unfold Tick.look
  cases search : tick.alerts.find? fun other => other.id = alert.id with
  | none => simpa using List.find?_eq_none.mp search alert member
  | some found =>
      have same : found.id = alert.id := by simpa using List.find?_some search
      have isAlert : found = alert :=
        List.inj_on_of_nodup_map tick.distinct (List.mem_of_find?_eq_some search) member same
      rw [isAlert]
      rfl

theorem look_eq_none_iff : tick.look deps id = none ↔ id ∉ tick.alerts.map GasAlertRow.id := by
  simp [Tick.look]

/-- A pass is a look at each alert. -/
theorem tick_memory (tidy : checker.Tidy) :
    (checker.tick deps tick).1.memory id =
      remember deps.minGapMs (checker.memory id) (tick.look deps id) := by
  rw [Checker.tick, forget_memory tidy.visitAll]
  split_ifs with configured
  · obtain ⟨alert, member, rfl⟩ := List.mem_map.mp configured
    rw [visitAll_own tick.distinct member, look_of_mem member]
  · rw [look_eq_none_iff.mpr configured]
    rfl

theorem after_concat' (ticks : List Tick) :
    Checker.after deps (ticks ++ [tick]) = ((Checker.after deps ticks).tick deps tick).1 := by
  simp [Checker.after]

theorem tidy_after (ticks : List Tick) : (Checker.after deps ticks).Tidy := by
  induction ticks using List.reverseRecOn with
  | nil => exact fun _ _ => rfl
  | append_singleton ticks tick inductionHypothesis =>
      rw [after_concat']
      exact tidy_tick inductionHypothesis

/-- The checker remembers of each alert what an alarm does. -/
theorem after_memory (ticks : List Tick) :
    (Checker.after deps ticks).memory id =
      QuietAlarm.after deps.minGapMs (ticks.map fun tick => tick.look deps id) := by
  induction ticks using List.reverseRecOn with
  | nil => rfl
  | append_singleton ticks tick inductionHypothesis =>
      rw [after_concat', tick_memory (tidy_after ticks), inductionHypothesis, List.map_append,
        List.map_singleton, QuietAlarm.after_concat]

end MintBot.GasAlerts
