import MintBot.Library.IntegerText
import MintBot.Owner.GasAlerts

/-!
# A crossing is told once

Two messages of a fee alert are a gap apart, with the price on the other side between them, and
they have different keys.  A crossing that begins outside the gap after the last message is told
at once.  One that begins inside it is remembered as told, so that it is never told, also when
the price is still across when the gap is over.
-/

namespace MintBot.GasAlerts

open QuietAlarm

def Tick.Configured (tick : Tick) (id : String) : Prop :=
  id ∈ tick.alerts.map GasAlertRow.id

/-- A pass reads whether the price of an alert is across. -/
def Tick.Reads (deps : GasAlertDeps) (tick : Tick) (id : String) (across : Bool) : Prop :=
  ∃ alert ∈ tick.alerts, alert.id = id ∧ ∃ price ∈ tick.gasGwei alert.chainId,
    decide (Crossed deps alert price) = across

/-- A pass among others delivers a message. -/
def Told (deps : GasAlertDeps) (before ticks : List Tick) (message : FeeMessage) : Prop :=
  ∃ earlier tick later, ticks = earlier ++ tick :: later ∧
    message ∈ delivered deps (before ++ earlier) tick

/-- After some passes the price of an alert was last read as not across, or never. -/
def NotAcross (deps : GasAlertDeps) (before : List Tick) (id : String) : Prop :=
  lastReading (before.map fun tick => tick.look deps id) ≠ some true

instance (tick : Tick) (id : String) : Decidable (tick.Configured id) :=
  inferInstanceAs (Decidable (id ∈ _))

instance (deps : GasAlertDeps) (tick : Tick) (id : String) (across : Bool) :
    Decidable (tick.Reads deps id across) := by
  unfold Tick.Reads
  infer_instance

instance (deps : GasAlertDeps) (before : List Tick) (id : String) :
    Decidable (NotAcross deps before id) :=
  inferInstanceAs (Decidable (_ ≠ _))

/-- What the owner is promised. -/
structure ToldOnce (deps : GasAlertDeps) (ticks : List Tick) : Prop where
  once : ∀ before tick later, ticks = before ++ tick :: later →
    ((delivered deps before tick).map FeeMessage.alertId).Nodup
  apart : ∀ before first middle second later,
    ticks = before ++ first :: middle ++ second :: later →
    ∀ earlier ∈ delivered deps before first,
    ∀ again ∈ delivered deps (before ++ first :: middle) second,
    earlier.alertId = again.alertId → (∀ tick ∈ middle, tick.Configured again.alertId) →
      deps.minGapMs ≤ ((again.sentAt - earlier.sentAt : Int) : ℚ) ∧
        (∃ tick ∈ middle, tick.Reads deps again.alertId false) ∧ earlier.dedupe ≠ again.dedupe
  notLost : ∀ before window later, ticks = before ++ window ++ later →
    ∀ id first last, window.head? = some first → window.getLast? = some last →
    NotAcross deps before id → first.Reads deps id true → last.Reads deps id true →
    (∀ tick ∈ window, tick.Configured id ∧ ¬ tick.Reads deps id false ∧ tick.delivers id = true) →
    (∀ message, Told deps [] before message → message.alertId = id →
      deps.minGapMs ≤ ((last.now id - message.sentAt : Int) : ℚ)) →
    ∃ message, Told deps before window message ∧ message.alertId = id

/-! ## Crossings that begin too soon -/

/-- The price of an alert is read as newly across within the gap after its last message, or in
the millisecond of that message. -/
def TooSoon (deps : GasAlertDeps) (checker : Checker) (tick : Tick) (alert : GasAlertRow) : Prop :=
  (∃ price ∈ tick.gasGwei alert.chainId, Crossed deps alert price) ∧
    (checker.crossed.get alert.id).getD false = false ∧
      ∃ last ∈ checker.lastSent.get alert.id,
        ((tick.now alert.id - last : Int) : ℚ) < deps.minGapMs ∨
          tick.delivers alert.id = true ∧ tick.now alert.id = last

instance (deps : GasAlertDeps) (checker : Checker) (tick : Tick) (alert : GasAlertRow) :
    Decidable (TooSoon deps checker tick alert) := by
  unfold TooSoon
  infer_instance

/-- No pass reads a crossing that begins too soon. -/
def Calm (deps : GasAlertDeps) : Checker → List Tick → Prop
  | _, [] => True
  | checker, tick :: rest =>
      (∀ alert ∈ tick.alerts, ¬ TooSoon deps checker tick alert) ∧
        Calm deps (checker.tick deps tick).1 rest

instance instDecidableCalm (deps : GasAlertDeps) :
    ∀ checker ticks, Decidable (Calm deps checker ticks)
  | _, [] => .isTrue trivial
  | checker, tick :: rest =>
      have := instDecidableCalm deps (checker.tick deps tick).1 rest
      inferInstanceAs (Decidable (_ ∧ _))

/-- The clock does not go back. -/
def Ordered (ticks : List Tick) : Prop :=
  ticks.Pairwise fun first second => ∀ id, first.now id ≤ second.now id

variable {deps : GasAlertDeps} {ticks before middle later window : List Tick}
variable {tick first second : Tick} {checker : Checker} {alert : GasAlertRow} {id : String}
variable {message : FeeMessage}

theorem not_tooSoon_of_calm (calm : Calm deps checker (before ++ tick :: later))
    (member : alert ∈ tick.alerts) :
    ¬ TooSoon deps (before.foldl (fun checker tick => (checker.tick deps tick).1) checker) tick
      alert := by
  induction before generalizing checker with
  | nil => exact calm.1 alert member
  | cons head rest inductionHypothesis => exact inductionHypothesis calm.2

/-! ## Readings and messages -/

theorem reads_iff {across : Bool} :
    tick.Reads deps id across ↔ ∃ look ∈ tick.look deps id, look.trouble = some across := by
  constructor
  · rintro ⟨alert, member, rfl, price, readable, isAcross⟩
    refine ⟨_, look_of_mem member, ?_⟩
    rw [Tick.lookAt, Option.mem_def.mp readable, Option.map_some, isAcross]
  · rintro ⟨look, isLook, isAcross⟩
    obtain ⟨alert, search, rfl⟩ := Option.map_eq_some_iff.mp isLook
    obtain ⟨price, readable, same⟩ := Option.map_eq_some_iff.mp isAcross
    exact ⟨alert, List.mem_of_find?_eq_some search, by simpa using List.find?_some search, price,
      readable, same⟩

/-- A message is sent when its alert rings. -/
theorem mem_delivered_iff :
    message ∈ delivered deps before tick ↔ ∃ alert ∈ tick.alerts, message ∈
      ringMessage deps tick
        (QuietAlarm.after deps.minGapMs (before.map fun tick => tick.look deps alert.id)) alert := by
  rw [delivered, Checker.tick, mem_visitAll tick.distinct]
  simp only [after_memory]

theorem exists_mem_delivered (member : alert ∈ tick.alerts)
    (rings : Rings deps.minGapMs ((Checker.after deps before).memory alert.id)
      (tick.lookAt deps alert)) :
    ∃ message ∈ delivered deps before tick, message.alertId = alert.id := by
  obtain ⟨price, readable, -⟩ := Option.map_eq_some_iff.mp rings.1
  refine ⟨feeMessage deps alert price (tick.now alert.id), ?_, rfl⟩
  rw [mem_delivered_iff]
  refine ⟨alert, member, ?_⟩
  rw [ringMessage, if_pos (after_memory before ▸ rings), readable]
  rfl

/-- Times that are further apart than a gap, and at least a millisecond, have different keys. -/
theorem dedupeKey_ne {sentAt again : Int}
    (late : deps.minGapMs ≤ ((again - sentAt : Int) : ℚ)) (later : sentAt < again) :
    dedupeKey deps id sentAt ≠ dedupeKey deps id again := by
  intro same
  have sameText : toString ⌊(sentAt : ℚ) / max deps.minGapMs 1⌋ =
      toString ⌊(again : ℚ) / max deps.minGapMs 1⌋ := by
    have sameChars := congrArg String.toList same
    simp only [dedupeKey, String.toList_append, List.append_cancel_left_eq] at sameChars
    exact String.toList_injective sameChars
  have sameFloor : ⌊(sentAt : ℚ) / max deps.minGapMs 1⌋ = ⌊(again : ℚ) / max deps.minGapMs 1⌋ := by
    have read := congrArg IntegerText.readInteger sameText
    rwa [IntegerText.readInteger_toString, IntegerText.readInteger_toString, Option.some.injEq]
      at read
  have positive : (0 : ℚ) < max deps.minGapMs 1 := lt_max_of_lt_right one_pos
  have further : max deps.minGapMs 1 ≤ ((again - sentAt : Int) : ℚ) := by
    refine max_le late ?_
    exact_mod_cast Int.sub_pos_of_lt later
  have above : (sentAt : ℚ) / max deps.minGapMs 1 + 1 ≤ (again : ℚ) / max deps.minGapMs 1 := by
    rw [div_add_one positive.ne', div_le_div_iff_of_pos_right positive]
    push_cast at further
    linarith
  have floors := Int.floor_le_floor above
  rw [Int.floor_add_one, ← sameFloor] at floors
  omega

theorem now_of_look {look : Look} (isLook : tick.look deps id = some look) :
    look.now = tick.now id := by
  obtain ⟨alert, search, rfl⟩ := Option.map_eq_some_iff.mp isLook
  have same : alert.id = id := by simpa using List.find?_some search
  rw [← same]
  rfl

theorem not_across_of_reads (reads : ¬ tick.Reads deps id false) {look : Look}
    (isLook : tick.look deps id = some look) : look.trouble ≠ some false := fun ended =>
  reads (reads_iff.mpr ⟨look, isLook, ended⟩)

/-! ## Two messages -/

/-- What the checker knows when an alert sends a second message: the alert was configured in
between, and looked at in order. -/
structure Twice (deps : GasAlertDeps) (before middle : List Tick) (first second : Tick)
    (id : String) (earlier again : Look) : Prop where
  firstLook : first.look deps id = some earlier
  secondLook : second.look deps id = some again
  firstRings : Rings deps.minGapMs
    (QuietAlarm.after deps.minGapMs (before.map fun tick => tick.look deps id)) earlier
  secondRings : Rings deps.minGapMs (QuietAlarm.after deps.minGapMs
    ((before.map fun tick => tick.look deps id) ++
      some earlier :: middle.map fun tick => tick.look deps id)) again
  present : none ∉ middle.map fun tick => tick.look deps id
  between : ∀ look, some look ∈ middle.map (fun tick => tick.look deps id) →
    earlier.now ≤ look.now ∧ look.now ≤ again.now
  later : earlier.now ≤ again.now

theorem twice {earlier again : FeeMessage}
    (ordered : Ordered (before ++ first :: middle ++ second :: later))
    (sent : earlier ∈ delivered deps before first)
    (sentAgain : again ∈ delivered deps (before ++ first :: middle) second)
    (same : earlier.alertId = again.alertId)
    (configured : ∀ tick ∈ middle, tick.Configured again.alertId) :
    ∃ firstAlert ∈ first.alerts, ∃ secondAlert ∈ second.alerts,
      firstAlert.id = again.alertId ∧ secondAlert.id = again.alertId ∧
      earlier.sentAt = first.now again.alertId ∧ again.sentAt = second.now again.alertId ∧
      earlier.dedupe = dedupeKey deps again.alertId earlier.sentAt ∧
      again.dedupe = dedupeKey deps again.alertId again.sentAt ∧
      Twice deps before middle first second again.alertId (first.lookAt deps firstAlert)
        (second.lookAt deps secondAlert) := by
  obtain ⟨firstAlert, firstMember, firstMessage⟩ := mem_delivered_iff.mp sent
  obtain ⟨secondAlert, secondMember, secondMessage⟩ := mem_delivered_iff.mp sentAgain
  obtain ⟨firstRings, firstId, firstAt, firstKey⟩ := of_mem_ringMessage firstMessage
  obtain ⟨secondRings, secondId, secondAt, secondKey⟩ := of_mem_ringMessage secondMessage
  have firstSame : firstAlert.id = again.alertId := firstId.symm.trans same
  have firstLook : first.look deps again.alertId = some (first.lookAt deps firstAlert) :=
    firstSame ▸ look_of_mem firstMember
  have secondLook : second.look deps again.alertId = some (second.lookAt deps secondAlert) :=
    secondId ▸ look_of_mem secondMember
  have firstNow : (first.lookAt deps firstAlert).now = first.now again.alertId :=
    now_of_look firstLook
  have secondNow : (second.lookAt deps secondAlert).now = second.now again.alertId :=
    now_of_look secondLook
  obtain ⟨-, orderedRest, -⟩ := List.pairwise_append.mp (List.append_assoc .. ▸ ordered)
  rw [List.cons_append] at orderedRest
  obtain ⟨firstBefore, orderedRest⟩ := List.pairwise_cons.mp orderedRest
  obtain ⟨-, -, beforeSecond⟩ := List.pairwise_append.mp orderedRest
  refine ⟨firstAlert, firstMember, secondAlert, secondMember, firstSame, secondId.symm,
    firstAt.trans (firstSame ▸ rfl), secondAt.trans (secondId ▸ rfl), ?_, ?_,
    firstLook, secondLook, firstSame ▸ firstRings, ?_, ?_, ?_, ?_⟩
  · rw [firstKey, firstAt, firstSame]
  · rw [secondKey, secondAt, secondId]
  · rw [List.map_append, List.map_cons, ← secondId, firstLook] at secondRings
    exact secondRings
  · intro removed
    obtain ⟨tick, member, isNone⟩ := List.mem_map.mp removed
    exact look_eq_none_iff.mp isNone (configured tick member)
  · intro look member
    obtain ⟨tick, inMiddle, isLook⟩ := List.mem_map.mp member
    rw [now_of_look isLook, firstNow, secondNow]
    exact ⟨firstBefore tick (List.mem_append_left _ inMiddle) _,
      beforeSecond tick inMiddle second (List.mem_cons_self) _⟩
  · rw [firstNow, secondNow]
    exact firstBefore second (List.mem_append_right _ List.mem_cons_self) _

/-- Two messages of an alert whose second crossing did not begin too soon. -/
theorem messages_apart {earlier again : FeeMessage}
    (ordered : Ordered (before ++ first :: middle ++ second :: later))
    (calm : Calm deps {} (before ++ first :: middle ++ second :: later))
    (sent : earlier ∈ delivered deps before first)
    (sentAgain : again ∈ delivered deps (before ++ first :: middle) second)
    (same : earlier.alertId = again.alertId)
    (configured : ∀ tick ∈ middle, tick.Configured again.alertId) :
    deps.minGapMs ≤ ((again.sentAt - earlier.sentAt : Int) : ℚ) ∧
      (∃ tick ∈ middle, tick.Reads deps again.alertId false) ∧ earlier.dedupe ≠ again.dedupe := by
  obtain ⟨firstAlert, -, secondAlert, secondMember, -, secondId, firstAt, secondAt, firstKey,
    secondKey, two⟩ := twice ordered sent sentAgain same configured
  have firstNow : (first.lookAt deps firstAlert).now = earlier.sentAt :=
    (now_of_look two.firstLook).trans firstAt.symm
  have secondNow : (second.lookAt deps secondAlert).now = again.sentAt :=
    (now_of_look two.secondLook).trans secondAt.symm
  have apart := rings_apart two.present two.between two.later two.firstRings two.secondRings
  rw [firstNow, secondNow] at apart
  refine ⟨apart, ?_, ?_⟩
  · obtain ⟨look, member, ended⟩ := ended_between two.present two.firstRings two.secondRings
    obtain ⟨tick, inMiddle, isLook⟩ := List.mem_map.mp member
    exact ⟨tick, inMiddle, reads_iff.mpr ⟨look, isLook, ended⟩⟩
  · obtain ⟨last, isLast, notEarlier, notLater⟩ :=
      last_ring_between two.present two.between two.later two.firstRings
    rw [firstNow] at notEarlier
    rw [secondNow] at notLater
    have memory : (Checker.after deps (before ++ first :: middle)).memory secondAlert.id =
        QuietAlarm.after deps.minGapMs ((before.map fun tick => tick.look deps again.alertId) ++
          some (first.lookAt deps firstAlert) ::
            middle.map fun tick => tick.look deps again.alertId) := by
      rw [after_memory, secondId, List.map_append, List.map_cons, two.firstLook]
    have notSoon := not_tooSoon_of_calm calm secondMember
    have new : again.sentAt ≠ last := by
      intro sameTime
      obtain ⟨price, readable, crossed⟩ := Option.map_eq_some_iff.mp two.secondRings.1
      refine notSoon ⟨⟨price, readable, of_decide_eq_true crossed⟩, ?_, last, ?_, .inr ⟨?_, ?_⟩⟩
      · exact (congrArg Memory.trouble memory).trans two.secondRings.2.1
      · exact (congrArg Memory.lastRing memory).trans isLast
      · exact two.secondRings.2.2.2
      · exact secondNow.trans sameTime
    rw [firstKey, secondKey]
    exact dedupeKey_ne apart (by omega)

/-! ## A crossing that begins -/

/-- A crossing that does not begin too soon is told by the pass that reads it first. -/
theorem told_at_once (calm : Calm deps {} (before ++ tick :: later))
    (begins : NotAcross deps before id) (reads : tick.Reads deps id true)
    (delivers : tick.delivers id = true) :
    ∃ message ∈ delivered deps before tick, message.alertId = id := by
  obtain ⟨alert, member, rfl, price, readable, crossed⟩ := reads
  refine exists_mem_delivered member ?_
  have notSoon := not_tooSoon_of_calm calm member
  rw [after_memory]
  have across : (tick.lookAt deps alert).trouble = some true := by
    rw [Tick.lookAt, Option.mem_def.mp readable, Option.map_some, crossed]
  refine rings_of_begins begins across ?_ delivers
  rintro ⟨last, isLast, early⟩
  have calmBefore : (QuietAlarm.after deps.minGapMs
      (before.map fun tick => tick.look deps alert.id)).trouble = false := by
    by_contra remembered
    exact begins (lastReading_of_trouble (Bool.not_eq_false _ ▸ remembered))
  refine notSoon ⟨⟨price, readable, of_decide_eq_true crossed⟩, ?_, last, ?_, .inl early⟩
  · exact (congrArg Memory.trouble (after_memory before)).trans calmBefore
  · exact (congrArg Memory.lastRing (after_memory before)).trans isLast

/-- When no crossing begins too soon, every crossing is told once and none is lost. -/
theorem told_once (ordered : Ordered ticks) (calm : Calm deps {} ticks) : ToldOnce deps ticks where
  once before tick later _ := visitAll_ids.nodup tick.distinct
  apart before first middle second later isRun earlier sent again sentAgain same configured := by
    subst isRun
    exact messages_apart ordered calm sent sentAgain same configured
  notLost before window later isRun id first last isFirst isLast begins reads _ steady _ := by
    subst isRun
    obtain ⟨rest, rfl⟩ : ∃ rest, window = first :: rest := List.head?_eq_some_iff.mp isFirst
    rw [List.append_assoc, List.cons_append] at calm
    obtain ⟨message, sent, own⟩ :=
      told_at_once calm begins reads (steady first List.mem_cons_self).2.2
    refine ⟨message, ⟨[], first, rest, rfl, ?_⟩, own⟩
    rwa [List.append_nil]

/-! ## A crossing that is lost -/

def sampleDeps : GasAlertDeps where
  number text := if text = "1" then some 1 else none
  toFixed price := if price = 1 / 2 then "0.5000" else "3.0000"

/-- A pass that reads one price, some minutes after the first one. -/
def sampleTick (price : ℚ) (minutes : Int) : Tick where
  alerts := [{ id := "a1", chainId := .ethereum, direction := .below, thresholdGwei := "1" }]
  gasGwei _ := some price
  now _ := 1792843200000 + minutes * 60000
  delivers _ := true

/-- The price goes below the line, above it, and below it two minutes after the message; twenty
minutes after the message it is still below, and nothing was told. -/
def sampleWindow : List Tick :=
  [sampleTick (1 / 2) 2, sampleTick (1 / 2) 20]

def sampleBefore : List Tick :=
  [sampleTick (1 / 2) 0, sampleTick 3 1]

/-- The messages that were told, by the pass that delivered them. -/
theorem told_iff : Told deps before ticks message ↔ ∃ count < ticks.length,
    ∃ tick ∈ ticks[count]?, message ∈ delivered deps (before ++ ticks.take count) tick := by
  constructor
  · rintro ⟨earlier, tick, later, rfl, sent⟩
    exact ⟨earlier.length, by simp, tick, by simp, by rwa [List.take_left]⟩
  · rintro ⟨count, bound, tick, found, sent⟩
    obtain ⟨_, isTick⟩ := List.getElem?_eq_some_iff.mp found
    refine ⟨ticks.take count, tick, ticks.drop (count + 1), ?_, sent⟩
    rw [← isTick, ← List.drop_eq_getElem_cons, List.take_append_drop]

theorem sampleWindow_silent (message : FeeMessage) :
    ¬ Told sampleDeps sampleBefore sampleWindow message := by
  have silent : ∀ count < sampleWindow.length, ∀ tick ∈ sampleWindow[count]?,
      delivered sampleDeps (sampleBefore ++ sampleWindow.take count) tick = [] := by
    decide +kernel
  intro told
  obtain ⟨count, bound, tick, found, sent⟩ := told_iff.mp told
  rw [silent count bound tick found] at sent
  cases sent

/-- Also with a clock that does not go back, a crossing can be lost. -/
theorem crossing_lost : ¬ ∀ deps ticks, Ordered ticks → ToldOnce deps ticks := by
  intro promised
  have ordered : Ordered (sampleBefore ++ sampleWindow) := by
    simp [Ordered, sampleBefore, sampleWindow, sampleTick]
  have earlier : ∀ count < sampleBefore.length, ∀ tick ∈ sampleBefore[count]?,
      ∀ message ∈ delivered sampleDeps ([] ++ sampleBefore.take count) tick,
        sampleDeps.minGapMs ≤
          (((sampleTick (1 / 2) 20).now "a1" - message.sentAt : Int) : ℚ) := by
    decide +kernel
  obtain ⟨message, told, -⟩ := (promised sampleDeps _ ordered).notLost sampleBefore sampleWindow []
    (List.append_nil _).symm "a1" (sampleTick (1 / 2) 2) (sampleTick (1 / 2) 20) rfl rfl
    (by decide +kernel) (by decide +kernel) (by decide +kernel) (by decide +kernel)
    fun message told _ => by
      obtain ⟨count, bound, tick, found, sent⟩ := told_iff.mp told
      exact earlier count bound tick found message sent
  exact sampleWindow_silent message told

theorem told_once_sample : ToldOnce sampleDeps (sampleBefore ++ [sampleTick (1 / 2) 20]) :=
  told_once (by simp [Ordered, sampleBefore, sampleTick]) (by decide +kernel)

end MintBot.GasAlerts
