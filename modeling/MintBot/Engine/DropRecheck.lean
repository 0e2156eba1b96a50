import Mathlib.Data.List.Induction
import Mathlib.Tactic.Common
import MintBot.Types

/-!
# The recheck of a drop during a run

Before a wallet is prepared, the drop is read again and compared with the drop that the run was
approved for.  Wallets that ask at the same time share one read, and an answer is reused for a
while, so that reads overlap and may finish in any order.  Once one of them has reported a change
the run stays stopped.
-/

namespace MintBot.DropRecheck

/-! ## What counts as a change -/

/-- What is done with the values of `extra`: their text with sorted keys, `===`, and whether a
value is `true`. -/
structure ExtraRules (α : Type) where
  plain : α → String
  strictlyEqual : Option α → Option α → Bool
  isTrue : α → Bool

structure DropConfig (α : Type) where
  nftContract : String
  mintPrice : Wei
  maxTotalMintableByWallet : Int
  maxTokenSupply : Int
  startTime : Int
  endTime : Int
  strategyName : String
  extra : String → Option α

variable {α : Type} (rules : ExtraRules α)

/-- `STABLE_SETTINGS` -/
def stableSettings : List String :=
  ["feeBps", "restrictFeeRecipients", "seaDropAddress", "allowlistRoot", "stageIndex",
    "proofSourceDigest"]

/-- `OPTIONAL_READ_FLAGS` -/
def optionalReadFlags : List String :=
  ["totalSupplyKnown", "maxSupplyKnown"]

def isPartialReading (initial current : DropConfig α) : Bool :=
  optionalReadFlags.any fun key => !rules.strictlyEqual (initial.extra key) (current.extra key)

/-- The names of what changed, each under its condition. -/
def changedNames (contract price limit supply opens closes settings invalid : Bool) :
    List String :=
  (if contract then ["contract"] else []) ++ (if price then ["price"] else []) ++
    (if limit then ["per-wallet limit"] else []) ++ (if supply then ["supply"] else []) ++
    (if opens then ["start time"] else []) ++ (if closes then ["end time"] else []) ++
    (if settings then ["contract settings"] else []) ++
    (if invalid then ["drop no longer valid (ended or sold out)"] else [])

/-- Without a name there is no change. -/
def joinNames (changed : List String) : Option String :=
  if changed = [] then none else some (", ".intercalate changed)

def describeDropChange (initial current : DropConfig α) (valid : Bool) : Option String :=
  let known (drop : DropConfig α) : Bool := (drop.extra "maxSupplyKnown").any rules.isTrue
  joinNames (changedNames
    (toLowerCase initial.nftContract ≠ toLowerCase current.nftContract)
    (initial.mintPrice ≠ current.mintPrice)
    (initial.maxTotalMintableByWallet ≠ current.maxTotalMintableByWallet)
    (known initial && known current && initial.maxTokenSupply ≠ current.maxTokenSupply)
    (initial.startTime ≠ current.startTime)
    (initial.endTime ≠ current.endTime)
    (stableSettings.any fun key =>
      (initial.extra key).map rules.plain ≠ (current.extra key).map rules.plain)
    (!valid))

/-- The text of a change is neither empty nor the word for an unknown drop. -/
theorem joinNames_text (contract price limit supply opens closes settings invalid : Bool) :
    ∀ text ∈ joinNames (changedNames contract price limit supply opens closes settings invalid),
      text ≠ "" ∧ text ≠ "unknown" := by
  revert contract price limit supply opens closes settings invalid
  decide +kernel

/-! ## The recheck -/

structure DropRecheckOptions (α : Type) where
  rules : ExtraRules α
  initial : DropConfig α
  reuseMs : Time

/-- How a read ends: with a drop and whether it is valid, or by failing or timing out. -/
inductive Answer (α : Type) where
  | read (drop : DropConfig α) (valid : Bool)
  | failed

/-- What a promise of the recheck resolves to; `unchanged` stands for undefined. -/
inductive RecheckResult where
  | changed (change : String)
  | unchanged
  | unknown
  deriving DecidableEq

/-- A run of the recheck, at its read or with its result. -/
inductive RecheckRun where
  | reading
  | settled (result : RecheckResult)
  deriving DecidableEq

/-- The promise of a run, kept with the instant at which it was made. -/
structure Cached where
  cachedAt : Time
  promise : Nat

/-- The variables of a recheck and its runs in the order of their start. -/
structure Recheck where
  cached : Option Cached
  latched : Option String
  runs : List RecheckRun

def createDropRecheck : Recheck where
  cached := none
  latched := none
  runs := []

/-- An empty text is no change for the host language. -/
def Recheck.stopped (state : Recheck) : Option String :=
  state.latched.filter fun change => change ≠ ""

/-- The start of `run`, up to its read. -/
def Recheck.startRun (state : Recheck) : RecheckRun :=
  match state.stopped with
  | some change => .settled (.changed change)
  | none => .reading

/-- No promise is kept that may be reused. -/
def Recheck.Stale (options : DropRecheckOptions α) (state : Recheck) (asked : Time) : Prop :=
  ∀ cached ∈ state.cached, asked - cached.cachedAt > options.reuseMs

instance (options : DropRecheckOptions α) (state : Recheck) (asked : Time) :
    Decidable (state.Stale options asked) :=
  inferInstanceAs (Decidable (∀ cached ∈ state.cached, _))

/-- A wallet asks; the clock is read once for the comparison and once for the kept promise. -/
def Recheck.ask (options : DropRecheckOptions α) (state : Recheck) (asked kept : Time) : Recheck :=
  if state.Stale options asked then
    { state with
      cached := some { cachedAt := kept, promise := state.runs.length }
      runs := state.runs ++ [state.startRun] }
  else state

/-- The rest of `run` once its read ended: the variable `latched` and the result. -/
def finishRun (options : DropRecheckOptions α) (latched : Option String) :
    Answer α → Option String × RecheckResult
  | .read drop valid =>
      if isPartialReading options.rules options.initial drop then unavailable
      else
        match describeDropChange options.rules options.initial drop valid with
        | some change => (if change ≠ "" then some change else latched, .changed change)
        | none => (latched, .unchanged)
  | .failed => unavailable
where
  /-- Without its proof authority an allowlist run stops; any other goes on. -/
  unavailable : Option String × RecheckResult :=
    if options.initial.strategyName = "seadrop-v1-allowlist" then
      (some "ALLOWLIST_AUTHORITY_UNAVAILABLE", .changed "ALLOWLIST_AUTHORITY_UNAVAILABLE")
    else (latched, .unknown)

/-- The read of a run ends; a run that is settled does not wait for its read. -/
def Recheck.answer (options : DropRecheckOptions α) (state : Recheck) (promise : Nat)
    (answer : Answer α) : Recheck :=
  if state.runs[promise]? = some .reading then
    let (latched, result) := finishRun options state.latched answer
    { state with latched, runs := state.runs.set promise (.settled result) }
  else state

inductive Event (α : Type) where
  | ask (asked kept : Time)
  | answer (promise : Nat) (answer : Answer α)

def step (options : DropRecheckOptions α) (state : Recheck) : Event α → Recheck
  | .ask asked kept => state.ask options asked kept
  | .answer promise answer => state.answer options promise answer

/-- The recheck after the events. -/
def after (options : DropRecheckOptions α) (events : List (Event α)) : Recheck :=
  events.foldl (step options) createDropRecheck

/-- A promise resolved to a change. -/
def Recheck.Reported (state : Recheck) (promise : Nat) : Prop :=
  ∃ change, change ≠ "" ∧ state.runs[promise]? = some (.settled (.changed change))

/-- The latch holds the text of a change. -/
def Recheck.Latched (state : Recheck) : Prop :=
  ∃ change, change ≠ "" ∧ state.latched = some change

/-! ## The latch -/

variable {options : DropRecheckOptions α}

/-- The end of a run either keeps the latch and reports no change, or sets it to what it
reports. -/
theorem finishRun_cases (options : DropRecheckOptions α) (latched : Option String)
    (answer : Answer α) :
    ((finishRun options latched answer).1 = latched ∧
        ∀ change, (finishRun options latched answer).2 ≠ .changed change) ∨
      ∃ change, change ≠ "" ∧ finishRun options latched answer = (some change, .changed change) := by
  have unavailable : ((finishRun.unavailable options latched).1 = latched ∧
        ∀ change, (finishRun.unavailable options latched).2 ≠ .changed change) ∨
      ∃ change, change ≠ "" ∧
        finishRun.unavailable options latched = (some change, .changed change) := by
    unfold finishRun.unavailable
    split
    · exact .inr ⟨_, by decide, rfl⟩
    · exact .inl ⟨rfl, nofun⟩
  cases answer with
  | failed => exact unavailable
  | read drop valid =>
      simp only [finishRun]
      split
      · exact unavailable
      split
      · rename_i change described
        have nonempty := (joinNames_text _ _ _ _ _ _ _ _ change described).1
        exact .inr ⟨change, nonempty, by rw [if_pos nonempty]⟩
      · exact .inl ⟨rfl, nofun⟩

/-- A set latch stays set. -/
theorem Recheck.Latched.step {state : Recheck} (latched : state.Latched) (event : Event α) :
    (step options state event).Latched := by
  cases event with
  | ask asked kept =>
      simp only [DropRecheck.step, Recheck.ask]
      split
      · exact latched
      · exact latched
  | answer promise answer =>
      simp only [DropRecheck.step, Recheck.answer]
      split
      · rcases finishRun_cases options state.latched answer with
          ⟨kept, -⟩ | ⟨change, nonempty, set⟩
        · obtain ⟨change, nonempty, holds⟩ := latched
          exact ⟨change, nonempty, kept.trans holds⟩
        · exact ⟨change, nonempty, by rw [set]⟩
      · exact latched

/-- What a promise resolved to, it stays resolved to. -/
theorem settled_step {state : Recheck} {promise : Nat} {result : RecheckResult}
    (settled : state.runs[promise]? = some (.settled result)) (event : Event α) :
    (step options state event).runs[promise]? = some (.settled result) := by
  cases event with
  | ask asked kept =>
      simp only [DropRecheck.step, Recheck.ask]
      split
      · obtain ⟨inside, -⟩ := List.getElem?_eq_some_iff.mp settled
        exact (List.getElem?_append_left inside).trans settled
      · exact settled
  | answer other answer =>
      simp only [DropRecheck.step, Recheck.answer]
      split
      · rename_i reading
        have different : other ≠ promise := by
          rintro rfl
          exact nomatch reading.symm.trans settled
        exact (List.getElem?_set_ne different).trans settled
      · exact settled

theorem Recheck.Reported.step {state : Recheck} {promise : Nat}
    (reported : state.Reported promise) (event : Event α) :
    (DropRecheck.step options state event).Reported promise := by
  obtain ⟨change, nonempty, settled⟩ := reported
  exact ⟨change, nonempty, settled_step settled event⟩

/-- A promise that an event resolves to a change was resolved to it before, or the latch is set
behind the event. -/
theorem reported_step {state : Recheck} {event : Event α} {promise : Nat}
    (reported : (step options state event).Reported promise) :
    state.Reported promise ∨ (step options state event).Latched := by
  obtain ⟨change, nonempty, settled⟩ := reported
  cases event with
  | ask asked kept =>
      simp only [DropRecheck.step, Recheck.ask] at settled ⊢
      split at settled
      · rename_i stale
        rw [if_pos stale]
        rcases Nat.lt_trichotomy promise state.runs.length with earlier | rfl | later
        · rw [List.getElem?_append_left earlier] at settled
          exact .inl ⟨change, nonempty, settled⟩
        · rw [List.getElem?_concat_length, Recheck.startRun] at settled
          cases stopped : state.stopped with
          | none =>
              rw [stopped] at settled
              cases settled
          | some change =>
              obtain ⟨latched, set⟩ := Option.filter_eq_some_iff.mp stopped
              exact .inr ⟨change, of_decide_eq_true set, latched⟩
        · rw [List.getElem?_eq_none (by simp; omega)] at settled
          cases settled
      · exact .inl ⟨change, nonempty, settled⟩
  | answer other answer =>
      simp only [DropRecheck.step, Recheck.answer] at settled ⊢
      split at settled
      · rename_i reading
        rw [if_pos reading]
        by_cases own : other = promise
        · subst own
          rcases finishRun_cases options state.latched answer with
            ⟨-, unchanged⟩ | ⟨set, nonempty, finished⟩
          · obtain ⟨inside, -⟩ := List.getElem?_eq_some_iff.mp reading
            rw [List.getElem?_set_self inside] at settled
            injection settled with settled
            injection settled with settled
            exact absurd settled (unchanged change)
          · exact .inr ⟨set, nonempty, by rw [finished]⟩
        · rw [List.getElem?_set_ne own] at settled
          exact .inl ⟨change, nonempty, settled⟩
      · exact .inl ⟨change, nonempty, settled⟩

theorem after_append (events later : List (Event α)) :
    after options (events ++ later) = later.foldl (step options) (after options events) :=
  List.foldl_append

theorem foldl_latched {state : Recheck} (latched : state.Latched) (events : List (Event α)) :
    (events.foldl (step options) state).Latched := by
  induction events generalizing state with
  | nil => exact latched
  | cons event events inductionHypothesis => exact inductionHypothesis (latched.step event)

theorem foldl_reported {state : Recheck} {promise : Nat} (reported : state.Reported promise)
    (events : List (Event α)) : (events.foldl (step options) state).Reported promise := by
  induction events generalizing state with
  | nil => exact reported
  | cons event events inductionHypothesis => exact inductionHypothesis (reported.step event)

/-- Whoever reported a change left the latch set. -/
theorem latched_of_reported {events : List (Event α)} {promise : Nat}
    (reported : (after options events).Reported promise) : (after options events).Latched := by
  induction events using List.reverseRec with
  | nil =>
      obtain ⟨change, -, settled⟩ := reported
      exact nomatch settled
  | append_singleton events event inductionHypothesis =>
      rw [after_append] at reported ⊢
      rcases reported_step reported with before | latched
      · exact (inductionHypothesis before).step event
      · exact latched

/-- Under a set latch, a call outside the reuse window is answered with a change at once. -/
theorem Recheck.Latched.ask {state : Recheck} (latched : state.Latched) {asked : Time}
    (kept : Time) (stale : state.Stale options asked) :
    (state.ask options asked kept).cached =
        some { cachedAt := kept, promise := state.runs.length } ∧
      (state.ask options asked kept).Reported state.runs.length := by
  obtain ⟨change, nonempty, set⟩ := latched
  rw [Recheck.ask, if_pos stale]
  refine ⟨rfl, change, nonempty, ?_⟩
  have stopped : state.stopped = some change := by
    rw [Recheck.stopped, set]
    exact Option.filter_some_pos (decide_eq_true nonempty)
  rw [List.getElem?_concat_length, Recheck.startRun, stopped]

/-- Once a read has reported a change, the latch stays set whatever calls and answers follow,
and every later call outside the reuse window gets a promise that reports a change and goes on
doing so. -/
theorem reported_latches {earlier : List (Event α)} {first : Nat}
    (reported : (after options earlier).Reported first) (later : List (Event α)) :
    (after options (earlier ++ later)).Latched ∧
      ∀ asked kept, (after options (earlier ++ later)).Stale options asked →
        ∃ promise,
          (after options (earlier ++ later ++ [.ask asked kept])).cached =
              some { cachedAt := kept, promise } ∧
            ∀ more, (after options (earlier ++ later ++ .ask asked kept :: more)).Reported
              promise := by
  have latched : (after options (earlier ++ later)).Latched := by
    rw [after_append]
    exact foldl_latched (latched_of_reported reported) later
  refine ⟨latched, fun asked kept stale => ?_⟩
  obtain ⟨cached, reports⟩ := latched.ask kept stale
  refine ⟨_, by rw [after_append]; exact cached, fun more => ?_⟩
  rw [after_append]
  exact foldl_reported reports more

/-- A free drop without settings, at the given price. -/
def sampleDrop (mintPrice : Wei) : DropConfig Bool where
  nftContract := "0x1111111111111111111111111111111111111111"
  mintPrice
  maxTotalMintableByWallet := 5
  maxTokenSupply := 1000
  startTime := 100
  endTime := 9999999999
  strategyName := "seadrop-v1-public"
  extra := fun _ => none

def sampleOptions : DropRecheckOptions Bool where
  rules :=
    { plain := fun value => toString value
      strictlyEqual := fun left right => left == right
      isTrue := fun value => value }
  initial := sampleDrop 0
  reuseMs := 1500

/-- Two reads overlap; the first one reports a new price, and then the second one, which matches
the original drop, ends. -/
theorem reported_latches_overlap :
    ∃ promise,
      ∀ more, (after sampleOptions
        ([.ask 0 0, .ask 2000 2000, .answer 0 (.read (sampleDrop 1) true)] ++
          [.answer 1 (.read (sampleDrop 0) true)] ++ .ask 4000 4000 :: more)).Reported promise := by
  have reported : (after sampleOptions
      [.ask 0 0, .ask 2000 2000, .answer 0 (.read (sampleDrop 1) true)]).Reported 0 :=
    ⟨"price", by decide, by decide +kernel⟩
  have latches := reported_latches reported [.answer 1 (.read (sampleDrop 0) true)]
  obtain ⟨promise, -, reports⟩ := latches.2 4000 4000 (by decide +kernel)
  exact ⟨promise, reports⟩

end MintBot.DropRecheck
