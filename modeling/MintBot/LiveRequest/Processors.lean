import Mathlib.Logic.Function.Basic
import MintBot.LiveRequest.Safety
import MintBot.Library.Machine
import MintBot.Library.OrderedMap

/-!
# Processors on one store

Any number of processes look for unclaimed requests in one store.  A claim inserts the only
outcome row of a request, or is ignored.  A run interleaves the calls of the processors, their
crashes, the owner's cancellations and the clock.
-/

namespace MintBot

open Fallible Machine

/-- A processor in the middle of a pass has the requests that it still has to take. -/
structure LiveProcessor where
  queue : Option (List LiveRunRequest) := none
  current : Option LiveHandling := none

structure LiveRequestState where
  clock : Time := 0
  requests : List LiveRunRequest := []
  outcomes : OrderedMap String LiveOutcome := []
  processors : Nat → LiveProcessor := fun _ => {}
  /-- The handlings that came to their end, and those whose processor crashed.  No branch
  reads them. -/
  finished : List LiveHandling := []
  crashed : List LiveHandling := []

inductive LiveRequestCommand
  | submit (request : LiveRunRequest)
  | cancel (requestId : String)
  | wait (now : Time)
  | crash (process : Nat)
  | look (process : Nat)
  | take (process : Nat)
  /-- The claim throws, and with it the pass. -/
  | claimFails (process : Nat)
  /-- The next call of a processor; when `record` throws, the pass ends. -/
  | answer (process : Nat) (answer : LiveAnswer) (throws : Bool)

namespace LiveRequestState

variable (deps : LiveProcessorDeps)

def put (state : LiveRequestState) (process : Nat) (processor : LiveProcessor) :
    LiveRequestState :=
  { state with processors := Function.update state.processors process processor }

/-- The requests without an outcome row, the oldest first. -/
def unclaimed (state : LiveRequestState) : List LiveRunRequest :=
  state.requests.filter fun request => (state.outcomes.get request.id).isNone

/-- The claim of a request and the stage that follows when it is won. -/
def claimAt (request : LiveRunRequest) (now : Time) : LiveOutcome × LiveStage :=
  if request.isFuture now then (.expired, .expiring "LIVE_REQUEST_TIME_INVALID")
  else if request.isExpired now then (.expired, .expiring "LIVE_REQUEST_EXPIRED")
  else (.started, .starting)

def claimed (process : Nat) (request : LiveRunRequest) (now : Time) : LiveHandling :=
  let claim := claimAt request now
  { process := process
    request := request
    takenAt := now
    stage := claim.2
    calls := [(now, .claim claim.1)] }

def take (state : LiveRequestState) (process : Nat) (request : LiveRunRequest)
    (rest : List LiveRunRequest) : LiveRequestState :=
  if (state.outcomes.get request.id).isSome then state.put process { queue := some rest }
  else
    { state.put process
        { queue := some rest, current := some (claimed process request state.clock) } with
      outcomes := state.outcomes.set request.id (claimAt request state.clock).1 }

/-- The processor after a call. -/
def proceed (state : LiveRequestState) (process : Nat) (queue : Option (List LiveRunRequest))
    (next : LiveHandling) (throws : Bool) : LiveRequestState :=
  if next.stage = .done then
    { state.put process { queue := if throws then none else queue } with
      finished := state.finished ++ [next] }
  else state.put process { queue := queue, current := some next }

def step (command : LiveRequestCommand) (state : LiveRequestState) :
    Except Error LiveRequestState :=
  match command with
  | .submit request => do
      refuse (∃ known ∈ state.requests, known.id = request.id) "UNIQUE"
      pure { state with requests := state.requests ++ [request] }
  | .cancel requestId => do
      refuse (¬ ∃ known ∈ state.requests, known.id = requestId) "UNKNOWN"
      refuse (state.outcomes.get requestId).isSome "CLAIMED"
      pure { state with outcomes := state.outcomes.set requestId .cancelled }
  | .wait now => .ok { state with clock := now }
  | .crash process =>
      .ok { state.put process {} with
        crashed := state.crashed ++ (state.processors process).current.toList }
  | .look process => do
      refuse ((state.processors process).queue.isSome ∨ (state.processors process).current.isSome)
        "BUSY"
      pure (state.put process { queue := some state.unclaimed })
  | .take process =>
      match (state.processors process).queue, (state.processors process).current with
      | some (request :: rest), none => .ok (state.take process request rest)
      | some [], none => .ok (state.put process {})
      | _, _ => .error "NOT_NOW"
  | .claimFails process => do
      refuse (state.processors process).current.isSome "NOT_NOW"
      pure (state.put process {})
  | .answer process answer throws =>
      match (state.processors process).current with
      | some handling => do
          let next ← handling.step deps state.clock handling.stage answer
          pure (state.proceed process (state.processors process).queue next throws)
      | none => .error "NOT_NOW"

/-- Some processor works on it, or worked on it. -/
def Handled (state : LiveRequestState) (handling : LiveHandling) : Prop :=
  (∃ process, (state.processors process).current = some handling) ∨
    handling ∈ state.finished ++ state.crashed

/-! ## What is true of all handlings -/

/-- At most one processor ever claims a request, and what is claimed is handled. -/
structure ClaimedOnce (state : LiveRequestState) : Prop where
  distinct : ((state.finished ++ state.crashed).map fun handling => handling.request.id).Nodup
  apart : ∀ process handling, (state.processors process).current = some handling →
    ∀ other ∈ state.finished ++ state.crashed, other.request.id ≠ handling.request.id
  exclusive : ∀ process process' handling handling',
    (state.processors process).current = some handling →
    (state.processors process').current = some handling' →
    handling.request.id = handling'.request.id → process = process'
  handled : ∀ requestId outcome, state.outcomes.get requestId = some outcome →
    outcome ≠ .cancelled → ∃ handling, state.Handled handling ∧ handling.request.id = requestId
  /-- Only its own processor makes the calls of a handling. -/
  own : ∀ process handling, (state.processors process).current = some handling →
    handling.process = process

structure Invariant (deps : LiveProcessorDeps) (state : LiveRequestState) : Prop where
  once : ClaimedOnce state
  sound : ∀ handling, state.Handled handling → handling.Sound deps
  rows : ∀ handling, state.Handled handling →
    (state.outcomes.get handling.request.id).isSome = true
  done : ∀ handling ∈ state.finished, handling.stage = .done

variable {deps} {state next : LiveRequestState}

theorem put_same {process : Nat} {processor : LiveProcessor} :
    (state.put process processor).processors process = processor :=
  Function.update_self ..

theorem put_other {process other : Nat} {processor : LiveProcessor} (another : other ≠ process) :
    (state.put process processor).processors other = state.processors other :=
  Function.update_of_ne another ..

theorem invariant_start : Invariant deps {} where
  once :=
    { distinct := List.nodup_nil
      apart := fun _ _ none => nomatch none
      exclusive := fun _ _ _ _ none => nomatch none
      handled := fun _ _ none => nomatch none
      own := fun _ _ none => nomatch none }
  sound := by
    rintro handling (⟨process, none⟩ | none)
    · cases none
    · cases none
  rows := by
    rintro handling (⟨process, none⟩ | none)
    · cases none
    · cases none
  done := fun _ none => nomatch none

/-- A processor without a request puts its request in order, and nothing else changes. -/
theorem Invariant.idle (invariant : Invariant deps state) {process : Nat}
    (free : (state.processors process).current = none) (processor : LiveProcessor)
    (still : processor.current = none) : Invariant deps (state.put process processor) := by
  have currents (other : Nat) :
      ((state.put process processor).processors other).current =
        (state.processors other).current := by
    by_cases same : other = process
    · rw [same, put_same, still, free]
    · rw [put_other same]
  have handled (handling : LiveHandling) :
      (state.put process processor).Handled handling ↔ state.Handled handling := by
    unfold Handled
    simp only [currents]
    rfl
  constructor
  · refine ⟨invariant.once.distinct, fun other handling => ?_, fun p q handling handling' => ?_,
      fun requestId outcome row kept => ?_, fun other handling => ?_⟩
    · rw [currents]
      exact invariant.once.apart other handling
    · rw [currents, currents]
      exact invariant.once.exclusive p q handling handling'
    · simp only [handled]
      exact invariant.once.handled requestId outcome row kept
    · rw [currents]
      exact invariant.once.own other handling
  · exact fun handling inside => invariant.sound handling ((handled handling).mp inside)
  · exact fun handling inside => invariant.rows handling ((handled handling).mp inside)
  · exact invariant.done

/-- New rows, requests and times leave the handlings as they are. -/
theorem Invariant.rowsOnly (invariant : Invariant deps state)
    (processors : next.processors = state.processors) (finished : next.finished = state.finished)
    (crashed : next.crashed = state.crashed)
    (kept : ∀ requestId, (state.outcomes.get requestId).isSome = true →
      next.outcomes.get requestId = state.outcomes.get requestId)
    (cancelled : ∀ requestId outcome, state.outcomes.get requestId = none →
      next.outcomes.get requestId = some outcome → outcome = .cancelled) :
    Invariant deps next := by
  have handled (handling : LiveHandling) : next.Handled handling ↔ state.Handled handling := by
    unfold Handled
    rw [processors, finished, crashed]
  constructor
  · refine ⟨?_, ?_, ?_, fun requestId outcome row processed => ?_, ?_⟩
    · rw [finished, crashed]
      exact invariant.once.distinct
    · rw [processors, finished, crashed]
      exact invariant.once.apart
    · rw [processors]
      exact invariant.once.exclusive
    · simp only [handled]
      cases before : state.outcomes.get requestId with
      | none => exact absurd (cancelled requestId outcome before row) processed
      | some earlier =>
          rw [kept requestId (by rw [before]; rfl), before] at row
          cases row
          exact invariant.once.handled requestId outcome before processed
    · rw [processors]
      exact invariant.once.own
  · exact fun handling inside => invariant.sound handling ((handled handling).mp inside)
  · intro handling inside
    have row := invariant.rows handling ((handled handling).mp inside)
    rw [kept _ row]
    exact row
  · rw [finished]
    exact invariant.done

theorem Invariant.cancel (invariant : Invariant deps state) {requestId : String}
    (unclaimed : state.outcomes.get requestId = none) :
    Invariant deps { state with outcomes := state.outcomes.set requestId .cancelled } := by
  refine invariant.rowsOnly rfl rfl rfl (fun other claimed => ?_) (fun other outcome none row => ?_)
  · refine OrderedMap.get_set_other fun same => ?_
    rw [same, unclaimed] at claimed
    cases claimed
  · by_cases same : other = requestId
    · rw [same, OrderedMap.get_set_same] at row
      cases row
      rfl
    · rw [OrderedMap.get_set_other same, none] at row
      cases row

/-- The archive with one more handling, which was not in it. -/
theorem nodup_archive {archive : List LiveHandling} {handling : LiveHandling}
    (distinct : (archive.map fun handling => handling.request.id).Nodup)
    (apart : ∀ other ∈ archive, other.request.id ≠ handling.request.id) :
    ((handling :: archive).map fun handling => handling.request.id).Nodup := by
  rw [List.map_cons, List.nodup_cons]
  refine ⟨fun member => ?_, distinct⟩
  obtain ⟨other, inside, same⟩ := List.mem_map.mp member
  exact apart other inside same

/-- A handling leaves its processor: it came to its end, or the processor crashed. -/
theorem Invariant.archive (invariant : Invariant deps state) {process : Nat}
    {handling ended : LiveHandling}
    (running : (state.processors process).current = some handling)
    (same : ended.request.id = handling.request.id) (sound : ended.Sound deps)
    (free : (next.processors process).current = none)
    (others : ∀ other, other ≠ process →
      (next.processors other).current = (state.processors other).current)
    (archived : (next.finished ++ next.crashed).Perm
      (ended :: (state.finished ++ state.crashed)))
    (rows : next.outcomes = state.outcomes)
    (done : ∀ handling ∈ next.finished, handling.stage = .done) : Invariant deps next := by
  have current {other : Nat} {found : LiveHandling}
      (inside : (next.processors other).current = some found) :
      other ≠ process ∧ (state.processors other).current = some found := by
    have another : other ≠ process := by
      rintro rfl
      rw [free] at inside
      cases inside
    exact ⟨another, others other another ▸ inside⟩
  have known {found : LiveHandling} (inside : next.Handled found) :
      found = ended ∨ state.Handled found := by
    rcases inside with ⟨other, inside⟩ | inside
    · exact .inr (.inl ⟨other, (current inside).2⟩)
    · rcases List.mem_cons.mp (archived.mem_iff.mp inside) with rfl | before
      · exact .inl rfl
      · exact .inr (.inr before)
  constructor
  · refine ⟨?_, fun other found inside archivedOther member => ?_,
      fun p q found found' inside inside' => ?_, fun requestId outcome row processed => ?_,
      fun other found inside => ?_⟩
    · refine (archived.map _).nodup_iff.mpr ?_
      refine nodup_archive invariant.once.distinct fun other member => ?_
      rw [same]
      exact invariant.once.apart process handling running other member
    · obtain ⟨another, before⟩ := current inside
      rcases List.mem_cons.mp (archived.mem_iff.mp member) with rfl | earlier
      · rw [same]
        exact fun sameId => another
          (invariant.once.exclusive _ _ _ _ before running sameId.symm)
      · exact invariant.once.apart other found before archivedOther earlier
    · exact invariant.once.exclusive p q found found' (current inside).2 (current inside').2
    · rw [rows] at row
      obtain ⟨found, inside, sameId⟩ := invariant.once.handled requestId outcome row processed
      rcases inside with ⟨other, before⟩ | before
      · by_cases isProcess : other = process
        · rw [isProcess, running] at before
          cases before
          exact ⟨ended, .inr (archived.mem_iff.mpr List.mem_cons_self), same.trans sameId⟩
        · exact ⟨found, .inl ⟨other, (others other isProcess).trans before⟩, sameId⟩
      · exact ⟨found, .inr (archived.mem_iff.mpr (List.mem_cons_of_mem _ before)), sameId⟩
    · exact invariant.once.own other found (current inside).2
  · intro found inside
    rcases known inside with rfl | before
    · exact sound
    · exact invariant.sound found before
  · intro found inside
    rw [rows]
    rcases known inside with rfl | before
    · rw [same]
      exact invariant.rows handling (.inl ⟨process, running⟩)
    · exact invariant.rows found before
  · exact done

/-- A processor starts on a request, or goes on with the one it has. -/
theorem Invariant.hold (invariant : Invariant deps state) (process : Nat) (held : LiveHandling)
    (own : held.process = process) (sound : held.Sound deps)
    (holds : (next.processors process).current = some held)
    (others : ∀ other, other ≠ process →
      (next.processors other).current = (state.processors other).current)
    (finished : next.finished = state.finished) (crashed : next.crashed = state.crashed)
    (apart : ∀ other ∈ state.finished ++ state.crashed, other.request.id ≠ held.request.id)
    (exclusive : ∀ other found, other ≠ process → (state.processors other).current = some found →
      found.request.id ≠ held.request.id)
    (before : ∀ found, (state.processors process).current = some found →
      found.request.id = held.request.id)
    (kept : ∀ requestId, requestId ≠ held.request.id →
      next.outcomes.get requestId = state.outcomes.get requestId)
    (row : (next.outcomes.get held.request.id).isSome = true) : Invariant deps next := by
  have current {other : Nat} {found : LiveHandling}
      (inside : (next.processors other).current = some found) :
      other = process ∧ found = held ∨
        other ≠ process ∧ (state.processors other).current = some found := by
    by_cases isProcess : other = process
    · rw [isProcess, holds] at inside
      cases inside
      exact .inl ⟨isProcess, rfl⟩
    · exact .inr ⟨isProcess, others other isProcess ▸ inside⟩
  have known {found : LiveHandling} (inside : next.Handled found) :
      found = held ∨ state.Handled found ∧ found.request.id ≠ held.request.id := by
    rcases inside with ⟨other, inside⟩ | inside
    · rcases current inside with ⟨-, same⟩ | ⟨another, inside⟩
      · exact .inl same
      · exact .inr ⟨.inl ⟨other, inside⟩, exclusive other found another inside⟩
    · rw [finished, crashed] at inside
      exact .inr ⟨.inr inside, apart found inside⟩
  constructor
  · refine ⟨?_, fun other found inside => ?_, fun p q found found' inside inside' sameId => ?_,
      fun requestId outcome isRow processed => ?_, fun other found inside => ?_⟩
    · rw [finished, crashed]
      exact invariant.once.distinct
    · rw [finished, crashed]
      rcases current inside with ⟨-, rfl⟩ | ⟨-, inside⟩
      · exact apart
      · exact invariant.once.apart other found inside
    · rcases current inside with ⟨rfl, rfl⟩ | ⟨another, inside⟩
      · rcases current inside' with ⟨same, -⟩ | ⟨another, inside'⟩
        · exact same.symm
        · exact absurd sameId.symm (exclusive q found' another inside')
      · rcases current inside' with ⟨rfl, rfl⟩ | ⟨-, inside'⟩
        · exact absurd sameId (exclusive p found another inside)
        · exact invariant.once.exclusive p q found found' inside inside' sameId
    · by_cases same : requestId = held.request.id
      · exact ⟨held, .inl ⟨process, holds⟩, same.symm⟩
      · rw [kept requestId same] at isRow
        obtain ⟨found, inside, sameId⟩ := invariant.once.handled requestId outcome isRow processed
        refine ⟨found, ?_, sameId⟩
        rcases inside with ⟨other, running⟩ | archived
        · by_cases isProcess : other = process
          · rw [isProcess] at running
            exact absurd (sameId.symm.trans (before found running)) same
          · exact .inl ⟨other, (others other isProcess).trans running⟩
        · exact .inr (finished ▸ crashed ▸ archived)
    · rcases current inside with ⟨rfl, rfl⟩ | ⟨-, inside⟩
      · exact own
      · exact invariant.once.own other found inside
  · intro found inside
    rcases known inside with rfl | ⟨inside, -⟩
    · exact sound
    · exact invariant.sound found inside
  · intro found inside
    rcases known inside with rfl | ⟨inside, another⟩
    · exact row
    · rw [kept _ another]
      exact invariant.rows found inside
  · rw [finished]
    exact invariant.done

/-! ## The commands -/

theorem Invariant.crash (invariant : Invariant deps state) (process : Nat) :
    Invariant deps { state.put process {} with
      crashed := state.crashed ++ (state.processors process).current.toList } := by
  cases running : (state.processors process).current with
  | none =>
      have idle := invariant.idle running {} rfl
      rw [Option.toList_none, List.append_nil]
      exact idle
  | some handling =>
      refine invariant.archive running rfl (invariant.sound handling (.inl ⟨process, running⟩))
        ?_ (fun other another => ?_) ?_ rfl invariant.done
      · exact congrArg LiveProcessor.current put_same
      · exact congrArg LiveProcessor.current (put_other another)
      · change (state.finished ++ (state.crashed ++ [handling])).Perm _
        rw [← List.append_assoc]
        exact List.perm_append_singleton _ _

/-- A claim that is won is the first call of a handling. -/
theorem claimed_sound (process : Nat) (request : LiveRunRequest) (now : Time) :
    (claimed process request now).Sound deps := by
  unfold claimed claimAt
  split
  · exact ⟨callsFit_nil.snoc rfl, rfl⟩
  split
  · exact ⟨callsFit_nil.snoc rfl, rfl⟩
  · rename_i present alive
    exact ⟨callsFit_nil.snoc rfl, rfl, by simpa using present, by simpa using alive⟩

theorem Invariant.take (invariant : Invariant deps state) {process : Nat}
    (free : (state.processors process).current = none) (request : LiveRunRequest)
    (rest : List LiveRunRequest) : Invariant deps (state.take process request rest) := by
  unfold LiveRequestState.take
  split
  · exact invariant.idle free _ rfl
  · rename_i unclaimed
    have unclaimed : state.outcomes.get request.id = none := Option.not_isSome_iff_eq_none.mp unclaimed
    have unhandled : ∀ found, state.Handled found → found.request.id ≠ request.id := by
      intro found inside same
      have row := invariant.rows found inside
      rw [same, unclaimed] at row
      cases row
    refine invariant.hold process (claimed process request state.clock)
      rfl (claimed_sound _ _ _) ?_ (fun other another => ?_) rfl rfl
      (fun other archived => unhandled other (.inr archived))
      (fun other found _ running => unhandled found (.inl ⟨other, running⟩))
      (fun found running => ?_) (fun requestId another => ?_) ?_
    · exact congrArg LiveProcessor.current put_same
    · exact congrArg LiveProcessor.current (put_other another)
    · rw [free] at running
      cases running
    · exact OrderedMap.get_set_other another
    · change (OrderedMap.get (OrderedMap.set _ request.id _) request.id).isSome = true
      rw [OrderedMap.get_set_same]
      rfl

theorem Invariant.proceed (invariant : Invariant deps state) {process : Nat}
    {handling ended : LiveHandling}
    (running : (state.processors process).current = some handling) {answer : LiveAnswer}
    (success : handling.step deps state.clock handling.stage answer = .ok ended)
    (queue : Option (List LiveRunRequest)) (throws : Bool) :
    Invariant deps (state.proceed process queue ended throws) := by
  have inside : state.Handled handling := .inl ⟨process, running⟩
  have sound := (invariant.sound handling inside).step success
  obtain ⟨sameRequest, sameProcess⟩ := LiveHandling.step_same success
  have sameId : ended.request.id = handling.request.id := by rw [sameRequest]
  unfold LiveRequestState.proceed
  split
  · rename_i isDone
    refine invariant.archive running sameId sound ?_ (fun other another => ?_) ?_ rfl
      (fun found member => ?_)
    · exact congrArg LiveProcessor.current put_same
    · exact congrArg LiveProcessor.current (put_other another)
    · change ((state.finished ++ [ended]) ++ state.crashed).Perm _
      rw [List.append_assoc]
      exact List.perm_middle
    · rcases List.mem_append.mp member with before | now
      · exact invariant.done found before
      · rw [List.mem_singleton.mp now]
        exact isDone
  · refine invariant.hold process ended ?_ sound ?_ (fun other another => ?_) rfl rfl
      (fun other archived => ?_) (fun other found another held same => ?_)
      (fun found held => ?_) (fun _ _ => rfl) ?_
    · exact sameProcess.trans (invariant.once.own process handling running)
    · exact congrArg LiveProcessor.current put_same
    · exact congrArg LiveProcessor.current (put_other another)
    · rw [sameId]
      exact invariant.once.apart process handling running other archived
    · exact another (invariant.once.exclusive _ _ _ _ held running (same.trans sameId))
    · rw [running] at held
      cases held
      exact sameId.symm
    · rw [sameId]
      exact invariant.rows handling inside

theorem Invariant.step {command : LiveRequestCommand} (invariant : Invariant deps state)
    (success : step deps command state = .ok next) : Invariant deps next := by
  cases command with
  | submit request =>
      simp only [LiveRequestState.step, bind_eq_ok, refuse_eq_ok, pure_eq_ok] at success
      obtain ⟨_, -, rfl⟩ := success
      exact invariant.rowsOnly rfl rfl rfl (fun _ _ => rfl) fun _ _ none row => by
        rw [none] at row
        cases row
  | cancel requestId =>
      simp only [LiveRequestState.step, bind_eq_ok, refuse_eq_ok, pure_eq_ok] at success
      obtain ⟨_, -, _, unclaimed, rfl⟩ := success
      exact invariant.cancel (Option.not_isSome_iff_eq_none.mp unclaimed)
  | wait now =>
      cases success
      exact invariant.rowsOnly rfl rfl rfl (fun _ _ => rfl) fun _ _ none row => by
        rw [none] at row
        cases row
  | crash process =>
      cases success
      exact invariant.crash process
  | look process =>
      simp only [LiveRequestState.step, bind_eq_ok, refuse_eq_ok, pure_eq_ok] at success
      obtain ⟨_, free, rfl⟩ := success
      rw [not_or] at free
      exact invariant.idle (Option.not_isSome_iff_eq_none.mp free.2) _ rfl
  | take process =>
      simp only [LiveRequestState.step] at success
      split at success
      · rename_i free
        cases success
        exact invariant.take free _ _
      · rename_i free
        cases success
        exact invariant.idle free _ rfl
      · cases success
  | claimFails process =>
      simp only [LiveRequestState.step, bind_eq_ok, refuse_eq_ok, pure_eq_ok] at success
      obtain ⟨_, free, rfl⟩ := success
      exact invariant.idle (Option.not_isSome_iff_eq_none.mp free) _ rfl
  | answer process answer throws =>
      simp only [LiveRequestState.step] at success
      split at success
      · rename_i handling running
        simp only [bind_eq_ok, pure_eq_ok] at success
        obtain ⟨ended, called, rfl⟩ := success
        exact invariant.proceed running called _ throws
      · cases success

/-! ## Armed at most once -/

/-- Whatever the processors, the host and the owner do: a request is claimed by at most one
processor, every call for it follows from the calls before it, and a handling that came to
its end made exactly one record and left no fee ceiling behind. -/
structure ArmedOnce (deps : LiveProcessorDeps) (state : LiveRequestState) : Prop where
  once : ClaimedOnce state
  fit : ∀ handling, state.Handled handling →
    CallsFit deps handling.request handling.takenAt handling.callsOf
  recorded : ∀ handling ∈ state.finished,
    (handling.callsOf.filter LiveCall.isRecord).length = 1 ∧
      CeilingCleared handling.request handling.callsOf

theorem armed_once (run : Reaches (step deps) (fun _ _ => True) {} state) : ArmedOnce deps state := by
  have invariant : Invariant deps state :=
    run.invariant invariant_start fun _ _ _ invariant _ success => invariant.step success
  refine ⟨invariant.once, fun handling inside => (invariant.sound handling inside).fit,
    fun handling ended => ?_⟩
  have facts := (invariant.sound handling (.inr (List.mem_append_left _ ended))).stage
  rw [invariant.done handling ended] at facts
  exact facts

def sampleCampaign : Campaign where
  id := "campaign"
  chainId := .ethereum
  quantity := 1
  mintPriceWei := 0
  broadcastMode := none
  spendPolicy := { maxRunWei := 0, dailyCapWei := 0, gasCeilingWei := 0 }
  feePolicy :=
    { kind := .free
      configuredPriorityFeeWei := 0
      l2ExecutionGasBudgetWei := none
      l1DataGasBudgetWei := none
      totalFeeBudgetWei := none
      freeTotalSpendCapWei := none }

def sampleRequest (requestedAt expiresAt : Time) : LiveRunRequest where
  id := "request"
  campaignId := "campaign"
  wallets := ["0x1111111111111111111111111111111111111111"]
  maxFeeGwei := some 5
  requestedAt := some requestedAt
  expiresAt := some expiresAt
  provenance := some (.schedule "schedule")

/-- The calls from the claim to `arm`, which is made at a later time. -/
def armLater (request : LiveRunRequest) (later : Time) : List LiveRequestCommand :=
  [.submit request, .look 0, .take 0, .answer 0 (.campaign (.ok (some sampleCampaign))) false,
   .answer 0 (.check (.ok ())) false, .answer 0 (.check (.ok ())) false, .wait later,
   .answer 0 (.armed (.ok ⟨"run", by decide⟩)) false]

/-- The calls after `arm` of a run that completes. -/
def runToEnd : List LiveRequestCommand :=
  [.answer 0 (.limited (.ok ())) false, .answer 0 (.check (.ok ())) false,
   .answer 0 (.check (.ok ())) false, .answer 0 (.ran (.ok (some "Completed"))) false,
   .answer 0 (.cleared (.ok ())) false, .answer 0 (.sent (.ok [])) false,
   .answer 0 .recorded false]

theorem armed_once_completed :
    ArmedOnce {} (applyAll (step {}) {} (armLater (sampleRequest 0 1800000) 10 ++ runToEnd)) :=
  armed_once ((Reaches.refl _).applyAll (allowed_true _ _ _))

example : (applyAll (step {}) {} (armLater (sampleRequest 0 1800000) 10 ++
    runToEnd)).finished.map (fun handling => handling.calls.length) = [10] := by
  decide +kernel

/-- When a request is armed it is not dated ahead. -/
def NotArmedEarly (state : LiveRequestState) : Prop :=
  ∀ handling, state.Handled handling → ∀ requestedAt ∈ handling.request.requestedAt,
    ∀ call ∈ handling.calls, call.2.isArm = true → requestedAt ≤ call.1

/-- When a request is armed it is not expired. -/
def NotArmedLate (state : LiveRequestState) : Prop :=
  ∀ handling, state.Handled handling → ∀ expiresAt ∈ handling.request.expiresAt,
    ∀ call ∈ handling.calls, call.2.isArm = true → call.1 < expiresAt

theorem armLater_reached (request : LiveRunRequest) (later : Time) :
    Reaches (step {}) (fun _ _ => True) {} (applyAll (step {}) {} (armLater request later)) :=
  (Reaches.refl _).applyAll (allowed_true _ _ _)

/-- A request may be dated a minute ahead, and it may expire between its claim and `arm`. -/
theorem armed_out_of_time :
    (¬ ∀ state, Reaches (step {}) (fun _ _ => True) {} state → NotArmedEarly state) ∧
      ¬ ∀ state, Reaches (step {}) (fun _ _ => True) {} state → NotArmedLate state := by
  constructor
  · intro never
    have arms : ((applyAll (step {}) {} (armLater (sampleRequest 30000 1830000) 0)).processors
        0).current.any (fun handling => handling.request.requestedAt = some 30000 &&
          handling.calls.any fun call => call.2.isArm && call.1 = 0) = true := by
      decide +kernel
    obtain ⟨handling, running, found⟩ := (Option.any_eq_true _ _).mp arms
    simp only [Bool.and_eq_true, decide_eq_true_eq, List.any_eq_true] at found
    obtain ⟨dated, call, member, isArm, atStart⟩ := found
    have later := never _ (armLater_reached _ _) handling (.inl ⟨0, running⟩) 30000 dated call
      member isArm
    rw [atStart] at later
    exact absurd later (by decide)
  · intro never
    have arms : ((applyAll (step {}) {} (armLater (sampleRequest 0 1000) 5000)).processors
        0).current.any (fun handling => handling.request.expiresAt = some 1000 &&
          handling.calls.any fun call => call.2.isArm && call.1 = 5000) = true := by
      decide +kernel
    obtain ⟨handling, running, found⟩ := (Option.any_eq_true _ _).mp arms
    simp only [Bool.and_eq_true, decide_eq_true_eq, List.any_eq_true] at found
    obtain ⟨expires, call, member, isArm, atEnd⟩ := found
    have earlier := never _ (armLater_reached _ _) handling (.inl ⟨0, running⟩) 1000 expires call
      member isArm
    rw [atEnd] at earlier
    exact absurd earlier (by decide)

end LiveRequestState

end MintBot
