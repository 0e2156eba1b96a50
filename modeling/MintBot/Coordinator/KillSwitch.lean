import MintBot.Coordinator.Resolution
import MintBot.Library.History
import MintBot.Store.Owners

/-!
# The stored kill switch

Admission reads the switch in its own transaction, so that no row of money is made while
the switch is on.  The release reads a snapshot first, clears the switch in a second
transaction and drops the operational readiness record in a third one.

A run of the machine is an interleaving of the transactions of any number of stores.  The
switch stops admissions in all of them.  A release leaves nothing in flight behind in those
where what it read is still so when it clears the switch, and it drops the record when its
last transaction commits.
-/

namespace MintBot

open Fallible Machine

/-- The runs that stand in the way of a release. -/
def Db.unresolved (db : Db) : List RunId :=
  (snapshot db).unresolvedRunIds db.chainProfileForCampaign

/-- What a call of `releaseKillSwitch` does next. -/
inductive ReleaseStage where
  /-- Its snapshot was taken and showed no unresolved run. -/
  | checked (seen : Db)
  /-- The stored switch was read, and there is something to release. -/
  | due (seen : Db)
  /-- The switch is cleared, the readiness record is not dropped yet. -/
  | cleared

/-- What happened to the switch; no branch of the store reads it. -/
inductive StopEvent where
  | engaged
  /-- A new execution or reservation row. -/
  | inserted
  /-- An operational readiness record, by its number. -/
  | recorded (record : Nat)
  | released (db : Db)

structure StopState where
  db : Db
  /-- `runtime.operational` -/
  operational : Option Nat
  releases : Nat → Option ReleaseStage
  history : List StopEvent

/-- Whether an operation clears the switch. -/
def StoreOp.clears : StoreOp → Bool
  | .setKillSwitch false => true
  | _ => false

/-- A transaction of one of the stores; only `releaseKillSwitch` clears the switch. -/
inductive StopCommand where
  | operate (op : StoreOp) (keeps : op.clears = false)
  | recordReadiness
  | check (call : Nat)
  | status (call : Nat)
  | clear (call : Nat)
  | discard (call : Nat) (failure : Option Error)

/-- There is an execution or a reservation that was not there before. -/
def Db.Inserts (db db' : Db) : Prop :=
  (∃ owner ∈ db'.owners, owner ∉ db.owners) ∨
    ∃ row ∈ db'.reservations, row.id ∉ db.reservations.map SpendReservationRow.id

instance (db db' : Db) : Decidable (db.Inserts db') :=
  inferInstanceAs (Decidable (_ ∨ _))

/-- What an operation did to the switch and to the money. -/
def stopEvents (db db' : Db) : List StopEvent :=
  (if db.Inserts db' then [.inserted] else []) ++
    if db.killed = false ∧ db'.killed = true then [.engaged] else []

namespace StopState

def initial (db : Db) : StopState where
  db := db
  operational := none
  releases := fun _ => none
  history := if db.killed then [.engaged] else []

def moveRelease (state : StopState) (call : Nat) (stage : Option ReleaseStage) : StopState :=
  { state with releases := Function.update state.releases call stage }

/-- A snapshot and its check. -/
def check (state : StopState) (call : Nat) : Except Error StopState :=
  match state.releases call with
  | none => do
      refuse (state.db.unresolved ≠ []) "KILL_RELEASE_BLOCKED_UNRESOLVED_RUNS"
      pure (state.moveRelease call (some (.checked state.db)))
  | some _ => .ok state

/-- The stored status: nothing is released when the switch is off. -/
def status (state : StopState) (call : Nat) : Except Error StopState :=
  match state.releases call with
  | some (.checked seen) =>
      if state.db.killed = false ∧ seen.killed = false then .ok (state.moveRelease call none)
      else .ok (state.moveRelease call (some (.due seen)))
  | _ => .ok state

def clear (state : StopState) (call : Nat) : Except Error StopState :=
  match state.releases call with
  | some (.due _) =>
      .ok { state.moveRelease call (some .cleared) with
        db := setKillSwitch state.db false
        history := state.history ++ [.released state.db] }
  | _ => .ok state

/-- The transaction that drops the readiness record; when it fails the call throws. -/
def discard (state : StopState) (call : Nat) (failure : Option Error) : Except Error StopState :=
  match state.releases call, failure with
  | some .cleared, none => .ok { state.moveRelease call none with operational := none }
  | some .cleared, some _ => .ok (state.moveRelease call none)
  | _, _ => .ok state

def step (fleetPolicy : Option FleetSpendPolicy) :
    StopCommand → StopState → Except Error StopState
  | .operate op _, state => do
      let db' ← op.step fleetPolicy state.db
      pure { state with
        db := db'
        history := state.history ++ stopEvents state.db db' }
  | .recordReadiness, state =>
      .ok { state with
        operational := some state.history.length
        history := state.history ++ [.recorded state.history.length] }
  | .check call, state => state.check call
  | .status call, state => state.status call
  | .clear call, state => state.clear call
  | .discard call failure, state => state.discard call failure

end StopState

/-! ## What a history says -/

/-- The switch was engaged, and not released since. -/
def stoppedAfter (history : List StopEvent) : Bool :=
  history.foldl (fun stopped event =>
    match event with
    | .engaged => true
    | .released _ => false
    | .inserted | .recorded _ => stopped) false

/-- The readiness records that were made since the last release. -/
def recordsSinceRelease (history : List StopEvent) : List Nat :=
  history.foldl (fun records event =>
    match event with
    | .recorded record => record :: records
    | .released _ => []
    | .engaged | .inserted => records) []

/-- No row of money is made between an engagement and a release; releases happen with nothing
unresolved; and a readiness record in force was made after the last release, unless a release
is about to drop it. -/
structure SwitchHolds (state : StopState) : Prop where
  stops : History.Each (fun before event => event = .inserted → stoppedAfter before = false)
    state.history
  resolved : ∀ db, .released db ∈ state.history → db.unresolved = []
  dropped : ∀ record ∈ state.operational, record ∈ recordsSinceRelease state.history ∨
    ∃ call, state.releases call = some .cleared

/-- What the check of a release reads has not changed. -/
structure Db.SameRuns (seen db : Db) : Prop where
  runs : db.readRuns = seen.readRuns
  attempts : db.readAttempts = seen.readAttempts
  reconciliations : db.readReconciliations = seen.readReconciliations
  chains : db.chainProfileForCampaign = seen.chainProfileForCampaign

/-- A release clears the switch only while its check still reads the same, and its last
transaction commits. -/
def StopState.Undisturbed (state : StopState) : StopCommand → Prop
  | .clear call => ∀ seen, state.releases call = some (.due seen) → seen.SameRuns state.db
  | .discard call failure => state.releases call = some .cleared → failure = none
  | .operate _ _ | .recordReadiness | .check _ | .status _ => True

/-! ## Operations -/

theorem Db.unresolved_eq_nil {db : Db} :
    db.unresolved = [] ↔ ∀ run ∈ db.readRuns, (snapshot db).InFlight run →
      ∃ result ∈ (snapshot db).latestResult run.id,
        result.Terminal (db.chainProfileForCampaign run.campaignId) := by
  unfold unresolved BackendState.unresolvedRunIds
  rw [List.map_eq_nil_iff, List.filter_eq_nil_iff]
  simp only [decide_eq_true_eq, not_and, not_not]
  exact Iff.rfl

theorem Db.SameRuns.unresolved {seen db : Db} (same : seen.SameRuns db)
    (resolved : seen.unresolved = []) : db.unresolved = [] := by
  rw [unresolved_eq_nil] at resolved ⊢
  intro run listed inFlight
  rw [same.runs] at listed
  have before : (snapshot seen).InFlight run := by
    unfold BackendState.InFlight at inFlight ⊢
    change _ ∨ _ ∨ _ ∧ ∃ attempt ∈ db.readAttempts, _ at inFlight
    rw [same.attempts] at inFlight
    exact inFlight
  obtain ⟨result, latest, terminal⟩ := resolved run listed before
  refine ⟨result, ?_, same.chains ▸ terminal⟩
  unfold BackendState.latestResult at latest ⊢
  change result ∈ (db.readReconciliations.filter _).getLast?.map _
  rw [same.reconciliations]
  exact latest

theorem not_inserts {db db' : Db} (owners : db'.owners = db.owners)
    (later : db.LaterReservations db') : ¬ db.Inserts db' := by
  rintro (⟨owner, listed, new⟩ | ⟨row, listed, new⟩)
  · rw [owners] at listed
    exact new listed
  · obtain ⟨old, known, later⟩ := Table.forall₂_mem_right later listed
    refine new (List.mem_map.mpr ⟨old, known, ?_⟩)
    cases later <;> rfl

theorem admitExecution_killed {fleetPolicy : Option FleetSpendPolicy} {db : Db} {now : Time}
    {input : CanonicalAdmissionInput} {result : Db × CanonicalAdmissionResult}
    (admitted : admitExecution fleetPolicy db now input = .ok result) : db.killed ≠ true := by
  simp only [admitExecution, beginAdmission, bind_eq_ok, refuse_eq_ok] at admitted
  obtain ⟨_, -, _, ⟨_, off, -⟩, -⟩ := admitted
  exact off

/-- While the switch is on, an operation makes no row of money and leaves it on. -/
theorem operate_stopped {fleetPolicy : Option FleetSpendPolicy} {op : StoreOp} {db db' : Db}
    (keeps : op.clears = false) (success : op.step fleetPolicy db = .ok db')
    (stopped : db.killed = true) : ¬ db.Inserts db' ∧ db'.killed = true := by
  rcases op.step_reservations success with ⟨now, input, result, -, admitted⟩ | later
  · exact absurd stopped (admitExecution_killed admitted)
  rcases step_kept success with ⟨now, input, rfl⟩ | ⟨engaged, rfl, rfl⟩ | ⟨owners, killed⟩
  · obtain ⟨result, admitted⟩ := StoreOp.map_fst_eq_ok.mp success
    exact absurd stopped (admitExecution_killed admitted)
  · refine ⟨not_inserts rfl later, ?_⟩
    cases engaged with
    | true => rfl
    | false => exact nomatch keeps
  · exact ⟨not_inserts owners later, killed stopped⟩

/-! ## The invariant -/

theorem stoppedAfter_concat (history : List StopEvent) (event : StopEvent) :
    stoppedAfter (history ++ [event]) =
      match event with
      | .engaged => true
      | .released _ => false
      | .inserted | .recorded _ => stoppedAfter history := by
  rw [stoppedAfter, List.foldl_append]
  rfl

theorem recordsSinceRelease_concat (history : List StopEvent) (event : StopEvent) :
    recordsSinceRelease (history ++ [event]) =
      match event with
      | .recorded record => record :: recordsSinceRelease history
      | .released _ => []
      | .engaged | .inserted => recordsSinceRelease history := by
  rw [recordsSinceRelease, List.foldl_append]
  rfl

/-- An operation releases nothing. -/
theorem released_not_mem_stopEvents (db db' released : Db) :
    .released released ∉ stopEvents db db' := by
  unfold stopEvents
  split <;> split <;> simp

theorem recordsSinceRelease_stopEvents (history : List StopEvent) (db db' : Db) :
    recordsSinceRelease (history ++ stopEvents db db') = recordsSinceRelease history := by
  rw [recordsSinceRelease, List.foldl_append]
  unfold stopEvents
  split <;> split <;> rfl

namespace StopState

/-- The history agrees with the switch and stops rows of money. -/
structure Stopping (state : StopState) : Prop where
  stops : History.Each (fun before event => event = .inserted → stoppedAfter before = false)
    state.history
  stopped : stoppedAfter state.history = state.db.killed

/-- The releases under way checked what they saw. -/
structure Consistent (state : StopState) : Prop extends SwitchHolds state, Stopping state where
  checked : ∀ call seen, state.releases call = some (.checked seen) ∨
    state.releases call = some (.due seen) → seen.unresolved = []

variable {state next : StopState}

/-- The stage of another call is as before. -/
theorem moveRelease_releases (state : StopState) (call other : Nat)
    (stage : Option ReleaseStage) :
    (state.moveRelease call stage).releases other =
      if other = call then stage else state.releases other := by
  exact Function.update_apply _ _ _ _

/-- A call that is not about to drop the record goes on to a stage that is checked. -/
theorem Consistent.move (consistent : state.Consistent) {call : Nat}
    {stage : Option ReleaseStage} (before : state.releases call ≠ some .cleared)
    (checked : ∀ seen, stage = some (.checked seen) ∨ stage = some (.due seen) →
      seen.unresolved = []) : (state.moveRelease call stage).Consistent :=
  { consistent with
    dropped := by
      intro record inForce
      refine (consistent.dropped record inForce).imp id ?_
      rintro ⟨other, pending⟩
      refine ⟨other, ?_⟩
      rw [moveRelease_releases, if_neg ?_]
      · exact pending
      · rintro rfl
        exact before pending
    checked := by
      intro other seen stages
      rw [moveRelease_releases] at stages
      split at stages
      · exact checked seen stages
      · exact consistent.checked other seen stages }

/-- An operation of a store, by what it did to the switch and to the money. -/
theorem Stopping.operated (stopping : state.Stopping) {db' : Db}
    (stopped : state.db.killed = true → ¬ state.db.Inserts db' ∧ db'.killed = true) :
    Stopping { state with db := db', history := state.history ++ stopEvents state.db db' } := by
  have inserted (inserts : state.db.Inserts db') :
      Stopping { state with history := state.history ++ [.inserted] } := by
    have off : stoppedAfter state.history = false := by
      rw [stopping.stopped, ← Bool.not_eq_true]
      exact fun on => (stopped on).1 inserts
    exact ⟨stopping.stops.concat fun _ => off,
      (stoppedAfter_concat _ _).trans stopping.stopped⟩
  have engaged {middle : StopState} (before : middle.Stopping) (on : db'.killed = true) :
      Stopping { middle with db := db', history := middle.history ++ [.engaged] } :=
    ⟨before.stops.concat (fun same => nomatch same), (stoppedAfter_concat _ _).trans on.symm⟩
  have kept (still : ¬ (state.db.killed = false ∧ db'.killed = true)) :
      state.db.killed = db'.killed := by
    cases on : state.db.killed with
    | true => exact (stopped on).2.symm
    | false =>
      rw [on, not_and, Bool.not_eq_true] at still
      exact (still rfl).symm
  unfold stopEvents
  by_cases inserts : state.db.Inserts db' <;>
    by_cases turned : state.db.killed = false ∧ db'.killed = true
  · rw [if_pos inserts, if_pos turned, ← List.append_assoc]
    exact engaged (inserted inserts) turned.2
  · rw [if_pos inserts, if_neg turned, List.append_nil]
    exact ⟨(inserted inserts).stops, (inserted inserts).stopped.trans (kept turned)⟩
  · rw [if_neg inserts, if_pos turned, List.nil_append]
    exact engaged stopping turned.2
  · rw [if_neg inserts, if_neg turned, List.append_nil, List.append_nil]
    exact ⟨stopping.stops, stopping.stopped.trans (kept turned)⟩

/-- An event that neither makes a row nor sets the switch. -/
theorem Stopping.noted (stopping : state.Stopping) {record : Nat} :
    Stopping { state with history := state.history ++ [.recorded record] } :=
  ⟨stopping.stops.concat (fun same => nomatch same),
    (stoppedAfter_concat _ _).trans stopping.stopped⟩

theorem Stopping.released (stopping : state.Stopping) (seen : Db) :
    Stopping { state with
      db := setKillSwitch state.db false
      history := state.history ++ [.released seen] } :=
  ⟨stopping.stops.concat (fun same => nomatch same), stoppedAfter_concat _ _⟩

theorem Stopping.step {fleetPolicy : Option FleetSpendPolicy} {command : StopCommand}
    (stopping : state.Stopping)
    (stepped : StopState.step fleetPolicy command state = .ok next) : next.Stopping := by
  cases command with
  | operate op keeps =>
    simp only [StopState.step, bind_eq_ok, pure_eq_ok] at stepped
    obtain ⟨db', success, rfl⟩ := stepped
    exact stopping.operated (operate_stopped keeps success)
  | recordReadiness =>
    obtain rfl := Except.ok.inj stepped
    exact ⟨stopping.noted.stops, stopping.noted.stopped⟩
  | check call =>
    simp only [StopState.step, StopState.check] at stepped
    split at stepped
    · simp only [bind_eq_ok, refuse_eq_ok, pure_eq_ok] at stepped
      obtain ⟨_, -, rfl⟩ := stepped
      exact ⟨stopping.stops, stopping.stopped⟩
    · exact Except.ok.inj stepped ▸ stopping
  | status call =>
    simp only [StopState.step, StopState.status] at stepped
    split at stepped
    · split at stepped <;>
      · obtain rfl := Except.ok.inj stepped
        exact ⟨stopping.stops, stopping.stopped⟩
    · exact Except.ok.inj stepped ▸ stopping
  | clear call =>
    simp only [StopState.step, StopState.clear] at stepped
    split at stepped
    · obtain rfl := Except.ok.inj stepped
      have released := stopping.released state.db
      exact ⟨released.stops, released.stopped⟩
    · exact Except.ok.inj stepped ▸ stopping
  | discard call failure =>
    simp only [StopState.step, StopState.discard] at stepped
    split at stepped <;>
    · obtain rfl := Except.ok.inj stepped
      exact ⟨stopping.stops, stopping.stopped⟩

theorem Consistent.operated (consistent : state.Consistent) {db' : Db}
    (stopping : Stopping { state with
      db := db'
      history := state.history ++ stopEvents state.db db' }) :
    Consistent { state with db := db', history := state.history ++ stopEvents state.db db' } :=
  { stopping with
    resolved := by
      intro db listed
      refine consistent.resolved db ?_
      exact (List.mem_append.mp listed).resolve_right (released_not_mem_stopEvents _ _ _)
    dropped := by
      rw [recordsSinceRelease_stopEvents]
      exact consistent.dropped
    checked := consistent.checked }

theorem Consistent.recorded (consistent : state.Consistent) :
    Consistent { state with
      operational := some state.history.length
      history := state.history ++ [.recorded state.history.length] } where
  stops := consistent.toStopping.noted.stops
  resolved := by
    intro db listed
    refine consistent.resolved db ?_
    simpa using listed
  dropped := by
    rintro record ⟨⟩
    rw [recordsSinceRelease_concat]
    exact .inl List.mem_cons_self
  stopped := (stoppedAfter_concat _ _).trans consistent.stopped
  checked := consistent.checked

theorem Consistent.cleared (consistent : state.Consistent) {call : Nat} {seen : Db}
    (due : state.releases call = some (.due seen)) (same : seen.SameRuns state.db) :
    Consistent { state.moveRelease call (some .cleared) with
      db := setKillSwitch state.db false
      history := state.history ++ [.released state.db] } where
  stops := consistent.stops.concat fun same => nomatch same
  resolved := by
    intro db listed
    rcases List.mem_append.mp listed with old | new
    · exact consistent.resolved db old
    · obtain ⟨⟩ := List.mem_singleton.mp new
      exact same.unresolved (consistent.checked call seen (.inr due))
  dropped := by
    intro record _
    refine .inr ⟨call, ?_⟩
    change (state.moveRelease call _).releases call = _
    rw [moveRelease_releases, if_pos rfl]
  stopped := stoppedAfter_concat _ _
  checked := by
    intro other seen stages
    change (state.moveRelease call _).releases other = _ ∨
      (state.moveRelease call _).releases other = _ at stages
    rw [moveRelease_releases] at stages
    split at stages
    · rcases stages with stage | stage <;> exact nomatch stage
    · exact consistent.checked other seen stages

theorem Consistent.discarded (consistent : state.Consistent) (call : Nat) :
    Consistent { state.moveRelease call none with operational := none } where
  stops := consistent.stops
  resolved := consistent.resolved
  dropped := fun _ inForce => nomatch inForce
  stopped := consistent.stopped
  checked := by
    intro other seen stages
    change (state.moveRelease call _).releases other = _ ∨
      (state.moveRelease call _).releases other = _ at stages
    rw [moveRelease_releases] at stages
    split at stages
    · rcases stages with stage | stage <;> exact nomatch stage
    · exact consistent.checked other seen stages

theorem Consistent.step {fleetPolicy : Option FleetSpendPolicy} {command : StopCommand}
    (consistent : state.Consistent) (allowed : state.Undisturbed command)
    (stepped : StopState.step fleetPolicy command state = .ok next) : next.Consistent := by
  cases command with
  | operate op keeps =>
    simp only [StopState.step, bind_eq_ok, pure_eq_ok] at stepped
    obtain ⟨db', success, rfl⟩ := stepped
    exact consistent.operated (consistent.toStopping.operated (operate_stopped keeps success))
  | recordReadiness =>
    obtain rfl := Except.ok.inj stepped
    exact consistent.recorded
  | check call =>
    simp only [StopState.step, StopState.check] at stepped
    split at stepped
    · rename_i idle
      simp only [bind_eq_ok, refuse_eq_ok, pure_eq_ok, not_not] at stepped
      obtain ⟨_, resolved, rfl⟩ := stepped
      have before : state.releases call ≠ some .cleared := by
        rw [idle]
        intro same
        cases same
      refine consistent.move before ?_
      rintro seen (⟨⟨⟩⟩ | stage)
      · exact resolved
      · cases stage
    · exact Except.ok.inj stepped ▸ consistent
  | status call =>
    simp only [StopState.step, StopState.status] at stepped
    split at stepped
    · rename_i seen checked
      have before : state.releases call ≠ some .cleared := by
        rw [checked]
        intro same
        cases same
      split at stepped
      · obtain rfl := Except.ok.inj stepped
        refine consistent.move before ?_
        rintro seen (stage | stage) <;> cases stage
      · obtain rfl := Except.ok.inj stepped
        refine consistent.move before ?_
        rintro seen (stage | ⟨⟨⟩⟩)
        · cases stage
        · exact consistent.checked call _ (.inl checked)
    · exact Except.ok.inj stepped ▸ consistent
  | clear call =>
    simp only [StopState.step, StopState.clear] at stepped
    split at stepped
    · rename_i seen due
      obtain rfl := Except.ok.inj stepped
      exact consistent.cleared due (allowed seen due)
    · exact Except.ok.inj stepped ▸ consistent
  | discard call failure =>
    simp only [StopState.step, StopState.discard] at stepped
    split at stepped
    · obtain rfl := Except.ok.inj stepped
      exact consistent.discarded call
    · rename_i cleared
      cases allowed cleared
    · exact Except.ok.inj stepped ▸ consistent

theorem consistent_initial (db : Db) : (initial db).Consistent := by
  unfold initial
  cases on : db.killed with
  | false =>
    exact
      { stops := .nil
        resolved := fun _ listed => nomatch listed
        dropped := fun _ inForce => nomatch inForce
        stopped := on.symm
        checked := fun _ _ stages => by rcases stages with stage | stage <;> exact nomatch stage }
  | true =>
    exact
      { stops := History.Each.nil.concat fun same => nomatch same
        resolved := by
          intro db listed
          exact nomatch List.mem_singleton.mp listed
        dropped := fun _ inForce => nomatch inForce
        stopped := on.symm
        checked := fun _ _ stages => by rcases stages with stage | stage <;> exact nomatch stage }

/-- In every run, no row of money is made between an engagement and a release. -/
theorem switch_stops {fleetPolicy : Option FleetSpendPolicy} {db : Db}
    (run : Reaches (StopState.step fleetPolicy) (fun _ _ => True) (initial db) state) :
    History.Each (fun before event => event = .inserted → stoppedAfter before = false)
      state.history :=
  (run.invariant (consistent_initial db).toStopping fun _ _ _ stopping _ stepped =>
    stopping.step stepped).stops

/-- In every run of stores on one database in which a release clears the switch while its
check still reads the same, and drops the readiness record then, the switch holds. -/
theorem switch_holds {fleetPolicy : Option FleetSpendPolicy} {db : Db}
    (run : Reaches (StopState.step fleetPolicy) Undisturbed (initial db) state) :
    SwitchHolds state :=
  (run.invariant (consistent_initial db) fun _ _ _ consistent allowed stepped =>
    consistent.step allowed stepped).toSwitchHolds

end StopState

namespace StopState

/-! ## Samples -/

/-- The state after some commands. -/
def sampleAfter (names : List String) (commands : List StopCommand) : StopState :=
  applyAll (StopState.step Sample.fleetPolicy) (initial (Sample.db .ethereum names)) commands

def engage : StopCommand :=
  .operate (.setKillSwitch true) rfl

/-- A release that nothing comes between. -/
def releaseAlone (call : Nat) : List StopCommand :=
  [.check call, .status call, .clear call, .discard call none]

theorem switch_holds_sample :
    SwitchHolds (sampleAfter ["first"] (engage :: .operate .abortRemaining rfl :: releaseAlone 0)) := by
  refine switch_holds (Reaches.applyAll (.refl _) ?_)
  refine ⟨trivial, trivial, trivial, trivial, ?_, fun _ => rfl, trivial⟩
  intro seen due
  have same : some (ReleaseStage.due
      (sampleAfter ["first"] [engage, .operate .abortRemaining rfl]).db) = some (.due seen) :=
    due
  obtain rfl := ReleaseStage.due.inj (Option.some.inj same)
  exact ⟨rfl, rfl, rfl, rfl⟩

/-- A release whose check is out of date when it clears the switch: another release and an
admission come between, and the switch is engaged again. -/
def staleRelease : StopState :=
  sampleAfter ["first"]
    ([engage, .operate .abortRemaining rfl, .check 0] ++ releaseAlone 1 ++
      [.operate (.admission 0 (Sample.input .ethereum "first" ["w"])) rfl, engage, .status 0,
        .clear 0])

/-- A release whose last transaction fails. -/
def brokenRelease : StopState :=
  sampleAfter [] [.recordReadiness, engage, .check 0, .status 0, .clear 0,
    .discard 0 (some "SQLITE_BUSY")]

/-- A release with unresolved runs. -/
def isUnresolvedRelease : StopEvent → Bool
  | .released db => db.unresolved ≠ []
  | _ => false

/-- A release can leave a run in flight, and it can leave the readiness record. -/
theorem release_of_moved_check : ¬ SwitchHolds staleRelease ∧ ¬ SwitchHolds brokenRelease := by
  constructor
  · intro holds
    have found : staleRelease.history.any isUnresolvedRelease = true := by
      decide +kernel
    obtain ⟨event, listed, bad⟩ := List.any_eq_true.mp found
    cases event with
    | released db => exact of_decide_eq_true bad (holds.resolved db listed)
    | engaged | inserted | recorded => exact nomatch bad
  · intro holds
    rcases holds.dropped 0 rfl with kept | ⟨call, pending⟩
    · exact absurd kept (by decide)
    · change Function.update (Function.update (Function.update (Function.update
        (fun _ => none) 0 _) 0 _) 0 _) 0 none call = some ReleaseStage.cleared at pending
      by_cases only : call = 0 <;> simp [only] at pending

end StopState

end MintBot
