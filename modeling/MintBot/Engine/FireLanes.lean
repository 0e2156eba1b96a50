import Mathlib.Data.List.Perm.Subperm
import MintBot.Engine.ReplacementPolicy
import MintBot.Library.Fallible

/-!
# Fire lanes

Lanes are ordered groups of the selected wallets, each with an offset at which its wallets start.
The plan holds every selected wallet once, in lane order.  The fleet runs in that order as well,
over the wallets that preflight let through, and its results are made by position.
-/

namespace MintBot.FireLanes

open Fallible

/-- The transports a job can be configured with. -/
inductive ConfiguredMode where
  | auto
  | publicMode
  | blast
  | flashbots
  | sequencer
  deriving DecidableEq

structure FireLane where
  walletIndexes : List Int
  startOffsetMs : Int
  mode : ConfiguredMode

structure FireLaneAssignment where
  walletIndex : Int
  laneIndex : Nat
  startOffsetMs : Int
  deriving DecidableEq

/-- The variables of the loop over the lanes. -/
structure LaneLoop where
  seen : List Int
  assignments : List FireLaneAssignment
  priorOffset : Int

/-- One wallet of a lane. -/
def assignWallet (selected : List Int) (laneIndex : Nat) (startOffsetMs : Int) (state : LaneLoop)
    (walletIndex : Int) : Except Error LaneLoop :=
  if walletIndex ∉ selected ∨ walletIndex ∈ state.seen then
    .error "FIRE_LANE_WALLET_SCOPE_INVALID"
  else
    .ok
      { state with
        seen := state.seen ++ [walletIndex]
        assignments := state.assignments ++ [{ walletIndex, laneIndex, startOffsetMs }] }

/-- One lane with its index. -/
def assignLane (selected : List Int) (mode : ConfiguredMode) (state : LaneLoop)
    (lane : FireLane × Nat) : Except Error LaneLoop :=
  if lane.1.mode ≠ mode ∨ ¬ isSafeInteger lane.1.startOffsetMs ∨
      lane.1.startOffsetMs < state.priorOffset ∨ lane.1.startOffsetMs > 30000 ∨
      lane.1.walletIndexes = [] then
    .error "FIRE_LANE_CONFIGURATION_INVALID"
  else
    lane.1.walletIndexes.foldlM (assignWallet selected lane.2 lane.1.startOffsetMs)
      { state with priorOffset := lane.1.startOffsetMs }

def planFireLanes (selected : List Int) (lanes : Option (List FireLane)) (mode : ConfiguredMode) :
    Except Error (List FireLaneAssignment) :=
  if selected = [] ∨ (∃ index ∈ selected, ¬ isSafeInteger index ∨ index < 0) ∨
      ¬ selected.Nodup then .error "FIRE_LANE_FLEET_INVALID"
  else
    match lanes with
    | none =>
        .ok (selected.map fun walletIndex => { walletIndex, laneIndex := 0, startOffsetMs := 0 })
    | some lanes =>
        if lanes = [] ∨ lanes.length > selected.length then .error "FIRE_LANES_INVALID"
        else do
          let final ← lanes.zipIdx.foldlM (assignLane selected mode)
            { seen := [], assignments := [], priorOffset := 0 }
          if final.seen.length ≠ selected.length then .error "FIRE_LANE_WALLET_SCOPE_INVALID"
          else .ok final.assignments

/-! ## The plan -/

/-- Every selected wallet once, and the offsets never decrease. -/
structure LanesCover (selected : List Int) (plan : List FireLaneAssignment) : Prop where
  wallets : (plan.map FireLaneAssignment.walletIndex).Perm selected
  offsets : plan.Pairwise fun earlier later => earlier.startOffsetMs ≤ later.startOffsetMs

/-- What holds between two turns of the loops. -/
structure LaneLoop.Sound (selected : List Int) (state : LaneLoop) : Prop where
  seen : state.seen = state.assignments.map FireLaneAssignment.walletIndex
  once : state.seen.Nodup
  selected : ∀ walletIndex ∈ state.seen, walletIndex ∈ selected
  offsets : state.assignments.Pairwise fun earlier later =>
    earlier.startOffsetMs ≤ later.startOffsetMs
  reached : ∀ assignment ∈ state.assignments, assignment.startOffsetMs ≤ state.priorOffset

variable {selected : List Int} {mode : ConfiguredMode}

/-- A wallet is appended with the offset of its lane, which is the largest so far. -/
theorem LaneLoop.Sound.wallet {state next : LaneLoop} {laneIndex : Nat} {walletIndex : Int}
    (sound : state.Sound selected)
    (assigned : assignWallet selected laneIndex state.priorOffset state walletIndex = .ok next) :
    next.Sound selected ∧ next.priorOffset = state.priorOffset := by
  unfold assignWallet at assigned
  split at assigned
  · exact nomatch assigned
  rename_i fresh
  rw [not_or, not_not] at fresh
  obtain rfl := Except.ok.inj assigned
  refine ⟨⟨?_, ?_, ?_, ?_, ?_⟩, rfl⟩
  · simp [sound.seen]
  · refine List.nodup_append.mpr ⟨sound.once, List.pairwise_singleton _ _, ?_⟩
    intro other listed last same equal
    rw [equal, List.mem_singleton.mp same] at listed
    exact fresh.2 listed
  · simpa [or_imp, forall_and] using ⟨sound.selected, fresh.1⟩
  · simpa [List.pairwise_append] using ⟨sound.offsets, sound.reached⟩
  · simpa [or_imp, forall_and] using sound.reached

theorem LaneLoop.Sound.lane {state next : LaneLoop} {lane : FireLane × Nat}
    (sound : state.Sound selected) (assigned : assignLane selected mode state lane = .ok next) :
    next.Sound selected := by
  unfold assignLane at assigned
  split at assigned
  · exact nomatch assigned
  rename_i configured
  have rises : state.priorOffset ≤ lane.1.startOffsetMs := by
    simp only [not_or] at configured
    omega
  have entered : ({ state with priorOffset := lane.1.startOffsetMs } : LaneLoop).Sound selected :=
    ⟨sound.seen, sound.once, sound.selected, sound.offsets, fun assignment listed =>
      Int.le_trans (sound.reached assignment listed) rises⟩
  have run := foldlM_invariant
    (I := fun state => state.Sound selected ∧ state.priorOffset = lane.1.startOffsetMs)
    (fun state walletIndex _ next holds assigned => by
      obtain ⟨sound, offset⟩ := holds
      rw [← offset] at assigned
      obtain ⟨after, kept⟩ := sound.wallet assigned
      exact ⟨after, kept.trans offset⟩) ⟨entered, rfl⟩ assigned
  exact run.1

/-- Accepted lanes plan every selected wallet exactly once, with offsets that never decrease. -/
theorem planFireLanes_covers {lanes : Option (List FireLane)} {plan : List FireLaneAssignment}
    (accepted : planFireLanes selected lanes mode = .ok plan) :
    selected.Nodup ∧ LanesCover selected plan := by
  unfold planFireLanes at accepted
  split at accepted
  · exact nomatch accepted
  rename_i fleet
  simp only [not_or, not_not] at fleet
  refine ⟨fleet.2.2, ?_⟩
  cases lanes with
  | none =>
      obtain rfl := Except.ok.inj accepted
      refine ⟨?_, ?_⟩
      · rw [List.map_map]
        exact List.Perm.of_eq (List.map_id' _)
      · exact List.pairwise_map.mpr (List.pairwise_of_forall fun _ _ => Int.le_refl _)
  | some lanes =>
      dsimp only at accepted
      split at accepted
      · exact nomatch accepted
      obtain ⟨final, looped, accepted⟩ := bind_eq_ok.mp accepted
      split at accepted
      · exact nomatch accepted
      rename_i complete
      obtain rfl := Except.ok.inj accepted
      have start : ({ seen := [], assignments := [], priorOffset := 0 } : LaneLoop).Sound selected :=
        ⟨rfl, List.nodup_nil, nofun, List.Pairwise.nil, nofun⟩
      have sound := foldlM_invariant (fun state lane _ next sound assigned =>
        LaneLoop.Sound.lane sound assigned) start looped
      refine ⟨?_, sound.offsets⟩
      rw [← sound.seen]
      refine (sound.once.subperm sound.selected).perm_of_length_le ?_
      exact Nat.le_of_eq (not_not.mp complete).symm

/-! ## The results of the fleet -/

/-- An entry of the results: what the task of a wallet returned, or the entry built for a promise
that was rejected, whose wallet is looked up by position. -/
inductive FleetEntry (ρ : Type) where
  | returned (walletIndex : Int) (result : ρ)
  | failed (walletIndex : Option Int) (error : Error)
  deriving DecidableEq

/-- The wallet that an entry is about; an undefined one has none. -/
def FleetEntry.walletIndex {ρ : Type} : FleetEntry ρ → Option Int
  | returned walletIndex _ => some walletIndex
  | failed walletIndex _ => walletIndex

/-- The wallets in the order in which their promises are made. -/
def laneOrder (walletIndices : List Int) (lanePlan : List FireLaneAssignment) : List Int :=
  (lanePlan.map FireLaneAssignment.walletIndex).filter fun walletIndex =>
    walletIndex ∈ walletIndices

/-- The results of `executeFleet`, where `execution` is how the task of each wallet ends: with a
result, or with an exception. -/
def executeFleet {ρ : Type} (execution : Int → Except Error ρ) (walletIndices : List Int)
    (lanes : Option (List FireLane)) (mode : ConfiguredMode)
    (plannedLanes : Option (List FireLaneAssignment)) : Except Error (List (FleetEntry ρ)) := do
  let lanePlan ← match plannedLanes with
    | some planned => .ok planned
    | none => planFireLanes walletIndices lanes mode
  .ok ((laneOrder walletIndices lanePlan).mapIdx fun index walletIndex =>
    match execution walletIndex with
    | .ok result => .returned walletIndex result
    | .error message => .failed walletIndices[index]? message)

/-- The results hold one entry for each wallet, and the entry of a rejected promise is about the
wallet whose execution was rejected. -/
structure ReportsFleet {ρ : Type} (execution : Int → Except Error ρ) (walletIndices : List Int)
    (order : List Int) (entries : List (FleetEntry ρ)) : Prop where
  each : (entries.map FleetEntry.walletIndex).Perm (walletIndices.map some)
  rejected : ∀ (index : Nat) walletIndex message, order[index]? = some walletIndex →
    execution walletIndex = .error message →
    entries[index]? = some (.failed (some walletIndex) message)

/-- Every wallet whose execution is rejected stands at one position in both orders. -/
def RejectedInPlace {ρ : Type} (execution : Int → Except Error ρ) (walletIndices : List Int)
    (order : List Int) : Prop :=
  ∀ (index : Nat) walletIndex message, order[index]? = some walletIndex →
    execution walletIndex = .error message → walletIndices[index]? = some walletIndex

theorem laneOrder_perm {plan : List FireLaneAssignment} (covers : LanesCover selected plan)
    (admitted : Int → Bool) :
    (laneOrder (selected.filter admitted) plan).Perm (selected.filter admitted) := by
  have wallets := covers.wallets.filter fun walletIndex =>
    decide (walletIndex ∈ selected.filter admitted)
  refine wallets.trans (List.Perm.of_eq (List.filter_congr fun walletIndex listed => ?_))
  simp [listed]

/-- Accepted lanes plan every selected wallet once, in the order of their offsets.  The results
of the fleet, over the wallets that preflight admitted, tell the wallets apart exactly when every
rejected one stands at the position of its promise among the admitted wallets. -/
theorem fireLanes_report {ρ : Type} {lanes : Option (List FireLane)}
    {plan : List FireLaneAssignment} (accepted : planFireLanes selected lanes mode = .ok plan)
    (admitted : Int → Bool) (execution : Int → Except Error ρ) :
    LanesCover selected plan ∧
      ((∃ entries, executeFleet execution (selected.filter admitted) lanes mode (some plan) =
          .ok entries ∧
        ReportsFleet execution (selected.filter admitted)
          (laneOrder (selected.filter admitted) plan) entries) ↔
        RejectedInPlace execution (selected.filter admitted)
          (laneOrder (selected.filter admitted) plan)) := by
  obtain ⟨-, covers⟩ := planFireLanes_covers accepted
  have order := laneOrder_perm covers admitted
  refine ⟨covers, ?_, fun inPlace => ⟨_, rfl, ?_, ?_⟩⟩
  · rintro ⟨entries, results, reports⟩ index walletIndex message placed rejected
    have entry := reports.rejected index walletIndex message placed rejected
    obtain rfl := Except.ok.inj results
    rw [List.getElem?_mapIdx, placed, Option.map_some, rejected] at entry
    injection entry with same
    injection same
  · refine List.Perm.trans (List.Perm.of_eq (List.ext_getElem? fun index => ?_))
      (order.map some)
    rw [List.getElem?_map, List.getElem?_mapIdx, List.getElem?_map]
    cases placed : (laneOrder (selected.filter admitted) plan)[index]? with
    | none => rfl
    | some walletIndex =>
        cases ended : execution walletIndex with
        | ok result => simp [ended, FleetEntry.walletIndex]
        | error message =>
            simp [ended, FleetEntry.walletIndex, inPlace index walletIndex message placed ended]
  · intro index walletIndex message placed rejected
    rw [List.getElem?_mapIdx, placed, Option.map_some, rejected,
      inPlace index walletIndex message placed rejected]

/-- Two lanes for three wallets, the last of which is rejected: its promise is the last one. -/
theorem fireLanes_report_three :
    ∃ entries, executeFleet
        (fun walletIndex =>
          if walletIndex = 2 then (.error "offline" : Except Error Unit) else .ok ())
        [0, 1, 2] (some [⟨[1, 0], 0, .auto⟩, ⟨[2], 300, .auto⟩]) .auto
        (some [⟨1, 0, 0⟩, ⟨0, 0, 0⟩, ⟨2, 1, 300⟩]) = .ok entries ∧
      ReportsFleet
        (fun walletIndex =>
          if walletIndex = 2 then (.error "offline" : Except Error Unit) else .ok ())
        [0, 1, 2] [1, 0, 2] entries := by
  have planned : planFireLanes [0, 1, 2] (some [⟨[1, 0], 0, .auto⟩, ⟨[2], 300, .auto⟩]) .auto =
      .ok [⟨1, 0, 0⟩, ⟨0, 0, 0⟩, ⟨2, 1, 300⟩] := by decide +kernel
  refine (fireLanes_report planned (fun _ => true) fun walletIndex =>
    if walletIndex = 2 then (.error "offline" : Except Error Unit) else .ok ()).2.mpr ?_
  intro index walletIndex message placed rejected
  obtain rfl : walletIndex = 2 := by
    by_contra other
    exact nomatch (if_neg other).symm.trans rejected
  match index with
  | 0 => exact nomatch placed
  | 1 => exact nomatch placed
  | 2 => rfl
  | index + 3 => exact nomatch placed

/-- The first lane's wallet is rejected, and its entry is about the other one. -/
theorem fireLanes_report_swapped :
    ¬ ∀ (selected : List Int) (lanes : List FireLane) (plan : List FireLaneAssignment)
      (execution : Int → Except Error Unit),
      planFireLanes selected (some lanes) .auto = .ok plan →
      ∃ entries, executeFleet execution selected (some lanes) .auto (some plan) = .ok entries ∧
        ReportsFleet execution selected (laneOrder selected plan) entries := by
  intro claimed
  obtain ⟨entries, results, reports⟩ := claimed [0, 1] [⟨[1], 0, .auto⟩, ⟨[0], 300, .auto⟩]
    [⟨1, 0, 0⟩, ⟨0, 1, 300⟩]
    (fun walletIndex => if walletIndex = 1 then .error "offline" else .ok ()) (by decide +kernel)
  obtain rfl := Except.ok.inj results
  have entry := reports.rejected 0 1 "offline" rfl rfl
  exact absurd entry (by decide)

end MintBot.FireLanes
