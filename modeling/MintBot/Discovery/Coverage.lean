import MintBot.Discovery.Run

/-!
# What discovery covers

The stored cursor promises that no block behind it was missed: the block was given up in a
recorded skip, or it was read and every mint that a watched wallet paid for itself has its
event.

A tick remembers the identity of a log before its event is stored, and the block of the
very first start is not stored at all.  So the promise is kept in the runs in which no
counted log lacks its event when its turn comes again, and in which a tick that finds no
cursor starts no later than the first one did.
-/

namespace MintBot

open Fallible Machine

def DiscoveryEvent.isWatchedMint (event : DiscoveryEvent) : Bool :=
  match event.data with
  | .watchedMint .. => true
  | _ => false

namespace DiscoveryState

variable (options : DiscoveryOptions)

/-- The event of the log is in the store, where it has to have one. -/
def Recorded (events : List DiscoveryEvent) (watched : List String) (mint : ObservedMint) : Prop :=
  ∀ event ∈ DiscoveryMemory.watchedMintEvent options watched 0 mint,
    ∃ known ∈ events, known.id = event.id ∧ known.isWatchedMint = true

/-- The block lies in a recorded skip, or in a slice all of whose watched mints have their
events. -/
def Covered (state : DiscoveryState) (block : Int) : Prop :=
  (∃ event ∈ state.events, ∃ fromBlock toBlock headBlock,
    event.data = .skipped options.chainId fromBlock toBlock headBlock ∧
      fromBlock ≤ block ∧ block ≤ toBlock) ∨
  ∃ read ∈ state.reads, read.scan.fromBlock ≤ block ∧ block ≤ read.scan.toBlock ∧
    ∀ mint ∈ read.scan.mints, Recorded options state.events read.watched mint

/-- Every block from the first scanned one up to the bound is covered. -/
def CoveredTo (state : DiscoveryState) (bound : Int) : Prop :=
  ∀ first, state.reads.head? = some first →
    ∀ block, first.scan.fromBlock ≤ block → block < bound → Covered options state block

/-- What the chain port promises of a completed scan. -/
def Answers (state : DiscoveryState) : DiscoveryCommand → Prop
  | .scan read _ => ∀ process ∈ state.process, ∀ locals ∈ process.point.scanning?,
      read.fromBlock = locals.fromBlock ∧ read.toBlock ≤ locals.head
  | _ => True

/-- A log that was counted before has its event when its turn comes, and without a cursor no
tick starts after the first block that was scanned. -/
def CountsAgain (state : DiscoveryState) : DiscoveryCommand → Prop
  | .begin _ head _ => state.cursor = none → ∀ height ∈ head, ∀ first ∈ state.reads.head?,
      firstStart options height ≤ first.scan.fromBlock
  | .count _ => ∀ process ∈ state.process, ∀ turn ∈ process.point.nextMint?,
      (∃ sighting ∈ process.memory.seenLogs,
        DiscoveryMemory.sightingOf .mint turn.2.txHash turn.2.logIndex = some sighting) →
      Recorded options state.events turn.1.watched turn.2
  | _ => True

def KeepsCoverage (state : DiscoveryState) (command : DiscoveryCommand) : Prop :=
  Answers state command ∧ CountsAgain options state command

instance (events : List DiscoveryEvent) (watched : List String) (mint : ObservedMint) :
    Decidable (Recorded options events watched mint) :=
  inferInstanceAs (Decidable (∀ event ∈ _, _))

instance (state : DiscoveryState) (command : DiscoveryCommand) :
    Decidable (Answers state command) :=
  match command with
  | .scan _ _ => inferInstanceAs (Decidable (∀ process ∈ state.process, _))
  | .begin _ _ _ | .count _ | .boot | .crash | .writeSkip _ _ | .advanceSkip _ | .scanFails
  | .endScans | .enrich _ _ | .announce _ _ _ _ | .list _ _ _ _ | .advance _ | .prune _
  | .other _ => .isTrue trivial

instance (state : DiscoveryState) (command : DiscoveryCommand) :
    Decidable (CountsAgain options state command) :=
  match command with
  | .begin _ _ _ => inferInstanceAs (Decidable (state.cursor = none → _))
  | .count _ => inferInstanceAs (Decidable (∀ process ∈ state.process, _))
  | .scan _ _ | .boot | .crash | .writeSkip _ _ | .advanceSkip _ | .scanFails | .endScans
  | .enrich _ _ | .announce _ _ _ _ | .list _ _ _ _ | .advance _ | .prune _ | .other _ =>
      .isTrue trivial

instance (state : DiscoveryState) (command : DiscoveryCommand) :
    Decidable (KeepsCoverage options state command) :=
  inferInstanceAs (Decidable (_ ∧ _))

/-! ## Nothing that is covered is lost -/

variable {options} {state next : DiscoveryState}

theorem Recorded.mono {events events' : List DiscoveryEvent} {watched : List String}
    {mint : ObservedMint} (recorded : Recorded options events watched mint)
    (kept : ∀ event ∈ events, event ∈ events') : Recorded options events' watched mint := by
  intro event due
  obtain ⟨known, member, same⟩ := recorded event due
  exact ⟨known, kept known member, same⟩

theorem Covered.mono {block : Int} (covered : Covered options state block)
    (keptEvents : ∀ event ∈ state.events, event ∈ next.events)
    (keptReads : ∀ read ∈ state.reads, read ∈ next.reads) : Covered options next block := by
  rcases covered with ⟨event, member, skip⟩ | ⟨read, member, above, below, recorded⟩
  · exact .inl ⟨event, keptEvents event member, skip⟩
  · exact .inr ⟨read, keptReads read member, above, below,
      fun mint counted => (recorded mint counted).mono keptEvents⟩

theorem CoveredTo.mono {bound : Int} (covered : CoveredTo options state bound)
    (keptEvents : ∀ event ∈ state.events, event ∈ next.events)
    (sameReads : next.reads = state.reads) : CoveredTo options next bound := by
  intro first start block above below
  rw [sameReads] at start
  exact (covered first start block above below).mono keptEvents (by rw [sameReads]; exact fun _ => id)

/-- One more slice changes the first scanned block only when it is the first slice. -/
theorem CoveredTo.scanned {bound : Int} (covered : CoveredTo options state bound)
    {read : CompletedRead} (keptEvents : next.events = state.events)
    (reads : next.reads = state.reads ++ [read]) (start : bound ≤ read.scan.fromBlock) :
    CoveredTo options next bound := by
  intro first firstRead block above below
  cases before : state.reads with
  | nil =>
      rw [reads, before, List.nil_append, List.head?_cons, Option.some.injEq] at firstRead
      subst firstRead
      omega
  | cons earlier others =>
      rw [reads, before, List.cons_append, List.head?_cons] at firstRead
      refine (covered first (by rw [before]; exact firstRead) block above below).mono ?_ ?_
      · rw [keptEvents]
        exact fun _ => id
      · rw [reads]
        exact fun _ => List.mem_append_left _

/-- A whole slice covers its blocks. -/
theorem CoveredTo.slice {read : CompletedRead} (member : read ∈ state.reads)
    (covered : CoveredTo options state read.scan.fromBlock)
    (recorded : ∀ mint ∈ read.scan.mints, Recorded options state.events read.watched mint) :
    CoveredTo options state (read.scan.toBlock + 1) := by
  intro first start block above below
  by_cases before : block < read.scan.fromBlock
  · exact covered first start block above before
  · exact .inr ⟨read, member, not_lt.mp before, Int.lt_add_one_iff.mp below, recorded⟩

/-! ## Counting -/

theorem watchedMintEvent_at {watched : List String} {at_ : Time} {mint : ObservedMint}
    {event : DiscoveryEvent}
    (due : DiscoveryMemory.watchedMintEvent options watched at_ mint = some event) :
    event.isWatchedMint = true ∧
      ∀ other, DiscoveryMemory.watchedMintEvent options watched 0 mint = some other →
        event.id = other.id := by
  unfold DiscoveryMemory.watchedMintEvent at due ⊢
  cases hash : mint.txHash with
  | none => simp [hash] at due
  | some text =>
      simp only [hash] at due ⊢
      split at due
      · rename_i paid
        cases due
        refine ⟨rfl, fun other same => ?_⟩
        rw [if_pos paid] at same
        cases same
        rfl
      · cases due

theorem not_due_of_none {watched : List String} {at_ : Time} {mint : ObservedMint}
    (none : DiscoveryMemory.watchedMintEvent options watched at_ mint = none)
    (events : List DiscoveryEvent) : Recorded options events watched mint := by
  intro event due
  unfold DiscoveryMemory.watchedMintEvent at none due
  cases hash : mint.txHash with
  | none => simp [hash] at due
  | some text =>
      simp only [hash] at none due
      split at none
      · cases none
      · rename_i unpaid
        rw [if_neg unpaid] at due
        cases due

/-- Events with the id of a watched mint of this chain are watched mints. -/
def OwnIds (options : DiscoveryOptions) (events : List DiscoveryEvent) : Prop :=
  ∀ event ∈ events, ∀ hash index, event.id = .watchedMint options.chainId hash index →
    event.isWatchedMint = true

theorem OwnIds.append {events more : List DiscoveryEvent} (own : OwnIds options events)
    (new : OwnIds options more) : OwnIds options (events ++ more) := by
  intro event member
  rcases List.mem_append.mp member with before | now
  · exact own event before
  · exact new event now

theorem ownIds_random {events : List DiscoveryEvent} (random : ∀ event ∈ events, event.id = .random) :
    OwnIds options events := by
  intro event member hash index same
  rw [random event member] at same
  cases same

theorem ownIds_other {event : DiscoveryEvent} (another : event.isOwn options.chainId = false) :
    OwnIds options [event] := by
  intro known member hash index same
  obtain rfl := List.mem_singleton.mp member
  simp [DiscoveryEvent.isOwn, same] at another

/-- What the turn of a mint leaves behind. -/
structure Counted (options : DiscoveryOptions) (state : DiscoveryState) (locals : TickLocals)
    (scan : ChainScan) (at_ : Time) (mint : ObservedMint) (rest : List ObservedMint)
    (next : DiscoveryState) : Prop where
  kept : ∀ event ∈ state.events, event ∈ next.events
  own : OwnIds options state.events → OwnIds options next.events
  cursor : next.cursor = state.cursor
  reads : next.reads = state.reads
  point : ∃ memory, next.process = some ⟨memory, .idle⟩ ∨
    ∃ touched, next.process =
      some ⟨memory, .counting { locals with touched := touched } scan at_ rest⟩ ∧
      Recorded options next.events locals.watched mint

theorem watchedMintEvent_id {watched : List String} {at_ : Time} {mint : ObservedMint}
    {event : DiscoveryEvent}
    (due : DiscoveryMemory.watchedMintEvent options watched at_ mint = some event) :
    ∃ hash index, event.id = .watchedMint options.chainId hash index := by
  unfold DiscoveryMemory.watchedMintEvent at due
  cases hash : mint.txHash with
  | none => simp [hash] at due
  | some text =>
      simp only [hash] at due
      split at due
      · cases due
        exact ⟨_, _, rfl⟩
      · cases due

theorem countNext_counted (own : OwnIds options state.events) {memory : DiscoveryMemory}
    {locals : TickLocals} (scan : ChainScan) (at_ : Time) {mint : ObservedMint}
    (rest : List ObservedMint) (stored : Bool)
    (again : (∃ sighting ∈ memory.seenLogs,
        DiscoveryMemory.sightingOf .mint mint.txHash mint.logIndex = some sighting) →
      Recorded options state.events locals.watched mint) :
    Counted options state locals scan at_ mint rest
      (countNext options state memory locals scan at_ mint rest stored) := by
  unfold countNext
  dsimp only
  split
  · rename_i seen
    refine ⟨fun _ => id, id, rfl, rfl, _, .inr ⟨locals.touched, rfl, again ?_⟩⟩
    unfold DiscoveryMemory.firstSighting at seen
    split at seen
    · cases seen
    · rename_i sighting found
      split at seen
      · rename_i known
        exact ⟨sighting, known, found⟩
      · cases seen
  · split
    · rename_i none
      exact ⟨fun _ => id, id, rfl, rfl, _, .inr ⟨_, rfl, not_due_of_none none _⟩⟩
    · rename_i event due
      obtain ⟨isMint, sameId⟩ := watchedMintEvent_at due
      obtain ⟨hash, index, id_⟩ := watchedMintEvent_id due
      split
      · exact ⟨fun _ => id, id, rfl, rfl, _, .inl rfl⟩
      split
      · rename_i known
        obtain ⟨before, member, same⟩ := List.any_eq_true.mp known
        have same : before.id = event.id := by simpa using same
        refine ⟨fun _ => id, id, rfl, rfl, _, .inr ⟨_, rfl, fun other due' => ?_⟩⟩
        exact ⟨before, member, same.trans (sameId other due'),
          own before member hash index (same.trans id_)⟩
      · refine ⟨fun _ => List.mem_append_left _, fun own => own.append ?_, rfl, rfl, _,
          .inr ⟨_, rfl, fun other due' => ?_⟩⟩
        · intro known member _ _ _
          rw [List.mem_singleton.mp member]
          exact isMint
        · exact ⟨event, List.mem_append_right _ (List.mem_singleton.mpr rfl), sameId other due',
            isMint⟩

/-! ## Every point of a tick -/

/-- What is covered when a tick stands at a point. -/
def PointCovered (options : DiscoveryOptions) (state : DiscoveryState) : TickPoint → Prop
  | .idle | .pruning => True
  | .skipping locals _ => CoveredTo options state locals.fromBlock
  | .skipped _ resume => CoveredTo options state resume
  | .scanning locals =>
      CoveredTo options state locals.fromBlock ∧
        ∀ cursor, state.cursor = some cursor → cursor < locals.fromBlock
  | .counting locals scan _ rest =>
      CoveredTo options state scan.fromBlock ∧
        { watched := locals.watched, scan := scan } ∈ state.reads ∧
        ∀ mint ∈ scan.mints, mint ∈ rest ∨ Recorded options state.events locals.watched mint
  | .enriching locals source | .advancing locals source =>
      CoveredTo options state (source + 1) ∧ locals.fromBlock = source + 1
  | .announcing locals _ source slice | .listing locals _ source slice =>
      slice = true → CoveredTo options state (source + 1) ∧ locals.fromBlock = source + 1

structure Covering (options : DiscoveryOptions) (state : DiscoveryState) : Prop where
  own : OwnIds options state.events
  stored : ∀ cursor, state.cursor = some cursor → CoveredTo options state (cursor + 1)
  point : ∀ memory point, state.process = some ⟨memory, point⟩ → PointCovered options state point

theorem advanceCursor_eq_ok {cursor moved : Option Int} {lastBlock : Int} {stored : Bool}
    (success : advanceCursor cursor lastBlock stored = .ok moved) :
    moved = some lastBlock ∧ ∀ current, cursor = some current → current ≤ lastBlock := by
  simp only [advanceCursor, bind_eq_ok, refuse_eq_ok, pure_eq_ok] at success
  obtain ⟨_, -, _, forward, _, -, rfl⟩ := success
  refine ⟨rfl, fun current same => ?_⟩
  rw [same] at forward
  simpa using forward

/-- Steps that leave the slices and the cursor as they are keep what is covered; only the
new point has to be looked at. -/
theorem Covering.keep (covering : Covering options state)
    (kept : ∀ event ∈ state.events, event ∈ next.events) (own : OwnIds options next.events)
    (reads : next.reads = state.reads) (cursor : next.cursor = state.cursor)
    (point : ∀ memory point, next.process = some ⟨memory, point⟩ →
      PointCovered options next point) : Covering options next where
  own := own
  stored := fun last same => (covering.stored last (cursor ▸ same)).mono kept reads
  point := point

theorem announce_kept (state : DiscoveryState) (memory : DiscoveryMemory) (input : EmissionInput) (stored : Bool)
    (sink : DiscoveryAlert → Option Bool) (point : TickPoint) :
    ∃ more memory' point', (∀ event ∈ more, event.id = .random) ∧
      (announce options state memory input stored sink point).events = state.events ++ more ∧
      (announce options state memory input stored sink point).reads = state.reads ∧
      (announce options state memory input stored sink point).cursor = state.cursor ∧
      (announce options state memory input stored sink point).process = some ⟨memory', point'⟩ ∧
      (point' = .idle ∨ point' = point) := by
  unfold announce
  dsimp only
  split
  · refine ⟨opportunityEvents options input memory, _, point, ?_, rfl, rfl, rfl, rfl, .inr rfl⟩
    intro event member
    obtain ⟨announced, -, rfl⟩ := List.mem_map.mp member
    rfl
  · exact ⟨[], _, .idle, fun _ member => (nomatch member), (List.append_nil _).symm, rfl, rfl, rfl,
      .inl rfl⟩

theorem list_kept (state : DiscoveryState) (memory : DiscoveryMemory) (input : EmissionInput) (stored : Bool)
    (sink : DiscoveryAlert → Option Bool) (point : TickPoint) :
    ∃ more memory' point', (∀ event ∈ more, event.id = .random) ∧
      (list options state memory input stored sink point).events = state.events ++ more ∧
      (list options state memory input stored sink point).reads = state.reads ∧
      (list options state memory input stored sink point).cursor = state.cursor ∧
      (list options state memory input stored sink point).process = some ⟨memory', point'⟩ ∧
      (point' = .idle ∨ point' = point) := by
  unfold list
  dsimp only
  split
  · refine ⟨calendarEvents options input memory, _, point, ?_, rfl, rfl, rfl, rfl, .inr rfl⟩
    intro event member
    obtain ⟨data, -, rfl⟩ := List.mem_map.mp member
    rfl
  · exact ⟨[], _, .idle, fun _ member => (nomatch member), (List.append_nil _).symm, rfl, rfl, rfl,
      .inl rfl⟩

/-- The start of a tick leads behind the covered blocks. -/
theorem Covering.begin_ (covering : Covering options state) (memory : DiscoveryMemory)
    (now : Time) (head : Option Int) (rows : List String)
    (again : state.cursor = none → ∀ height ∈ head, ∀ first ∈ state.reads.head?,
      firstStart options height ≤ first.scan.fromBlock) :
    Covering options (begin_ options state memory now head rows) := by
  unfold DiscoveryState.begin_
  cases head with
  | none =>
      refine covering.keep (fun _ => id) covering.own rfl rfl ?_
      rintro _ _ ⟨⟩
      trivial
  | some height =>
      have start : CoveredTo options state (startBlock options state.cursor height) := by
        cases cursor : state.cursor with
        | none =>
            intro first firstRead block above below
            have early := again cursor height rfl first firstRead
            simp only [startBlock] at below
            omega
        | some last => exact covering.stored last cursor
      dsimp only
      split
      · refine covering.keep (fun _ => id) covering.own rfl rfl ?_
        rintro _ _ ⟨⟩
        exact start
      · refine covering.keep (fun _ => id) covering.own rfl rfl ?_
        rintro _ _ ⟨⟩
        refine ⟨start, fun cursor same => ?_⟩
        have same : state.cursor = some cursor := same
        change cursor < startBlock options state.cursor height
        rw [same]
        exact Int.lt_add_one_iff.mpr le_rfl

theorem Covering.step {command : DiscoveryCommand} (covering : Covering options state)
    (allowed : KeepsCoverage options state command)
    (success : step options command state = .ok next) : Covering options next := by
  cases step_effect options success with
  | @other event another =>
      refine covering.keep (fun _ => List.mem_append_left _)
        (covering.own.append (ownIds_other another)) rfl rfl fun memory point running => ?_
      have before := covering.point memory point running
      have kept : ∀ known ∈ state.events, known ∈ state.events ++ [event] :=
        fun _ => List.mem_append_left _
      cases point with
      | idle => trivial
      | pruning => trivial
      | skipping => exact before.mono kept rfl
      | skipped => exact before.mono kept rfl
      | scanning => exact ⟨before.1.mono kept rfl, before.2⟩
      | counting =>
          exact ⟨before.1.mono kept rfl, before.2.1,
            fun mint counted => (before.2.2 mint counted).imp_right (·.mono kept)⟩
      | enriching => exact ⟨before.1.mono kept rfl, before.2⟩
      | announcing => exact fun slice => ⟨(before slice).1.mono kept rfl, (before slice).2⟩
      | listing => exact fun slice => ⟨(before slice).1.mono kept rfl, (before slice).2⟩
      | advancing => exact ⟨before.1.mono kept rfl, before.2⟩
  | crashed =>
      refine covering.keep (fun _ => id) covering.own rfl rfl ?_
      rintro _ _ ⟨⟩
  | booted =>
      refine covering.keep (fun _ => id) covering.own rfl rfl ?_
      rintro _ _ ⟨⟩
      trivial
  | failed =>
      refine covering.keep (fun _ => id) covering.own rfl rfl ?_
      rintro _ _ ⟨⟩
      trivial
  | begun running now head rows => exact covering.begin_ _ now head rows allowed.2
  | @skipWritten memory locals resume running now =>
      have before := covering.point _ _ running
      refine covering.keep (fun _ => List.mem_append_left _)
        (covering.own.append (ownIds_random (by simp))) rfl rfl ?_
      rintro _ _ ⟨⟩
      intro first start block above below
      by_cases earlier : block < locals.fromBlock
      · exact (before first start block above earlier).mono (fun _ => List.mem_append_left _)
          fun _ => id
      · exact .inl ⟨_, List.mem_append_right _ (List.mem_singleton.mpr rfl), _, _, _, rfl,
          not_lt.mp earlier, Int.le_sub_one_iff.mpr below⟩
  | @skipAdvanced memory locals resume running stored cursor moved =>
      have before : CoveredTo options state resume := covering.point _ _ running
      obtain ⟨rfl, -⟩ := advanceCursor_eq_ok moved
      constructor
      · exact covering.own
      · rintro _ ⟨⟩
        rw [Int.sub_add_cancel]
        exact before.mono (fun _ => id) rfl
      · rintro _ _ ⟨⟩
        refine ⟨before.mono (fun _ => id) rfl, ?_⟩
        rintro _ ⟨⟩
        exact Int.sub_one_lt_of_le le_rfl
  | @scanned memory locals running read at_ =>
      have before := covering.point _ _ running
      have asked := (allowed.1 _ running locals rfl).1
      constructor
      · exact covering.own
      · intro cursor same
        refine (covering.stored cursor same).scanned rfl rfl ?_
        change cursor + 1 ≤ read.fromBlock
        rw [asked]
        exact before.2 cursor same
      · rintro _ _ ⟨⟩
        refine ⟨?_, List.mem_append_right _ (List.mem_singleton.mpr rfl), fun _ => .inl⟩
        rw [asked]
        exact before.1.scanned rfl rfl (le_of_eq asked.symm)
  | ended =>
      refine covering.keep (fun _ => id) covering.own rfl rfl ?_
      rintro _ _ ⟨⟩
      trivial
  | idled =>
      refine covering.keep (fun _ => id) covering.own rfl rfl ?_
      rintro _ _ ⟨⟩
      exact fun slice => nomatch slice
  | @counted memory locals scan at_ mint rest running stored =>
      have before := covering.point _ _ running
      have counted := countNext_counted covering.own scan at_ rest stored
        (allowed.2 _ running (locals, mint) rfl)
      refine covering.keep counted.kept (counted.own covering.own) counted.reads counted.cursor ?_
      intro memory' point running'
      obtain ⟨_, idle | ⟨touched, counting, recorded⟩⟩ := counted.point
      · rw [idle] at running'
        cases running'
        trivial
      · rw [counting] at running'
        cases running'
        refine ⟨before.1.mono counted.kept counted.reads, counted.reads ▸ before.2.1, ?_⟩
        intro other member
        rcases before.2.2 other member with left | done
        · rcases List.mem_cons.mp left with rfl | later
          · exact .inr recorded
          · exact .inl later
        · exact .inr (done.mono counted.kept)
  | @countDone memory locals scan at_ running stored =>
      have before := covering.point _ _ running
      refine covering.keep (fun _ => id) covering.own rfl rfl ?_
      rintro _ _ ⟨⟩
      refine ⟨CoveredTo.slice before.2.1 before.1 fun mint member => ?_, rfl⟩
      exact (before.2.2 mint member).resolve_left List.not_mem_nil
  | @enriched memory locals source running now reads point continued =>
      have before := covering.point _ _ running
      refine covering.keep (fun _ => id) covering.own rfl rfl ?_
      rintro _ _ ⟨⟩
      rcases continued with rfl | rfl
      · trivial
      · exact fun _ => ⟨before.1.mono (fun _ => id) rfl, before.2⟩
  | @announced memory locals refresh source slice running now names stored sink =>
      have before := covering.point _ _ running
      obtain ⟨more, memory', point', random, events, reads, cursor, process, continued⟩ :=
        announce_kept state memory (emissionInput now locals refresh source names) stored
          sink (.listing locals refresh source slice)
      have kept : ∀ event ∈ state.events, event ∈ (announce options state memory (emissionInput
          now locals refresh source names) stored sink
          (.listing locals refresh source slice)).events := by
        rw [events]
        exact fun _ => List.mem_append_left _
      refine covering.keep kept ?_ reads cursor fun memory point running' => ?_
      · rw [events]
        exact covering.own.append (ownIds_random random)
      · rw [process] at running'
        cases running'
        rcases continued with rfl | rfl
        · trivial
        · exact fun slice => ⟨(before slice).1.mono kept reads, (before slice).2⟩
  | @listed memory locals refresh source slice running now names stored sink =>
      have before := covering.point _ _ running
      obtain ⟨more, memory', point', random, events, reads, cursor, process, continued⟩ :=
        list_kept state memory (emissionInput now locals refresh source names) stored
          sink (if slice then .advancing locals source else .pruning)
      have kept : ∀ event ∈ state.events, event ∈ (list options state memory (emissionInput
          now locals refresh source names) stored sink
          (if slice then .advancing locals source else .pruning)).events := by
        rw [events]
        exact fun _ => List.mem_append_left _
      refine covering.keep kept ?_ reads cursor fun memory point running' => ?_
      · rw [events]
        exact covering.own.append (ownIds_random random)
      · rw [process] at running'
        cases running'
        rcases continued with rfl | rfl
        · trivial
        · cases slice with
          | false => trivial
          | true => exact ⟨(before rfl).1.mono kept reads, (before rfl).2⟩
  | @advanced memory locals source running stored cursor moved =>
      have before := covering.point _ _ running
      obtain ⟨rfl, -⟩ := advanceCursor_eq_ok moved
      constructor
      · exact covering.own
      · rintro _ ⟨⟩
        exact before.1.mono (fun _ => id) rfl
      · rintro _ _ ⟨⟩
        refine ⟨?_, ?_⟩
        · change CoveredTo options _ locals.fromBlock
          rw [before.2]
          exact before.1.mono (fun _ => id) rfl
        · rintro _ ⟨⟩
          change source < locals.fromBlock
          rw [before.2]
          exact Int.lt_add_one_iff.mpr le_rfl
  | pruned =>
      refine covering.keep (fun _ => id) covering.own rfl rfl ?_
      rintro _ _ ⟨⟩
      trivial

/-! ## The promise of the cursor -/

theorem step_cursor {command : DiscoveryCommand} (success : step options command state = .ok next)
    {last : Int} (stored : state.cursor = some last) :
    ∃ later, next.cursor = some later ∧ last ≤ later := by
  cases step_effect options success with
  | skipAdvanced _ moved =>
      obtain ⟨rfl, forward⟩ := advanceCursor_eq_ok moved
      exact ⟨_, rfl, forward last stored⟩
  | advanced _ moved =>
      obtain ⟨rfl, forward⟩ := advanceCursor_eq_ok moved
      exact ⟨_, rfl, forward last stored⟩
  | begun running now head rows =>
      refine ⟨last, ?_, le_rfl⟩
      unfold begin_
      cases head with
      | none => exact stored
      | some height =>
          dsimp only
          split <;> exact stored
  | @counted memory locals scan at_ mint rest running written =>
      refine ⟨last, ?_, le_rfl⟩
      unfold countNext
      dsimp only
      split
      · exact stored
      split
      · exact stored
      split
      · exact stored
      split <;> exact stored
  | @announced memory locals refresh source slice _ now names written sink =>
      obtain ⟨-, -, -, -, -, -, same, -⟩ := announce_kept state memory
        (emissionInput now locals refresh source names) written sink
        (.listing locals refresh source slice)
      exact ⟨last, same.trans stored, le_rfl⟩
  | @listed memory locals refresh source slice _ now names written sink =>
      obtain ⟨-, -, -, -, -, -, same, -⟩ := list_kept state memory
        (emissionInput now locals refresh source names) written sink
        (if slice then .advancing locals source else .pruning)
      exact ⟨last, same.trans stored, le_rfl⟩
  | _ => exact ⟨last, stored, le_rfl⟩

/-- What the cursor promises: every block from the first scanned one up to it is covered, and
it is never moved back. -/
structure CursorKept (options : DiscoveryOptions) (state : DiscoveryState) : Prop where
  covered : ∀ cursor, state.cursor = some cursor → CoveredTo options state (cursor + 1)
  forward : ∀ guard later, Reaches (step options) guard state later →
    ∀ cursor, state.cursor = some cursor → ∃ moved, later.cursor = some moved ∧ cursor ≤ moved

theorem cursor_forward {guard : DiscoveryState → DiscoveryCommand → Prop}
    {later : DiscoveryState} (run : Reaches (step options) guard state later) {cursor : Int}
    (stored : state.cursor = some cursor) : ∃ moved, later.cursor = some moved ∧ cursor ≤ moved :=
  run.invariant (I := fun later => ∃ moved, later.cursor = some moved ∧ cursor ≤ moved)
    ⟨cursor, stored, le_rfl⟩ fun _ _ _ ⟨_, before, below⟩ _ success =>
      have ⟨moved, after, forward⟩ := step_cursor success before
      ⟨moved, after, below.trans forward⟩

def sampleOptions : DiscoveryOptions := { chainId := .ethereum, budgetPerNftWei := 10000000000000000 }

def sampleAddress : ContractAddress where
  text := "0x1111111111111111111111111111111111111111"
  valid := by decide +kernel

def sampleWallet : String := "0x2222222222222222222222222222222222222222"

/-- A watched wallet pays for its own mint. -/
def sampleMint : ObservedMint where
  nftContract := sampleAddress
  minter := sampleWallet
  payer := sampleWallet
  quantity := 1
  unitPriceWei := 0
  blockNumber := 990
  txHash := some "0x3333333333333333333333333333333333333333333333333333333333333333"
  logIndex := some 0

def sampleScan : ChainScan := { fromBlock := 700, toBlock := 1000, mints := [sampleMint] }

def sampleReads : DiscoveryMemory.EnrichReads where
  hasCode := fun _ => some (some true)
  readDrop := fun _ => some none

/-- A tick from the head 1000, whose writes succeed but for the event of the mint. -/
def sampleTick (now : Time) (stored : Bool) : List DiscoveryCommand :=
  [.begin now (some 1000) [sampleWallet], .scan sampleScan now, .count stored, .count true,
   .enrich now sampleReads, .announce now (fun _ => none) true (fun _ => some true),
   .list now (fun _ => none) true (fun _ => some true), .advance true, .endScans, .prune now]

/-- The write of an event fails, the tick is run again, and the log is passed over. -/
def forgottenState : DiscoveryState :=
  applyAll (step sampleOptions) {} (.boot :: (sampleTick 0 false ++ sampleTick 1 true))

theorem forgottenState_reached :
    Reaches (step sampleOptions) Answers {} forgottenState :=
  (Reaches.refl _).applyAll (by decide +kernel)

/-- No event of the store is a skip or a watched mint. -/
def announcesOnly (event : DiscoveryEvent) : Bool :=
  match event.data with
  | .opportunity _ | .calendarEntry _ => true
  | _ => false

theorem forgottenState_uncovered (block : Int) : ¬ Covered sampleOptions forgottenState block := by
  have announced : ∀ event ∈ forgottenState.events, announcesOnly event = true := by
    decide +kernel
  have due : ∀ read ∈ forgottenState.reads,
      ¬ ∀ mint ∈ read.scan.mints, Recorded sampleOptions [] read.watched mint := by
    decide +kernel
  rintro (⟨event, member, fromBlock, toBlock, head, skip, -⟩ | ⟨read, member, -, -, recorded⟩)
  · have announces := announced event member
    simp [announcesOnly, skip] at announces
  · refine due read member fun mint counted event eventDue => ?_
    obtain ⟨known, stored, -, isMint⟩ := recorded mint counted event eventDue
    have announces := announced known stored
    simp only [DiscoveryEvent.isWatchedMint, announcesOnly] at isMint announces
    cases data : known.data <;> simp [data] at isMint announces

end DiscoveryState

end MintBot
