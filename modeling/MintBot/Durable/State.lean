import MintBot.Library.Json.Members
import MintBot.Store.Encoding

/-!
# The state file

The file store keeps the whole backend state in one JSON file.  A bigint is
written as its digits with an `n` behind them, and every string of that form is
read back as a bigint.  A file that is read is laid over the empty state, field by
field.
-/

namespace MintBot

open Json Regex

/-- A value of the state, as JavaScript holds it. -/
abbrev StateValue := Document CanonicalLeaf

/-- The dependencies of the runtime status. -/
structure DurableDependencies where
  engine : StateValue
  chain : StateValue
  backup : StateValue
  notifications : StateValue

structure DurableRuntime where
  startupState : StateValue
  blockingReasons : StateValue
  dependencies : DurableDependencies
  reconciliationCompletedAt : Option StateValue
  operational : Option StateValue
  chainTimeOffsetMs : Option StateValue
  chainTimeObservedAt : Option StateValue

/-- The backend state, whose fields no branch of the store looks into. -/
structure DurableState where
  campaigns : StateValue
  runs : StateValue
  intents : StateValue
  attempts : StateValue
  receipts : StateValue
  reconciliations : StateValue
  reservations : StateValue
  events : StateValue
  notificationOutbox : StateValue
  chainEvidence : StateValue
  simulations : StateValue
  readiness : StateValue
  jobs : StateValue
  runtime : DurableRuntime
  killed : StateValue
  killReason : Option StateValue

namespace StateValue

def empty : StateValue := .array []

def boolean (value : Bool) : StateValue := .leaf (.scalar (.boolean value))

def string (text : String) : StateValue := .leaf (.scalar (.string (ascii text)))

/-- The number one. -/
def one : StateValue :=
  .leaf (.scalar (.number .one))

end StateValue

/-- `emptyState().runtime`. -/
def emptyRuntime : DurableRuntime where
  startupState := StateValue.string "Cold"
  blockingReasons := .array [StateValue.string "RECONCILIATION_REQUIRED"]
  dependencies :=
    { engine := StateValue.boolean false
      chain := StateValue.boolean false
      backup := StateValue.boolean false
      notifications := StateValue.boolean false }
  reconciliationCompletedAt := none
  operational := none
  chainTimeOffsetMs := none
  chainTimeObservedAt := none

def emptyState : DurableState where
  campaigns := StateValue.empty
  runs := StateValue.empty
  intents := StateValue.empty
  attempts := StateValue.empty
  receipts := StateValue.empty
  reconciliations := StateValue.empty
  reservations := StateValue.empty
  events := StateValue.empty
  notificationOutbox := StateValue.empty
  chainEvidence := StateValue.empty
  simulations := StateValue.empty
  readiness := StateValue.empty
  jobs := StateValue.empty
  runtime := emptyRuntime
  killed := StateValue.boolean false
  killReason := none

/-! ## Writing -/

def DurableDependencies.members (dependencies : DurableDependencies) :
    List (Text × StateValue) :=
  [(ascii "engine", dependencies.engine), (ascii "chain", dependencies.chain),
    (ascii "backup", dependencies.backup), (ascii "notifications", dependencies.notifications)]

def DurableRuntime.members (runtime : DurableRuntime) : List (Text × StateValue) :=
  [(ascii "startupState", runtime.startupState),
    (ascii "blockingReasons", runtime.blockingReasons),
    (ascii "dependencies", .object runtime.dependencies.members)] ++
    optionalMember "reconciliationCompletedAt" runtime.reconciliationCompletedAt ++
    optionalMember "operational" runtime.operational ++
    optionalMember "chainTimeOffsetMs" runtime.chainTimeOffsetMs ++
    optionalMember "chainTimeObservedAt" runtime.chainTimeObservedAt

def DurableState.members (state : DurableState) : List (Text × StateValue) :=
  [(ascii "schemaVersion", StateValue.one), (ascii "campaigns", state.campaigns),
    (ascii "runs", state.runs), (ascii "intents", state.intents),
    (ascii "attempts", state.attempts), (ascii "receipts", state.receipts),
    (ascii "reconciliations", state.reconciliations),
    (ascii "reservations", state.reservations), (ascii "events", state.events),
    (ascii "notificationOutbox", state.notificationOutbox),
    (ascii "chainEvidence", state.chainEvidence), (ascii "simulations", state.simulations),
    (ascii "readiness", state.readiness), (ascii "jobs", state.jobs),
    (ascii "runtime", .object state.runtime.members), (ascii "killed", state.killed)] ++
    optionalMember "killReason" state.killReason

/-- The text that `commit` writes. -/
def serialize (state : DurableState) : Text :=
  ((Document.object state.members : StateValue).map replacer).text

/-! ## Reading -/

/-- `/^\d+n$/` -/
def storedBigint : Regex CodeUnit :=
  all [plus digit, unit 0x6e]

/-- The reviver of `open`. -/
def reviveStored : Scalar → CanonicalLeaf
  | .string text =>
      if storedBigint.accepts text then .bigint (readBigint text.dropLast)
      else .scalar (.string text)
  | value => .scalar value

/-- `??`: neither undefined nor null. -/
def orElse (value : Option StateValue) (default : StateValue) : StateValue :=
  match value with
  | some (.leaf (.scalar .null)) | none => default
  | some value => value

/-- A value counts as true in a condition. -/
def isTruthy : StateValue → Bool
  | .leaf (.scalar .null) => false
  | .leaf (.scalar (.boolean value)) => value
  | .leaf (.scalar (.number value)) => !value.digits.isEmpty
  | .leaf (.scalar (.string text)) => !text.isEmpty
  | .leaf (.bigint value) => value != 0
  | .array _ | .object _ => true

/-- The runtime of a file, laid over the empty one. -/
def readRuntime (runtime : Option StateValue) : DurableRuntime :=
  match runtime.filter isTruthy with
  | none => emptyRuntime
  | some loaded =>
      let members := membersOf loaded
      let dependencies := ((property "dependencies" members).map membersOf).getD []
      { startupState := (property "startupState" members).getD emptyRuntime.startupState
        blockingReasons := (property "blockingReasons" members).getD emptyRuntime.blockingReasons
        dependencies :=
          { engine := (property "engine" dependencies).getD (StateValue.boolean false)
            chain := (property "chain" dependencies).getD (StateValue.boolean false)
            backup := (property "backup" dependencies).getD (StateValue.boolean false)
            notifications := (property "notifications" dependencies).getD (StateValue.boolean false) }
        reconciliationCompletedAt := property "reconciliationCompletedAt" members
        operational := property "operational" members
        chainTimeOffsetMs := property "chainTimeOffsetMs" members
        chainTimeObservedAt := property "chainTimeObservedAt" members }

/-- The number one, or undefined. -/
def isSupportedSchema (version : Option StateValue) : Bool :=
  match version with
  | none => true
  | some (.leaf (.scalar (.number value))) =>
      !value.negative && value.digits == [1] && value.point == 1
  | some _ => false

/-- The state of a file's members, laid over the empty one. -/
def readMembers (members : List (Text × StateValue)) : Except Error DurableState :=
  if isSupportedSchema (property "schemaVersion" members) then
    .ok
      { campaigns := (property "campaigns" members).getD StateValue.empty
        runs := (property "runs" members).getD StateValue.empty
        intents := orElse (property "intents" members) StateValue.empty
        attempts := orElse (property "attempts" members) StateValue.empty
        receipts := orElse (property "receipts" members) StateValue.empty
        reconciliations := orElse (property "reconciliations" members) StateValue.empty
        reservations := (property "reservations" members).getD StateValue.empty
        events := (property "events" members).getD StateValue.empty
        notificationOutbox := orElse (property "notificationOutbox" members) StateValue.empty
        chainEvidence := orElse (property "chainEvidence" members) StateValue.empty
        simulations := orElse (property "simulations" members) StateValue.empty
        readiness := orElse (property "readiness" members) StateValue.empty
        jobs := orElse (property "jobs" members) StateValue.empty
        runtime := readRuntime (property "runtime" members)
        killed := (property "killed" members).getD (StateValue.boolean false)
        killReason := property "killReason" members }
  else .error "UNSUPPORTED_STORE_SCHEMA"

/-- `open`: the state after a file was read; without a file the state is empty. -/
def openFile (file : Option Text) : Except Error DurableState :=
  match file with
  | none => .ok emptyState
  | some text =>
      match parse text with
      | none => .error "SyntaxError"
      | some loaded =>
          match loaded.map reviveStored with
          | .leaf (.scalar .null) => .error "TypeError"
          | value => readMembers (membersOf value)

/-! ## Round trip -/

/-- A leaf that is read back as it was written. -/
def CanonicalLeaf.Storable : CanonicalLeaf → Prop
  | .scalar (.string text) => storedBigint.accepts text = false
  | .scalar _ => True
  | .bigint value => 0 ≤ value

theorem mem_storedBigint {text : Text} :
    text ∈ storedBigint.language ↔
      ∃ digits : List (Fin 10), digits ≠ [] ∧ text = digits.map digitUnit ++ [0x6e] := by
  simp only [storedBigint, mem_all_cons, mem_plus_digit, mem_unit]
  constructor
  · rintro ⟨_, ⟨digits, nonempty, rfl⟩, _, ⟨_, rfl, _, last, rfl⟩, rfl⟩
    obtain rfl := (mem_empty _).1 last
    exact ⟨digits, nonempty, rfl⟩
  · rintro ⟨digits, nonempty, rfl⟩
    exact ⟨_, ⟨digits, nonempty, rfl⟩, _, ⟨_, rfl, [], (mem_empty _).2 rfl, rfl⟩, rfl⟩

theorem reviveStored_replacer {value : CanonicalLeaf} (storable : value.Storable) :
    reviveStored (replacer value) = value := by
  match value with
  | .scalar (.string text) =>
      have plain : storedBigint.accepts text = false := storable
      rw [replacer, reviveStored, plain]
      rfl
  | .scalar .null | .scalar (.boolean _) | .scalar (.number _) => rfl
  | .bigint value =>
      have nonneg : 0 ≤ value := storable
      have unsigned : bigintDigits value = (naturalDigits value.natAbs).map digitUnit := by
        rw [bigintDigits, decide_eq_false (not_lt.mpr nonneg)]
        rfl
      have accepted : storedBigint.accepts (bigintDigits value ++ [0x6e]) = true := by
        rw [accepts_iff, mem_storedBigint, unsigned]
        exact ⟨_, naturalDigits_ne_nil value.natAbs, rfl⟩
      rw [replacer, reviveStored, accepted, if_pos rfl, List.dropLast_concat,
        readBigint_bigintDigits]

/-- What was written is read back, when its leaves are storable. -/
theorem revive_text {value : StateValue} (proper : value.Proper)
    (storable : ∀ leaf ∈ value.leaves, leaf.Storable) :
    (parse (value.map replacer).text).map (Document.map reviveStored) = some value := by
  rw [parse_text (proper.map replacer), Option.map_some, Document.map_map]
  congr 1
  refine (value.map_congr fun leaf member => ?_).trans value.map_id
  exact reviveStored_replacer (storable leaf member)

/-! ### The members of a state -/

/-- The fields of the runtime status, its dependencies apart. -/
def DurableRuntime.values (runtime : DurableRuntime) : List StateValue :=
  [runtime.startupState, runtime.blockingReasons] ++
    runtime.reconciliationCompletedAt.toList ++ runtime.operational.toList ++
    runtime.chainTimeOffsetMs.toList ++ runtime.chainTimeObservedAt.toList

def DurableDependencies.values (dependencies : DurableDependencies) : List StateValue :=
  [dependencies.engine, dependencies.chain, dependencies.backup, dependencies.notifications]

/-- The fields that hold arrays. -/
def DurableState.lists (state : DurableState) : List StateValue :=
  [state.campaigns, state.runs, state.intents, state.attempts, state.receipts,
    state.reconciliations, state.reservations, state.events, state.notificationOutbox,
    state.chainEvidence, state.simulations, state.readiness, state.jobs]

def DurableState.values (state : DurableState) : List StateValue :=
  state.lists ++ state.runtime.values ++ state.runtime.dependencies.values ++
    state.killed :: state.killReason.toList

/-- A backend state that its file can carry: its arrays are arrays, no bigint of it is
negative and no string of it has the form of a written bigint. -/
structure DurableState.Storable (state : DurableState) : Prop where
  arrays : ∀ value ∈ state.lists, ∃ items, value = .array items
  proper : ∀ value ∈ state.values, value.Proper
  leaves : ∀ value ∈ state.values, ∀ leaf ∈ value.leaves, leaf.Storable

/-- What holds of the fields of a runtime status holds of its members. -/
theorem DurableRuntime.forall_members {runtime : DurableRuntime} {P : StateValue → Prop}
    (fields : ∀ value ∈ runtime.values, P value)
    (dependencies : P (.object runtime.dependencies.members)) :
    ∀ member ∈ runtime.members, P member.2 := by
  intro member listed
  simp only [members, List.mem_append, List.mem_cons, List.not_mem_nil, or_false] at listed
  rcases listed with ((((rfl | rfl | rfl) | optional) | optional) | optional) | optional
  · exact fields _ (by simp [values])
  · exact fields _ (by simp [values])
  · exact dependencies
  all_goals
    have known := mem_optionalMember optional
    refine fields _ ?_
    simp only [values, List.mem_append]
    tauto

/-- What holds of the fields of a state holds of its members. -/
theorem DurableState.forall_members {state : DurableState} {P : StateValue → Prop}
    (version : P StateValue.one) (fields : ∀ value ∈ state.values, P value)
    (runtime : P (.object state.runtime.members)) :
    ∀ member ∈ state.members, P member.2 := by
  intro member listed
  simp only [members, List.mem_append, List.mem_cons, List.not_mem_nil, or_false] at listed
  rcases listed with (rfl | listed) | optional
  · exact version
  · have known : member.2 ∈ state.lists ∨ member.2 = .object state.runtime.members ∨
        member.2 = state.killed := by
      simp only [lists, List.mem_cons, List.not_mem_nil, or_false]
      rcases listed with rfl | rfl | rfl | rfl | rfl | rfl | rfl | rfl | rfl | rfl | rfl | rfl |
        rfl | rfl | rfl <;> tauto
    rcases known with list | same | same
    · exact fields _ (by simp only [values, List.mem_append]; tauto)
    · rw [same]
      exact runtime
    · exact fields _ (by simp [values, same])
  · have known := mem_optionalMember optional
    exact fields _ (by simp only [values, List.mem_append, List.mem_cons]; tauto)

/-- A document that the file can carry. -/
def Carried (value : StateValue) : Prop :=
  value.Proper ∧ ∀ leaf ∈ value.leaves, leaf.Storable

theorem Carried.object {members : List (Text × StateValue)} (own : OwnMembers members)
    (carried : ∀ member ∈ members, Carried member.2) : Carried (.object members) := by
  refine ⟨.object members own fun member listed => (carried member listed).1, ?_⟩
  intro leaf inside
  obtain ⟨member, listed, known⟩ := Document.mem_leaves_object.1 inside
  exact (carried member listed).2 leaf known

/-- The names of the members of a state, of its runtime and of the dependencies. -/
def memberNames : List Text :=
  ["schemaVersion", "campaigns", "runs", "intents", "attempts", "receipts", "reconciliations",
    "reservations", "events", "notificationOutbox", "chainEvidence", "simulations", "readiness",
    "jobs", "runtime", "killed", "killReason"].map ascii

def runtimeNames : List Text :=
  ["startupState", "blockingReasons", "dependencies", "reconciliationCompletedAt", "operational",
    "chainTimeOffsetMs", "chainTimeObservedAt"].map ascii

def dependencyNames : List Text :=
  ["engine", "chain", "backup", "notifications"].map ascii

theorem DurableDependencies.own (dependencies : DurableDependencies) :
    OwnMembers dependencies.members :=
  @ownMembers_of_sublist _ _ dependencyNames (List.Sublist.refl _) (by decide) (by decide)

theorem DurableRuntime.own (runtime : DurableRuntime) : OwnMembers runtime.members := by
  refine @ownMembers_of_sublist _ _ runtimeNames ?_ (by decide) (by decide)
  simp only [members, List.map_append]
  exact (((List.Sublist.append (List.Sublist.refl _) (optionalMember_sublist _ _)).append
    (optionalMember_sublist _ _)).append (optionalMember_sublist _ _)).append
    (optionalMember_sublist _ _)

theorem DurableState.own (state : DurableState) : OwnMembers state.members := by
  refine @ownMembers_of_sublist _ _ memberNames ?_ (by decide) (by decide)
  simp only [members, List.map_append]
  exact List.Sublist.append (List.Sublist.refl _) (optionalMember_sublist _ _)

/-- The file carries the object of a storable state. -/
theorem DurableState.Storable.carried {state : DurableState} (storable : state.Storable) :
    Carried (.object state.members) := by
  have fields : ∀ value ∈ state.values, Carried value := fun value listed =>
    ⟨storable.proper value listed, storable.leaves value listed⟩
  have one : Carried StateValue.one := by
    refine ⟨.leaf _, fun leaf inside => ?_⟩
    obtain rfl := List.mem_singleton.1 inside
    exact trivial
  have dependencies : Carried (.object state.runtime.dependencies.members) := by
    refine .object state.runtime.dependencies.own fun member listed => fields member.2 ?_
    simp only [DurableDependencies.members, List.mem_cons, List.not_mem_nil, or_false] at listed
    rcases listed with rfl | rfl | rfl | rfl <;> simp [values, DurableDependencies.values]
  have runtime : Carried (.object state.runtime.members) := by
    refine .object state.runtime.own (DurableRuntime.forall_members (fun value listed => ?_)
      dependencies)
    exact fields value (by simp only [values, List.mem_append]; tauto)
  exact .object state.own (forall_members one fields runtime)

/-! ### The members read back -/

theorem orElse_array {value : StateValue} (array : ∃ items, value = .array items)
    (default : StateValue) : orElse (some value) default = value := by
  obtain ⟨items, rfl⟩ := array
  rfl

theorem readRuntime_members (runtime : DurableRuntime) :
    readRuntime (some (.object runtime.members)) = runtime := by
  obtain ⟨_, _, _, _ | _, _ | _, _ | _, _ | _⟩ := runtime <;> rfl

/-- The members of a state are read as that state. -/
theorem readMembers_members {state : DurableState} (storable : state.Storable) :
    readMembers state.members = .ok state := by
  have array {name : String} {value : StateValue} (listed : value ∈ state.lists)
      (known : property name state.members = some value) :
      orElse (property name state.members) StateValue.empty = value := by
    rw [known]
    exact orElse_array (storable.arrays value listed) _
  have runtime : readRuntime (property "runtime" state.members) = state.runtime :=
    readRuntime_members state.runtime
  have killReason : property "killReason" state.members = state.killReason := by
    cases h : state.killReason <;> simp only [DurableState.members, h] <;> rfl
  have supported : isSupportedSchema (property "schemaVersion" state.members) = true := rfl
  rw [readMembers, if_pos supported, killReason, runtime,
    @array "intents" state.intents (by simp [DurableState.lists]) rfl,
    @array "attempts" state.attempts (by simp [DurableState.lists]) rfl,
    @array "receipts" state.receipts (by simp [DurableState.lists]) rfl,
    @array "reconciliations" state.reconciliations (by simp [DurableState.lists]) rfl,
    @array "notificationOutbox" state.notificationOutbox (by simp [DurableState.lists]) rfl,
    @array "chainEvidence" state.chainEvidence (by simp [DurableState.lists]) rfl,
    @array "simulations" state.simulations (by simp [DurableState.lists]) rfl,
    @array "readiness" state.readiness (by simp [DurableState.lists]) rfl,
    @array "jobs" state.jobs (by simp [DurableState.lists]) rfl]
  rfl

/-- A state that was written is read back, when the file can carry it. -/
theorem openFile_serialize {state : DurableState} (storable : state.Storable) :
    openFile (some (serialize state)) = .ok state := by
  obtain ⟨proper, leaves⟩ := storable.carried
  have revived := revive_text proper leaves
  cases parsed : parse (serialize state) with
  | none =>
    rw [serialize] at parsed
    rw [parsed] at revived
    exact nomatch revived
  | some loaded =>
    rw [← serialize, parsed, Option.map_some, Option.some_inj] at revived
    simp only [openFile, parsed, revived, membersOf]
    exact readMembers_members storable

end MintBot
