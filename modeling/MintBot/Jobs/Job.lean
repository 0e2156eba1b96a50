import MintBot.Library.Fallible
import MintBot.Library.Json.Members
import MintBot.Library.Table
import MintBot.Store.Encoding

/-!
# Scheduled jobs and their file

The job store keeps its jobs in one JSON file.  `assertJob` checks a job, `parseFile` checks a
file that was read, and `encode` writes a file and refuses a text that names a secret anywhere.

What `encode` writes for jobs that pass their checks is read back as those jobs.
-/

namespace MintBot

open Json Regex Fallible

/-- A time value that a valid `Date` can have. -/
structure DateValue where
  ms : Int
  range : ms.natAbs ≤ 8640000000000000

/-- `Date.parse`, where none stands for `NaN`, `toISOString`, and the redaction of error
texts. -/
structure JobRules where
  parseDate : Text → Option Int
  toISOString : DateValue → Text
  redactText : Text → Text
  parseDate_toISOString : ∀ value, parseDate (toISOString value) = some value.ms

/-- A JavaScript number, as far as the checks tell numbers apart. -/
inductive JobNumber where
  | integer (value : Int)
  /-- A fraction, an infinity or `NaN`. -/
  | other
  deriving DecidableEq

namespace JobNumber

/-- `2 ** 53`; adding one to it is rounded away. -/
def limit : Int := 9007199254740992

/-- `Number.isSafeInteger` -/
def isSafeInteger : JobNumber → Bool
  | integer value => value.natAbs < limit.natAbs
  | other => false

/-- Add one; numbers of attempts never pass the limit. -/
def increment : JobNumber → JobNumber
  | integer value => integer (min (value + 1) limit)
  | other => other

def isNegative : JobNumber → Bool
  | integer value => value < 0
  | other => false

end JobNumber

/-- A scheduled job; nothing but `assertJob` keeps its mode and its state to the listed ones. -/
structure ScheduledJob where
  id : Text
  runId : Text
  wallets : List Text
  executeAt : Text
  mode : Text
  state : Text
  attempts : JobNumber
  createdAt : Text
  updatedAt : Text
  lastError : Option Text
  completedAt : Option Text
  deriving DecidableEq

namespace ScheduledJob

def modes : List Text :=
  ["dry-run", "live"].map ascii

def states : List Text :=
  ["scheduled", "running", "succeeded", "failed", "blocked", "cancelled"].map ascii

end ScheduledJob

/-- `/[\r\n]/` -/
def hasLineBreak (text : Text) : Bool :=
  text.any fun c => c = 0x0d || c = 0x0a

section Checks

variable (rules : JobRules)

def assertJob (job : ScheduledJob) : Except Error Unit := do
  refuse (job.id = [] ∨ job.runId = [] ∨ job.wallets = [] ∨
    job.wallets.any (fun wallet => wallet = [] || hasLineBreak wallet)) "SCHEDULED_JOB_IDENTITY_INVALID"
  refuse (rules.parseDate job.executeAt = none ∨ rules.parseDate job.createdAt = none ∨
    rules.parseDate job.updatedAt = none) "SCHEDULED_JOB_TIME_INVALID"
  refuse (job.mode ∉ ScheduledJob.modes ∨ job.state ∉ ScheduledJob.states ∨
    job.attempts.isSafeInteger = false ∨ job.attempts.isNegative) "SCHEDULED_JOB_STATE_INVALID"
  refuse (job.lastError.any hasLineBreak) "SCHEDULED_JOB_ERROR_INVALID"

end Checks

/-! ## The file -/

namespace JobFile

def stringValue (text : Text) : Document Scalar := .leaf (.string text)

def numberValue (value : Int) : Document Scalar := .leaf (.number (.ofInteger value))

/-- `JSON.stringify` of a number; the ones it writes as null are no attempts. -/
def attemptsValue : JobNumber → Document Scalar
  | .integer value => numberValue value
  | .other => .leaf .null

def jobMembers (job : ScheduledJob) : List (Text × Document Scalar) :=
  [(ascii "id", stringValue job.id), (ascii "runId", stringValue job.runId),
    (ascii "wallets", .array (job.wallets.map stringValue)),
    (ascii "executeAt", stringValue job.executeAt), (ascii "mode", stringValue job.mode),
    (ascii "state", stringValue job.state), (ascii "attempts", attemptsValue job.attempts),
    (ascii "createdAt", stringValue job.createdAt),
    (ascii "updatedAt", stringValue job.updatedAt)] ++
    optionalMember "lastError" (job.lastError.map stringValue) ++
    optionalMember "completedAt" (job.completedAt.map stringValue)

def document (jobs : List ScheduledJob) : Document Scalar :=
  .object [(ascii "version", numberValue 1),
    (ascii "jobs", .array (jobs.map fun job => .object (jobMembers job)))]

/-- The listed names of secrets, wherever they stand. -/
def secretKey : Regex CodeUnit :=
  any [all [word "private", wordBreak, word "key"], word "mnemonic",
    all [word "seed", optional (all [wordBreak, word "phrase"])], word "passphrase",
    word "password", word "secret", word "token", word "authorization",
    all [word "api", wordBreak, word "key"],
    all [word "raw", any [word "tx", word "_transaction"]], word "calldata", word "payload"]

/-- The text of the file without its last line break. -/
def output (jobs : List ScheduledJob) : Text :=
  (document jobs).spaced .indented 0

def encode (jobs : List ScheduledJob) : Except Error Text := do
  refuse (secretKey.search (output jobs)) "SCHEDULED_JOB_SECRET_LIKE_VALUE"
  pure (output jobs ++ [0x0a])

def readText : Document Scalar → Option Text
  | .leaf (.string text) => some text
  | _ => none

def readWallets : Document Scalar → Option (List Text)
  | .array items => items.mapM readText
  | _ => none

def readAttempts : Document Scalar → Option JobNumber
  | .leaf (.number value) =>
      some (match value.integer? with
        | some value => .integer value
        | none => .other)
  | _ => none

/-- An optional member that has its type. -/
def readOptional (value : Option (Document Scalar)) : Option (Option Text) :=
  match value with
  | none => some none
  | some value => (readText value).map some

/-- `item as ScheduledJob`, for the members that have the types of a job. -/
def readJob (item : Document Scalar) : Option ScheduledJob := do
  let members := membersOf item
  pure
    { id := ← (property "id" members).bind readText
      runId := ← (property "runId" members).bind readText
      wallets := ← (property "wallets" members).bind readWallets
      executeAt := ← (property "executeAt" members).bind readText
      mode := ← (property "mode" members).bind readText
      state := ← (property "state" members).bind readText
      attempts := ← (property "attempts" members).bind readAttempts
      createdAt := ← (property "createdAt" members).bind readText
      updatedAt := ← (property "updatedAt" members).bind readText
      lastError := ← readOptional (property "lastError" members)
      completedAt := ← readOptional (property "completedAt" members) }

/-- A file with a job whose members have other types is refused here. -/
def parseJob (rules : JobRules) (item : Document Scalar) : Except Error ScheduledJob := do
  let job ← require (readJob item) "SCHEDULED_JOB_FILE_INVALID"
  assertJob rules job
  pure job

/-- The jobs of a file of version one. -/
def jobItems (value : Document Scalar) : Option (List (Document Scalar)) :=
  match property "version" (membersOf value), property "jobs" (membersOf value) with
  | some (.leaf (.number version)), some (.array items) =>
      if version.integer? = some 1 then some items else none
  | _, _ => none

def parseFile (rules : JobRules) (value : Document Scalar) :
    Except Error (List ScheduledJob) := do
  let items ← require (jobItems value) "SCHEDULED_JOB_FILE_INVALID"
  let jobs ← items.mapM (parseJob rules)
  refuse (¬ ((jobs.map ScheduledJob.id).Nodup ∧ (jobs.map ScheduledJob.runId).Nodup))
    "SCHEDULED_JOB_DUPLICATE"
  pure jobs

/-- `parseFile` of the parsed content of a file. -/
def load (rules : JobRules) (content : Text) : Except Error (List ScheduledJob) :=
  match parse content with
  | none => .error "SyntaxError"
  | some value => parseFile rules value

end JobFile

/-! ## Round trip -/

/-- Jobs that a file can hold. -/
structure Stored (rules : JobRules) (jobs : List ScheduledJob) : Prop where
  checked : ∀ job ∈ jobs, assertJob rules job = .ok ()
  ids : (jobs.map ScheduledJob.id).Nodup
  runIds : (jobs.map ScheduledJob.runId).Nodup

namespace JobFile

variable {rules : JobRules} {jobs : List ScheduledJob}

theorem readWallets_map (wallets : List Text) :
    readWallets (.array (wallets.map stringValue)) = some wallets := by
  induction wallets with
  | nil => rfl
  | cons wallet wallets inductionHypothesis =>
      change (wallets.map stringValue).mapM readText = some wallets at inductionHypothesis
      change ((wallet :: wallets).map stringValue).mapM readText = some (wallet :: wallets)
      rw [List.map_cons, List.mapM_cons, inductionHypothesis]
      rfl

@[simp]
theorem readText_stringValue (text : Text) : readText (stringValue text) = some text :=
  rfl

@[simp]
theorem readAttempts_integer (value : Int) :
    readAttempts (attemptsValue (.integer value)) = some (.integer value) := by
  simp [attemptsValue, numberValue, readAttempts]

@[simp]
theorem readOptional_stringValue (text : Option Text) :
    readOptional (text.map stringValue) = some text := by
  cases text <;> rfl

/-- A job with a whole number of attempts is read back. -/
theorem readJob_members {job : ScheduledJob} (whole : job.attempts.isSafeInteger = true) :
    readJob (.object (jobMembers job)) = some job := by
  have lastError : property "lastError" (jobMembers job) = job.lastError.map stringValue := by
    cases h : job.lastError <;> cases g : job.completedAt <;> simp only [jobMembers, h, g] <;> rfl
  have completedAt : property "completedAt" (jobMembers job) =
      job.completedAt.map stringValue := by
    cases h : job.lastError <;> cases g : job.completedAt <;> simp only [jobMembers, h, g] <;> rfl
  obtain ⟨attempts, counted⟩ : ∃ value, job.attempts = .integer value := by
    cases counted : job.attempts with
    | integer value => exact ⟨value, rfl⟩
    | other => simp [counted, JobNumber.isSafeInteger] at whole
  simp only [readJob, membersOf, lastError, completedAt, readOptional_stringValue,
    show property "id" (jobMembers job) = some (stringValue job.id) from rfl,
    show property "runId" (jobMembers job) = some (stringValue job.runId) from rfl,
    show property "wallets" (jobMembers job) = some (.array (job.wallets.map stringValue)) from rfl,
    show property "executeAt" (jobMembers job) = some (stringValue job.executeAt) from rfl,
    show property "mode" (jobMembers job) = some (stringValue job.mode) from rfl,
    show property "state" (jobMembers job) = some (stringValue job.state) from rfl,
    show property "attempts" (jobMembers job) = some (attemptsValue job.attempts) from rfl,
    show property "createdAt" (jobMembers job) = some (stringValue job.createdAt) from rfl,
    show property "updatedAt" (jobMembers job) = some (stringValue job.updatedAt) from rfl,
    Option.bind_some, readText_stringValue, readWallets_map, counted, readAttempts_integer]
  rw [← counted]
  rfl

end JobFile

namespace JobFile

/-- The names of the members of a job and of a file. -/
def jobNames : List Text :=
  ["id", "runId", "wallets", "executeAt", "mode", "state", "attempts", "createdAt", "updatedAt",
    "lastError", "completedAt"].map ascii

def fileNames : List Text :=
  ["version", "jobs"].map ascii

theorem ownMembers_job (job : ScheduledJob) : OwnMembers (jobMembers job) := by
  refine @ownMembers_of_sublist _ _ jobNames ?_ (by decide) (by decide)
  simp only [jobMembers, List.map_append]
  exact (List.Sublist.append (List.Sublist.refl _) (optionalMember_sublist _ _)).append
    (optionalMember_sublist _ _)

theorem proper_stringValue (text : Text) : (stringValue text).Proper :=
  .leaf _

theorem proper_job (job : ScheduledJob) :
    (Document.object (jobMembers job)).Proper := by
  have optional (name : String) (text : Option Text) :
      ∀ member ∈ optionalMember name (text.map stringValue), member.2.Proper := by
    intro member listed
    obtain ⟨text, -, same⟩ := Option.map_eq_some_iff.1
      (Option.mem_toList.1 (mem_optionalMember listed))
    rw [← same]
    exact proper_stringValue text
  have attempts : (attemptsValue job.attempts).Proper := by
    cases job.attempts <;> exact .leaf _
  have wallets : (Document.array (job.wallets.map stringValue)).Proper :=
    .array _ (List.forall_mem_map.2 fun wallet _ => proper_stringValue wallet)
  refine .object _ (ownMembers_job job) ?_
  simp only [jobMembers, List.forall_mem_append, List.forall_mem_cons]
  refine ⟨⟨?_, optional _ _⟩, optional _ _⟩
  exact ⟨proper_stringValue _, proper_stringValue _, wallets, proper_stringValue _,
    proper_stringValue _, proper_stringValue _, attempts, proper_stringValue _,
    proper_stringValue _, fun _ listed => nomatch listed⟩

theorem proper_document (jobs : List ScheduledJob) : (document jobs).Proper := by
  have own : OwnMembers [(ascii "version", numberValue 1),
      (ascii "jobs", Document.array (jobs.map fun job => .object (jobMembers job)))] :=
    @ownMembers_of_sublist _ _ fileNames (List.Sublist.refl _) (by decide) (by decide)
  refine .object _ own ?_
  simp only [List.forall_mem_cons]
  refine ⟨.leaf _, .array _ ?_, fun _ listed => nomatch listed⟩
  exact List.forall_mem_map.2 fun job _ => proper_job job

theorem assertJob_eq_ok {job : ScheduledJob} {done : Unit} :
    assertJob rules job = .ok done ↔
      ¬ (job.id = [] ∨ job.runId = [] ∨ job.wallets = [] ∨
        job.wallets.any (fun wallet => wallet = [] || hasLineBreak wallet)) ∧
      ¬ (rules.parseDate job.executeAt = none ∨ rules.parseDate job.createdAt = none ∨
        rules.parseDate job.updatedAt = none) ∧
      ¬ (job.mode ∉ ScheduledJob.modes ∨ job.state ∉ ScheduledJob.states ∨
        job.attempts.isSafeInteger = false ∨ job.attempts.isNegative) ∧
      ¬ job.lastError.any hasLineBreak := by
  simp only [assertJob, bind_eq_ok, refuse_eq_ok, exists_const]

theorem encode_eq_ok {text : Text} :
    encode jobs = .ok text ↔ secretKey.search (output jobs) = false ∧
      text = output jobs ++ [0x0a] := by
  simp only [encode, bind_eq_ok, refuse_eq_ok, pure_eq_ok, exists_const, Bool.not_eq_true]
  exact and_congr_right fun _ => eq_comm

theorem jobItems_document (jobs : List ScheduledJob) :
    jobItems (document jobs) = some (jobs.map fun job => .object (jobMembers job)) := by
  change (if (Number.ofInteger 1).integer? = some 1 then some _ else none) = _
  rw [Number.integer?_ofInteger, if_pos rfl]

/-- What was written is read back, when the jobs pass their checks. -/
theorem load_encode {text : Text} (stored : Stored rules jobs)
    (encoded : encode jobs = .ok text) : load rules text = .ok jobs := by
  obtain ⟨-, rfl⟩ := encode_eq_ok.1 encoded
  have read : parse (output jobs ++ [0x0a]) = some (document jobs) :=
    parse_spaced .indented (proper_document jobs) fun c member => by
      rw [List.mem_singleton.1 member]
      decide
  have items : (jobs.map fun job => Document.object (jobMembers job)).mapM (parseJob rules) =
      .ok jobs := by
    rw [mapM_eq_ok, List.forall₂_map_left_iff, List.forall₂_same]
    intro job listed
    have checked := stored.checked job listed
    have safe : job.attempts.isSafeInteger = true := by
      obtain ⟨-, -, state, -⟩ := assertJob_eq_ok.1 checked
      simp only [not_or, Bool.not_eq_false] at state
      exact state.2.2.1
    simp only [parseJob, readJob_members safe, bind_eq_ok, require_eq_ok, pure_eq_ok]
    exact ⟨job, rfl, (), checked, rfl⟩
  simp only [load, read, parseFile, jobItems_document, bind_eq_ok, require_eq_ok, refuse_eq_ok,
    pure_eq_ok, exists_const, not_not]
  exact ⟨_, rfl, jobs, items, ⟨stored.ids, stored.runIds⟩, rfl⟩

/-- A file that is read holds jobs that pass their checks. -/
theorem stored_of_load {text : Text} (loaded : load rules text = .ok jobs) :
    Stored rules jobs := by
  unfold load at loaded
  split at loaded
  · exact nomatch loaded
  simp only [parseFile, bind_eq_ok, require_eq_ok, refuse_eq_ok, pure_eq_ok, exists_const,
    not_not] at loaded
  obtain ⟨items, -, read, parsed, ⟨ids, runIds⟩, rfl⟩ := loaded
  refine ⟨fun job listed => ?_, ids, runIds⟩
  rw [mapM_eq_ok] at parsed
  obtain ⟨item, -, same⟩ := Table.forall₂_mem_right parsed listed
  simp only [parseJob, bind_eq_ok, require_eq_ok, pure_eq_ok] at same
  obtain ⟨_, -, _, checked, rfl⟩ := same
  exact checked

end JobFile

end MintBot
