import MintBot.Engine.PreSign
import MintBot.Engine.ReplacementLadder

/-!
# Live signing

The steps of a wallet's live task that may sign: `reserveThenSign` for the first transaction
and, when the chain replaces stuck transactions, the gates and the preparations of its ladder.
Every transaction that reaches the signer stands directly behind a gate that found the
wallet's reservation still held, no kill, and an amount that covers the transaction; behind a
gate that refuses, nothing more happens in its step.
-/

namespace MintBot

open Fallible

/-- What a step does, as far as signing goes. -/
inductive SigningEvent
  | gate (view : GateView) (answer : Except Error Reservation)
  | passed (transaction : TransactionIntent)
  | signature (signedTx : String)
  | attempt (id : AttemptId) (hash : String)

/-- How the signer answers: it may ask for readiness first, which calls the gate again and
makes other checks; then it signs or fails. -/
structure SignerAnswer where
  readiness : Option (GateView × Except Error Unit)
  signed : Except Error String

/-- A step so far: its events, and whether it goes on. -/
abbrev SigningStep (α : Type) := List SigningEvent × Except Error α

namespace SigningStep

variable {α β : Type}

/-- A check without an event. -/
def check (answer : Except Error α) : SigningStep α :=
  ([], answer)

def emit (event : SigningEvent) : SigningStep Unit :=
  ([event], .ok ())

/-- Go on with `next`, unless the step has failed. -/
def andThen (step : SigningStep α) (next : α → SigningStep β) : SigningStep β :=
  match step.2 with
  | .error failure => (step.1, .error failure)
  | .ok value => (step.1 ++ (next value).1, (next value).2)

end SigningStep

open SigningStep

/-- One call of the gate. -/
def callGate (admitted : AdmittedRun) (view : GateView) (request : ReserveRequest) :
    SigningStep Reservation :=
  ([.gate view (gateNow admitted view request)], gateNow admitted view request)

/-- `signer.signTransaction`. -/
def callSigner (admitted : AdmittedRun) (request : ReserveRequest)
    (transaction : TransactionIntent) (answer : SignerAnswer) : SigningStep String :=
  (emit (.passed transaction)).andThen fun _ =>
    (match answer.readiness with
      | none => check (.ok ())
      | some (view, others) =>
        (callGate admitted view request).andThen fun _ => check others).andThen fun _ =>
      (check answer.signed).andThen fun signedTx =>
        (emit (.signature signedTx)).andThen fun _ => check (.ok signedTx)

/-! ## The first transaction -/

section Steps

-- The hash of the signed bytes, and what is cut from the text of a provider error.
variable (keccak256 : String → String) (redactProviderError : Error → String)

/-- What the first transaction meets: the checks before the gate, the store at the gate, the
kill switch, the signer, the checks of the signed bytes, the storing of the attempt, and the
hash an endpoint accepted with the time. -/
structure FirstSigning where
  before : Except Error Unit
  view : GateView
  killCheck : Except Error Unit
  signer : SignerAnswer
  signedCheck : Except Error Unit
  stored : Except Error Unit
  accepted : Except Error (String × Time)

/-- `reserveThenSign`, and the signed attempt behind it. -/
def signFirst (admitted : AdmittedRun) (quote : MintQuote) (request : ReserveRequest)
    (answers : FirstSigning) : SigningStep String :=
  (check answers.before).andThen fun _ =>
  (check (assertRequestMatchesIntent quote.intent request
    (quote.replacement.map (·.ceiling.maxFeePerGas)))).andThen fun _ =>
  (callGate admitted answers.view request).andThen fun _ =>
  (check answers.killCheck).andThen fun _ =>
  (callSigner admitted request quote.intent answers.signer).andThen fun signedTx =>
  (check answers.signedCheck).andThen fun _ =>
  (check answers.stored).andThen fun _ =>
  (emit (.attempt (.signed request.executionId) (keccak256 signedTx))).andThen fun _ =>
    check (.ok signedTx)

/-! ## Replacements -/

/-- What one iteration of the ladder meets. -/
structure LadderWiring where
  mined : Except Error (Option String)
  now : Time
  nonce : Except Error NonceState
  /-- The kill switch and the chain policy, before the gate of the pre-checks. -/
  stopped : Option String
  preView : GateView
  /-- The drop and the simulation, behind that gate. -/
  changed : Option String
  killCheck : Except Error Unit
  view : GateView
  signer : SignerAnswer
  signedCheck : Except Error Unit
  stored : Except Error Unit
  sent : Except Error SendOutcome
  sentAt : Time

variable (admitted : AdmittedRun) (quote : MintQuote)
  (plan : ReplacementPlan) (request : ReserveRequest)

/-- `preChecks`: the events, and the reason to stop. -/
def preChecksStep (wiring : LadderWiring) : List SigningEvent × Option String :=
  match wiring.stopped with
  | some reason => ([], some reason)
  | none =>
    match gateNow admitted wiring.preView request with
    | .error failure =>
      ([.gate wiring.preView (.error failure)],
        some ("REPLACEMENT_GATE_REFUSED: " ++
          String.ofList ((redactProviderError failure).toList.take 80)))
    | .ok reservation => ([.gate wiring.preView (.ok reservation)], wiring.changed)

/-- The transaction of a replacement: only the fees differ. -/
def replacementIntent (next : Fees) : TransactionIntent :=
  { quote.intent with
    maxFeePerGas := next.maxFeePerGas
    maxPriorityFeePerGas := next.maxPriorityFeePerGas }

/-- `prepare`. -/
def prepareStep (wiring : LadderWiring) (next : Fees) (bump : Int) :
    SigningStep PreparedReplacement :=
  let attemptId := AttemptId.replacementSigned request.executionId bump.toNat
  (check wiring.killCheck).andThen fun _ =>
  (callGate admitted wiring.view request).andThen fun _ =>
  (check (refuse (next.maxFeePerGas > plan.ceiling.maxFeePerGas ∨
    next.maxPriorityFeePerGas > plan.ceiling.maxPriorityFeePerGas)
    "REPLACEMENT_ABOVE_CEILING")).andThen fun _ =>
  (callSigner admitted request (replacementIntent quote next) wiring.signer).andThen
    fun signedTx =>
  (check wiring.signedCheck).andThen fun _ =>
  (check wiring.stored).andThen fun _ =>
  (emit (.attempt attemptId (keccak256 signedTx))).andThen fun _ =>
    check (.ok { signedTx, hash := keccak256 signedTx, attemptId })

/-- The answers the ladder gets. -/
def LadderWiring.turn (wiring : LadderWiring) : Turn where
  mined := wiring.mined
  now := wiring.now
  nonce := wiring.nonce
  preChecks := .ok (preChecksStep redactProviderError admitted request wiring).2
  prepare := fun next bump _ => (prepareStep keccak256 admitted quote plan request wiring next bump).2
  sent := wiring.sent
  sentAt := wiring.sentAt

/-- The events behind a call of the ladder. -/
def callEvents (wiring : LadderWiring) : LadderCall → List SigningEvent
  | .preChecks _ => (preChecksStep redactProviderError admitted request wiring).1
  | .prepare next bump _ _ => (prepareStep keccak256 admitted quote plan request wiring next bump).1
  | _ => []

/-- The ladder behind an accepted first transaction. -/
def ladderInput (hash : String) (acceptedAt : Time) : LadderInput where
  attempts := [⟨hash, .signed ⟨quote.runId, toLowerCase quote.address⟩, quote.fees⟩]
  maxBumps := plan.maxBumps
  ceiling := plan.ceiling
  stuckAfterMs := plan.stuckAfterMs
  pollMs := 1000
  lastSentAt := acceptedAt

/-- The events of the first `n` iterations. -/
def ladderSteps (hash : String) (acceptedAt : Time) (wiring : Nat → LadderWiring) (n : Nat) :
    List (List SigningEvent) :=
  (runReplacementLadder (ladderInput quote plan hash acceptedAt)
    (fun k => (wiring k).turn keccak256 redactProviderError admitted quote plan request) n).calls.mapIdx
      fun k calls =>
        calls.flatMap (callEvents keccak256 redactProviderError admitted quote plan request (wiring k))

/-- The signing steps of a wallet's live task: the first transaction and, once it is accepted,
`n` iterations of the ladder. -/
def liveSteps (first : FirstSigning) (wiring : Nat → LadderWiring) (n : Nat) :
    List (List SigningEvent) :=
  match quote.l1DataGasWei with
  | .error _ => []
  | .ok l1DataGasWei =>
    let request := quote.request l1DataGasWei
    let step := signFirst keccak256 admitted quote request first
    step.1 ::
      match step.2, first.accepted, quote.replacement with
      | .ok _, .ok (hash, acceptedAt), some plan =>
        ladderSteps keccak256 redactProviderError admitted quote plan request hash acceptedAt wiring n
      | _, _, _ => []

end Steps

/-! ## What stands in front of a signature -/

/-- The reservation a gate found covers the transaction: it is the wallet's one in the run,
still held, nothing is killed, the value is the admitted one, and value, worst gas and L1 data
gas fit. -/
structure Covered (admitted : AdmittedRun) (l1DataGasWei : Wei) (transaction : TransactionIntent)
    (view : GateView) (reservation : Reservation) : Prop where
  alive : view.killed = false
  stored : reservation ∈ view.reservations
  ofRun : reservation.runId = admitted.runId ∧ reservation.id ∈ admitted.reservationIds
  ofWallet : toLowerCase reservation.wallet = toLowerCase transaction.fromAddress
  reserved : reservation.status = .reserved
  value : transaction.value = admitted.campaign.mintPriceWei * admitted.campaign.quantity
  fits : transaction.value + transaction.gasLimit * transaction.maxFeePerGas + l1DataGasWei ≤
    reservation.amountWei

/-- Every transaction passed to the signer stands directly behind a gate that found it covered,
and nothing stands behind a gate that refused. -/
structure StepSafe (admitted : AdmittedRun) (l1DataGasWei : Wei) (events : List SigningEvent) :
    Prop where
  covered : ∀ front transaction back, events = front ++ .passed transaction :: back →
    ∃ earlier view reservation, front = earlier ++ [.gate view (.ok reservation)] ∧
      Covered admitted l1DataGasWei transaction view reservation
  refused : ∀ front view failure back, events = front ++ .gate view (.error failure) :: back →
    back = []

theorem reservationOf_eq_some {admitted : AdmittedRun} {view : GateView} {address : String}
    {reservation : Reservation} (found : reservationOf admitted view address = some reservation) :
    reservation ∈ view.reservations ∧
      (reservation.runId = admitted.runId ∧ reservation.id ∈ admitted.reservationIds) ∧
      toLowerCase reservation.wallet = toLowerCase address := by
  unfold reservationOf at found
  have member := List.mem_of_find?_eq_some found
  have wallet := List.find?_some found
  rw [List.mem_reverse, List.mem_filter] at member
  exact ⟨member.1, of_decide_eq_true member.2, of_decide_eq_true wallet⟩

/-- What a successful gate has checked. -/
theorem gateNow_ok {admitted : AdmittedRun} {view : GateView} {request : ReserveRequest}
    {reservation : Reservation} (opened : gateNow admitted view request = .ok reservation) :
    view.killed = false ∧ reservationOf admitted view request.address = some reservation ∧
      reservation.status = .reserved ∧
      request.valueWei = admitted.campaign.mintPriceWei * admitted.campaign.quantity ∧
      0 ≤ request.maxGasCostWei ∧
      request.valueWei + request.maxGasCostWei + request.l1DataGasWei ≤
        reservation.amountWei := by
  simp only [gateNow, assertWithinAdmittedExposure, bind_eq_ok, refuse_eq_ok, require_eq_ok,
    pure_eq_ok] at opened
  obtain ⟨⟨⟩, alive, ⟨⟩, -, ⟨⟩, -, found, known, ⟨⟩, held, ⟨⟩, -, ⟨⟩, ⟨⟨⟩, value, ⟨⟩, gas, fits⟩,
    rfl⟩ := opened
  rw [not_not] at held value
  rw [not_or, Int.not_lt, Int.not_lt] at gas
  exact ⟨by simpa using alive, known, held, value, gas.1, Int.not_lt.1 fits⟩

/-- A gate for a request covers each transaction of its value whose gas costs no more. -/
theorem covered_of_gate {admitted : AdmittedRun} {view : GateView} {request : ReserveRequest}
    {reservation : Reservation} {transaction : TransactionIntent}
    (opened : gateNow admitted view request = .ok reservation)
    (wallet : transaction.fromAddress = request.address)
    (value : transaction.value = request.valueWei)
    (gas : 0 ≤ request.maxGasCostWei →
      transaction.gasLimit * transaction.maxFeePerGas ≤ request.maxGasCostWei) :
    Covered admitted request.l1DataGasWei transaction view reservation := by
  obtain ⟨alive, found, reserved, admittedValue, nonnegative, fits⟩ := gateNow_ok opened
  obtain ⟨stored, ofRun, ofWallet⟩ := reservationOf_eq_some found
  refine ⟨alive, stored, ofRun, wallet ▸ ofWallet, reserved, value.trans admittedValue, ?_⟩
  rw [value]
  exact Int.le_trans (Int.add_le_add_right (Int.add_le_add_left (gas nonnegative) _) _) fits

/-! ## Reading a step from the left -/

/-- The events are in order, behind the gate that was called last. -/
def InOrder (admitted : AdmittedRun) (l1DataGasWei : Wei) :
    Option (GateView × Reservation) → List SigningEvent → Prop
  | _, [] => True
  | _, .gate view (.ok reservation) :: events =>
      InOrder admitted l1DataGasWei (some (view, reservation)) events
  | _, .gate _ (.error _) :: events => events = []
  | last, .passed transaction :: events =>
      (∃ view reservation, last = some (view, reservation) ∧
        Covered admitted l1DataGasWei transaction view reservation) ∧
        InOrder admitted l1DataGasWei none events
  | _, _ :: events => InOrder admitted l1DataGasWei none events

section Order

variable {admitted : AdmittedRun} {l1DataGasWei : Wei}

/-- Where a passed transaction stands: at the front, behind the last gate, or later, directly
behind a gate of its own. -/
theorem InOrder.covered {last : Option (GateView × Reservation)} {front back : List SigningEvent}
    {transaction : TransactionIntent}
    (ordered : InOrder admitted l1DataGasWei last (front ++ .passed transaction :: back)) :
    (front = [] ∧ ∃ view reservation, last = some (view, reservation) ∧
      Covered admitted l1DataGasWei transaction view reservation) ∨
    ∃ earlier view reservation, front = earlier ++ [.gate view (.ok reservation)] ∧
      Covered admitted l1DataGasWei transaction view reservation := by
  induction front generalizing last with
  | nil => exact Or.inl ⟨rfl, ordered.1⟩
  | cons event front ih =>
    right
    match event with
    | .gate view (.error _) => exact absurd ordered (by simp [InOrder])
    | .gate view (.ok reservation) =>
      have behind : InOrder admitted l1DataGasWei (some (view, reservation))
        (front ++ .passed transaction :: back) := ordered
      rcases ih behind with ⟨rfl, _, _, same, covered⟩ | ⟨earlier, other, held, rfl, covered⟩
      · obtain ⟨rfl, rfl⟩ := Prod.mk.inj (Option.some.inj same)
        exact ⟨[], view, reservation, rfl, covered⟩
      · exact ⟨.gate view (.ok reservation) :: earlier, other, held, rfl, covered⟩
    | .passed _ =>
      rcases ih ordered.2 with ⟨-, _, _, none, -⟩ | ⟨earlier, other, held, rfl, covered⟩
      · exact nomatch none
      · exact ⟨_ :: earlier, other, held, rfl, covered⟩
    | .signature _ | .attempt _ _ =>
      have behind : InOrder admitted l1DataGasWei none
        (front ++ .passed transaction :: back) := ordered
      rcases ih behind with ⟨-, _, _, none, -⟩ | ⟨earlier, other, held, rfl, covered⟩
      · exact nomatch none
      · exact ⟨_ :: earlier, other, held, rfl, covered⟩

/-- A gate that refuses is the last event. -/
theorem InOrder.refused {last : Option (GateView × Reservation)} {front back : List SigningEvent}
    {view : GateView} {failure : Error}
    (ordered : InOrder admitted l1DataGasWei last (front ++ .gate view (.error failure) :: back)) :
    back = [] := by
  induction front generalizing last with
  | nil => exact ordered
  | cons event front ih =>
    match event with
    | .gate view (.error _) => exact absurd ordered (by simp [InOrder])
    | .gate opened (.ok reservation) =>
      have behind : InOrder admitted l1DataGasWei (some (opened, reservation))
        (front ++ .gate view (.error failure) :: back) := ordered
      exact ih behind
    | .passed _ => exact ih ordered.2
    | .signature _ | .attempt _ _ =>
      have behind : InOrder admitted l1DataGasWei none
        (front ++ .gate view (.error failure) :: back) := ordered
      exact ih behind

theorem InOrder.safe {events : List SigningEvent}
    (ordered : InOrder admitted l1DataGasWei none events) :
    StepSafe admitted l1DataGasWei events where
  covered := by
    rintro front transaction back rfl
    rcases ordered.covered with ⟨-, _, _, none, -⟩ | known
    · exact nomatch none
    · exact known
  refused := by
    rintro front view failure back rfl
    exact ordered.refused

/-! ## Steps in order -/

variable {α β γ : Type} {last : Option (GateView × Reservation)}

theorem andThen_assoc (step : SigningStep α) (next : α → SigningStep β)
    (later : β → SigningStep γ) :
    (step.andThen next).andThen later =
      step.andThen fun value => (next value).andThen later := by
  obtain ⟨events, _ | value⟩ := step
  · rfl
  · simp only [andThen]
    generalize next value = middle
    obtain ⟨more, _ | value⟩ := middle
    · rfl
    · simp [List.append_assoc]

theorem inOrder_check {answer : Except Error α} {next : α → SigningStep β}
    (ordered : ∀ value, answer = .ok value → InOrder admitted l1DataGasWei last (next value).1) :
    InOrder admitted l1DataGasWei last ((check answer).andThen next).1 := by
  cases answer with
  | error failure => trivial
  | ok value => exact ordered value rfl

theorem inOrder_gate {view : GateView} {request : ReserveRequest}
    {next : Reservation → SigningStep β}
    (ordered : ∀ reservation, gateNow admitted view request = .ok reservation →
      InOrder admitted l1DataGasWei (some (view, reservation)) (next reservation).1) :
    InOrder admitted l1DataGasWei last ((callGate admitted view request).andThen next).1 := by
  unfold callGate andThen
  cases answer : gateNow admitted view request with
  | error failure => simp [InOrder]
  | ok reservation => simpa [InOrder] using ordered reservation answer

/-- A covered transaction may be passed to the signer; what follows starts behind no gate, or
behind the one of the readiness check. -/
theorem inOrder_signer {request : ReserveRequest} {transaction : TransactionIntent}
    {answer : SignerAnswer} {view : GateView} {reservation : Reservation}
    {next : String → SigningStep β}
    (covered : Covered admitted l1DataGasWei transaction view reservation)
    (ordered : ∀ signedTx, InOrder admitted l1DataGasWei none (next signedTx).1) :
    InOrder admitted l1DataGasWei (some (view, reservation))
      ((callSigner admitted request transaction answer).andThen next).1 := by
  have signs (last : Option (GateView × Reservation)) :
      InOrder admitted l1DataGasWei last
        ((check answer.signed).andThen fun signedTx =>
          (emit (.signature signedTx)).andThen fun _ =>
            (check (.ok signedTx)).andThen next).1 :=
    inOrder_check fun signedTx _ => ordered signedTx
  unfold callSigner
  simp only [andThen_assoc]
  refine ⟨⟨view, reservation, rfl, covered⟩, ?_⟩
  cases answer.readiness with
  | none => exact signs none
  | some ready =>
    simp only [andThen_assoc]
    exact inOrder_gate fun _ _ => inOrder_check fun _ _ => signs _

theorem gas_fits {gasLimit fee ceiling : Int} (positive : 0 < ceiling) (below : fee ≤ ceiling)
    (nonnegative : 0 ≤ gasLimit * ceiling) : gasLimit * fee ≤ gasLimit * ceiling := by
  have limit : 0 ≤ gasLimit := Int.nonneg_of_mul_nonneg_left nonnegative positive
  exact Int.mul_le_mul_of_nonneg_left below limit

/-- The first transaction is covered by the reservation its gate found. -/
theorem signFirst_inOrder (keccak256 : String → String) (quote : MintQuote)
    (answers : FirstSigning) :
    InOrder admitted l1DataGasWei none
      (signFirst keccak256 admitted quote (quote.request l1DataGasWei) answers).1 := by
  unfold signFirst
  refine inOrder_check fun _ _ => inOrder_check fun _ matched =>
    inOrder_gate fun reservation opened => inOrder_check fun _ _ => inOrder_signer ?_ fun _ =>
      inOrder_check fun _ _ => inOrder_check fun _ _ => trivial
  refine covered_of_gate opened rfl rfl fun nonnegative => ?_
  simp only [assertRequestMatchesIntent, bind_eq_ok, refuse_eq_ok] at matched
  obtain ⟨⟨⟩, above, -⟩ := matched
  cases plan : quote.replacement with
  | none =>
    simp only [MintQuote.request, MintQuote.reserveFee, plan]
    exact Int.le_refl _
  | some plan' =>
    simp only [plan, Option.map_some, Option.any_some, decide_eq_true_eq] at above
    simp only [MintQuote.request, MintQuote.reserveFee, plan] at nonnegative ⊢
    exact gas_fits plan'.ceilingValid.1 (Int.not_lt.1 above) nonnegative

variable {keccak256 : String → String} {redactProviderError : Error → String}
  {quote : MintQuote} {plan : ReplacementPlan} {wiring : LadderWiring}

/-- A replacement below the ceiling is covered by what was reserved at the ceiling. -/
theorem prepareStep_inOrder (planned : quote.replacement = some plan) (next : Fees) (bump : Int) :
    InOrder admitted l1DataGasWei last
      (prepareStep keccak256 admitted quote plan (quote.request l1DataGasWei) wiring next
        bump).1 := by
  unfold prepareStep
  refine inOrder_check fun _ _ => inOrder_gate fun reservation opened =>
    inOrder_check fun _ within => inOrder_signer ?_ fun _ =>
      inOrder_check fun _ _ => inOrder_check fun _ _ => trivial
  refine covered_of_gate opened rfl rfl fun nonnegative => ?_
  have below := (not_or.1 (refuse_eq_ok.1 within)).1
  simp only [MintQuote.request, MintQuote.reserveFee, planned] at nonnegative ⊢
  exact gas_fits plan.ceilingValid.1 (Int.not_lt.1 below) nonnegative

theorem preChecksStep_inOrder {request : ReserveRequest} :
    InOrder admitted l1DataGasWei none
      (preChecksStep redactProviderError admitted request wiring).1 := by
  unfold preChecksStep
  split
  · trivial
  · split
    · rfl
    · trivial

/-- Pre-checks that give no reason to stop hold no refusing gate. -/
theorem preChecksStep_then {request : ReserveRequest} {events : List SigningEvent}
    (passed : refusalOf (preChecksStep redactProviderError admitted request wiring).2 = none)
    (ordered : ∀ last, InOrder admitted l1DataGasWei last events) :
    InOrder admitted l1DataGasWei none
      ((preChecksStep redactProviderError admitted request wiring).1 ++ events) := by
  unfold preChecksStep at passed ⊢
  split
  · exact ordered none
  · split
    · rename_i stopped _ failure answer
      simp [stopped, answer, refusalOf] at passed
    · exact ordered _

/-! ## Whole tasks -/

/-- The events of one iteration of a running ladder are in order. -/
theorem ladderTurn_inOrder (l1DataGasWei : Wei) (planned : quote.replacement = some plan) {input : LadderInput}
    {state : LadderState} (running : state.ended = none) :
    ∃ calls, (ladderTurn input (wiring.turn keccak256 redactProviderError admitted quote plan
        (quote.request l1DataGasWei)) state).calls = state.calls ++ [calls] ∧
      InOrder admitted l1DataGasWei none (calls.flatMap (callEvents keccak256
        redactProviderError admitted quote plan (quote.request l1DataGasWei) wiring)) := by
  unfold ladderTurn
  rw [if_neg (by simp [running])]
  simp only
  split
  · exact ⟨_, rfl, trivial⟩
  · exact ⟨_, rfl, trivial⟩
  split
  swap
  · exact ⟨_, rfl, trivial⟩
  unfold considerReplacement
  simp only
  split
  · exact ⟨_, rfl, trivial⟩
  split
  · exact ⟨_, rfl, trivial⟩
  split
  · exact ⟨_, rfl, trivial⟩
  rename_i decision _
  unfold replace
  simp only [LadderWiring.turn]
  split
  · refine ⟨_, rfl, ?_⟩
    simpa [callEvents] using preChecksStep_inOrder
  · rename_i passed
    -- behind passed pre-checks come the events of the preparation
    have both : InOrder admitted l1DataGasWei none
        ((preChecksStep redactProviderError admitted (quote.request l1DataGasWei) wiring).1 ++
          (prepareStep keccak256 admitted quote plan (quote.request l1DataGasWei) wiring
            decision.next decision.bumpsUsed).1) :=
      preChecksStep_then passed fun _ =>
        prepareStep_inOrder planned decision.next decision.bumpsUsed
    split
    · refine ⟨_, rfl, ?_⟩
      simpa [callEvents] using both
    · unfold sendPrepared
      simp only
      split
      · refine ⟨_, rfl, ?_⟩
        simpa [callEvents] using both
      · refine ⟨_, rfl, ?_⟩
        simpa [callEvents] using both

/-- So are those of every iteration, as far as the ladder has run. -/
theorem ladderSteps_inOrder (planned : quote.replacement = some plan) (hash : String)
    (acceptedAt : Time) (wiring : Nat → LadderWiring) (n : Nat) :
    ∀ events ∈ ladderSteps keccak256 redactProviderError admitted quote plan
      (quote.request l1DataGasWei) hash acceptedAt wiring n,
      InOrder admitted l1DataGasWei none events := by
  -- while the ladder runs, iteration `k` has the calls of turn `k`
  suffices known : (∀ events ∈ ladderSteps keccak256 redactProviderError admitted quote plan
      (quote.request l1DataGasWei) hash acceptedAt wiring n,
        InOrder admitted l1DataGasWei none events) ∧
      ((runReplacementLadder (ladderInput quote plan hash acceptedAt) (fun k =>
        (wiring k).turn keccak256 redactProviderError admitted quote plan
          (quote.request l1DataGasWei)) n).ended = none →
        (runReplacementLadder (ladderInput quote plan hash acceptedAt) (fun k =>
          (wiring k).turn keccak256 redactProviderError admitted quote plan
            (quote.request l1DataGasWei)) n).calls.length = n) from known.1
  induction n with
  | zero =>
    refine ⟨fun _ member => ?_, fun _ => rfl⟩
    cases member
  | succ n ih =>
    unfold ladderSteps at ih ⊢
    rw [runReplacementLadder]
    generalize runReplacementLadder (ladderInput quote plan hash acceptedAt) (fun k =>
      (wiring k).turn keccak256 redactProviderError admitted quote plan
        (quote.request l1DataGasWei)) n = state at ih ⊢
    cases running : state.ended with
    | some ended =>
      rw [ladderTurn, if_pos (by simp [running])]
      refine ⟨ih.1, fun still => ?_⟩
      cases running.symm.trans still
    | none =>
      have length := ih.2 running
      obtain ⟨calls, added, ordered⟩ := ladderTurn_inOrder l1DataGasWei planned running
      rw [added, List.mapIdx_concat, length]
      constructor
      · intro events member
        rcases List.mem_append.1 member with earlier | last
        · exact ih.1 events earlier
        · rw [List.mem_singleton.1 last]
          exact ordered
      · intro _
        rw [List.length_append, length]
        rfl

end Order

/-- In every live task of a wallet, each transaction that is passed to the signer is covered by
the reservation which the gate directly before it found, and a gate that refuses is the last
event of its step. -/
theorem signed_fits_admission (keccak256 : String → String) (redactProviderError : Error → String)
    (admitted : AdmittedRun) (quote : MintQuote) (first : FirstSigning)
    (wiring : Nat → LadderWiring) (n : Nat) :
    ∀ events ∈ liveSteps keccak256 redactProviderError admitted quote first wiring n,
      ∃ l1DataGasWei, quote.l1DataGasWei = .ok l1DataGasWei ∧
        StepSafe admitted l1DataGasWei events := by
  intro events member
  unfold liveSteps at member
  split at member
  · exact nomatch member
  · rename_i l1DataGasWei quoted
    refine ⟨l1DataGasWei, quoted, InOrder.safe ?_⟩
    rcases List.mem_cons.1 member with rfl | later
    · exact signFirst_inOrder keccak256 quote first
    · split at later
      · rename_i planned
        exact ladderSteps_inOrder planned _ _ wiring n events later
      · exact nomatch later

/-- A Base mint of 5 wei with gas for 2 units, at 10 wei first and 20 at most. -/
def sampleQuote : MintQuote where
  chainId := .base
  address := "0xAA"
  walletIndex := 0
  runId := "run"
  intentId := "intent"
  campaignId := "campaign"
  toAddress := "0xcc"
  data := "0x"
  nonce := 0
  mintPriceWei := 5
  quantity := 1
  gasLimit := 2
  fees := ⟨10, 1⟩
  replacement := some ⟨⟨20, 5⟩, 2, 6000, by decide⟩
  baseFeeBound := some 7

def sampleAdmitted : AdmittedRun where
  runId := "run"
  intentId := "intent"
  campaign :=
    { id := "campaign", chainId := .base, quantity := 1, mintPriceWei := 5
      broadcastMode := none
      spendPolicy := ⟨100, 100, 100⟩
      feePolicy := ⟨.paid, 1, none, none, some 47, none⟩ }
  reservationIds := [⟨"run", "0xaa"⟩]

/-- The gate finds exactly the admitted amount reserved. -/
def sampleView : GateView where
  killed := false
  reservations := [⟨⟨"run", "0xaa"⟩, "run", "0xaa", 52, none, .reserved⟩]
  liveGrant := some true

def sampleFirst : FirstSigning where
  before := .ok ()
  view := sampleView
  killCheck := .ok ()
  signer := ⟨some (sampleView, .ok ()), .ok "0x02"⟩
  signedCheck := .ok ()
  stored := .ok ()
  accepted := .ok ("0x02", 0)

/-- The transaction is stuck and replaced. -/
def sampleWiring : LadderWiring where
  mined := .ok none
  now := 10000
  nonce := .ok .free
  stopped := none
  preView := sampleView
  changed := none
  killCheck := .ok ()
  view := sampleView
  signer := ⟨none, .ok "0x03"⟩
  signedCheck := .ok ()
  stored := .ok ()
  sent := .ok .accepted
  sentAt := 10000

theorem signed_fits_admission_sample :
    let steps := liveSteps id id sampleAdmitted sampleQuote sampleFirst (fun _ => sampleWiring) 1
    steps.map List.length = [5, 5] ∧
      ∃ l1DataGasWei, sampleQuote.l1DataGasWei = .ok l1DataGasWei ∧
        StepSafe sampleAdmitted l1DataGasWei (steps.getD 1 []) := by
  intro steps
  have lengths : steps.map List.length = [5, 5] := by decide +kernel
  have two : 1 < steps.length := by
    rw [← List.length_map (f := List.length), lengths]
    decide
  refine ⟨lengths, signed_fits_admission id id sampleAdmitted sampleQuote sampleFirst
    (fun _ => sampleWiring) 1 _ ?_⟩
  rw [List.getD_eq_getElem?_getD, List.getElem?_eq_getElem two]
  exact List.getElem_mem two

end MintBot
