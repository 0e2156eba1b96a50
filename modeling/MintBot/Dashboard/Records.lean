import Mathlib.Data.Rat.Defs
import MintBot.Library.Json.Hex
import MintBot.Library.Json.Order

/-!
# What the dashboard reads

The records of a backend state that the opportunities and the calendar are shown from, the readers
of the untyped facts of an event, and how fresh a fact is.
-/

namespace MintBot.Dashboard

open Json

/-- The collation and the dates of the host.  A collation compares any two texts, consistently. -/
structure Host where
  localeCompare : Text → Text → Ordering
  swap_localeCompare : ∀ left right, (localeCompare left right).swap = localeCompare right left
  trans_localeCompare : ∀ {first second third}, (localeCompare first second).isLE →
    (localeCompare second third).isLE → (localeCompare first third).isLE
  /-- `Date.parse`, none for `NaN`. -/
  dateParse : Text → Option Int
  toISOString : Int → Text

/-- A fact of an event: a text, a finite number, a bigint, or something else. -/
inductive Fact
  | text (value : Text)
  | number (value : ℚ)
  | bigint (value : Int)
  | other
  deriving DecidableEq

/-- An event, with the facts that are there by their names. -/
structure EventRecord where
  id : Text
  type : Text
  at_ : Text
  data : String → Option Fact

structure ChainEvidenceRecord where
  id : Text
  chainId : Nat
  checkedAt : Text
  expiresAt : Text

structure Campaign where
  id : Text
  chainId : Nat
  contract : Text
  strategy : Text
  mintPriceWei : Int
  evidenceId : Option Text

/-- An array has fewer than 2 ^ 32 items. -/
structure BackendState where
  campaigns : List Campaign
  events : List EventRecord
  chainEvidence : List ChainEvidenceRecord
  campaigns_length : campaigns.length < 2 ^ 32 := by decide
  events_length : events.length < 2 ^ 32 := by decide

/-- What a projection is made from: the state, the host, and the clock. -/
structure ProjectionContext where
  state : BackendState
  host : Host
  now : Int

/-! ## Facts -/

def lastSafeInteger : Int := 2 ^ 53 - 1

/-- `/^\d+$/`, as a number. -/
def digitsValue (text : Text) : Option Nat :=
  let digits := readDigits text
  if digits.1 ≠ [] ∧ digits.2 = [] then some (ofDigits digits.1) else none

def stringValue : Option Fact → Option Text
  | some (.text value) => if value = [] then none else some value
  | _ => none

def addressValue (value : Option Fact) : Option Text :=
  (stringValue value).filter fun address =>
    address.take 2 = ascii "0x" ∧ address.length = 42 ∧ (address.drop 2).all isHex

def isSafeInteger (value : ℚ) : Bool :=
  value.den = 1 ∧ value.num.natAbs ≤ lastSafeInteger

def integerValue : Option Fact → Option Int
  | some (.number value) => if isSafeInteger value then some value.num else none
  | some (.text value) =>
      (digitsValue value).bind fun parsed =>
        if (parsed : Int) ≤ lastSafeInteger then some parsed else none
  | _ => none

def numberValue : Option Fact → Option ℚ
  | some (.number value) => some value
  | _ => none

def bigintValue : Option Fact → Option Nat
  | some (.bigint value) => if 0 ≤ value then some value.toNat else none
  | some (.number value) => if isSafeInteger value ∧ 0 ≤ value.num then some value.num.toNat else none
  | some (.text value) => digitsValue value
  | _ => none

/-! ## Freshness -/

inductive FreshnessStatus
  | fresh
  | stale
  | unknown
  deriving DecidableEq

structure Freshness where
  status : FreshnessStatus
  observedAt : Option Text
  expiresAt : Option Text
  ageSeconds : Option Int
  deriving DecidableEq

def UNKNOWN_FRESHNESS : Freshness where
  status := .unknown
  observedAt := none
  expiresAt := none
  ageSeconds := none

def dateMs (host : Host) (value : Option Text) : Option Int :=
  value.bind fun text => if text = [] then none else host.dateParse text

def validIso (host : Host) (value : Option Text) : Option Text :=
  (dateMs host value).map host.toISOString

def unknownFreshness (host : Host) (observedAt expiresAt : Option Text) : Freshness where
  status := .unknown
  observedAt := validIso host observedAt
  expiresAt := validIso host expiresAt
  ageSeconds := none

def classifyFreshness (host : Host) (observedAt expiresAt : Option Text) (now : Int) : Freshness :=
  match dateMs host observedAt, dateMs host expiresAt with
  | some observed, some expires =>
      if expires < observed ∨ now < observed then unknownFreshness host observedAt expiresAt
      else
        { status := if expires ≤ now then .stale else .fresh
          observedAt := some (host.toISOString observed)
          expiresAt := some (host.toISOString expires)
          ageSeconds := some ((now - observed) / 1000) }
  | _, _ => unknownFreshness host observedAt expiresAt

/-- Unknown where one value is, else the oldest of all. -/
def aggregateFreshness (values : List Freshness) : Freshness :=
  if values = [] ∨ ∃ value ∈ values, value.status = .unknown then UNKNOWN_FRESHNESS
  else
    { status := if ∃ value ∈ values, value.status = .stale then .stale else .fresh
      observedAt := (sorted (values.filterMap Freshness.observedAt)).head?
      expiresAt := (sorted (values.filterMap Freshness.expiresAt)).head?
      ageSeconds := ((values.filterMap Freshness.ageSeconds).insertionSort (· ≥ ·)).head? }

def evidenceFreshness (context : ProjectionContext) (evidence : ChainEvidenceRecord) : Freshness :=
  classifyFreshness context.host (some evidence.checkedAt) (some evidence.expiresAt) context.now

/-- The named evidence of a chain, or the one that was checked last. -/
def chainEvidence (context : ProjectionContext) (chainId : Nat) (evidenceId : Option Text) :
    Option ChainEvidenceRecord :=
  (context.state.chainEvidence.find? fun item => some item.id = evidenceId).or
    (((context.state.chainEvidence.filter fun item => item.chainId = chainId).insertionSort
      fun left right => context.host.localeCompare right.checkedAt left.checkedAt ≠ .gt).head?)

/-- `chainGate(..).checks[0]?.freshness ?? UNKNOWN_FRESHNESS` -/
def chainGateFreshness (context : ProjectionContext) (chainId : Nat) (evidenceId : Option Text) :
    Freshness :=
  ((chainEvidence context chainId evidenceId).map (evidenceFreshness context)).getD
    UNKNOWN_FRESHNESS

/-! ## The order of events -/

def sortKey (host : Host) (value : Text) : Text :=
  (validIso host (some value)).getD value

def eventOrder (host : Host) (left right : EventRecord) : Ordering :=
  (host.localeCompare (sortKey host left.at_) (sortKey host right.at_)).then
    (host.localeCompare left.id right.id)

def EventLe (host : Host) (left right : EventRecord) : Prop :=
  (eventOrder host left right).isLE

instance (host : Host) : DecidableRel (EventLe host) :=
  fun _ _ => inferInstanceAs (Decidable (_ = true))

/-- `.sort(eventOrder)` -/
def inOrder (host : Host) (events : List EventRecord) : List EventRecord :=
  events.insertionSort (EventLe host)

end MintBot.Dashboard
