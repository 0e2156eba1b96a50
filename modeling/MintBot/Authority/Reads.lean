import MintBot.Library.Json.Hex
import MintBot.Library.Json.Members
import MintBot.Library.Json.Order
import MintBot.Store.Encoding
import MintBot.Types

/-!
# Reads of two providers

Before custody signs a mint, the facts it rests on are read from two providers at one block.  The
reads of both run at once, and each takes its time.  What they report is compared as texts.
-/

namespace MintBot.Authority

open Json

/-- What a read comes to, none for a rejection, and after how many milliseconds. -/
structure Reply (α : Type) where
  delay : Nat
  value : Option α

/-- An untyped value of a contract read, as far as the checks tell values apart. -/
inductive JsValue
  | bigint (value : Int)
  /-- A number that is a safe integer. -/
  | integer (value : Int)
  | boolean (value : Bool)
  | text (value : Text)
  | array (items : List JsValue)
  | object (field : String → JsValue)
  | other

structure Block where
  hash : Option Text
  timestamp : Int
  deriving DecidableEq

inductive ReadFunction
  | getPublicDrop
  | getAllowedFeeRecipients
  | totalSupply
  | maxSupply
  | getAllowListMerkleRoot
  deriving DecidableEq, Repr

structure Client where
  getBlockNumber : Reply Int
  getChainId : Reply Int
  getBlock : (blockNumber : Int) → Reply Block
  readContract : (address : Text) → ReadFunction → (args : List Text) → (blockNumber : Int) →
    Reply JsValue

structure AllowlistProof where
  nftContract : Text
  root : Text
  chainId : Int
  feeRecipient : Text
  restrictFeeRecipients : Bool
  deriving DecidableEq

structure FamilyContext where
  nftContract : Option Text
  feeRecipient : Option Text
  allowlistProof : Option AllowlistProof
  deriving DecidableEq

structure TransactionIntent where
  chainId : Int
  value : Int
  to_ : Text
  from_ : Text
  campaignId : Text
  runId : Text
  data : Text
  familyContext : Option FamilyContext
  deriving DecidableEq

/-! ## Values -/

/-- `toLowerCase` of a text of hexadecimal digits. -/
def lower (text : Text) : Text :=
  text.map lowerUnit

/-- `/^0x[0-9a-fA-F]{digits}$/` -/
def isHexText (digits : Nat) (text : Text) : Bool :=
  text.take 2 = ascii "0x" ∧ text.length = digits + 2 ∧ (text.drop 2).all isHex

def zeroAddress : Text :=
  ascii "0x0000000000000000000000000000000000000000"

def SEADROP_V1_ADDRESS : Text :=
  ascii "0x00005EA00Ac477B1030CE78506496e8C2dE24bf5"

def OPENSEA_FEE_COLLECTOR : Text :=
  ascii "0x0000a26b00c1F0DF003000390027140000fAa719"

def JsValue.address : JsValue → Option Text
  | .text value => if isHexText 40 value then some value else none
  | _ => none

/-- An array of addresses. -/
def JsValue.addresses : JsValue → Option (List Text)
  | .array items => items.mapM JsValue.address
  | _ => none

/-! ## Time -/

/-- The age at which a block is too old, and how far ahead of the clock it may be. -/
def maxAgeMs : Int := 300000

def maxAheadMs : Int := 30000

/-- A block is neither too old nor ahead of the clock.  Up to the last instant of a date, numbers
hold the milliseconds exactly. -/
def Dated (nowMs timestamp : Int) : Prop :=
  -maxAheadMs ≤ nowMs - timestamp * 1000 ∧ nowMs - timestamp * 1000 ≤ maxAgeMs

instance (nowMs timestamp : Int) : Decidable (Dated nowMs timestamp) :=
  inferInstanceAs (Decidable (_ ∧ _))

/-- When both block numbers are there. -/
def headsAt (first second : Client) (start : Int) : Int :=
  start + max first.getBlockNumber.delay second.getBlockNumber.delay

/-- When reads that begin together are done. -/
def readsAt (delays : List Nat) (start : Int) : Int :=
  start + (delays.foldr max 0 : Nat)

theorem le_readsAt (delays : List Nat) (start : Int) : start ≤ readsAt delays start := by
  unfold readsAt
  omega

/-- Two blocks behind the lower of both heads. -/
def commonBlock (first second : Client) : Option Int := do
  let left ← first.getBlockNumber.value
  let right ← second.getBlockNumber.value
  if 2 ≤ left ∧ 2 ≤ right then some (min left right - 2) else none

/-! ## Views as texts -/

def integerLeaf (value : Int) : Document Scalar :=
  .leaf (.number (Number.ofInteger value))

def textLeaf (value : Text) : Document Scalar :=
  .leaf (.string value)

def bigintLeaf (value : Int) : Document Scalar :=
  textLeaf (bigintDigits value)

def textsDocument (texts : List Text) : Document Scalar :=
  .array (texts.map textLeaf)

theorem integerLeaf_injective : Function.Injective integerLeaf := by
  intro left right same
  simp only [integerLeaf, Document.leaf.injEq, Scalar.number.injEq] at same
  have read := congrArg Number.integer? same
  simpa using read

theorem textLeaf_injective : Function.Injective textLeaf := by
  intro left right same
  simpa [textLeaf] using same

theorem bigintLeaf_injective : Function.Injective bigintLeaf := by
  intro left right same
  have read := congrArg readBigint (textLeaf_injective same)
  rwa [readBigint_bigintDigits, readBigint_bigintDigits] at read

theorem textsDocument_injective : Function.Injective textsDocument := by
  intro left right same
  simp only [textsDocument, Document.array.injEq] at same
  exact List.map_injective_iff.mpr textLeaf_injective same

theorem proper_textsDocument (texts : List Text) : (textsDocument texts).Proper := by
  refine .array _ fun item member => ?_
  obtain ⟨text, -, rfl⟩ := List.mem_map.mp member
  exact .leaf _

/-- Documents that are written as one text are the same. -/
theorem document_eq_of_text_eq {left right : Document Scalar} (properLeft : left.Proper)
    (properRight : right.Proper) (same : left.text = right.text) : left = right := by
  have parsed := congrArg parse same
  rwa [parse_text properLeft, parse_text properRight, Option.some.injEq] at parsed

/-- An object is proper when its names are distinct and no array indices, and its values are
proper. -/
theorem proper_object {members : List (Text × Document Scalar)}
    (distinct : (members.map Prod.fst).Nodup)
    (names : ∀ key ∈ members.map Prod.fst, arrayIndex? key = none)
    (values : ∀ member ∈ members, member.2.Proper) : (Document.object members).Proper :=
  .object members (ownMembers_of_sublist (List.Sublist.refl _) distinct names) values

end MintBot.Authority
