import MintBot.Allowlist.Tree
import MintBot.Library.Fallible
import MintBot.Library.Json.Hex
import MintBot.Library.Json.Members
import MintBot.Library.Json.Syntax
import MintBot.Types

/-!
# Published lists

Addresses as texts, the mint parameters and the leaf that stand for a wallet on an allowlist, and
the reader of a list file that a project has published.  An entry that was read holds a valid
address, and every number in it fits its 256 bits, so that a leaf can be computed for it.
-/

namespace MintBot.Allowlist

open Json Fallible

/-! ## Addresses -/

/-- What the code takes from outside: `keccak256` of a byte string that consists of 32-byte
words, whether the half byte at a position of the hash of forty digits is at least 8, and the
text of an instant in milliseconds that a `Date` can have. -/
structure Outside where
  keccak256 : List Word → Word
  raised : Text → Nat → Bool
  toISOString : Nat → Text

variable (outside : Outside)

/-- `/^0x[a-fA-F0-9]{40}$/` -/
def hasAddressShape (address : Text) : Bool :=
  address.take 2 = ascii "0x" && address.length = 42 && (address.drop 2).all isHex

/-- The address with the letters raised that its hash says. -/
def checksumAddress (address : Text) : Text :=
  let digits := (address.drop 2).map lowerUnit
  ascii "0x" ++ raiseAt (outside.raised digits) digits

def isAddress (address : Text) : Bool :=
  hasAddressShape address &&
    (address.map lowerUnit = address || checksumAddress outside address = address)

def getAddress (address : Text) : Except Error Text :=
  if hasAddressShape address then .ok (checksumAddress outside address)
  else .error "InvalidAddressError"

theorem hasAddressShape_iff {address : Text} :
    hasAddressShape address = true ↔
      ∃ digits : Text, address = ascii "0x" ++ digits ∧ digits.length = 40 ∧
        digits.all isHex = true := by
  simp only [hasAddressShape, Bool.and_eq_true, decide_eq_true_eq]
  constructor
  · rintro ⟨⟨front, length⟩, hex⟩
    refine ⟨address.drop 2, ?_, by rw [List.length_drop, length], hex⟩
    rw [← front, List.take_append_drop]
  · rintro ⟨digits, rfl, length, hex⟩
    refine ⟨⟨rfl, ?_⟩, hex⟩
    rw [List.length_append, length]
    rfl

theorem checksumAddress_append (digits : Text) :
    checksumAddress outside (ascii "0x" ++ digits) =
      ascii "0x" ++ raiseAt (outside.raised (digits.map lowerUnit)) (digits.map lowerUnit) :=
  rfl

/-- Checksumming an address keeps it up to letter case. -/
theorem lower_checksumAddress {address : Text} (shape : hasAddressShape address = true) :
    (checksumAddress outside address).map lowerUnit = address.map lowerUnit := by
  obtain ⟨digits, rfl, -, -⟩ := hasAddressShape_iff.mp shape
  rw [checksumAddress_append, List.map_append, List.map_append, lower_raiseAt, lower_lower]

/-- A checksummed address depends on the address up to letter case only. -/
theorem checksumAddress_congr {first second : Text} (firstShape : hasAddressShape first = true)
    (secondShape : hasAddressShape second = true)
    (same : first.map lowerUnit = second.map lowerUnit) :
    checksumAddress outside first = checksumAddress outside second := by
  obtain ⟨digits, rfl, -, -⟩ := hasAddressShape_iff.mp firstShape
  obtain ⟨others, rfl, -, -⟩ := hasAddressShape_iff.mp secondShape
  rw [List.map_append, List.map_append] at same
  rw [checksumAddress_append, checksumAddress_append, List.append_cancel_left same]

theorem isAddress_checksumAddress {address : Text} (shape : hasAddressShape address = true) :
    isAddress outside (checksumAddress outside address) = true := by
  have again : hasAddressShape (checksumAddress outside address) = true := by
    obtain ⟨digits, rfl, length, hex⟩ := hasAddressShape_iff.mp shape
    refine hasAddressShape_iff.mpr ⟨_, checksumAddress_append outside digits, ?_, ?_⟩
    · rw [length_raiseAt, List.length_map, length]
    · rw [all_isHex_raiseAt, all_isHex_lower, hex]
  rw [isAddress, again, checksumAddress_congr outside again shape
    (lower_checksumAddress outside shape)]
  simp

theorem hasAddressShape_of_isAddress {address : Text}
    (valid : isAddress outside address = true) : hasAddressShape address = true :=
  (Bool.and_eq_true _ _ ▸ valid).1

/-! ## Leaves -/

/-- What the contract's allowlist says about a mint: numbers of 256 bits, which is what
`encodeAbiParameters` accepts. -/
structure MintParams where
  mintPrice : Word
  maxTotalMintableByWallet : Word
  startTime : Word
  endTime : Word
  dropStageIndex : Word
  maxTokenSupplyForStage : Word
  feeBps : Word
  restrictFeeRecipients : Bool
  deriving DecidableEq

/-- The word of an address in an ABI encoding. -/
def addressWord (address : Text) : Word :=
  Fin.ofNat (2 ^ 256) (hexValue (address.drop 2))

/-- `encodeAbiParameters` of an address and the parameters. -/
def leafWords (address : Text) (params : MintParams) : List Word :=
  [addressWord address, params.mintPrice, params.maxTotalMintableByWallet, params.startTime,
    params.endTime, params.dropStageIndex, params.maxTokenSupplyForStage, params.feeBps,
    if params.restrictFeeRecipients then 1 else 0]

def allowlistLeaf (address : Text) (params : MintParams) : Except Error Word := do
  let address ← getAddress outside address
  .ok (outside.keccak256 (leafWords address params))

theorem addressWord_inj {first second : Text} (firstShape : hasAddressShape first = true)
    (secondShape : hasAddressShape second = true)
    (same : addressWord first = addressWord second) :
    first.map lowerUnit = second.map lowerUnit := by
  obtain ⟨digits, rfl, length, hex⟩ := hasAddressShape_iff.mp firstShape
  obtain ⟨others, rfl, otherLength, otherHex⟩ := hasAddressShape_iff.mp secondShape
  have small : (16 : Nat) ^ 40 < 2 ^ 256 := by decide
  have bound := hexValue_lt hex
  have otherBound := hexValue_lt otherHex
  rw [length] at bound
  rw [otherLength] at otherBound
  have values : hexValue digits % 2 ^ 256 = hexValue others % 2 ^ 256 := congrArg Fin.val same
  rw [Nat.mod_eq_of_lt (bound.trans small), Nat.mod_eq_of_lt (otherBound.trans small)] at values
  rw [List.map_append, List.map_append,
    lower_eq_of_hexValue hex otherHex (length.trans otherLength.symm) values]

theorem addressWord_congr {first second : Text}
    (same : first.map lowerUnit = second.map lowerUnit) :
    addressWord first = addressWord second := by
  have digits : (first.drop 2).map lowerUnit = (second.drop 2).map lowerUnit := by
    rw [List.map_drop, List.map_drop, same]
  rw [addressWord, addressWord, ← hexValue_lower, digits, hexValue_lower]

/-- The leaf of an address in any letter case. -/
theorem allowlistLeaf_eq {address : Text} (shape : hasAddressShape address = true)
    (params : MintParams) :
    allowlistLeaf outside address params = .ok (outside.keccak256 (leafWords address params)) := by
  have words : leafWords (checksumAddress outside address) params = leafWords address params := by
    rw [leafWords, leafWords, addressWord_congr (lower_checksumAddress outside shape)]
  rw [allowlistLeaf, getAddress, if_pos shape, ← words]
  rfl

/-! ## Reading a list file -/

structure PublishedEntry where
  address : Text
  mintParams : MintParams
  proof : Option (List Word)
  valid : isAddress outside address = true

inductive ListKind where
  | fullList
  | proofs
  deriving DecidableEq

structure PublishedList where
  kind : ListKind
  entries : List (PublishedEntry outside)

def entryInvalid (index : Nat) (what : String) : Error :=
  "ALLOWLIST_ENTRY_INVALID: entry " ++ toString (index + 1) ++ what

/-- `/^\d{1,78}$/` and less than `2n ** 256n` -/
def decimalWord? (text : Text) : Option Word :=
  let (digits, rest) := readDigits text
  if small : rest = [] ∧ 1 ≤ digits.length ∧ digits.length ≤ 78 ∧ ofDigits digits < 2 ^ 256 then
    some ⟨ofDigits digits, small.2.2.2⟩
  else none

/-- `num` -/
def num (params : List (Text × Document Scalar)) (index : Nat) (name : String) :
    Except Error Word :=
  let invalid := .error (entryInvalid index (" " ++ name))
  match property name params with
  | some (.leaf (.string text)) =>
      match decimalWord? text with
      | some value => .ok value
      | none => invalid
  | some (.leaf (.number number)) =>
      match number.integer? with
      | some value =>
          -- A negative integer has a sign in its text, which the expression does not match.
          if 0 ≤ value ∧ value ≤ maxSafeInteger then .ok (Fin.ofNat (2 ^ 256) value.toNat)
          else invalid
      | none => invalid
  | _ => invalid

/-- `/^0x[0-9a-fA-F]{64}$/` -/
def hexWord? : Document Scalar → Option Word
  | .leaf (.string text) =>
      if text.take 2 = ascii "0x" ∧ text.length = 66 ∧ (text.drop 2).all isHex then
        some (Fin.ofNat (2 ^ 256) (hexValue (text.drop 2)))
      else none
  | _ => none

def publishedProof (item : List (Text × Document Scalar)) (index : Nat) :
    Except Error (Option (List Word)) :=
  match property "proof" item with
  | none => .ok none
  | some (.array nodes) =>
      if nodes.length > 64 then .error (entryInvalid index " proof")
      else
        match nodes.mapM hexWord? with
        | some words => .ok (some words)
        | none => .error (entryInvalid index " proof")
  | some _ => .error (entryInvalid index " proof")

def mintParamsOf (params : List (Text × Document Scalar)) (index : Nat) :
    Except Error MintParams := do
  let mintPrice ← num params index "mintPrice"
  let maxTotalMintableByWallet ← num params index "maxTotalMintableByWallet"
  let startTime ← num params index "startTime"
  let endTime ← num params index "endTime"
  let dropStageIndex ← num params index "dropStageIndex"
  let maxTokenSupplyForStage ← num params index "maxTokenSupplyForStage"
  let feeBps ← num params index "feeBps"
  match property "restrictFeeRecipients" params with
  | some (.leaf (.boolean restrictFeeRecipients)) =>
      .ok { mintPrice, maxTotalMintableByWallet, startTime, endTime, dropStageIndex,
            maxTokenSupplyForStage, feeBps, restrictFeeRecipients }
  | _ => .error (entryInvalid index " restrictFeeRecipients")

def publishedEntry (row : Document Scalar) (index : Nat) :
    Except Error (PublishedEntry outside) :=
  let item := membersOf row
  match property "address" item, property "mintParams" item with
  | some (.leaf (.string address)), some params =>
      if valid : isAddress outside address = true then
        match params with
        | .leaf _ => .error (entryInvalid index "")
        | params => do
            let mintParams ← mintParamsOf (membersOf params) index
            let proof ← publishedProof item index
            .ok
              { address := checksumAddress outside address
                mintParams
                proof
                valid := isAddress_checksumAddress outside
                  (hasAddressShape_of_isAddress outside valid) }
      else .error (entryInvalid index "")
  | _, _ => .error (entryInvalid index "")

/-- The list of entries in a file, which may stand alone or under `entries`. -/
def rowsOf : Document Scalar → Option (List (Document Scalar))
  | .array rows => some rows
  | .object members =>
      match property "entries" members with
      | some (.array rows) => some rows
      | _ => none
  | .leaf _ => none

def parsePublishedList (text : Text) : Except Error (PublishedList outside) :=
  match parse text with
  | none => .error "ALLOWLIST_FILE_NOT_JSON"
  | some raw =>
      match rowsOf raw with
      | some rows =>
          if rows = [] ∨ rows.length > 100000 then
            .error "ALLOWLIST_FILE_SHAPE_INVALID: expected a list of entries (1 to 100000)"
          else do
            let entries ← rows.zipIdx.mapM fun row => publishedEntry outside row.1 row.2
            .ok
              { kind := if entries.all fun entry => entry.proof.isSome then .proofs else .fullList
                entries }
      | none => .error "ALLOWLIST_FILE_SHAPE_INVALID: expected a list of entries (1 to 100000)"

end MintBot.Allowlist
