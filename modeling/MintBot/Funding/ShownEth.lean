import MintBot.Funding.EthText
import MintBot.Library.TextReplace

/-!
# Balances and top-ups as the owner sees them

A balance is cut, so that it never says more than the wallet holds, and an amount
to be sent is rounded up.  Both go through the decimal text of an exact amount,
which a library writes.
-/

namespace MintBot

open DecimalText IntegerText

/-- The two conversions of the library: `parseEther` may throw. -/
structure EtherLibrary where
  formatEther : Wei → String
  parseEther : String → Option Wei

/-- An exact amount: the whole part, and behind a point its decimals without zeros at the end. -/
def exactEth (amount : Nat) : List Char :=
  let fraction := dropZeros (padded 18 (amount % weiPerEth))
  Nat.toDigits 10 (amount / weiPerEth) ++ if fraction = [] then [] else '.' :: fraction

/-- What the code relies on: an amount is written exactly. -/
structure EtherLibrary.Exact (library : EtherLibrary) : Prop where
  formatEther_natCast (amount : Nat) : library.formatEther amount = String.ofList (exactEth amount)

namespace EtherLibrary

variable (library : EtherLibrary)

/-- `shortEth`. -/
def shortEth (wei : Wei) : String :=
  if wei ≤ 0 then "0"
  else
    let chars := (library.formatEther wei).toList
    let whole := chars.takeWhile (· != '.')
    let fraction := ((chars.dropWhile (· != '.')).drop 1).takeWhile (· != '.')
    if whole ≠ ['0'] then
      let decimals := dropZeros (fraction.take 3)
      String.ofList (if decimals = [] then whole else whole ++ '.' :: decimals)
    else
      match firstSignificant fraction with
      | none => "0"
      | some place => String.ofList ('0' :: '.' :: dropZeros (fraction.take (place + 3)))

/-- `roundUpEth`. -/
def roundUpEth (wei : Wei) : String :=
  let unit : Wei := 10 ^ 12
  let rounded := (wei + unit - 1).tdiv unit * unit
  library.formatEther rounded

/-- A balance as a plan note writes it. -/
def balanceText (value : List Char) : List Char :=
  '(' :: value ++ [' ', 'E', 'T', 'H', ')']

/-- The number of a balance with which a text starts: `\((\d+\.\d+) ETH\)`. -/
def balanceAt : List Char → Option (List Char)
  | '(' :: chars =>
      let whole := chars.takeWhile Char.isDigit
      match chars.dropWhile Char.isDigit with
      | '.' :: rest =>
          let decimals := rest.takeWhile Char.isDigit
          if whole ≠ [] ∧ decimals ≠ [] ∧
              [' ', 'E', 'T', 'H', ')'] <+: rest.dropWhile Char.isDigit then
            some (whole ++ '.' :: decimals)
          else none
      | _ => none
  | _ => none

def shortBalance (value : List Char) : List Char :=
  match library.parseEther (String.ofList value) with
  | some wei => balanceText (library.shortEth wei).toList
  | none => balanceText value

/-- `shortenBalancesInParens`. -/
def shortenBalancesInParens (text : String) : String :=
  String.ofList
    (TextReplace.replaceAll balanceAt balanceText library.shortBalance text.toList)

/-! ## Reading an exact amount -/

theorem readDecimal_exactEth (amount : Nat) :
    readDecimal (String.ofList (exactEth amount)) = some ((amount : ℚ) / weiPerEth) := by
  have below : amount % weiPerEth < 10 ^ 18 := Nat.mod_lt _ (by decide)
  have worth : fraction (dropZeros (padded 18 (amount % weiPerEth))) =
      ((amount % weiPerEth : Nat) : ℚ) / 10 ^ 18 := by
    rw [fraction_dropZeros, fraction, ofDigitChars_padded, length_padded below (by decide)]
  have total : ((amount / weiPerEth : Nat) : ℚ) + ((amount % weiPerEth : Nat) : ℚ) / 10 ^ 18 =
      (amount : ℚ) / weiPerEth := by
    conv_rhs => rw [← Nat.div_add_mod amount weiPerEth]
    push_cast [weiPerEth]
    ring
  rw [exactEth, readDecimal_digits]
  by_cases nothing : dropZeros (padded 18 (amount % weiPerEth)) = []
  · rw [nothing, fraction_nil] at worth
    rw [if_pos nothing, List.append_nil, readUnsigned_whole, ← total, ← worth, add_zero]
  · rw [if_neg nothing, readUnsigned_point _ nothing, worth, total]
    exact isDigit_dropZeros fun char member => isDigit_padded member

theorem readEthWei_exactEth (amount : Nat) :
    readEthWei (String.ofList (exactEth amount)) = some (amount : ℚ) := by
  rw [readEthWei, readDecimal_exactEth, Option.map_some,
    div_mul_cancel₀ _ (by norm_num [weiPerEth])]

/-- The two parts of an exact amount. -/
theorem split_exactEth (amount : Nat) :
    (exactEth amount).takeWhile (· != '.') = Nat.toDigits 10 (amount / weiPerEth) ∧
      (((exactEth amount).dropWhile (· != '.')).drop 1).takeWhile (· != '.') =
        dropZeros (padded 18 (amount % weiPerEth)) := by
  have whole : ∀ char ∈ Nat.toDigits 10 (amount / weiPerEth), (char != '.') = true :=
    fun char member => not_point_of_isDigit (isDigit_toDigits _ member)
  have digits : ∀ char ∈ dropZeros (padded 18 (amount % weiPerEth)), (char != '.') = true :=
    fun char member => not_point_of_isDigit
      (isDigit_dropZeros (fun char member => isDigit_padded member) char member)
  dsimp only [exactEth]
  by_cases nothing : dropZeros (padded 18 (amount % weiPerEth)) = []
  · rw [if_pos nothing, List.append_nil, List.takeWhile_eq_self_iff.mpr whole,
      List.dropWhile_eq_nil_iff.mpr whole, nothing]
    exact ⟨rfl, rfl⟩
  · rw [if_neg nothing, (takeWhile_toDigits _ _).1, (takeWhile_toDigits _ _).2, List.drop_one,
      List.tail_cons, List.takeWhile_eq_self_iff.mpr digits]
    exact ⟨rfl, rfl⟩

/-! ## What a shown balance keeps -/

/-- The last `places` decimals of the wei amount are cut off: all but the first three behind the
point from 1 ETH up, all but the three leading digits below. -/
def CutAt (wei places : Nat) : Prop :=
  if weiPerEth ≤ wei then places = 15
  else wei < 10 ^ (places + 3) ∧ (places = 0 ∨ 10 ^ (places + 2) ≤ wei)

variable {library}

/-- An amount cut at some place, in wei. -/
theorem cut_mul_weiPerEth (wei : Nat) {places : Nat} (inside : places ≤ 18) :
    ((wei / 10 ^ places : Nat) : ℚ) / 10 ^ (18 - places) * weiPerEth =
      ((wei / 10 ^ places * 10 ^ places : Nat) : ℚ) := by
  have weight : (weiPerEth : ℚ) = 10 ^ (18 - places) * 10 ^ places := by
    rw [← pow_add, Nat.sub_add_cancel inside]
    norm_num [weiPerEth]
  have nonzero : (10 : ℚ) ^ (18 - places) ≠ 0 := pow_ne_zero _ (by norm_num)
  rw [weight, ← mul_assoc, div_mul_cancel₀ _ nonzero, Nat.cast_mul, Nat.cast_pow, Nat.cast_ofNat]

/-- A shown balance by the parts of the exact amount. -/
theorem shortEth_natCast (exact : library.Exact) {wei : Nat} (positive : 0 < wei) :
    library.shortEth wei =
      if Nat.toDigits 10 (wei / weiPerEth) ≠ ['0'] then
        let decimals := dropZeros ((dropZeros (padded 18 (wei % weiPerEth))).take 3)
        String.ofList (if decimals = [] then Nat.toDigits 10 (wei / weiPerEth)
          else Nat.toDigits 10 (wei / weiPerEth) ++ '.' :: decimals)
      else
        match firstSignificant (padded 18 (wei % weiPerEth)) with
        | none => "0"
        | some place =>
            String.ofList
              ('0' :: '.' ::
                dropZeros ((dropZeros (padded 18 (wei % weiPerEth))).take (place + 3))) := by
  have counts : ¬ (wei : Int) ≤ 0 := by omega
  rw [shortEth, if_neg counts]
  dsimp only
  rw [exact.formatEther_natCast, String.toList_ofList, (split_exactEth wei).1,
    (split_exactEth wei).2, firstSignificant_dropZeros]

/-- From 1 ETH up. -/
theorem readEthWei_shortEth_large (exact : library.Exact) {wei : Nat} (large : weiPerEth ≤ wei) :
    readEthWei (library.shortEth wei) = some ((wei / 10 ^ 15 * 10 ^ 15 : Nat) : ℚ) := by
  have below : wei % weiPerEth < 10 ^ 18 := Nat.mod_lt _ (by decide)
  have positive : 0 < wei := Nat.lt_of_lt_of_le (by decide) large
  have whole : Nat.toDigits 10 (wei / weiPerEth) ≠ ['0'] := by
    intro zero
    have value := Nat.ofDigitChars_ten_toDigits (n := wei / weiPerEth)
    rw [zero] at value
    have none : wei / weiPerEth = 0 := value.symm
    rcases Nat.div_eq_zero_iff.mp none with impossible | small
    · exact absurd impossible (by decide)
    · omega
  have worth : fraction (dropZeros ((dropZeros (padded 18 (wei % weiPerEth))).take 3)) =
      ((wei % weiPerEth / 10 ^ 15 : Nat) : ℚ) / 10 ^ 3 := by
    rw [fraction_dropZeros, fraction_take_dropZeros, fraction_take_padded below (by decide)
      (by decide)]
  have places : wei / weiPerEth * 10 ^ 18 + wei % weiPerEth / 10 ^ 15 * 10 ^ 15 =
      wei / 10 ^ 15 * 10 ^ 15 := by
    unfold weiPerEth
    omega
  have total : ((wei / weiPerEth : Nat) + ((wei % weiPerEth / 10 ^ 15 : Nat) : ℚ) / 10 ^ 3) *
      weiPerEth = ((wei / 10 ^ 15 * 10 ^ 15 : Nat) : ℚ) := by
    rw [← places]
    push_cast [weiPerEth]
    ring
  rw [shortEth_natCast exact positive, if_pos whole, readEthWei]
  dsimp only
  by_cases nothing : dropZeros ((dropZeros (padded 18 (wei % weiPerEth))).take 3) = []
  · rw [nothing, fraction_nil] at worth
    rw [if_pos nothing, ← List.append_nil (Nat.toDigits 10 _), readDecimal_digits, List.append_nil,
      readUnsigned_whole, Option.map_some, ← total, ← worth, add_zero]
  · have digits : ∀ char ∈ dropZeros ((dropZeros (padded 18 (wei % weiPerEth))).take 3),
        char.isDigit = true := by
      refine isDigit_dropZeros fun char member => ?_
      exact isDigit_dropZeros (fun char member => isDigit_padded member) char
        (List.mem_of_mem_take member)
    rw [if_neg nothing, readDecimal_digits, readUnsigned_point _ nothing digits, worth,
      Option.map_some, total]

/-- Below 1 ETH. -/
theorem readEthWei_shortEth_small (exact : library.Exact) {wei : Nat} (positive : 0 < wei)
    (small : wei < weiPerEth) :
    ∃ places, (wei < 10 ^ (places + 3) ∧ (places = 0 ∨ 10 ^ (places + 2) ≤ wei)) ∧
      readEthWei (library.shortEth wei) = some ((wei / 10 ^ places * 10 ^ places : Nat) : ℚ) := by
  have digitsOnly : ∀ char ∈ padded 18 wei, char.isDigit = true :=
    fun char member => isDigit_padded member
  have length : (padded 18 wei).length = 18 := length_padded small (by decide)
  cases first : firstSignificant (padded 18 wei) with
  | none =>
      have zero := ofDigitChars_insignificant digitsOnly first
      rw [ofDigitChars_padded] at zero
      omega
  | some place =>
      obtain ⟨inside, atLeast, below⟩ := ofDigitChars_bounds digitsOnly first
      rw [length] at inside atLeast below
      rw [ofDigitChars_padded] at atLeast below
      have shown : (padded 18 wei).take (place + 3) = (padded 18 wei).take (18 - (15 - place)) := by
        by_cases short : place ≤ 15
        · congr 1
          omega
        · rw [List.take_of_length_le (by omega), List.take_of_length_le (by omega)]
      have worth : fraction (dropZeros ((dropZeros (padded 18 wei)).take (place + 3))) =
          ((wei / 10 ^ (15 - place) : Nat) : ℚ) / 10 ^ (18 - (15 - place)) := by
        rw [fraction_dropZeros, fraction_take_dropZeros, shown,
          fraction_take_padded small (by decide) (Nat.sub_le _ _)]
        congr 4
        omega
      have kept : 10 ^ (15 - place) ≤ wei :=
        (Nat.pow_le_pow_right (by decide) (by omega)).trans atLeast
      have some_digit : dropZeros ((dropZeros (padded 18 wei)).take (place + 3)) ≠ [] := by
        intro nothing
        rw [nothing, fraction_nil, eq_comm, div_eq_zero_iff] at worth
        rcases worth with zero | impossible
        · have none : wei / 10 ^ (15 - place) = 0 := by exact_mod_cast zero
          have some := Nat.div_pos kept (Nat.pow_pos (by decide))
          omega
        · exact absurd impossible (pow_ne_zero _ (by norm_num))
      have digits : ∀ char ∈ dropZeros ((dropZeros (padded 18 wei)).take (place + 3)),
          char.isDigit = true := by
        refine isDigit_dropZeros fun char member => ?_
        exact isDigit_dropZeros digitsOnly char (List.mem_of_mem_take member)
      refine ⟨15 - place, ⟨below.trans_le (Nat.pow_le_pow_right (by decide) (by omega)), ?_⟩, ?_⟩
      · by_cases short : place < 15
        · right
          rwa [show 15 - place + 2 = 18 - place - 1 by omega]
        · left
          omega
      · have noWhole : wei / weiPerEth = 0 := Nat.div_eq_of_lt small
        have zero : Nat.toDigits 10 0 = ['0'] := rfl
        rw [shortEth_natCast exact positive, noWhole, Nat.mod_eq_of_lt small, zero, first,
          if_neg (not_not_intro rfl)]
        dsimp only
        have read := readDecimal_digits 0
          ('.' :: dropZeros ((dropZeros (padded 18 wei)).take (place + 3)))
        rw [readUnsigned_point 0 some_digit digits, worth, zero] at read
        rw [readEthWei]
        change Option.map _ (readDecimal (String.ofList (['0'] ++ '.' :: _))) = _
        rw [read, Option.map_some]
        rw [Nat.cast_zero, zero_add, cut_mul_weiPerEth wei (by omega)]

/-- A balance is shown with its leading digits, the others cut off. -/
theorem readEthWei_shortEth (exact : library.Exact) (wei : Nat) :
    ∃ places, CutAt wei places ∧
      readEthWei (library.shortEth wei) = some ((wei / 10 ^ places * 10 ^ places : Nat) : ℚ) := by
  by_cases large : weiPerEth ≤ wei
  · exact ⟨15, by rw [CutAt, if_pos large], readEthWei_shortEth_large exact large⟩
  · rw [Nat.not_le] at large
    rcases Nat.eq_zero_or_pos wei with rfl | positive
    · refine ⟨0, by rw [CutAt, if_neg (Nat.not_le.mpr large)]; exact ⟨by decide, .inl rfl⟩, ?_⟩
      have zero := readEthWei_exactEth 0
      have text : library.shortEth (0 : Nat) = String.ofList (exactEth 0) := by
        rw [shortEth, if_pos (by simp)]
        rfl
      rw [text, zero]
      simp
    · obtain ⟨places, cut, read⟩ := readEthWei_shortEth_small exact positive large
      exact ⟨places, by rwa [CutAt, if_neg (Nat.not_le.mpr large)], read⟩

/-! ## What an amount to be sent covers -/

/-- A shortfall is rounded up by less than one millionth of an ETH. -/
theorem readEthWei_roundUpEth (exact : library.Exact) {shortfall : Wei} (positive : 0 < shortfall) :
    ∃ amount : Wei, readEthWei (library.roundUpEth shortfall) = some (amount : ℚ) ∧
      shortfall ≤ amount ∧ amount < shortfall + 10 ^ 12 := by
  obtain ⟨missing, rfl⟩ := Int.eq_ofNat_of_zero_le positive.le
  let rounded : Nat := (missing + 10 ^ 12 - 1) / 10 ^ 12 * 10 ^ 12
  have same : ((missing : Int) + 10 ^ 12 - 1).tdiv (10 ^ 12) * 10 ^ 12 = (rounded : Int) := by
    have above : (0 : Int) ≤ (missing : Int) + 10 ^ 12 - 1 := by omega
    rw [Int.tdiv_eq_ediv_of_nonneg above]
    simp only [rounded]
    omega
  have bounds : missing ≤ rounded ∧ rounded < missing + 10 ^ 12 := by
    simp only [rounded]
    omega
  refine ⟨rounded, ?_, by exact_mod_cast bounds.1, by exact_mod_cast bounds.2⟩
  rw [roundUpEth, same, exact.formatEther_natCast, readEthWei_exactEth]
  rfl

/-! ## What shortening leaves alone -/

/-- Digits, a point and digits. -/
def IsDecimal (value : List Char) : Prop :=
  ∃ whole decimals : List Char, value = whole ++ '.' :: decimals ∧ whole ≠ [] ∧ decimals ≠ [] ∧
    (∀ char ∈ whole, char.isDigit = true) ∧ ∀ char ∈ decimals, char.isDigit = true

theorem balanceAt_spec {text value : List Char} (found : value ∈ balanceAt text) :
    balanceText value <+: text ∧ IsDecimal value := by
  unfold balanceAt at found
  split at found
  · rename_i chars
    split at found
    · rename_i rest point
      dsimp only at found
      split at found
      · rename_i shape
        obtain ⟨whole, decimals, closed⟩ := shape
        obtain rfl := Option.some.inj found
        refine ⟨?_, _, _, rfl, whole, decimals, ?_, ?_⟩
        · obtain ⟨behind, closes⟩ := closed
          refine ⟨behind, ?_⟩
          conv_rhs => rw [← List.takeWhile_append_dropWhile (p := Char.isDigit) (l := chars), point,
            ← List.takeWhile_append_dropWhile (p := Char.isDigit) (l := rest), ← closes]
          simp [balanceText]
        · exact fun char member => List.mem_takeWhile_imp member
        · exact fun char member => List.mem_takeWhile_imp member
      · cases found
    · cases found
  · cases found

/-- Two texts that differ in the numbers of balances only. -/
def SameButBalances (before after : String) (shortened : List Char → List Char) : Prop :=
  ∃ pieces : List (Char ⊕ List Char),
    before = String.ofList (TextReplace.join balanceText pieces) ∧
      after = String.ofList (TextReplace.join shortened pieces) ∧
      ∀ value, .inr value ∈ pieces → IsDecimal value

theorem shortenBalancesInParens_same (text : String) :
    SameButBalances text (library.shortenBalancesInParens text) library.shortBalance := by
  have starts : ∀ chars, ∀ value ∈ balanceAt chars, balanceText value <+: chars :=
    fun chars value found => (balanceAt_spec found).1
  have nonempty : ∀ value, balanceText value ≠ [] := fun value => List.cons_ne_nil _ _
  obtain ⟨pieces, same, replaced, known⟩ :=
    TextReplace.replaceAll_pieces library.shortBalance starts nonempty text.toList
  refine ⟨pieces, ?_, ?_, fun value member => ?_⟩
  · rw [← same, String.ofList_toList]
  · rw [shortenBalancesInParens, replaced]
  · obtain ⟨rest, found⟩ := known value member
    exact (balanceAt_spec found).2

end EtherLibrary

end MintBot
