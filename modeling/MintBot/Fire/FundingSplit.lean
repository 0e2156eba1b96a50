import MintBot.Funding.ShownEth
import MintBot.Library.Fallible

/-!
# Which wallets of a fire are funded

`fundingSplit` puts every wallet of a fire with the funded ones or names what it
lacks.  The amount it asks for is written as text.  Sent exactly, it funds the
wallet, and it is less than one millionth of an ETH more than the wallet lacks.
-/

namespace MintBot

open Fallible

/-- `requiredPerWallet`. -/
def requiredPerWallet (campaign : Campaign) : Except Error Wei := do
  let some fee := campaign.feePolicy.totalFeeBudgetWei
    | .error "TOTAL_FEE_BUDGET_REQUIRED"
  return campaign.mintPriceWei * campaign.quantity + fee

structure ShortWallet where
  wallet : String
  why : String
  deriving DecidableEq, Repr

structure FundingSplit where
  funded : List String := []
  short : List ShortWallet := []
  deriving DecidableEq, Repr

namespace EtherLibrary

variable (library : EtherLibrary)

/-- The words for a wallet that lacks funds. -/
def askText (required balance : Wei) (amount : String) : String :=
  "it holds " ++ library.shortEth balance ++ " ETH and a run needs at least " ++
    formatEth required ++ " ETH: send " ++ amount ++ " ETH more first (see /funding)"

def usedText : String :=
  "this campaign already has an attempt for this wallet (kept as a permanent record), " ++
    "so it cannot be used again on it: prepare a new campaign with /prepare"

def unreadText : String :=
  "its balance could not be read"

/-- What a wallet lacks, if anything.  A balance that could not be read is none. -/
def lacks (campaignWalletsUsed : List String) (required : Wei) (wallet : String)
    (balance : Option Wei) : Option String :=
  if toLowerCase wallet ∈ campaignWalletsUsed then
    some usedText
  else
    match balance with
    | none => some unreadText
    | some balance =>
        if balance < required then
          some (library.askText required balance (library.roundUpEth (required - balance)))
        else none

/-- `fundingSplit`.  The balance of each wallet is read in turn; `balanceOf` answers by the place
of the wallet in the list. -/
def fundingSplit (campaignWalletsUsed : List String) (balanceOf : Nat → Option Wei)
    (campaign : Campaign) (wallets : List String) : Except Error FundingSplit := do
  let required ← requiredPerWallet campaign
  return wallets.zipIdx.foldl (fun split entry =>
    match library.lacks campaignWalletsUsed required entry.1 (balanceOf entry.2) with
    | some why => { split with short := split.short ++ [⟨entry.1, why⟩] }
    | none => { split with funded := split.funded ++ [entry.1] }) {}

variable {library} {campaignWalletsUsed : List String} {balanceOf : Nat → Option Wei}
variable {campaign : Campaign} {wallets : List String} {fee : Wei}

/-- Both lists of the split, from the wallets one by one. -/
theorem foldl_lacks (required : Wei) (entries : List (String × Nat)) (start : FundingSplit) :
    entries.foldl (fun split entry =>
      match library.lacks campaignWalletsUsed required entry.1 (balanceOf entry.2) with
      | some why => { split with short := split.short ++ [⟨entry.1, why⟩] }
      | none => { split with funded := split.funded ++ [entry.1] }) start =
      { funded := start.funded ++ (entries.filter fun entry =>
          library.lacks campaignWalletsUsed required entry.1 (balanceOf entry.2) = none).map Prod.fst
        short := start.short ++ entries.filterMap fun entry =>
          (library.lacks campaignWalletsUsed required entry.1 (balanceOf entry.2)).map
            (ShortWallet.mk entry.1) } := by
  induction entries generalizing start with
  | nil => simp
  | cons entry entries inductionHypothesis =>
      rw [List.foldl_cons, inductionHypothesis]
      cases lacking : library.lacks campaignWalletsUsed required entry.1 (balanceOf entry.2) with
      | none => simp [lacking]
      | some why => simp [lacking]

/-- What one wallet of the campaign needs. -/
def needed (campaign : Campaign) (fee : Wei) : Wei :=
  campaign.mintPriceWei * campaign.quantity + fee

theorem fundingSplit_ok (budget : campaign.feePolicy.totalFeeBudgetWei = some fee) :
    library.fundingSplit campaignWalletsUsed balanceOf campaign wallets = .ok
      { funded := (wallets.zipIdx.filter fun entry =>
          library.lacks campaignWalletsUsed (needed campaign fee) entry.1
            (balanceOf entry.2) = none).map Prod.fst
        short := wallets.zipIdx.filterMap fun entry =>
          (library.lacks campaignWalletsUsed (needed campaign fee) entry.1
            (balanceOf entry.2)).map (ShortWallet.mk entry.1) } := by
  rw [fundingSplit, requiredPerWallet, budget]
  exact congrArg Except.ok (foldl_lacks _ _ _)

/-- A wallet that lacks nothing at its place is funded. -/
theorem funded_of_lacks (budget : campaign.feePolicy.totalFeeBudgetWei = some fee)
    {place : Nat} {wallet : String} (listed : wallets[place]? = some wallet)
    (nothing : library.lacks campaignWalletsUsed (needed campaign fee) wallet
      (balanceOf place) = none) :
    ∃ split, library.fundingSplit campaignWalletsUsed balanceOf campaign wallets = .ok split ∧
      wallet ∈ split.funded := by
  refine ⟨_, fundingSplit_ok budget, List.mem_map.mpr ⟨(wallet, place), ?_, rfl⟩⟩
  exact List.mem_filter.mpr ⟨List.mem_zipIdx_iff_getElem?.mpr listed, decide_eq_true nothing⟩

/-- The words of an entry ask for an amount.  Read as a number of ETH it makes up what the wallet
lacks, and less than one millionth of an ETH more. -/
structure AsksEnough (library : EtherLibrary) (required balance amount : Wei) (why : String) :
    Prop where
  words : ∃ text, why = library.askText required balance text ∧
    readEthWei text = some (amount : ℚ)
  enough : required ≤ balance + amount
  close : balance + amount < required + 10 ^ 12

theorem asksEnough_of_lacks (exact : library.Exact) {required balance : Wei}
    (lacking : balance < required) :
    ∃ amount, AsksEnough library required balance amount
      (library.askText required balance (library.roundUpEth (required - balance))) := by
  obtain ⟨amount, read, enough, close⟩ :=
    readEthWei_roundUpEth exact (Int.sub_pos.mpr lacking)
  exact ⟨amount, ⟨_, rfl, read⟩, by linarith, by linarith⟩

/-- Every ground for which a wallet is short. -/
theorem lacks_eq_some {required : Wei} {wallet why : String} {balance : Option Wei}
    (exact : library.Exact)
    (lacking : library.lacks campaignWalletsUsed required wallet balance = some why) :
    toLowerCase wallet ∈ campaignWalletsUsed ∧ why = usedText ∨
      balance = none ∧ why = unreadText ∨
      ∃ held amount, balance = some held ∧ AsksEnough library required held amount why ∧
        library.lacks campaignWalletsUsed required wallet (some (held + amount)) = none := by
  unfold lacks at lacking ⊢
  by_cases used : toLowerCase wallet ∈ campaignWalletsUsed
  · rw [if_pos used] at lacking
    exact .inl ⟨used, (Option.some.inj lacking).symm⟩
  · simp only [if_neg used] at lacking ⊢
    cases balance with
    | none => exact .inr (.inl ⟨rfl, (Option.some.inj lacking).symm⟩)
    | some held =>
        dsimp only at lacking
        split at lacking
        · rename_i short
          obtain rfl := Option.some.inj lacking
          obtain ⟨amount, asks⟩ := asksEnough_of_lacks exact short
          exact .inr (.inr ⟨held, amount, rfl, asks, if_neg (Int.not_lt.mpr asks.enough)⟩)
        · cases lacking

/-- A wallet that is told to receive an amount is funded after exactly that transfer, balances are
shown cut, and shortening touches nothing but balances. -/
theorem topUp_enough (exact : library.Exact) :
    (∀ (campaign : Campaign) (fee : Wei) (campaignWalletsUsed : List String)
        (balanceOf : Nat → Option Wei) (wallets : List String),
      campaign.feePolicy.totalFeeBudgetWei = some fee →
      ∃ split, library.fundingSplit campaignWalletsUsed balanceOf campaign wallets = .ok split ∧
        ∀ entry ∈ split.short, ∃ place, wallets[place]? = some entry.wallet ∧
          (toLowerCase entry.wallet ∈ campaignWalletsUsed ∧ entry.why = usedText ∨
            balanceOf place = none ∧ entry.why = unreadText ∨
            ∃ held amount, balanceOf place = some held ∧
              AsksEnough library (needed campaign fee) held amount entry.why ∧
              ∀ after : Nat → Option Wei, after place = some (held + amount) →
                ∃ later, library.fundingSplit campaignWalletsUsed after campaign wallets =
                  .ok later ∧ entry.wallet ∈ later.funded)) ∧
    (∀ wei : Nat, ∃ places, CutAt wei places ∧
      readEthWei (library.shortEth wei) = some ((wei / 10 ^ places * 10 ^ places : Nat) : ℚ) ∧
        wei / 10 ^ places * 10 ^ places ≤ wei) ∧
    ∀ text, SameButBalances text (library.shortenBalancesInParens text) library.shortBalance := by
  refine ⟨fun campaign fee campaignWalletsUsed balanceOf wallets budget => ?_, fun wei => ?_,
    shortenBalancesInParens_same⟩
  · refine ⟨_, fundingSplit_ok budget, ?_⟩
    intro entry member
    obtain ⟨⟨wallet, place⟩, listed, made⟩ := List.mem_filterMap.mp member
    obtain ⟨why, lacking, rfl⟩ := Option.map_eq_some_iff.mp made
    have atPlace := List.mem_zipIdx_iff_getElem?.mp listed
    refine ⟨place, atPlace, ?_⟩
    rcases lacks_eq_some exact lacking with used | unread | ⟨held, amount, read, asks, funded⟩
    · exact .inl used
    · exact .inr (.inl unread)
    · refine .inr (.inr ⟨held, amount, read, asks, fun after transferred => ?_⟩)
      refine funded_of_lacks budget atPlace ?_
      rw [transferred]
      exact funded
  · obtain ⟨places, cut, read⟩ := readEthWei_shortEth exact wei
    exact ⟨places, cut, read, Nat.div_mul_le_self _ _⟩

end EtherLibrary

/-! ## A wallet that lacks one wei -/

open EtherLibrary

namespace TopUpSample

/-- The library on amounts that are not negative. -/
def library : EtherLibrary where
  formatEther wei := String.ofList (exactEth wei.natAbs)
  parseEther text := (readEthWei text).map Rat.floor

theorem library_exact : library.Exact :=
  ⟨fun _ => rfl⟩

def campaign : Campaign where
  id := "c"
  chainId := .ethereum
  quantity := 2
  mintPriceWei := 5
  broadcastMode := none
  spendPolicy := ⟨0, 0, 0⟩
  feePolicy := ⟨.paid, 0, none, none, some 91, none⟩

end TopUpSample

open TopUpSample in
/-- The wallet holds 100 wei of the 101 that it needs. -/
theorem topUp_enough_one_wei :
    ∃ split, library.fundingSplit [] (fun _ => some 100) campaign ["w"] = .ok split ∧
      ∃ entry ∈ split.short, ∃ amount, AsksEnough library 101 100 amount entry.why := by
  obtain ⟨covers, -⟩ := topUp_enough library_exact
  obtain ⟨split, same, others⟩ := covers campaign 91 [] (fun _ => some 100) ["w"] rfl
  have computed : (library.fundingSplit [] (fun _ => some 100) campaign ["w"]).toOption.map
      (fun split => split.short.length) = some 1 := by
    decide +kernel
  rw [same] at computed
  obtain ⟨entry, only⟩ := List.length_eq_one_iff.mp (Option.some.inj computed)
  have member : entry ∈ split.short := only ▸ List.mem_singleton_self entry
  obtain ⟨place, -, used | unread | ⟨held, amount, read, asks, -⟩⟩ := others entry member
  · cases used.1
  · cases unread.1
  · obtain rfl := Option.some.inj read
    exact ⟨split, same, entry, member, amount, asks⟩

end MintBot
