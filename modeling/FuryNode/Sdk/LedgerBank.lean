import FuryNode.Sdk.World

/-!
A bank that keeps its balances in a function, and an environment around it. It shows
that what is assumed of the SDK can be met, and it runs the model on fixed states.
-/
namespace FuryNode.LedgerBank
open StatefulProgram

abbrev Balances := AccAddress → String → ℕ

/-- The addresses of modules start with a zero byte, those of accounts do not. -/
def moduleAddress (moduleName : String) : AccAddress :=
  ⟨0 :: moduleName.toList.map (fun c => c.toNat.toUInt8)⟩

def isModule (a : AccAddress) : Bool := a.bytes.head? = some 0

def covers (b : Balances) (sender : AccAddress) (amt : Coins) : Prop :=
  ∀ c ∈ amt, amountOf amt c.denom ≤ b sender c.denom

instance (b : Balances) (sender : AccAddress) (amt : Coins) : Decidable (covers b sender amt) :=
  inferInstanceAs (Decidable (∀ c ∈ amt, _))

def moved (b : Balances) (sender recipient : AccAddress) (amt : Coins) : Balances := fun a d =>
  b a d - (if a = sender then amountOf amt d else 0) + (if a = recipient then amountOf amt d else 0)

def transfer (b : Balances) (sender recipient : AccAddress) (amt : Coins) :
    Except BankFailure Balances :=
  if covers b sender amt then .ok (moved b sender recipient amt) else .error .refused

theorem amountOf_absent {amt : Coins} {d : String} (absent : ∀ c ∈ amt, c.denom ≠ d) :
    amountOf amt d = 0 := by
  induction amt with
  | nil => rfl
  | cons c rest ih =>
    rw [amountOf_cons, ih (fun e member => absent e (by simp [member]))]
    simp [absent c (by simp)]

theorem covers_all {b : Balances} {sender : AccAddress} {amt : Coins}
    (enough : covers b sender amt) (d : String) : amountOf amt d ≤ b sender d := by
  by_cases present : ∃ c ∈ amt, c.denom = d
  · obtain ⟨c, member, rfl⟩ := present
    exact enough c member
  · have absent : ∀ c ∈ amt, c.denom ≠ d := by
      intro c member same
      exact present ⟨c, member, same⟩
    rw [amountOf_absent absent]
    exact Nat.zero_le _

theorem transfer_moves {b b' : Balances} {sender recipient : AccAddress} {amt : Coins}
    (sent : transfer b sender recipient amt = .ok b') :
    Moves b b' sender recipient (amountOf amt) := by
  unfold transfer at sent
  split at sent
  · rename_i enough
    cases sent
    intro a d
    have bound := covers_all enough d
    by_cases same : a = sender
    · subst same
      simp only [moved, ↓reduceIte]
      omega
    · simp only [moved, same, ↓reduceIte]
      omega
  · cases sent

def mint (b : Balances) (moduleName : String) (amt : Coins) : Except BankFailure Balances :=
  .ok (fun a d => b a d + (if a = moduleAddress moduleName then amountOf amt d else 0))

def burn (b : Balances) (moduleName : String) (amt : Coins) : Except BankFailure Balances :=
  if covers b (moduleAddress moduleName) amt then
    .ok (fun a d => b a d - (if a = moduleAddress moduleName then amountOf amt d else 0))
  else .error .panicked

def bank : BankKeeper Balances where
  moduleAddress := moduleAddress
  burners := [clpModuleName]
  getBalance b := b
  sendCoinsFromModuleToAccount b senderModule recipient amt :=
    if isModule recipient then .error .refused
    else transfer b (moduleAddress senderModule) recipient amt
  sendCoinsFromAccountToModule b sender recipientModule amt :=
    transfer b sender (moduleAddress recipientModule) amt
  mintCoins := mint
  burnCoins := burn
  fromModule_moves := by
    intro b b' senderModule recipient amt sent
    split at sent
    · cases sent
    · exact transfer_moves sent
  toModule_moves := by
    intro b b' sender recipientModule amt sent
    exact transfer_moves sent
  fromModule_blocked := by
    intro b b' senderModule recipientModule amt
    simp [isModule, moduleAddress]
  mint_adds := by
    intro b b' moduleName amt minted a d
    cases minted
    rfl
  burn_removes := by
    intro b b' moduleName amt burned a d
    unfold burn at burned
    split at burned
    · rename_i enough
      cases burned
      have bound := covers_all enough d
      by_cases same : a = moduleAddress moduleName
      · subst same
        simp only [↓reduceIte]
        omega
      · simp only [same, ↓reduceIte]
        omega
    · cases burned
  burn_succeeds := by
    intro b moduleName amt _ enough
    have covered : covers b (moduleAddress moduleName) amt := fun c _ => enough c.denom
    exact ⟨_, by simp only [burn, covered, ↓reduceIte]; rfl⟩

def decode (s : String) : Option AccAddress :=
  if s = "alice" ∨ s = "ALICE" then some ⟨[1]⟩
  else if s = "bob" then some ⟨[2]⟩
  else if s = "carol" then some ⟨[3]⟩
  else none

def encode (a : AccAddress) : String :=
  if a.bytes = [1] then "alice" else if a.bytes = [2] then "bob" else "carol"

theorem decode_encode (s : String) (a : AccAddress) (decoded : decode s = some a) :
    decode (encode a) = some a := by
  unfold decode at decoded
  split at decoded
  · cases decoded
    decide
  · split at decoded
    · cases decoded
      decide
    · split at decoded
      · cases decoded
        decide
      · cases decoded

def env : Env Balances where
  bank := bank
  accAddressFromBech32 := decode
  addressString := encode
  validateDenom d := d.length ≥ 3
  canSign a := !isModule a
  mustFloat64 d := d.raw / 10 ^ 18
  decay _ _ := Dec.one
  decode_string := decode_encode
  module_cannot_sign := by
    intro moduleName
    simp [bank, isModule, moduleAddress]
  native_denom := by decide
  float_nonneg := by
    intro d nonneg
    exact div_nonneg (Int.cast_nonneg nonneg) (by norm_num)
  clp_burner := by simp [bank]

def clpParams : ClpParams where
  defaultSwapFeeRate := ⟨3 * 10 ^ 15⟩
  tokenParams := []
  pmtpCurrentRunningRate := Dec.zero
  liquidityProtectionIsActive := false
  maxFuryLiquidityThreshold := 0
  maxFuryLiquidityThresholdAsset := "cusd"
  liquidityRemovalLockPeriod := 0
  liquidityRemovalCancelPeriod := 0
  rewardPeriods := []
  distributionPeriods := []
  enableRemovalQueue := false
  clpWhiteList := some ["carol"]
  registry := ["fury", "ceth", "cusd"].map (fun denom => ⟨denom, [.clp]⟩)

def marginParams : MarginParams where
  leverageMax := ⟨2 * 10 ^ 18⟩
  interestRateMax := ⟨3 * 10 ^ 18⟩
  interestRateMin := ⟨5 * 10 ^ 15⟩
  interestRateIncrease := ⟨10 ^ 17⟩
  interestRateDecrease := ⟨10 ^ 17⟩
  healthGainFactor := ⟨22 * 10 ^ 15⟩
  epochLength := 1
  pools := ["ceth"]
  closedPools := []
  removalQueueThreshold := ⟨2 * 10 ^ 17⟩
  maxOpenPositions := 10000
  poolOpenThreshold := ⟨65 * 10 ^ 16⟩
  forceCloseFundPercentage := ⟨10 ^ 17⟩
  forceCloseFundAddress := "carol"
  incrementalInterestPaymentFundPercentage := ⟨35 * 10 ^ 16⟩
  incrementalInterestPaymentFundAddress := "carol"
  safetyFactor := ⟨105 * 10 ^ 16⟩
  incrementalInterestPaymentEnabled := true
  whitelistingEnabled := false
  furyCollateralEnabled := true
  whitelist := []
  admins := ["carol"]

def block (height : ℤ) : BlockContext := ⟨height, "", clpParams, marginParams⟩

def genesis : World Balances where
  bank a _ := if isModule a then 0 else 10 ^ 30
  height := 1
  blockTime := ""
  pools := .empty
  providers := .empty
  requests := .empty
  queues := .empty
  clp := clpParams
  rewardPeriodStartTime := ""
  currentFuryLiquidityThreshold := 0
  blockDistributionAccu := 0
  mtps := .empty
  mtpCount := 0
  openMtpCount := 0
  sqBeginBlock _ := 0
  margin := marginParams
  events := []

/-- A healthy pool of 10^18 fury and 10^18 ceth, which the module account holds. -/
def cethPool : Pool where
  externalAsset := "ceth"
  nativeAssetBalance := 10 ^ 18
  externalAssetBalance := 10 ^ 18
  poolUnits := 10 ^ 18
  health := Dec.one

/-- The state with that pool and no position. -/
def pooled : World Balances :=
  { genesis with
    bank := fun a _ => if isModule a then 10 ^ 18 else 10 ^ 30
    pools := ⟨[cethPool], by simp⟩ }

end FuryNode.LedgerBank
