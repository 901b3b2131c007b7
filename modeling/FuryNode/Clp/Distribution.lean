import FuryNode.Clp.Keeper

/-!
The distributions of x/clp at the end of a block: fury of the pools to their
providers, and minted rewards to providers or pools. A Go map is a table here, a
pointer to a pool is the symbol of the pool, and `MapOrder` says in which order
the loops over maps run.
-/
namespace FuryNode
open StatefulProgram StatefulProgram.Prog KeyedTable

/-- An entry of `PoolFuryMap`, with the pool its key points to. -/
structure PoolFury where
  pool : Pool
  fury : ℕ
  deriving DecidableEq, Repr

/-- An entry of `LpFuryMap`. -/
structure LpFury where
  address : String
  fury : ℕ
  deriving DecidableEq, Repr

/-- An entry of `LpPoolMap`. -/
structure LpPools where
  address : String
  pools : List PoolAmount
  deriving DecidableEq, Repr

def PoolFury.key (e : PoolFury) : String := e.pool.externalAsset

abbrev PoolFuryMap := Table PoolFury.key
abbrev LpFuryMap := Table LpFury.address
abbrev LpPoolMap := Table LpPools.address

structure Collected where
  lpFury : LpFuryMap
  lpPools : LpPoolMap

def Collected.empty : Collected := ⟨.empty, .empty⟩

structure ValidLiquidityProvider where
  address : AccAddress
  lp : LiquidityProvider
  deriving DecidableEq, Repr

namespace ClpKeeper
variable {β : Type}

def emit (event : Event) : Action β Unit :=
  modify (fun w => { w with events := w.events ++ [event] })

def isActivePeriod (current : ℤ) (start stop : ℕ) : Bool :=
  int64 start ≤ current && current ≤ int64 stop

def findProviderDistributionPeriod (currentHeight : ℤ) (periods : List ProviderDistributionPeriod) :
    Option ProviderDistributionPeriod :=
  periods.find? (fun p =>
    isActivePeriod currentHeight p.distributionPeriodStartBlock p.distributionPeriodEndBlock)

/-- `IsDistributionBlockPure`: a remainder of machine integers. -/
def isDistributionBlockPure (blockHeight : ℤ) (startHeight mod : ℕ) : Fallible Bool :=
  if int64 mod = 0 then .error (.panic .divisionByZero)
  else .ok ((wrapInt64 (blockHeight - int64 startHeight)).tmod (int64 mod) = 0)

def isDistributionBlock (w : World β) : Fallible Bool :=
  match findProviderDistributionPeriod w.height w.clp.distributionPeriods with
  | none => .ok false
  | some period => isDistributionBlockPure w.height period.distributionPeriodStartBlock
      period.distributionPeriodMod

/-- `GetCurrentRewardPeriod`, with a modulus of zero read as one. -/
def getCurrentRewardPeriod (w : World β) : Option RewardPeriod :=
  (w.clp.rewardPeriods.find? (fun p => p.rewardPeriodStartBlock ≤ uint64OfInt w.height
      && uint64OfInt w.height ≤ p.rewardPeriodEndBlock)).map (fun p =>
    if p.rewardPeriodMod = 0 then { p with rewardPeriodMod := 1 } else p)

/-- `CalcBlockDistribution`: the length of the period is a `uint64`. -/
def calcBlockDistribution (period : RewardPeriod) : Fallible ℕ := do
  let allocation ← deref period.rewardPeriodAllocation
  Uint.quo allocation
    (uint64OfInt ((period.rewardPeriodEndBlock : ℤ) - period.rewardPeriodStartBlock + 1))

def getPoolMultiplier (asset : String) (period : RewardPeriod) : Dec :=
  match period.rewardPeriodPoolMultipliers.filterMap (fun m =>
      if asset = m.poolMultiplierAsset then m.multiplier else none) with
  | multiplier :: _ => multiplier
  | [] => period.rewardPeriodDefaultMultiplier

def calcProviderDistributionAmount (furyProviderDistribution : Dec)
    (totalPoolUnits providerPoolUnits : ℕ) : Fallible ℕ := do
  let providerPercentage ← (Dec.ofInt providerPoolUnits).quo (Dec.ofInt totalPoolUnits)
  let providerFury ← providerPercentage.mul furyProviderDistribution
  decRoundToUint providerFury

/-- What a provider gets once the running total is clipped, and the new total. -/
def clipShare (furyPdUint total providerFury : ℕ) : Fallible (ℕ × ℕ) := do
  let totalFuryDistribute ← Uint.add total providerFury
  if furyPdUint < totalFuryDistribute then do
    let before ← Uint.sub totalFuryDistribute providerFury
    let rest ← Uint.sub furyPdUint before
    pure (rest, furyPdUint)
  else pure (providerFury, totalFuryDistribute)

/-- The maps after `providerFury` of a pool was attributed to an address. -/
def recordShare (maps : Collected) (addr symbol : String) (providerFury : ℕ) : Fallible Collected := do
  let globalLpFury := (maps.lpFury.get addr).elim 0 LpFury.fury
  let fury ← Uint.add globalLpFury providerFury
  let globalLpPool := (maps.lpPools.get addr).elim [] LpPools.pools
  pure {
    lpFury := maps.lpFury.put ⟨addr, fury⟩
    lpPools := maps.lpPools.put ⟨addr, globalLpPool ++ [⟨symbol, providerFury⟩]⟩ }

/-- One provider of `CollectProviderDistribution`. -/
def collectShare (env : Env β) (symbol : String) (furyPd : Dec) (furyPdUint poolUnits : ℕ)
    (state : ℕ × Collected) (provider : ValidLiquidityProvider) : Fallible (ℕ × Collected) := do
  let providerFury ← calcProviderDistributionAmount furyPd poolUnits
    provider.lp.liquidityProviderUnits
  let (share, total) ← clipShare furyPdUint state.1 providerFury
  let maps ← recordShare state.2 (env.addressString provider.address) symbol share
  pure (total, maps)

def collectProviderDistribution (env : Env β) (symbol : String) (poolDepthFury blockRate : Dec)
    (poolUnits : ℕ) (lps : List ValidLiquidityProvider) (maps : Collected) :
    Fallible (ℕ × Collected) := do
  let furyPd ← blockRate.mul poolDepthFury
  let furyPdUint ← decRoundToUint furyPd
  lps.foldlM (collectShare env symbol furyPd furyPdUint poolUnits) (0, maps)

/-- The providers of an asset in `GetAllLiquidityProvidersPartitions`; the asset has a
    partition if there are any. -/
def partition (w : World β) (asset : String) : List LiquidityProvider :=
  (getAllLiquidityProviders w).filter (fun lp => lp.asset = asset)

def filterValidLiquidityProviders (env : Env β) :
    List LiquidityProvider → Action β (List ValidLiquidityProvider)
  | [] => pure []
  | lp :: rest =>
      match env.accAddressFromBech32 lp.liquidityProviderAddress with
      | none => do
          emit (.addressError lp.liquidityProviderAddress)
          filterValidLiquidityProviders env rest
      | some address => do
          let valid ← filterValidLiquidityProviders env rest
          pure (⟨address, lp⟩ :: valid)

def collectShares (env : Env β) (pool : Pool) (poolDepthFury : ℕ) (blockRate : Dec)
    (state : PoolFuryMap × Collected) : Action β (PoolFuryMap × Collected) := do
  let w ← read
  let lps ← filterValidLiquidityProviders env (partition w pool.externalAsset)
  let (furyToDistribute, maps) ← ofExcept (collectProviderDistribution env pool.externalAsset
    (Dec.ofInt poolDepthFury) blockRate pool.poolUnits lps state.2)
  pure (state.1.put ⟨pool, furyToDistribute⟩, maps)

/-- One pool of `CollectProviderDistributions`: a pool without providers is skipped. -/
def collectPool (env : Env β) (blockRate : Dec) (state : PoolFuryMap × Collected) (pool : Pool) :
    Action β (PoolFuryMap × Collected) := do
  let w ← read
  if partition w pool.externalAsset = [] then pure state
  else collectShares env pool pool.nativeAssetBalance blockRate state

def collectProviderDistributions (env : Env β) (pools : List Pool) (blockRate : Dec) :
    Action β (PoolFuryMap × Collected) :=
  accumulate (collectPool env blockRate) (.empty, .empty) pools

/-- `poolFuryMap[lpPool.Pool].Sub(lpPool.Amount)`. -/
def takeBack (poolFury : PoolFuryMap) (lpPool : PoolAmount) : Fallible PoolFuryMap :=
  match poolFury.get lpPool.pool with
  | none => .error (.panic .nilDereference)
  | some entry => do
      let fury ← Uint.sub entry.fury lpPool.amount
      pure (poolFury.put { entry with fury := fury })

/-- One recipient of `TransferProviderDistributionGeneric`. The address was decoded
    before, so the error of decoding it again is dropped. -/
def payRecipient (env : Env β) (errorKind successKind : String) (lpPools : LpPoolMap)
    (poolFury : PoolFuryMap) (recipient : LpFury) : Action β PoolFuryMap := do
  let addr := (env.accAddressFromBech32 recipient.address).getD ⟨[]⟩
  let coin ← ofExcept (newCoin env nativeSymbol recipient.fury)
  let coins ← ofExcept (newCoins [coin])
  let attributed := (lpPools.get recipient.address).elim [] LpPools.pools
  match ← Action.result (sendCoinsFromModuleToAccount env addr coins) with
  | .error _ => do
      emit (.payoutError errorKind addr)
      ofExcept (attributed.foldlM takeBack poolFury)
  | .ok _ => do
      emit (.payout successKind recipient.address recipient.fury attributed)
      pure poolFury

def transferProviderDistributionGeneric (env : Env β) (order : MapOrder) (poolFury : PoolFuryMap)
    (maps : Collected) (errorKind successKind : String) : Action β PoolFuryMap :=
  accumulate (payRecipient env errorKind successKind maps.lpPools) poolFury
    (order.arrange maps.lpFury.rows)

def removeFuryFromPool (env : Env β) (pool : Pool) (amount : ℕ) : Action β Unit := do
  require (amount ≤ pool.nativeAssetBalance) (.err .errPoolBalanceTooLow)
  let native ← ofExcept (Uint.sub pool.nativeAssetBalance amount)
  setPool env { pool with nativeAssetBalance := native }

def transferProviderDistribution (env : Env β) (order : MapOrder) (poolFury : PoolFuryMap)
    (maps : Collected) : Action β Unit := do
  let poolFury ← transferProviderDistributionGeneric env order poolFury maps
    "lppd/liquidity_provider_payout_error" "lppd/distribution"
  forEach (fun e => Action.ignoreError (removeFuryFromPool env e.pool e.fury))
    (order.arrange poolFury.rows)

def doProviderDistribution (env : Env β) : Action β (PoolFuryMap × Collected) := do
  let w ← read
  match findProviderDistributionPeriod w.height w.clp.distributionPeriods with
  | none => pure (.empty, .empty)
  | some period => collectProviderDistributions env w.pools.rows period.distributionPeriodBlockRate

def providerDistributionPolicyRun (env : Env β) (order : MapOrder) : Action β Unit := do
  let (poolFury, maps) ← doProviderDistribution env
  transferProviderDistribution env order poolFury maps

structure PoolReward where
  pool : Pool
  reward : ℕ
  deriving DecidableEq, Repr

def calcPoolDistribution (multiplier : Dec) (poolNativeBalance : ℕ) (totalDepth : Dec)
    (blockDistributionAmount : ℕ) : Fallible ℕ := do
  let weighted ← (Dec.ofInt poolNativeBalance).mul multiplier
  let weight ← weighted.quo totalDepth
  let poolDistribution ← weight.mul (Dec.ofInt blockDistributionAmount)
  decToUint poolDistribution

/-- The loop of `CollectPoolRewardTuples`, with what remains and what was collected. -/
def collectTuples (blockDistribution : ℕ) (totalDepth : Dec) (period : RewardPeriod) :
    List Pool → ℕ → ℕ → Fallible (List PoolReward × ℕ)
  | [], _, coinsToMint => pure ([], coinsToMint)
  | pool :: rest, remaining, coinsToMint =>
      if remaining = 0 then pure ([], coinsToMint)
      else do
        let poolDistribution ← calcPoolDistribution (getPoolMultiplier pool.externalAsset period)
          pool.nativeAssetBalance totalDepth blockDistribution
        if poolDistribution = 0 then
          collectTuples blockDistribution totalDepth period rest remaining coinsToMint
        else do
          let reward := min poolDistribution remaining
          let minted ← Uint.add coinsToMint reward
          let left ← Uint.sub remaining reward
          let (tuples, total) ← collectTuples blockDistribution totalDepth period rest left minted
          pure (⟨pool, reward⟩ :: tuples, total)

def collectPoolRewardTuples (pools : List Pool) (blockDistribution : ℕ) (totalDepth : Dec)
    (period : RewardPeriod) : Fallible (List PoolReward × ℕ) :=
  collectTuples blockDistribution totalDepth period pools blockDistribution 0

/-- The copy of a pool that a reward period works on: its counter starts at zero. -/
def resetDistributed (period : RewardPeriod) (height : ℕ) (pool : Pool) : Pool :=
  if height = period.rewardPeriodStartBlock then { pool with rewardPeriodNativeDistributed := 0 }
  else pool

/-- One pool of `calcTotalDepth`: the depth so far and the copies made so far. -/
def addDepth (env : Env β) (period : RewardPeriod) (height : ℕ) (state : Dec × List Pool)
    (pool : Pool) : Action β (Dec × List Pool) := do
  let weighted ← ofExcept ((Dec.ofInt pool.nativeAssetBalance).mul
    (getPoolMultiplier pool.externalAsset period))
  let totalDepth ← ofExcept (state.1.add weighted)
  when (height = period.rewardPeriodStartBlock)
    (setPool env (resetDistributed period height pool))
  pure (totalDepth, state.2 ++ [resetDistributed period height pool])

/-- `calcTotalDepth`: the depth, and the pools as it leaves them. -/
def calcTotalDepth (env : Env β) (pools : List Pool) (period : RewardPeriod) (height : ℕ) :
    Action β (Dec × List Pool) :=
  accumulate (addDepth env period height) (Dec.zero, []) pools

def addRewardsToPool (env : Env β) (pool : Pool) (poolDistribution : ℕ) : Action β Unit := do
  let native ← ofExcept (Uint.add pool.nativeAssetBalance poolDistribution)
  let distributed ← ofExcept (Uint.add pool.rewardPeriodNativeDistributed poolDistribution)
  Action.ignoreError (setPool env { pool with
    nativeAssetBalance := native, rewardPeriodNativeDistributed := distributed })

def collectReward (env : Env β) (state : PoolFuryMap × Collected) (e : PoolReward) :
    Action β (PoolFuryMap × Collected) := do
  let w ← read
  if partition w e.pool.externalAsset = [] then do
    addRewardsToPool env e.pool e.reward
    pure state
  else collectShares env e.pool e.reward Dec.one state

def countDistributed (env : Env β) (e : PoolFury) : Action β Unit :=
  when (e.fury ≠ 0) do
    let distributed ← ofExcept (Uint.add e.pool.rewardPeriodNativeDistributed e.fury)
    Action.ignoreError (setPool env { e.pool with rewardPeriodNativeDistributed := distributed })

def getModuleFury (env : Env β) (w : World β) : ℕ :=
  env.bank.getBalance w.bank (moduleAddress env) nativeSymbol

def burnFury (env : Env β) (amount : ℕ) : Action β Unit := do
  let coin ← ofExcept (newCoin env nativeSymbol amount)
  let coins ← ofExcept (newCoins [coin])
  bankCall (fun b => env.bank.burnCoins b clpModuleName coins)

/-- What could not be paid is burned: the growth of the module balance since the minting. -/
def burnUnpaid (env : Env β) (moduleBalancePreMinting : ℕ) : Action β ℕ := do
  let w ← read
  require (moduleBalancePreMinting ≤ getModuleFury env w) (.panic .negative)
  let diff := getModuleFury env w - moduleBalancePreMinting
  when (diff ≠ 0) (Action.ignoreError (burnFury env diff))
  pure diff

def payRewards (env : Env β) (order : MapOrder) (tuples : List PoolReward)
    (coinsToMint moduleBalancePreMinting : ℕ) : Action β Unit := do
  let (poolFury, maps) ← accumulate (collectReward env) (.empty, .empty) tuples
  -- the sum is only logged, but it can overflow
  let _ ← ofExcept ((order.arrange poolFury.rows).foldlM (fun sum e => Uint.add sum e.fury) 0)
  let poolFury ← transferProviderDistributionGeneric env order poolFury maps
    "rewards/distribution_error" "rewards/distribution"
  forEach (countDistributed env) (order.arrange poolFury.rows)
  let diff ← burnUnpaid env moduleBalancePreMinting
  emit (.rewards "rewards/distribution" ((coinsToMint : ℤ) - diff)
    ((order.arrange poolFury.rows).map (fun e => ⟨e.pool.externalAsset, e.fury⟩)))

/-- `MintCoins` of the rewards. -/
def mintRewards (env : Env β) (coinsToMint : ℕ) : Action β Unit := do
  let coin ← ofExcept (newCoin env nativeSymbol coinsToMint)
  let rewardCoins ← ofExcept (newCoins [coin])
  bankCall (fun b => env.bank.mintCoins b clpModuleName rewardCoins)

def distributeDepthRewards (env : Env β) (order : MapOrder) (blockDistribution : ℕ)
    (period : RewardPeriod) (pools : List Pool) : Action β Unit := do
  let w ← read
  when (uint64OfInt w.height = period.rewardPeriodStartBlock)
    (modify (fun w => { w with rewardPeriodStartTime := w.blockTime }))
  when (blockDistribution ≠ 0) do
    let (totalDepth, pools) ← calcTotalDepth env pools period (uint64OfInt w.height)
    when (Dec.zero.lt totalDepth) do
      let (tuples, coinsToMint) ← ofExcept
        (collectPoolRewardTuples pools blockDistribution totalDepth period)
      let w ← read
      mintRewards env coinsToMint
      if period.rewardPeriodDistribute then
        payRewards env order tuples coinsToMint (getModuleFury env w)
      else do
        forEach (fun e => addRewardsToPool env e.pool e.reward) tuples
        emit (.rewards "rewards/accumulation" coinsToMint
          (tuples.map (fun e => ⟨e.pool.externalAsset, e.reward⟩)))

def setBlockDistributionAccu (blockDistribution : ℕ) : Action β Unit :=
  modify (fun w => { w with blockDistributionAccu := blockDistribution })

/-- The part of `EndBlocker` that rewards depth. An error of the distribution is logged. -/
def rewardDepth (env : Env β) (order : MapOrder) : Action β Unit := do
  let w ← read
  match getCurrentRewardPeriod w with
  | none => pure ()
  | some currentPeriod => do
      let allocation ← ofExcept (deref currentPeriod.rewardPeriodAllocation)
      when (allocation ≠ 0) do
        let isDistributionBlock ← ofExcept (isDistributionBlockPure w.height
          currentPeriod.rewardPeriodStartBlock currentPeriod.rewardPeriodMod)
        let currentBlockDistribution ← ofExcept (calcBlockDistribution currentPeriod)
        let blockDistribution ← ofExcept
          (Uint.add w.blockDistributionAccu currentBlockDistribution)
        if isDistributionBlock then do
          Action.ignoreError (distributeDepthRewards env order blockDistribution currentPeriod
            w.pools.rows)
          setBlockDistributionAccu 0
        else setBlockDistributionAccu blockDistribution

def endBlocker (env : Env β) (order : MapOrder) : Action β Unit := do
  let w ← read
  let distributes ← ofExcept (isDistributionBlock w)
  when (distributes = true) (providerDistributionPolicyRun env order)
  rewardDepth env order
end ClpKeeper
end FuryNode
