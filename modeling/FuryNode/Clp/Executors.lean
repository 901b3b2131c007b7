import FuryNode.Clp.Keeper

/-!
The executors of x/clp: they move coins and write the pool and the provider that a
handler computed, and they serve queued removals.
-/
namespace FuryNode
open StatefulProgram StatefulProgram.Prog

structure MsgCreatePool where
  signer : String
  externalAsset : String
  nativeAssetAmount : ℕ
  externalAssetAmount : ℕ
  deriving DecidableEq, Repr

structure MsgAddLiquidity where
  signer : String
  externalAsset : String
  nativeAssetAmount : ℕ
  externalAssetAmount : ℕ
  deriving DecidableEq, Repr

structure MsgRemoveLiquidityUnits where
  signer : String
  externalAsset : String
  withdrawUnits : ℕ
  deriving DecidableEq, Repr

structure MsgSwap where
  signer : String
  sentAsset : String
  receivedAsset : String
  sentAmount : ℕ
  minReceivingAmount : ℕ
  deriving DecidableEq, Repr

structure MsgDecommissionPool where
  signer : String
  symbol : String
  deriving DecidableEq, Repr

namespace ClpKeeper
open KeyedTable
variable {β : Type}

/-- `CreatePool` of the keeper. -/
def createPool (env : Env β) (poolUnits : ℕ) (msg : MsgCreatePool) : Action β Pool := do
  let extInt ← ofExcept (parseToInt msg.externalAssetAmount)
  let nativeInt ← ofExcept (parseToInt msg.nativeAssetAmount)
  let addr ← ofExcept (decodeAddress env msg.signer)
  let externalAssetCoin ← ofExcept (newCoin env msg.externalAsset extInt)
  let nativeAssetCoin ← ofExcept (newCoin env nativeSymbol nativeInt)
  let w ← read
  require (hasBalance env w addr externalAssetCoin ∨ hasBalance env w addr nativeAssetCoin)
    (.err .errBalanceNotAvailable)
  let pool : Pool := {
    externalAsset := msg.externalAsset
    nativeAssetBalance := msg.nativeAssetAmount
    externalAssetBalance := msg.externalAssetAmount
    poolUnits := poolUnits }
  let coins ← ofExcept (newCoins [externalAssetCoin, nativeAssetCoin])
  sendCoinsFromAccountToModule env addr coins
  Action.wrapped .errUnableToSetPool (setPool env pool)
  pure pool

/-- The two coins of an addition; the comparison with `sdk.ZeroInt()` is one of
    pointers, so both are always added. -/
def liquidityCoins (env : Env β) (externalAsset : String) (extInt nativeInt : ℕ) :
    Fallible Coins := do
  let externalAssetCoin ← newCoin env externalAsset extInt
  let coins ← Coins.add [] externalAssetCoin
  let nativeAssetCoin ← newCoin env nativeSymbol nativeInt
  Coins.add coins nativeAssetCoin

/-- The second coin is only looked at when the first one is not available. -/
def requireSomeBalance (env : Env β) (addr : AccAddress) (coins : Coins) : Action β Unit := do
  let w ← read
  let first ← ofExcept (Coins.index coins 0)
  if hasBalance env w addr first then pure ()
  else do
    let second ← ofExcept (Coins.index coins 1)
    require (hasBalance env w addr second) (.err .errBalanceNotAvailable)

/-- The provider record after an addition. The lookup goes by the spelling of the
    signer, a new record is written under the canonical one. -/
def addLiquidityUnits (env : Env β) (msg : MsgAddLiquidity) (addr : AccAddress) (lpUnits : ℕ) :
    Action β LiquidityProvider := do
  let w ← read
  match w.providers.get ⟨msg.externalAsset, msg.signer⟩ with
  | some lp => do
      let units ← ofExcept (Uint.add lp.liquidityProviderUnits lpUnits)
      pure { lp with liquidityProviderUnits := units }
  | none => createLiquidityProvider env msg.externalAsset lpUnits addr

def addToPool (pool : Pool) (newPoolUnits nativeAssetAmount externalAssetAmount : ℕ) :
    Fallible Pool := do
  let native ← Uint.add pool.nativeAssetBalance nativeAssetAmount
  let external ← Uint.add pool.externalAssetBalance externalAssetAmount
  pure { pool with
    poolUnits := newPoolUnits, nativeAssetBalance := native, externalAssetBalance := external }

/-- `AddLiquidity` of the keeper. -/
def addLiquidity (env : Env β) (msg : MsgAddLiquidity) (pool : Pool) (newPoolUnits lpUnits : ℕ) :
    Action β LiquidityProvider := do
  let extInt ← ofExcept (parseToInt msg.externalAssetAmount)
  let nativeInt ← ofExcept (parseToInt msg.nativeAssetAmount)
  let coins ← ofExcept (liquidityCoins env msg.externalAsset extInt nativeInt)
  let addr ← ofExcept (decodeAddress env msg.signer)
  requireSomeBalance env addr coins
  sendCoinsFromAccountToModule env addr coins
  let updated ← ofExcept
    (addToPool pool newPoolUnits msg.nativeAssetAmount msg.externalAssetAmount)
  let lp ← addLiquidityUnits env msg addr lpUnits
  Action.wrapped .errUnableToSetPool (setPool env updated)
  setLiquidityProvider env lp
  pure lp

def removeLiquidityProvider (env : Env β) (coins : Coins) (lp : LiquidityProvider) :
    Action β Unit := do
  let lpaddr ← ofExcept (decodeAddress env lp.liquidityProviderAddress)
  Action.wrapped .errUnableToAddBalance (sendCoinsFromModuleToAccount env lpaddr coins)
  destroyLiquidityProvider lp.asset lp.liquidityProviderAddress

/-- `RemoveLiquidity` of the keeper. -/
def removeLiquidity (env : Env β) (pool : Pool) (externalAssetCoin nativeAssetCoin : Coin)
    (lp : LiquidityProvider) (lpUnitsLeft poolOriginalEB poolOriginalNB : ℕ) :
    Action β Unit := do
  let lpAddr ← ofExcept (decodeAddress env lp.liquidityProviderAddress)
  let external ← ofExcept (Coins.add [] externalAssetCoin)
  let sendCoins ← ofExcept (Coins.add external nativeAssetCoin)
  require (externalAssetCoin.amount < poolOriginalEB ∧ nativeAssetCoin.amount < poolOriginalNB)
    (.err .errPoolTooShallow)
  Action.wrapped .errUnableToSetPool (setPool env pool)
  when (sendCoins ≠ []) do
    let w ← read
    require (∀ coin ∈ sendCoins, hasBalance env w (moduleAddress env) coin)
      (.err .errNotEnoughLiquidity)
    sendCoinsFromModuleToAccount env lpAddr sendCoins
  if lpUnitsLeft = 0 then destroyLiquidityProvider lp.asset lp.liquidityProviderAddress
  else setLiquidityProvider env { lp with liquidityProviderUnits := lpUnitsLeft }

def initiateSwap (env : Env β) (sentCoin : Coin) (swapper : AccAddress) : Action β Unit := do
  let w ← read
  require (hasBalance env w swapper sentCoin) (.err .errBalanceNotAvailable)
  let coins ← ofExcept (newCoins [sentCoin])
  sendCoinsFromAccountToModule env swapper coins

def finalizeSwap (env : Env β) (sentAmount : ℕ) (finalPool : Pool) (msg : MsgSwap) :
    Action β Unit := do
  Action.wrapped .errUnableToSetPool (setPool env finalPool)
  let sentAmountInt ← ofExcept (parseToInt sentAmount)
  let addr ← ofExcept (decodeAddress env msg.signer)
  let sentCoin ← ofExcept (newCoin env msg.receivedAsset sentAmountInt)
  let coins ← ofExcept (newCoins [sentCoin])
  sendCoinsFromModuleToAccount env addr coins

def subtractFromPool (pool : Pool) (lpUnits lpUnitsLeft native external : ℕ) : Fallible Pool := do
  let rest ← Uint.sub pool.poolUnits lpUnits
  let units ← Uint.add rest lpUnitsLeft
  let nativeAssetBalance ← Uint.sub pool.nativeAssetBalance native
  let externalAssetBalance ← Uint.sub pool.externalAssetBalance external
  pure { pool with
    poolUnits := units
    nativeAssetBalance := nativeAssetBalance
    externalAssetBalance := externalAssetBalance }

def withdrawalCoins (env : Env β) (externalAsset : String) (external native : ℕ) :
    Fallible (Coin × Coin) := do
  let externalInt ← parseToInt external
  let nativeInt ← parseToInt native
  let externalAssetCoin ← newCoin env externalAsset externalInt
  let nativeAssetCoin ← newCoin env nativeSymbol nativeInt
  pure (externalAssetCoin, nativeAssetCoin)

def coinAdd (a : Coin) (amount : ℕ) : Fallible Coin := do
  let sum ← Uint.add a.amount amount
  pure { a with amount := sum }

/-- `Coin.Sub` panics on a negative result. -/
def coinSub (a : Coin) (amount : ℕ) : Fallible Coin :=
  if amount ≤ a.amount then .ok { a with amount := a.amount - amount }
  else .error (.panic .negative)

/-- The swap of withdrawn coins that an asymmetry asks for: `coin` of the bought
    side, `paid` of the sold side, and the pool after the swap. -/
def swapWithdrawn (bought : String) (swapAmount : ℕ) (pool : Pool) (coin paid : Coin)
    (pmtpCurrentRunningRate swapFeeRate : Dec) : Fallible (Coin × Coin × Pool) := do
  let (swapResult, _, _, swappedPool) ← mapFailure (wrap .errUnableToSwap)
    (swapOne swapAmount bought pool pmtpCurrentRunningRate swapFeeRate)
  if swapResult = 0 then pure (coin, paid, swappedPool)
  else do
    let swapResultInt ← parseToInt swapResult
    let swapAmountInt ← parseToInt swapAmount
    let coin ← coinAdd coin swapResultInt
    let paid ← coinSub paid swapAmountInt
    pure (coin, paid, swappedPool)

def adjustAsymmetry (externalAsset : String) (asymmetry : ℤ) (swapAmount : ℕ) (pool : Pool)
    (externalAssetCoin nativeAssetCoin : Coin)
    (pmtpCurrentRunningRate nativeSwapFeeRate externalSwapFeeRate : Dec) :
    Fallible (Coin × Coin × Pool) := do
  check (asymmetry = 0 ∨ (pool.externalAssetBalance ≠ 0 ∧ pool.nativeAssetBalance ≠ 0))
    (.err .errPoolTooShallow)
  if 0 < asymmetry then do
    let (external, native, swapped) ← swapWithdrawn externalAsset swapAmount pool
      externalAssetCoin nativeAssetCoin pmtpCurrentRunningRate nativeSwapFeeRate
    pure (external, native, swapped)
  else if asymmetry < 0 then do
    let (native, external, swapped) ← swapWithdrawn nativeSymbol swapAmount pool
      nativeAssetCoin externalAssetCoin pmtpCurrentRunningRate externalSwapFeeRate
    pure (external, native, swapped)
  else pure (externalAssetCoin, nativeAssetCoin, pool)

/-- `ProcessRemoveLiquidityMsg`: the fury value removed is the part its caller uses. -/
def processRemoveLiquidityMsg (env : Env β) (msg : MsgRemoveLiquidity) : Action β ℕ := do
  let w ← read
  let _ ← ofExcept (getEntry w.clp msg.externalAsset)
  let pool ← getPool msg.externalAsset
  let lp ← getLiquidityProvider msg.externalAsset msg.signer
  let pmtpCurrentRunningRate := w.clp.pmtpCurrentRunningRate
  let externalSwapFeeRate := getSwapFeeRate w.clp msg.externalAsset false
  let nativeSwapFeeRate := getSwapFeeRate w.clp nativeSymbol false
  let (nativeAssetDepth, externalAssetDepth) ← ofExcept
    (pool.extractDebt pool.nativeAssetBalance pool.externalAssetBalance false)
  let (native, external, lpUnitsLeft, swapAmount) ← ofExcept (calculateWithdrawal pool.poolUnits
    nativeAssetDepth externalAssetDepth lp.liquidityProviderUnits msg.wBasisPoints msg.asymmetry)
  let extFuryValue ← ofExcept (calculateWithdrawalFuryValue external nativeSymbol pool
    pmtpCurrentRunningRate externalSwapFeeRate)
  let (externalAssetCoin, nativeAssetCoin) ← ofExcept
    (withdrawalCoins env msg.externalAsset external native)
  let reduced ← ofExcept
    (subtractFromPool pool lp.liquidityProviderUnits lpUnitsLeft native external)
  let (externalPaid, nativePaid, swapped) ← ofExcept (adjustAsymmetry msg.externalAsset
    msg.asymmetry swapAmount reduced externalAssetCoin nativeAssetCoin pmtpCurrentRunningRate
    nativeSwapFeeRate externalSwapFeeRate)
  Action.wrapped .errUnableToRemoveLiquidity (removeLiquidity env swapped externalPaid nativePaid lp
    lpUnitsLeft pool.externalAssetBalance pool.nativeAssetBalance)
  ofExcept (Uint.add extFuryValue native)

def getRemovalQueue (w : World β) (symbol : String) : RemovalQueue :=
  (w.queues.get ⟨symbol⟩).getD { symbol := symbol }

def setRemovalQueue (queue : RemovalQueue) : Action β Unit :=
  modify (fun w => { w with queues := w.queues.put queue })

def queueRemoval (msg : MsgRemoveLiquidity) (furyValue : ℕ) : Action β Unit := do
  let w ← read
  let queue := getRemovalQueue w msg.externalAsset
  let id := wrapInt64 (queue.id + 1)
  let count := wrapInt64 (queue.count + 1)
  modify (fun w => { w with requests := w.requests.put ⟨id, msg, furyValue⟩ })
  let totalValue ← ofExcept (Uint.add queue.totalValue furyValue)
  setRemovalQueue { queue with
    count := count
    id := id
    totalValue := totalValue
    startHeight := if count = 1 then w.height else queue.startHeight }

/-- `GetRemovalQueueUnitsForLP`: the iteration covers every key that starts with the
    address. -/
def getRemovalQueueUnitsForLP (w : World β) (lp : LiquidityProvider) : Fallible ℕ :=
  (w.requests.rows.filter (fun r =>
      lp.liquidityProviderAddress.toList.isPrefixOf r.key.text.toList
        && r.msg.externalAsset = lp.asset)).foldlM
    (fun units r => do
      let requested ← convWBasisPointsToUnits lp.liquidityProviderUnits r.msg.wBasisPoints
      Uint.add units requested) 0

def dequeueRemovalRequest (request : RemovalRequest) : Action β Unit := do
  modify (fun w => { w with requests := w.requests.delete request.key })
  let w ← read
  let queue := getRemovalQueue w request.msg.externalAsset
  setRemovalQueue { queue with count := wrapInt64 (queue.count - 1) }

def setProcessedRemovalRequest (request : RemovalRequest) (pointsProcessed : ℤ)
    (furyRemoved : ℕ) : Action β Unit := do
  let request := { request with
    msg := { request.msg with wBasisPoints := request.msg.wBasisPoints - pointsProcessed } }
  modify (fun w => { w with requests := w.requests.put request })
  let w ← read
  let queue := getRemovalQueue w request.msg.externalAsset
  let totalValue ← ofExcept (Uint.sub queue.totalValue furyRemoved)
  setRemovalQueue { queue with totalValue := totalValue }
  when (request.msg.wBasisPoints ≤ 0) (dequeueRemovalRequest request)

/-- One request of `ProcessRemovalQueue`. An error skips to the next request and
    keeps what was written before it. -/
def processRemovalRequest (env : Env β) (externalAsset : String) (perRequestUnits : ℕ)
    (request : RemovalRequest) : Action β Unit :=
  when (request.msg.externalAsset = externalAsset) do
    match ← Action.result (getLiquidityProvider request.msg.externalAsset request.msg.signer) with
    | .error _ => pure ()
    | .ok lp => do
        let requestUnits ← ofExcept
          (convWBasisPointsToUnits lp.liquidityProviderUnits request.msg.wBasisPoints)
        let withdrawWBasisPoints ← ofExcept (convUnitsToWBasisPoints lp.liquidityProviderUnits
          (min requestUnits perRequestUnits))
        match ← Action.result (processRemoveLiquidityMsg env {
          signer := request.msg.signer
          externalAsset := externalAsset
          wBasisPoints := withdrawWBasisPoints
          asymmetry := request.msg.asymmetry }) with
        | .error _ => pure ()
        | .ok totalFuryValue =>
            setProcessedRemovalRequest request withdrawWBasisPoints totalFuryValue

/-- `ProcessRemovalQueue`, over the requests stored when it starts. -/
def processRemovalQueue (env : Env β) (externalAsset : String) (unitsToDistribute : ℕ) :
    Action β Unit := do
  let w ← read
  let queue := getRemovalQueue w externalAsset
  let perRequestUnits ← ofExcept (Uint.quo unitsToDistribute (uint64OfInt queue.count))
  forEach (processRemovalRequest env externalAsset perRequestUnits) w.requests.rows
end ClpKeeper
end FuryNode
