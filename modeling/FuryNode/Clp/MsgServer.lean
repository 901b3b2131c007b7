import FuryNode.Clp.Executors

/-!
The message server of x/clp, with the stateless checks of its messages and the
delivery of a message: validation, signer, handler, and no write unless all succeed.
-/
namespace FuryNode
open StatefulProgram StatefulProgram.Prog ClpKeeper
variable {β : Type}

/-- `PoolThrehold`. -/
def poolThreshold : ℕ := 10 ^ 18

def runMsg (env : Env β) (signer : String) (validateBasic : Fallible Unit)
    (handler : Action β Unit) : Action β Unit := do
  ofExcept validateBasic
  let address ← ofExcept (getSigner env signer)
  require (env.canSign address = true) (.err .errUnauthorised)
  handler

def requireSigner (signer : String) : Fallible Unit :=
  check (signer.utf8ByteSize ≠ 0) (.err .errInvalidAddress)

def requireAsset (env : Env β) (symbol : String) : Fallible Unit := do
  let valid ← assetValidate env symbol
  check (valid = true) (.err .errInValidAsset)

namespace MsgCreatePool

def validateBasic (env : Env β) (m : MsgCreatePool) : Fallible Unit := do
  requireSigner m.signer
  requireAsset env m.externalAsset
  check (m.externalAsset ≠ nativeSymbol) (.err .errInValidAsset)
  check (0 < m.nativeAssetAmount) (.err .errInValidAmount)
  check (0 < m.externalAssetAmount) (.err .errInValidAmount)

end MsgCreatePool

namespace MsgAddLiquidity

def validateBasic (env : Env β) (m : MsgAddLiquidity) : Fallible Unit := do
  requireSigner m.signer
  requireAsset env m.externalAsset
  check (m.externalAsset ≠ nativeSymbol) (.err .errInValidAsset)
  check (0 < m.nativeAssetAmount ∨ 0 < m.externalAssetAmount) (.err .errInValidAmount)

end MsgAddLiquidity

namespace MsgRemoveLiquidity

def validateBasic (env : Env β) (m : MsgRemoveLiquidity) : Fallible Unit := do
  requireSigner m.signer
  requireAsset env m.externalAsset
  check (0 < m.wBasisPoints ∧ m.wBasisPoints ≤ maxWbasis) (.err .errInvalidWBasis)
  check (-10000 ≤ m.asymmetry ∧ m.asymmetry ≤ 10000) (.err .errInvalidAsymmetry)

end MsgRemoveLiquidity

namespace MsgRemoveLiquidityUnits

def validateBasic (env : Env β) (m : MsgRemoveLiquidityUnits) : Fallible Unit := do
  requireSigner m.signer
  requireAsset env m.externalAsset
  check (0 < m.withdrawUnits) (.err .errInValidAmount)

end MsgRemoveLiquidityUnits

namespace MsgSwap

def validateBasic (env : Env β) (m : MsgSwap) : Fallible Unit := do
  requireSigner m.signer
  requireAsset env m.sentAsset
  requireAsset env m.receivedAsset
  check (m.sentAsset ≠ m.receivedAsset) (.err .errInValidAsset)
  check (m.sentAmount ≠ 0) (.err .errInValidAmount)

end MsgSwap

namespace MsgDecommissionPool

def validateBasic (m : MsgDecommissionPool) : Fallible Unit := do
  requireSigner m.signer
  check (verifyRange (trimSpace m.symbol).utf8ByteSize 0 maxSymbolLength = true)
    (.err .errInvalid)

end MsgDecommissionPool

namespace ClpMsgServer

def requirePermission (entry : RegistryEntry) (permission : Permission) (e : Err) :
    Action β Unit :=
  require (checkEntryPermission entry permission) (.err e)

def forbidPermission (entry : RegistryEntry) (permission : Permission) (e : Err) :
    Action β Unit :=
  require (¬checkEntryPermission entry permission) (.err e)

def createPool (env : Env β) (msg : MsgCreatePool) : Action β Unit := do
  require (poolThreshold ≤ msg.nativeAssetAmount) (.err .errTotalAmountTooLow)
  let w ← read
  let eAsset ← ofExcept (getEntry w.clp msg.externalAsset)
  requirePermission eAsset .clp .errPermissionDenied
  require (w.pools.get ⟨msg.externalAsset⟩ = none) (.err .errUnableToCreatePool)
  let (poolUnits, lpunits, _, _) ← ofExcept (mapFailure (wrap .errUnableToCreatePool)
    (calculatePoolUnits 0 0 0 msg.nativeAssetAmount msg.externalAssetAmount
      (getSwapFeeRate w.clp nativeSymbol false) (getSwapFeeRate w.clp msg.externalAsset false)
      w.clp.pmtpCurrentRunningRate))
  let _ ← Action.wrapped .errUnableToSetPool (ClpKeeper.createPool env poolUnits msg)
  let accAddr ← ofExcept (decodeAddress env msg.signer)
  let _ ← createLiquidityProvider env msg.externalAsset lpunits accAddr
  pure ()

/-- What an addition that swaps implicitly has to pass: trading permissions and
    liquidity protection. -/
def guardImplicitSwap (nAsset eAsset : RegistryEntry) (swapStatus : SwapStatus)
    (swapAmount nativeAssetDepth externalAssetDepth : ℕ)
    (sellNativeSwapFeeRate buyNativeSwapFeeRate : Dec) : Action β Unit :=
  match swapStatus with
  | .noSwap => pure ()
  | .sellNative => do
      forbidPermission nAsset .disableSell .errNotAllowedToSellAsset
      forbidPermission eAsset .disableBuy .errNotAllowedToBuyAsset
      let w ← read
      when (w.clp.liquidityProtectionIsActive = true) do
        let price ← getNativePrice
        let blocked ← isBlockedByLiquidityProtection swapAmount price
        require (blocked = false) (.err .errReachedMaxFuryLiquidityThreshold)
        let discounted ← ofExcept (calculateDiscountedSentAmount swapAmount sellNativeSwapFeeRate)
        mustUpdateLiquidityProtectionThreshold true discounted price
  | .buyNative => do
      forbidPermission eAsset .disableSell .errNotAllowedToSellAsset
      forbidPermission nAsset .disableBuy .errNotAllowedToBuyAsset
      let w ← read
      when (w.clp.liquidityProtectionIsActive = true) do
        let (nativeAmount, _) ← ofExcept (calcSwapResult true externalAssetDepth swapAmount
          nativeAssetDepth w.clp.pmtpCurrentRunningRate buyNativeSwapFeeRate)
        let price ← getNativePrice
        mustUpdateLiquidityProtectionThreshold false nativeAmount price

def addLiquidity (env : Env β) (msg : MsgAddLiquidity) : Action β Unit := do
  let w ← read
  let nAsset ← ofExcept (getEntry w.clp nativeSymbol)
  let eAsset ← ofExcept (getEntry w.clp msg.externalAsset)
  requirePermission eAsset .clp .errPermissionDenied
  let pool ← getPool msg.externalAsset
  let sellNativeSwapFeeRate := getSwapFeeRate w.clp nativeSymbol false
  let buyNativeSwapFeeRate := getSwapFeeRate w.clp msg.externalAsset false
  let (nativeAssetDepth, externalAssetDepth) ← ofExcept
    (pool.extractDebt pool.nativeAssetBalance pool.externalAssetBalance false)
  let (newPoolUnits, lpUnits, swapStatus, swapAmount) ← ofExcept (calculatePoolUnits
    pool.poolUnits nativeAssetDepth externalAssetDepth msg.nativeAssetAmount
    msg.externalAssetAmount sellNativeSwapFeeRate buyNativeSwapFeeRate
    w.clp.pmtpCurrentRunningRate)
  guardImplicitSwap nAsset eAsset swapStatus swapAmount nativeAssetDepth externalAssetDepth
    sellNativeSwapFeeRate buyNativeSwapFeeRate
  let _ ← Action.wrapped .errUnableToAddLiquidity
    (ClpKeeper.addLiquidity env msg pool newPoolUnits lpUnits)
  let w ← read
  when (isPoolEnabled w.margin msg.externalAsset = true ∧ w.clp.enableRemovalQueue = true
      ∧ 0 < (getRemovalQueue w msg.externalAsset).count)
    (processRemovalQueue env msg.externalAsset newPoolUnits)

/-- The health check that blocks or queues a removal from a margin-enabled pool. -/
def guardPoolHealth (eAsset : RegistryEntry) (pool : Pool) (native external : ℕ)
    (swapFeeRate : Dec) (request : ℕ → Fallible (MsgRemoveLiquidity × ℕ)) : Action β Unit := do
  let w ← read
  when (isPoolEnabled w.margin eAsset.denom = true) do
    let extFuryValue ← ofExcept (calculateWithdrawalFuryValue external nativeSymbol pool
      w.clp.pmtpCurrentRunningRate swapFeeRate)
    let futureNative ← ofExcept (Uint.sub pool.nativeAssetBalance native)
    let futureExternal ← ofExcept (Uint.sub pool.externalAssetBalance external)
    let health ← ofExcept (calculatePoolHealth { pool with
      nativeAssetBalance := futureNative, externalAssetBalance := futureExternal })
    when (health.lt w.margin.removalQueueThreshold) do
      if w.clp.enableRemovalQueue then do
        let (msg, value) ← ofExcept (request extFuryValue)
        queueRemoval msg value
        -- the handler returns an error, so the queue is left as it was
        fail (.err .errQueued)
      else fail (.err .errRemovalsBlockedByHealth)

def lookupRemoval (externalAsset signer : String) :
    Action β (RegistryEntry × Pool × LiquidityProvider) := do
  let w ← read
  let eAsset ← ofExcept (getEntry w.clp externalAsset)
  requirePermission eAsset .clp .errPermissionDenied
  let pool ← getPool externalAsset
  let lp ← getLiquidityProvider externalAsset signer
  pure (eAsset, pool, lp)

/-- What is on the queue already is not available for another removal. -/
def requireUnqueued (lp : LiquidityProvider) (units : Fallible ℕ) : Action β Unit := do
  let w ← read
  let lpQueuedUnits ← ofExcept (getRemovalQueueUnitsForLP w lp)
  let requested ← ofExcept units
  let available ← ofExcept (Uint.sub lp.liquidityProviderUnits lpQueuedUnits)
  require (requested ≤ available) (.err .errUnableToRemoveLiquidity)

def drawUnits (env : Env β) (lp : LiquidityProvider) (lpUnitsLeft : ℕ) :
    Action β LiquidityProvider := do
  let used ← ofExcept (Uint.sub lp.liquidityProviderUnits lpUnitsLeft)
  useUnlockedLiquidity env lp used false

def removeLiquidityUnits (env : Env β) (msg : MsgRemoveLiquidityUnits) : Action β Unit := do
  let (eAsset, pool, lp) ← lookupRemoval msg.externalAsset msg.signer
  requireUnqueued lp (.ok msg.withdrawUnits)
  let w ← read
  let lp ← pruneUnlockRecords env lp
  let (nativeAssetDepth, externalAssetDepth) ← ofExcept
    (pool.extractDebt pool.nativeAssetBalance pool.externalAssetBalance false)
  let (native, external, lpUnitsLeft) ← ofExcept (calculateWithdrawalFromUnits pool.poolUnits
    nativeAssetDepth externalAssetDepth lp.liquidityProviderUnits msg.withdrawUnits)
  let lp ← drawUnits env lp lpUnitsLeft
  guardPoolHealth eAsset pool native external (getSwapFeeRate w.clp msg.externalAsset false)
    (fun extFuryValue => do
      let wBasisPoints ← convUnitsToWBasisPoints lp.liquidityProviderUnits msg.withdrawUnits
      let value ← Uint.add extFuryValue native
      pure (⟨msg.signer, msg.externalAsset, wBasisPoints, 0⟩, value))
  let (externalAssetCoin, nativeAssetCoin) ← ofExcept
    (withdrawalCoins env msg.externalAsset external native)
  let reduced ← ofExcept
    (subtractFromPool pool lp.liquidityProviderUnits lpUnitsLeft native external)
  Action.wrapped .errUnableToRemoveLiquidity (ClpKeeper.removeLiquidity env reduced
    externalAssetCoin nativeAssetCoin lp lpUnitsLeft externalAssetDepth nativeAssetDepth)

/-- `RemoveLiquidity`. An asymmetry is refused early, so the swap after it never runs. -/
def removeLiquidity (env : Env β) (msg : MsgRemoveLiquidity) : Action β Unit := do
  let (eAsset, pool, lp) ← lookupRemoval msg.externalAsset msg.signer
  let w ← read
  let externalSwapFeeRate := getSwapFeeRate w.clp msg.externalAsset false
  let nativeSwapFeeRate := getSwapFeeRate w.clp nativeSymbol false
  let lp ← pruneUnlockRecords env lp
  require (msg.asymmetry = 0) (.err .errAsymmetricRemove)
  requireUnqueued lp (convWBasisPointsToUnits lp.liquidityProviderUnits msg.wBasisPoints)
  let (nativeAssetDepth, externalAssetDepth) ← ofExcept
    (pool.extractDebt pool.nativeAssetBalance pool.externalAssetBalance false)
  let (native, external, lpUnitsLeft, swapAmount) ← ofExcept (calculateWithdrawal pool.poolUnits
    nativeAssetDepth externalAssetDepth lp.liquidityProviderUnits msg.wBasisPoints msg.asymmetry)
  let lp ← drawUnits env lp lpUnitsLeft
  guardPoolHealth eAsset pool native external externalSwapFeeRate
    (fun extFuryValue => do
      let value ← Uint.add extFuryValue external
      pure (msg, value))
  let (externalAssetCoin, nativeAssetCoin) ← ofExcept
    (withdrawalCoins env msg.externalAsset external native)
  let reduced ← ofExcept
    (subtractFromPool pool lp.liquidityProviderUnits lpUnitsLeft native external)
  let (externalPaid, nativePaid, swapped) ← ofExcept (adjustAsymmetry msg.externalAsset
    msg.asymmetry swapAmount reduced externalAssetCoin nativeAssetCoin
    w.clp.pmtpCurrentRunningRate nativeSwapFeeRate externalSwapFeeRate)
  Action.wrapped .errUnableToRemoveLiquidity (ClpKeeper.removeLiquidity env swapped externalPaid
    nativePaid lp lpUnitsLeft externalAssetDepth nativeAssetDepth)

/-- The price a swap is protected at, and the refusal of a sale beyond the threshold. -/
def guardSwapPrice (sAsset : RegistryEntry) (sentAmount : ℕ) : Action β Dec := do
  let w ← read
  if w.clp.liquidityProtectionIsActive then do
    let price ← getNativePrice
    when (sAsset.denom = nativeSymbol) do
      let blocked ← isBlockedByLiquidityProtection sentAmount price
      require (blocked = false) (.err .errReachedMaxFuryLiquidityThreshold)
    pure price
  else pure Dec.zero

/-- The first of two swaps between external assets: fury obtained, fee, price impact. -/
def swapToNative (env : Env β) (msg : MsgSwap) (inPool : Pool) (swapFeeRate : Dec) :
    Action β (ℕ × ℕ × ℕ) := do
  let w ← read
  if msg.sentAsset ≠ nativeSymbol ∧ msg.receivedAsset ≠ nativeSymbol then do
    let (emitAmount, fee, impact, finalPool) ← ofExcept
      (swapOne msg.sentAmount nativeSymbol inPool w.clp.pmtpCurrentRunningRate swapFeeRate)
    Action.wrapped .errUnableToSetPool (setPool env finalPool)
    pure (emitAmount, fee, impact)
  else pure (msg.sentAmount, 0, 0)

def reportedSwapCost (liquidityFeeNative fee firstImpact impact : ℕ) (receivedAsset : String)
    (outPool : Pool) (pmtpCurrentRunningRate swapFeeRate : Dec) : Fallible (ℕ × ℕ) := do
  let totalLiquidityFee ←
    (if 0 < liquidityFeeNative then do
      let firstSwapFeeInOutputAsset ← getSwapFee liquidityFeeNative receivedAsset outPool
        pmtpCurrentRunningRate swapFeeRate
      Uint.add fee firstSwapFeeInOutputAsset
    else Uint.add liquidityFeeNative fee : Fallible ℕ)
  let priceImpact ← Uint.add firstImpact impact
  pure (totalLiquidityFee, priceImpact)

def protectSwap (sAsset rAsset : RegistryEntry) (sentAmount emitAmount : ℕ) (swapFeeRate price : Dec) :
    Action β Unit := do
  let w ← read
  when (w.clp.liquidityProtectionIsActive = true) do
    when (sAsset.denom = nativeSymbol) do
      let discounted ← ofExcept (calculateDiscountedSentAmount sentAmount swapFeeRate)
      mustUpdateLiquidityProtectionThreshold true discounted price
    when (rAsset.denom = nativeSymbol)
      (mustUpdateLiquidityProtectionThreshold false emitAmount price)

def lookupSwap (msg : MsgSwap) : Action β (RegistryEntry × RegistryEntry) := do
  let w ← read
  let sAsset ← ofExcept (getEntry w.clp msg.sentAsset)
  let rAsset ← ofExcept (getEntry w.clp msg.receivedAsset)
  requirePermission sAsset .clp .errPermissionDenied
  requirePermission rAsset .clp .errPermissionDenied
  forbidPermission sAsset .disableSell .errNotAllowedToSellAsset
  forbidPermission rAsset .disableBuy .errNotAllowedToBuyAsset
  pure (sAsset, rAsset)

def takeSent (env : Env β) (msg : MsgSwap) : Action β Unit := do
  let sentAmountInt ← ofExcept (parseToInt msg.sentAmount)
  let accAddr ← ofExcept (decodeAddress env msg.signer)
  let sentCoin ← ofExcept (newCoin env msg.sentAsset sentAmountInt)
  Action.wrapped .errUnableToSwap (initiateSwap env sentCoin accAddr)

def swap (env : Env β) (msg : MsgSwap) : Action β Unit := do
  let (sAsset, rAsset) ← lookupSwap msg
  let w ← read
  let pmtpCurrentRunningRate := w.clp.pmtpCurrentRunningRate
  let swapFeeRate := getSwapFeeRate w.clp msg.sentAsset false
  let price ← guardSwapPrice sAsset msg.sentAmount
  let inPool ← (if msg.sentAsset = nativeSymbol then pure Pool.zero
    else getPool msg.sentAsset : Action β Pool)
  takeSent env msg
  let (sentAmount, liquidityFeeNative, firstImpact) ← swapToNative env msg inPool swapFeeRate
  -- read after the first swap: the second one may use the pool the first one wrote
  let outPool ← getPool (if msg.receivedAsset = nativeSymbol then msg.sentAsset
    else msg.receivedAsset)
  let (emitAmount, fee, impact, finalPool) ← ofExcept
    (swapOne sentAmount msg.receivedAsset outPool pmtpCurrentRunningRate swapFeeRate)
  require (msg.minReceivingAmount ≤ emitAmount) (.err .errReceivedAmountBelowExpected)
  Action.wrapped .errUnableToSwap (finalizeSwap env emitAmount finalPool msg)
  let _ ← ofExcept (reportedSwapCost liquidityFeeNative fee firstImpact impact msg.receivedAsset
    outPool pmtpCurrentRunningRate swapFeeRate)
  protectSwap sAsset rAsset msg.sentAmount emitAmount swapFeeRate price

structure Remaining where
  poolUnits : ℕ
  nativeAssetBalance : ℕ
  externalAssetBalance : ℕ
  deriving DecidableEq, Repr

def refundProvider (env : Env β) (symbol : String) (pool : Pool) (left : Remaining)
    (lp : LiquidityProvider) : Action β Remaining := do
  let (native, external, _, _) ← ofExcept (calculateAllAssetsForLP pool lp)
  let poolUnits ← ofExcept (Uint.sub left.poolUnits lp.liquidityProviderUnits)
  let nativeAssetBalance ← ofExcept (Uint.sub left.nativeAssetBalance native)
  let externalAssetBalance ← ofExcept (Uint.sub left.externalAssetBalance external)
  let nativeInt ← ofExcept (parseToInt native)
  let externalInt ← ofExcept (parseToInt external)
  let withdrawNativeCoins ← ofExcept (newCoin env nativeSymbol nativeInt)
  let withdrawExternalCoins ← ofExcept (newCoin env symbol externalInt)
  let refundingCoins ← ofExcept (newCoins [withdrawExternalCoins, withdrawNativeCoins])
  Action.wrapped .errUnableToRemoveLiquidityProvider
    (removeLiquidityProvider env refundingCoins lp)
  pure ⟨poolUnits, nativeAssetBalance, externalAssetBalance⟩

def refundProviders (env : Env β) (symbol : String) (pool : Pool) :
    Remaining → List LiquidityProvider → Action β Unit
  | _, [] => pure ()
  | left, lp :: rest => do
      let left ← refundProvider env symbol pool left lp
      refundProviders env symbol pool left rest

def decommissionPool (env : Env β) (msg : MsgDecommissionPool) : Action β Unit := do
  let pool ← getPool msg.symbol
  let addAddr ← ofExcept (decodeAddress env msg.signer)
  let w ← read
  let allowed ← ofExcept (validateAddress env w.clp addAddr)
  require (allowed = true) (.err .errInvalid)
  require (pool.nativeAssetBalance < poolThreshold) (.err .errBalanceTooHigh)
  refundProviders env msg.symbol pool
    ⟨pool.poolUnits, pool.nativeAssetBalance, pool.externalAssetBalance⟩
    (getLiquidityProvidersForAsset pool.externalAsset w)
  Action.wrapped .errUnableToDecommissionPool (destroyPool pool.externalAsset)

end ClpMsgServer

inductive ClpMsg where
  | createPool (m : MsgCreatePool)
  | addLiquidity (m : MsgAddLiquidity)
  | removeLiquidity (m : MsgRemoveLiquidity)
  | removeLiquidityUnits (m : MsgRemoveLiquidityUnits)
  | swap (m : MsgSwap)
  | decommissionPool (m : MsgDecommissionPool)
  deriving DecidableEq, Repr

namespace ClpMsg

def action (env : Env β) : ClpMsg → Action β Unit
  | .createPool m => runMsg env m.signer (m.validateBasic env) (ClpMsgServer.createPool env m)
  | .addLiquidity m => runMsg env m.signer (m.validateBasic env) (ClpMsgServer.addLiquidity env m)
  | .removeLiquidity m =>
      runMsg env m.signer (m.validateBasic env) (ClpMsgServer.removeLiquidity env m)
  | .removeLiquidityUnits m =>
      runMsg env m.signer (m.validateBasic env) (ClpMsgServer.removeLiquidityUnits env m)
  | .swap m => runMsg env m.signer (m.validateBasic env) (ClpMsgServer.swap env m)
  | .decommissionPool m =>
      runMsg env m.signer m.validateBasic (ClpMsgServer.decommissionPool env m)

/-- A message that fails leaves no trace. -/
def deliver (env : Env β) (msg : ClpMsg) (w : World β) : World β := transact (msg.action env) w

end ClpMsg
end FuryNode
