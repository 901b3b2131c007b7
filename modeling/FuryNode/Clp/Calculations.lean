import FuryNode.Sdk.World

/-!
The arithmetic of x/clp: pool units, withdrawals and swap results. Decimals round
and panic as in the SDK, the swap formulas are exact rationals truncated at the end.
-/
namespace FuryNode
open StatefulProgram

def maxWbasis : ℤ := 10000

namespace Pool

/-- `ExtractValues`: the sold side, the bought side, whether fury is bought, and
    the asset sold. -/
def extractValues (p : Pool) (toAsset : String) : ℕ × ℕ × Bool × String :=
  if toAsset = nativeSymbol then (p.externalAssetBalance, p.nativeAssetBalance, true, p.externalAsset)
  else (p.nativeAssetBalance, p.externalAssetBalance, false, nativeSymbol)

def extractDebt (p : Pool) (X Y : ℕ) (toFury : Bool) : Fallible (ℕ × ℕ) :=
  if toFury then do
    let Y ← Uint.add Y p.nativeLiabilities
    let X ← Uint.add X p.externalLiabilities
    pure (X, Y)
  else do
    let X ← Uint.add X p.nativeLiabilities
    let Y ← Uint.add Y p.externalLiabilities
    pure (X, Y)

def updateBalances (p : Pool) (toFury : Bool) (X x Y swapResult : ℕ) : Fallible Pool := do
  let sold ← Uint.add X x
  let bought ← Uint.sub Y swapResult
  pure (if toFury then { p with externalAssetBalance := sold, nativeAssetBalance := bought }
    else { p with nativeAssetBalance := sold, externalAssetBalance := bought })

end Pool

def decAbs (d : Dec) : Dec := ⟨|d.raw|⟩

def decToUint (d : Dec) : Fallible ℕ := do
  let i ← d.truncateInt
  Uint.ofBigInt i

def decRoundToUint (d : Dec) : Fallible ℕ := do
  let i ← d.roundInt
  Uint.ofBigInt i

section FailsOnly
variable {E : Failure → Prop} (d : Dec) (overflow : E (.panic .overflow)) (negative : E (.panic .negative))
include overflow negative

@[simp] theorem decToUint_failsOnly : FailsOnly (decToUint d) E := by
  simp [decToUint, Dec.truncateInt, overflow, negative]

@[simp] theorem decRoundToUint_failsOnly : FailsOnly (decRoundToUint d) E := by
  simp [decRoundToUint, Dec.roundInt, overflow, negative]

end FailsOnly

/-- The amount of a depth that belongs to `units` of `poolUnits`. -/
def shareOfDepth (depth poolUnits units : Dec) : Fallible Dec := do
  let ratio ← poolUnits.quo units
  depth.quo ratio

/-- `CalculateWithdrawal`: native amount, external amount, units left, amount to swap. -/
def calculateWithdrawal (poolUnits nativeAssetDepth externalAssetDepth lpUnits : ℕ)
    (wBasisPoints asymmetry : ℤ) : Fallible (ℕ × ℕ × ℕ × ℕ) := do
  let poolUnitsF := Dec.ofInt poolUnits
  let nativeAssetDepthF ← Dec.fromDigits nativeAssetDepth
  let externalAssetDepthF ← Dec.fromDigits externalAssetDepth
  let lpUnitsF ← Dec.fromDigits lpUnits
  let wBasisPointsF ← Dec.fromDigits wBasisPoints
  let asymmetryF ← Dec.fromDigits asymmetry
  let denominator ← (Dec.ofInt 10000).quo wBasisPointsF
  let unitsToClaim ← lpUnitsF.quo denominator
  let withdrawExternalAssetAmount ← shareOfDepth externalAssetDepthF poolUnitsF unitsToClaim
  let withdrawNativeAssetAmount ← shareOfDepth nativeAssetDepthF poolUnitsF unitsToClaim
  let swapAmount ←
    (if asymmetry = 0 then pure Dec.zero
    else do
      let share ← (Dec.ofInt 10000).quo (decAbs asymmetryF)
      let unitsToSwap ← unitsToClaim.quo share
      shareOfDepth (if 0 < asymmetry then nativeAssetDepthF else externalAssetDepthF)
        poolUnitsF unitsToSwap : Fallible Dec)
  let lpUnitsLeft ← lpUnitsF.sub unitsToClaim
  let nativeAmount ← decToUint withdrawNativeAssetAmount
  let externalAmount ← decToUint withdrawExternalAssetAmount
  let unitsLeft ← decToUint lpUnitsLeft
  let swap ← decToUint swapAmount
  pure (nativeAmount, externalAmount, unitsLeft, swap)

/-- `CalculateWithdrawalFromUnits`: native amount, external amount, units left. -/
def calculateWithdrawalFromUnits (poolUnits nativeAssetDepth externalAssetDepth lpUnits
    withdrawUnits : ℕ) : Fallible (ℕ × ℕ × ℕ) := do
  let poolUnitsF := Dec.ofInt poolUnits
  let nativeAssetDepthF ← Dec.fromDigits nativeAssetDepth
  let externalAssetDepthF ← Dec.fromDigits externalAssetDepth
  let lpUnitsF ← Dec.fromDigits lpUnits
  let withdrawUnitsF ← Dec.fromDigits withdrawUnits
  let withdrawExternalAssetAmount ← shareOfDepth externalAssetDepthF poolUnitsF withdrawUnitsF
  let withdrawNativeAssetAmount ← shareOfDepth nativeAssetDepthF poolUnitsF withdrawUnitsF
  let lpUnitsLeft ← lpUnitsF.sub withdrawUnitsF
  let nativeAmount ← decRoundToUint withdrawNativeAssetAmount
  let externalAmount ← decRoundToUint withdrawExternalAssetAmount
  let unitsLeft ← decRoundToUint lpUnitsLeft
  pure (nativeAmount, externalAmount, unitsLeft)

inductive SymmetryState where
  | errorEmptyPool
  | errorNothingAdded
  | needMoreY
  | symmetric
  | needMoreX
  deriving DecidableEq, Repr

def getLiquidityAddSymmetryState (X x Y y : ℕ) : SymmetryState :=
  if X = 0 ∨ Y = 0 then .errorEmptyPool
  else if x = 0 ∧ y = 0 then .errorNothingAdded
  else if x = 0 then .needMoreX
  else if (Y : ℚ) / X < y / x then .needMoreX
  else if (Y : ℚ) / X = y / x then .symmetric
  else .needMoreY

def calculateExternalSwapAmountAsymmetricRat (Y X y x f r : ℚ) : Fallible ℚ := do
  let c := Y * (-1 * (x + X))
  let d := 4 * f * r * X * y + 2 * f * r * X * Y + 4 * f * X * y + 4 * f * X * Y - f * f * x * Y
    - f * f * X * Y - 2 * f * r * x * Y - r * r * x * Y - r * r * X * Y - 4 * r * X * y
    - 4 * r * X * Y - 4 * X * y - 4 * X * Y
  let root ← approxRatSquareRoot (c * d)
  let numerator := (root : ℚ) + f * x * Y + f * X * Y + r * x * Y - 2 * r * X * y - r * X * Y
    - 2 * X * y - 2 * X * Y
  let quotient ← ratQuo numerator (2 * (r + 1) * (y + Y))
  pure |quotient|

def calculateNativeSwapAmountAsymmetricRat (Y X y x f r : ℚ) : Fallible ℚ := do
  let m := 4 * (x + X) * (x * Y * Y - X * y * Y)
  let w := r * X * y + r * X * Y + 2 * x * Y + 2 * X * Y - f * r * X * y - f * r * X * Y
    - f * X * y - f * X * Y
  let root ← approxRatSquareRoot (w * w - m)
  let numerator := (root : ℚ) + f * r * X * y + f * r * X * Y + f * X * y + f * X * Y - r * X * y
    - r * X * Y - 2 * x * Y - 2 * X * Y
  let quotient ← ratQuo numerator ((x + X) * 2)
  pure |quotient|

def calculateExternalSwapAmountAsymmetric (R A r a : ℕ) (f p : ℚ) : Fallible ℕ := do
  let s ← calculateExternalSwapAmountAsymmetricRat R A r a f p
  Uint.ofBigInt (ratIntQuo s)

def calculateNativeSwapAmountAsymmetric (R A r a : ℕ) (f p : ℚ) : Fallible ℕ := do
  let s ← calculateNativeSwapAmountAsymmetricRat R A r a f p
  Uint.ofBigInt (ratIntQuo s)

/-- `CalculatePoolUnitsSymmetric`: pool units, provider units. -/
def calculatePoolUnitsSymmetric (X x P : ℕ) : Fallible (ℕ × ℕ) := do
  let quotient ← Uint.quo (x * P) X
  let providerUnits ← Uint.ofBigInt quotient
  let poolUnits ← Uint.add P providerUnits
  pure (poolUnits, providerUnits)

inductive SwapStatus where
  | sellNative
  | buyNative
  | noSwap
  deriving DecidableEq, Repr

/-- `CalculatePoolUnits`: pool units, provider units, swap status, swap amount. -/
def calculatePoolUnits (P R A r a : ℕ) (sellNativeSwapFeeRate buyNativeSwapFeeRate
    pmtpCurrentRunningRate : Dec) : Fallible (ℕ × ℕ × SwapStatus × ℕ) :=
  match getLiquidityAddSymmetryState A a R r with
  | .errorEmptyPool =>
      -- one side is empty: the units are counted from scratch, whatever P is
      if a = 0 ∨ r = 0 then .error (.err .errInValidAmount) else .ok (r, r, .noSwap, 0)
  | .errorNothingAdded => .ok (P, 0, .noSwap, 0)
  | .needMoreY => do
      let swapAmount ← calculateExternalSwapAmountAsymmetric R A r a
        (decToRat buyNativeSwapFeeRate) (decToRat pmtpCurrentRunningRate)
      let aCorrected ← Uint.sub a swapAmount
      let AProjected ← Uint.add A swapAmount
      let (poolUnits, lpUnits) ← calculatePoolUnitsSymmetric AProjected aCorrected P
      pure (poolUnits, lpUnits, .buyNative, swapAmount)
  | .symmetric => do
      let (poolUnits, lpUnits) ← calculatePoolUnitsSymmetric R r P
      pure (poolUnits, lpUnits, .noSwap, 0)
  | .needMoreX => do
      let swapAmount ← calculateNativeSwapAmountAsymmetric R A r a
        (decToRat sellNativeSwapFeeRate) (decToRat pmtpCurrentRunningRate)
      let rCorrected ← Uint.sub r swapAmount
      let RProjected ← Uint.add R swapAmount
      let (poolUnits, lpUnits) ← calculatePoolUnitsSymmetric RProjected rCorrected P
      pure (poolUnits, lpUnits, .sellNative, swapAmount)

def calcRawXYK (x X Y : ℕ) : ℚ := (x : ℚ) * Y / (X + x)

def calcPmtpFactor (r : Dec) : ℚ := 1 + decToRat r

def calcAdjusted (toFury : Bool) (X x Y : ℕ) (pmtpCurrentRunningRate : Dec) : Fallible ℚ :=
  if toFury then ratQuo (calcRawXYK x X Y) (calcPmtpFactor pmtpCurrentRunningRate)
  else .ok (calcRawXYK x X Y * calcPmtpFactor pmtpCurrentRunningRate)

/-- `CalcSwapResult`: amount received, fee. -/
def calcSwapResult (toFury : Bool) (X x Y : ℕ) (pmtpCurrentRunningRate swapFeeRate : Dec) :
    Fallible (ℕ × ℕ) :=
  if X = 0 ∨ x = 0 ∨ Y = 0 then .ok (0, 0)
  else do
    let adjustedR ← calcAdjusted toFury X x Y pmtpCurrentRunningRate
    let percentFee ← Uint.ofBigInt (ratIntQuo (adjustedR * decToRat swapFeeRate))
    let adjusted ← Uint.ofBigInt (ratIntQuo adjustedR)
    let y ← Uint.sub adjusted percentFee
    pure (y, percentFee)

def calcPriceImpact (X x : ℕ) : Fallible ℕ :=
  if x = 0 then .ok 0 else Uint.ofBigInt (x / (x + X))

/-- `SwapOne`: amount received, fee, price impact, the pool after the swap. -/
def swapOne (sentAmount : ℕ) (toAsset : String) (pool : Pool)
    (pmtpCurrentRunningRate swapFeeRate : Dec) : Fallible (ℕ × ℕ × ℕ × Pool) := do
  let (X, Y, toFury, _) := pool.extractValues toAsset
  let (Xincl, Yincl) ← pool.extractDebt X Y toFury
  let priceImpact ← calcPriceImpact Xincl sentAmount
  let (swapResult, liquidityFee) ←
    calcSwapResult toFury Xincl sentAmount Yincl pmtpCurrentRunningRate swapFeeRate
  check (swapResult < Y) (.err .errNotEnoughAssetTokens)
  let swapped ← pool.updateBalances toFury X sentAmount Y swapResult
  pure (swapResult, liquidityFee, priceImpact, swapped)

def getSwapFee (sentAmount : ℕ) (toAsset : String) (pool : Pool)
    (pmtpCurrentRunningRate swapFeeRate : Dec) : Fallible ℕ := do
  let (X, Y, toFury, _) := pool.extractValues toAsset
  let (X, Y) ← pool.extractDebt X Y toFury
  let (swapResult, _) ← calcSwapResult toFury X sentAmount Y pmtpCurrentRunningRate swapFeeRate
  pure (if Y ≤ swapResult then 0 else swapResult)

def calculateWithdrawalFuryValue (sentAmount : ℕ) (toAsset : String) (pool : Pool)
    (pmtpCurrentRunningRate swapFeeRate : Dec) : Fallible ℕ := do
  let (X, Y, toFury, _) := pool.extractValues toAsset
  let (X, Y) ← pool.extractDebt X Y toFury
  let (value, _) ← calcSwapResult toFury X sentAmount Y pmtpCurrentRunningRate swapFeeRate
  pure value

def calculateAllAssetsForLP (pool : Pool) (lp : LiquidityProvider) : Fallible (ℕ × ℕ × ℕ × ℕ) := do
  let (nativeAssetDepth, externalAssetDepth) ←
    pool.extractDebt pool.nativeAssetBalance pool.externalAssetBalance false
  calculateWithdrawal pool.poolUnits nativeAssetDepth externalAssetDepth
    lp.liquidityProviderUnits maxWbasis 0

def calcFuryValue (furyAmount : ℕ) (price : Dec) : Fallible ℕ := do
  let value ← price.mul (Dec.ofInt furyAmount)
  decRoundToUint value

def calcFurySpotPrice (pool : Pool) (pmtpCurrentRunningRate : Dec) : Fallible Dec := do
  let (furyBal, externalAssetBal) ←
    pool.extractDebt pool.nativeAssetBalance pool.externalAssetBalance false
  check (furyBal ≠ 0) (.err .errInValidAmount)
  let unadjusted ← (Dec.ofInt externalAssetBal).quo (Dec.ofInt furyBal)
  let factor ← pmtpCurrentRunningRate.add Dec.one
  unadjusted.mul factor

def calculateDiscountedSentAmount (sentAmount : ℕ) (swapFeeRate : Dec) : Fallible ℕ := do
  let fee ← (Dec.ofInt sentAmount).mul swapFeeRate
  let rounded ← fee.roundInt
  Uint.ofBigInt (sentAmount - rounded)

def convUnitsToWBasisPoints (total units : ℕ) : Fallible ℤ := do
  let totalDec ← Dec.fromDigits total
  let unitsDec ← Dec.fromDigits units
  let ratio ← totalDec.quo unitsDec
  let wbasis ← (Dec.ofInt 10000).quo ratio
  wbasis.truncateInt

def convWBasisPointsToUnits (total : ℕ) (wbasis : ℤ) : Fallible ℕ := do
  let wbasisUint ← Uint.ofBigInt wbasis
  let divisor ← Uint.quo 10000 wbasisUint
  Uint.quo total divisor

end FuryNode
