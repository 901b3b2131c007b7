import FuryNode.Clp.Keeper

/-!
The keeper of x/margin. A position and its pool are passed by pointer, so a function
works on a frame: the stores, the position and the pool in memory. Writes to the frame
made before a failure stay, in memory and in the stores alike. A failure that a caller
only logs or recovers from is kept in `dropped`.
-/
namespace FuryNode
open StatefulProgram StatefulProgram.Prog KeyedTable Pagination

structure Frame (β : Type) where
  world : World β
  mtp : MTP
  pool : Pool
  dropped : List Failure

abbrev Step (β α : Type) := Prog (Frame β) Failure α

inductive Side where
  | native
  | external
  deriving DecidableEq, Repr

/-- `StringCompare(asset, nativeAsset)`. -/
def sideOf (asset : String) : Side := if asset = nativeSymbol then .native else .external

def Side.other : Side → Side
  | .native => .external
  | .external => .native

inductive PoolField where
  | balance
  | custody
  | liabilities
  | unsettled
  | blockInterest
  deriving DecidableEq, Repr

namespace Pool

def amount (p : Pool) : Side → PoolField → ℕ
  | .native, .balance => p.nativeAssetBalance
  | .native, .custody => p.nativeCustody
  | .native, .liabilities => p.nativeLiabilities
  | .native, .unsettled => p.unsettledNativeLiabilities
  | .native, .blockInterest => p.blockInterestNative
  | .external, .balance => p.externalAssetBalance
  | .external, .custody => p.externalCustody
  | .external, .liabilities => p.externalLiabilities
  | .external, .unsettled => p.unsettledExternalLiabilities
  | .external, .blockInterest => p.blockInterestExternal

def setAmount (p : Pool) : Side → PoolField → ℕ → Pool
  | .native, .balance, n => { p with nativeAssetBalance := n }
  | .native, .custody, n => { p with nativeCustody := n }
  | .native, .liabilities, n => { p with nativeLiabilities := n }
  | .native, .unsettled, n => { p with unsettledNativeLiabilities := n }
  | .native, .blockInterest, n => { p with blockInterestNative := n }
  | .external, .balance, n => { p with externalAssetBalance := n }
  | .external, .custody, n => { p with externalCustody := n }
  | .external, .liabilities, n => { p with externalLiabilities := n }
  | .external, .unsettled, n => { p with unsettledExternalLiabilities := n }
  | .external, .blockInterest, n => { p with blockInterestExternal := n }

end Pool

namespace MarginKeeper
variable {β α : Type}

def onWorld (p : Action β α) : Step β α := zoom Frame.world (fun w f => { f with world := w }) p

def setMtp (g : MTP → MTP) : Step β Unit := modify (fun f => { f with mtp := g f.mtp })

def setField (s : Side) (field : PoolField) (n : ℕ) : Step β Unit :=
  modify (fun f => { f with pool := f.pool.setAmount s field n })

/-- `pool.Field = pool.Field.Add(n)`. -/
def addField (s : Side) (field : PoolField) (n : ℕ) : Step β Unit := do
  let f ← read
  let sum ← ofExcept (Uint.add (f.pool.amount s field) n)
  setField s field sum

/-- `pool.Field = pool.Field.Sub(n)`. -/
def subField (s : Side) (field : PoolField) (n : ℕ) : Step β Unit := do
  let f ← read
  let rest ← ofExcept (Uint.sub (f.pool.amount s field) n)
  setField s field rest

def drop (e : Failure) : Step β Unit := modify (fun f => { f with dropped := f.dropped ++ [e] })

def storePool (env : Env β) : Step β Unit := do
  let f ← read
  onWorld (ClpKeeper.setPool env f.pool)

def enter (mtp : MTP) (pool : Pool) (p : Step β α) : Action β (α × Frame β) :=
  ⟨fun w => match p.run ⟨w, mtp, pool, []⟩ with
    | (.ok a, f) => (.ok (a, f), f.world)
    | (.error e, f) => (.error e, f.world)⟩

/-- `MTP.Validate`. -/
def mtpValidate (mtp : MTP) : Fallible Unit := do
  check (mtp.collateralAsset ≠ "") (.err .errMTPInvalid)
  check (mtp.address ≠ "") (.err .errMTPInvalid)
  check (mtp.position ≠ .unspecified) (.err .errMTPInvalid)
  check (mtp.id ≠ 0) (.err .errMTPInvalid)

/-- The next id of a new position; both counters are `uint64`. -/
def countPosition (f : Frame β) : Frame β :=
  { f with
    mtp := { f.mtp with id := (f.world.mtpCount + 1) % 2 ^ 64 }
    world := { f.world with
      mtpCount := (f.world.mtpCount + 1) % 2 ^ 64
      openMtpCount := (f.world.openMtpCount + 1) % 2 ^ 64 } }

def setMTP : Step β Unit := do
  let f ← read
  when (f.mtp.id = 0) (modify countPosition)
  let f ← read
  ofExcept (mtpValidate f.mtp)
  modify (fun f => { f with world := { f.world with mtps := f.world.mtps.put f.mtp } })

def getMTP (mtpAddress : String) (id : ℕ) : Action β MTP := do
  let w ← read
  match w.mtps.get ⟨mtpAddress, id⟩ with
  | some mtp => pure mtp
  | none => fail (.err .errMTPDoesNotExist)

def destroyMTP (mtpAddress : String) (id : ℕ) : Action β Unit := do
  let _ ← getMTP mtpAddress id
  modify (fun w => { w with
    mtps := w.mtps.delete ⟨mtpAddress, id⟩
    openMtpCount := uint64OfInt ((w.openMtpCount : ℤ) - 1) })

/-- `GetMTPsForPool` without a page request. -/
def getMTPsForPool (w : World β) (asset : String) : List MTP :=
  filteredPaginate (fun accumulate mtp =>
    accumulate && (decide (mtp.custodyAsset = asset) || decide (mtp.collateralAsset = asset)))
    (2 ^ 64 - 2) w.mtps.rows

def clpCalcSwap (params : ClpParams) (sentAmount : ℕ) (toAsset : String) (pool : Pool)
    (marginEnabled : Bool) : Fallible ℕ := do
  let (X, Y, toFury, sold) := pool.extractValues toAsset
  let (Xincl, Yincl) ← pool.extractDebt X Y toFury
  let (swapResult, _) ← calcSwapResult toFury Xincl sentAmount Yincl
    params.pmtpCurrentRunningRate (ClpKeeper.getSwapFeeRate params sold marginEnabled)
  check (swapResult < Y) (.err .errNotEnoughAssetTokens)
  pure swapResult

def clpSwap (w : World β) (sentAmount : ℕ) (toAsset : String) (pool : Pool) : Fallible ℕ := do
  let marginEnabled := ClpKeeper.isPoolEnabled w.margin pool.externalAsset
  let swapResult ← clpCalcSwap w.clp sentAmount toAsset pool marginEnabled
  check (swapResult ≠ 0) (.err .errAmountTooLow)
  pure swapResult

def updateMTPHealth (w : World β) (mtp : MTP) (pool : Pool) : Fallible Dec :=
  if mtp.liabilities = 0 then .ok Dec.zero
  else do
    let xl ← (if 0 < mtp.interestUnpaidCollateral then
      Uint.add mtp.liabilities mtp.interestUnpaidCollateral else .ok mtp.liabilities : Fallible ℕ)
    let C ← clpSwap w mtp.custodyAmount mtp.collateralAsset pool
    (Dec.ofInt C).quo (Dec.ofInt xl)

/-- `mtp.MtpHealth, err = k.UpdateMTPHealth(..)`: with an error, zero is assigned. -/
def assignHealth : Step β Unit := do
  let f ← read
  match updateMTPHealth f.world f.mtp f.pool with
  | .ok h => setMtp (fun m => { m with mtpHealth := h })
  | .error (.err e) => do
      setMtp (fun m => { m with mtpHealth := Dec.zero })
      fail (.err e)
  | .error (.panic p) => fail (.panic p)

def getEpochPosition (height epochLength : ℤ) : ℤ :=
  height.tmod (if epochLength ≤ 0 then 1 else epochLength)

def calcMTPInterestLiabilities (env : Env β) (mtp : MTP) (interestRate : Dec)
    (epochPosition epochLength : ℤ) : Fallible ℕ := do
  let full := env.mustFloat64 interestRate * (mtp.liabilities + mtp.interestUnpaidCollateral : ℕ)
  let prorated ← (if 0 < epochPosition then do
      let share ← ratQuo epochPosition epochLength
      pure (full * share)
    else pure full : Fallible ℚ)
  let interestNew ← Uint.ofBigInt (ratIntQuo prorated + mtp.interestUnpaidCollateral)
  pure (if interestNew = 0 ∧ ¬interestRate.isZero then 1 else interestNew)

def takeInCustody (env : Env β) : Step β Unit := do
  let f ← read
  let custody := sideOf f.mtp.custodyAsset
  subField custody .balance f.mtp.custodyAmount
  addField custody .custody f.mtp.custodyAmount
  storePool env

def takeOutCustody (env : Env β) : Step β Unit := do
  let f ← read
  let custody := sideOf f.mtp.custodyAsset
  subField custody .custody f.mtp.custodyAmount
  addField custody .balance f.mtp.custodyAmount
  storePool env

def takeFundPayment (env : Env β) (returnAmount : ℕ) (returnAsset : String) (takePercentage : Dec)
    (fundAddr : AccAddress) : Action β ℕ := do
  let share ← ofExcept (takePercentage.mul (Dec.ofInt returnAmount))
  let takeAmount ← ofExcept (decToUint share)
  when (takeAmount ≠ 0) do
    let coin ← ofExcept (newCoin env returnAsset takeAmount)
    let takeCoins ← ofExcept (newCoins [coin])
    ClpKeeper.sendCoinsFromModuleToAccount env fundAddr takeCoins
  pure takeAmount

def settleDebt (repayAmount liabilities unpaid : ℕ) : Fallible (ℕ × ℕ × ℕ) := do
  let owe ← Uint.add liabilities unpaid
  if repayAmount < liabilities then do
    let debtP ← Uint.sub liabilities repayAmount
    pure (0, debtP, unpaid)
  else if repayAmount < owe then do
    let debtI ← Uint.sub owe repayAmount
    pure (0, 0, debtI)
  else do
    let afterLiabilities ← Uint.sub repayAmount liabilities
    let returnAmount ← Uint.sub afterLiabilities unpaid
    pure (returnAmount, 0, 0)

def ownerPart (env : Env β) (returnAmount : ℕ) (collateralAsset : String) (takeFund : Bool) :
    Action β ℕ :=
  if takeFund then do
    let w ← read
    let fundAddr ← ofExcept (getSigner env w.margin.forceCloseFundAddress)
    let takeAmount ← takeFundPayment env returnAmount collateralAsset
      w.margin.forceCloseFundPercentage fundAddr
    ofExcept (Uint.sub returnAmount takeAmount)
  else pure returnAmount

/-- The payout of `Repay`. -/
def payReturn (env : Env β) (mtp : MTP) (returnAmount : ℕ) (takeFund : Bool) : Action β Unit :=
  when (returnAmount ≠ 0) do
    let actualReturnAmount ← ownerPart env returnAmount mtp.collateralAsset takeFund
    when (actualReturnAmount ≠ 0) do
      let returnCoin ← ofExcept (newCoin env mtp.collateralAsset actualReturnAmount)
      let returnCoins ← ofExcept (Coins.add [] returnCoin)
      let addr ← ofExcept (decodeAddress env mtp.address)
      ClpKeeper.sendCoinsFromModuleToAccount env addr returnCoins

def repay (env : Env β) (repayAmount : ℕ) (takeFund : Bool) : Step β Unit := do
  assignHealth
  let f ← read
  let (returnAmount, debtP, debtI) ← ofExcept
    (settleDebt repayAmount f.mtp.liabilities f.mtp.interestUnpaidCollateral)
  onWorld (payReturn env f.mtp returnAmount takeFund)
  let collateral := sideOf f.mtp.collateralAsset
  subField collateral .balance returnAmount
  subField collateral .liabilities f.mtp.liabilities
  let withInterest ← ofExcept (Uint.add (f.pool.amount collateral .unsettled) debtI)
  let unsettled ← ofExcept (Uint.add withInterest debtP)
  setField collateral .unsettled unsettled
  onWorld (destroyMTP f.mtp.address f.mtp.id)
  storePool env

/-- What a payment costs in custody, what it pays in collateral and what stays unpaid. -/
structure PaymentSplit where
  custody : ℕ
  collateral : ℕ
  unpaid : ℕ

/-- The edge case of `IncrementalInterestPayment`: the custody does not cover the payment. -/
def coverPayment (f : Frame β) (interestPayment interestPaymentCustody : ℕ) :
    Fallible PaymentSplit :=
  if f.mtp.custodyAmount < interestPaymentCustody then do
    let custodyAmountCollateral ← clpSwap f.world f.mtp.custodyAmount f.mtp.collateralAsset f.pool
    let unpaid ← Uint.sub interestPayment custodyAmountCollateral
    pure ⟨f.mtp.custodyAmount, custodyAmountCollateral, unpaid⟩
  else pure ⟨interestPaymentCustody, interestPayment, 0⟩

def payFromCustody (env : Env β) (split : PaymentSplit) : Step β ℕ := do
  let f ← read
  let paidCollateral ← ofExcept (Uint.add f.mtp.interestPaidCollateral split.collateral)
  setMtp (fun m => { m with interestPaidCollateral := paidCollateral })
  let paidCustody ← ofExcept (Uint.add f.mtp.interestPaidCustody split.custody)
  setMtp (fun m => { m with interestPaidCustody := paidCustody })
  let custodyAmount ← ofExcept (Uint.sub f.mtp.custodyAmount split.custody)
  setMtp (fun m => { m with custodyAmount := custodyAmount })
  let fundAddr ← ofExcept (getSigner env f.world.margin.incrementalInterestPaymentFundAddress)
  let takeAmount ← onWorld (takeFundPayment env split.custody f.mtp.custodyAsset
    f.world.margin.incrementalInterestPaymentFundPercentage fundAddr)
  let actual ← ofExcept (Uint.sub split.custody takeAmount)
  let custody := sideOf f.mtp.custodyAsset
  subField custody .custody split.custody
  addField custody .balance actual
  setMTP
  storePool env
  pure actual

def incrementalInterestPayment (env : Env β) (interestPayment : ℕ) : Step β ℕ := do
  let f ← read
  let payment ← ofExcept (if 0 < f.mtp.interestUnpaidCollateral then
    Uint.add interestPayment f.mtp.interestUnpaidCollateral else .ok interestPayment)
  let interestPaymentCustody ← ofExcept (clpSwap f.world payment f.mtp.custodyAsset f.pool)
  setMtp (fun m => { m with interestUnpaidCollateral := 0 })
  let split ← ofExcept (coverPayment f payment interestPaymentCustody)
  setMtp (fun m => { m with interestUnpaidCollateral := split.unpaid })
  payFromCustody env split

def outcome (p : Step β α) : Step β (Except Err α) := do
  match ← attempt p with
  | .ok a => pure (.ok a)
  | .error (.err e) => pure (.error e)
  | .error (.panic q) => fail (.panic q)

def handleInterestPayment (env : Env β) (interestPayment : ℕ) : Step β ℕ := do
  let f ← read
  if f.world.margin.incrementalInterestPaymentEnabled then do
    match ← outcome (incrementalInterestPayment env interestPayment) with
    | .ok finalInterestPayment => pure finalInterestPayment
    | .error e => do
        drop (.err e)
        pure 0
  else do
    setMtp (fun m => { m with interestUnpaidCollateral := interestPayment })
    pure 0

/-- Interest is computed, handled and counted for the block, on the side that is not the
    collateral's. -/
def chargeInterest (env : Env β) (epochPosition epochLength : ℤ) : Step β Unit := do
  let f ← read
  let interestPayment ← ofExcept
    (calcMTPInterestLiabilities env f.mtp f.pool.interestRate epochPosition epochLength)
  let finalInterestPayment ← handleInterestPayment env interestPayment
  addField (sideOf f.mtp.collateralAsset).other .blockInterest finalInterestPayment

def chargeWithinEpoch (env : Env β) : Step β Unit := do
  let f ← read
  let epochLength := f.world.margin.epochLength
  let epochPosition := getEpochPosition f.world.height epochLength
  when (0 < epochPosition) do
    chargeInterest env epochPosition epochLength
    assignHealth

def closePosition (env : Env β) (takeFund : Bool) : Step β ℕ := do
  takeOutCustody env
  let f ← read
  let repayAmount ← ofExcept (clpSwap f.world f.mtp.custodyAmount f.mtp.collateralAsset f.pool)
  repay env repayAmount takeFund
  pure repayAmount

def forceCloseLong (env : Env β) (isAdminClose takeFund : Bool) : Step β ℕ := do
  chargeWithinEpoch env
  let f ← read
  require (isAdminClose = true ∨ f.mtp.mtpHealth.le f.world.margin.safetyFactor)
    (.err .errMTPHealthy)
  closePosition env takeFund

def borrow (env : Env β) (collateralAmount custodyAmount : ℕ) (eta : Dec) : Step β Unit := do
  let f ← read
  let mtpAddress ← ofExcept (decodeAddress env f.mtp.address)
  let collateralCoin ← ofExcept (newCoin env f.mtp.collateralAsset collateralAmount)
  require (ClpKeeper.hasBalance env f.world mtpAddress collateralCoin) (.err .errBalanceNotAvailable)
  let liabilitiesDec ← ofExcept ((Dec.ofInt collateralAmount).mul eta)
  let collateral ← ofExcept (Uint.add f.mtp.collateralAmount collateralAmount)
  let newLiabilities ← ofExcept (decToUint liabilitiesDec)
  let liabilities ← ofExcept (Uint.add f.mtp.liabilities newLiabilities)
  let custody ← ofExcept (Uint.add f.mtp.custodyAmount custodyAmount)
  let leverage ← ofExcept (eta.add Dec.one)
  setMtp (fun m => { m with
    collateralAmount := collateral
    liabilities := liabilities
    custodyAmount := custody
    leverage := leverage })
  let f ← read
  let health ← ofExcept (updateMTPHealth f.world f.mtp f.pool)
  setMtp (fun m => { m with mtpHealth := health })
  let collateralCoins ← ofExcept (newCoins [collateralCoin])
  onWorld (ClpKeeper.sendCoinsFromAccountToModule env mtpAddress collateralCoins)
  addField (sideOf f.mtp.collateralAsset) .balance collateralAmount
  addField (sideOf f.mtp.collateralAsset) .liabilities liabilities
  storePool env
  setMTP

def updatePoolHealth (env : Env β) : Step β Unit := do
  let f ← read
  let health ← ofExcept (ClpKeeper.calculatePoolHealth f.pool)
  modify (fun f => { f with pool := { f.pool with health := health } })
  storePool env

def checkMinLiabilities (env : Env β) (w : World β) (collateralAmount : ℕ) (eta : Dec) (pool : Pool)
    (custodyAsset : String) : Fallible Unit := do
  let liabilitiesDec ← (Dec.ofInt collateralAmount).mul eta
  let liabilities ← decToUint liabilitiesDec
  let samplePayment ← Uint.ofBigInt
    (ratIntQuo (env.mustFloat64 w.margin.interestRateMin * liabilities))
  check (samplePayment ≠ 0 ∨ w.margin.interestRateMin.isZero) (.err .errBorrowTooLow)
  let _ ← mapFailure (wrap .errBorrowTooLow) (clpSwap w samplePayment custodyAsset pool)
  pure ()

def getSQFromBlocks (env : Env β) (w : World β) (pool : Pool) (poolInterestRate : Dec) :
    Fallible Dec :=
  if w.sqBeginBlock pool.externalAsset = 0 then .ok Dec.zero
  else do
    let blocks := wrapInt64 (w.height - int64 (w.sqBeginBlock pool.externalAsset))
    let multipliedBy ← Dec.one.sub (env.decay poolInterestRate blocks)
    w.margin.interestRateMax.mul multipliedBy

/-- The rate moves towards its target by at most the increase or the decrease. -/
def approachRate (params : MarginParams) (previous target : Dec) : Fallible Dec := do
  let change ← target.sub previous
  let down ← params.interestRateDecrease.mul (Dec.ofInt (-1))
  if down.le change ∧ change.le params.interestRateIncrease then pure target
  else if params.interestRateIncrease.lt change then previous.add params.interestRateIncrease
  else if change.lt down then previous.sub params.interestRateDecrease
  else pure previous

def clampRate (params : MarginParams) (rate : Dec) : Dec :=
  if params.interestRateMin.lt rate ∧ rate.lt params.interestRateMax then rate
  else if rate.le params.interestRateMin then params.interestRateMin
  else if params.interestRateMax.le rate then params.interestRateMax
  else rate

/-- `InterestRateComputation`: both balances are divisors. -/
def interestRateComputation (env : Env β) (w : World β) (pool : Pool) : Fallible Dec := do
  let externalAssetBalance := Dec.ofInt pool.externalAssetBalance
  let nativeAssetBalance := Dec.ofInt pool.nativeAssetBalance
  let externalDepth ← externalAssetBalance.add (Dec.ofInt pool.externalLiabilities)
  let mul1 ← externalDepth.quo externalAssetBalance
  let nativeDepth ← nativeAssetBalance.add (Dec.ofInt pool.nativeLiabilities)
  let mul2 ← nativeDepth.quo nativeAssetBalance
  let first ← w.margin.healthGainFactor.mul mul1
  let targetInterestRate ← first.mul mul2
  let interestRate ← approachRate w.margin pool.interestRate targetInterestRate
  let newInterestRate := clampRate w.margin interestRate
  let sQ ← getSQFromBlocks env w pool newInterestRate
  newInterestRate.add sQ

def setSQBeginBlock (asset : String) (height : ℕ) : Action β Unit :=
  modify (fun w => { w with
    sqBeginBlock := fun a => if a = asset then height else w.sqBeginBlock a })

def trackSQBeginBlock (pool : Pool) : Action β Unit := do
  let w ← read
  let threshold := w.margin.removalQueueThreshold
  if w.sqBeginBlock pool.externalAsset = 0 then
    when (pool.health.le threshold) (setSQBeginBlock pool.externalAsset (uint64OfInt w.height))
  else when (threshold.lt pool.health) (setSQBeginBlock pool.externalAsset 0)

/-- An error that is only logged. -/
def logged (p : Step β Unit) : Step β Unit := do
  match ← outcome p with
  | .ok _ => pure ()
  | .error e => drop (.err e)

def tryForceClose (env : Env β) : Step β Unit := do
  match ← outcome (forceCloseLong env false true) with
  | .ok _ => pure ()
  | .error .errMTPHealthy => pure ()
  | .error e => drop (.err e)

/-- The body of `BeginBlockerProcessMTP`. -/
def processMTP (env : Env β) : Step β Unit := do
  let f ← read
  match updateMTPHealth f.world f.mtp f.pool with
  | .error (.panic p) => fail (.panic p)
  | .error (.err e) => drop (.err e)
  | .ok h => do
      setMtp (fun m => { m with mtpHealth := h })
      chargeInterest env 0 0
      logged setMTP
      tryForceClose env

/-- `BeginBlockerProcessMTP` recovers from a panic of its body. -/
def beginBlockerProcessMTP (env : Env β) : Step β Unit := do
  match ← attempt (processMTP env) with
  | .ok _ => pure ()
  | .error e => drop e

structure BlockState where
  pool : Pool
  dropped : List Failure

def visitPosition (env : Env β) (state : BlockState) (mtp : MTP) : Action β BlockState := do
  let (_, f) ← enter mtp state.pool (beginBlockerProcessMTP env)
  pure ⟨f.pool, state.dropped ++ f.dropped⟩

def visitPositions (env : Env β) (pool : Pool) : Action β BlockState := do
  Action.ignoreError (ClpKeeper.setPool env pool)
  trackSQBeginBlock pool
  let w ← read
  accumulate (visitPosition env) ⟨pool, []⟩ (getMTPsForPool w pool.externalAsset)

def visitEnabledPool (env : Env β) (pool : Pool) : Action β BlockState := do
  let w ← read
  let rate ← ofExcept (interestRateComputation env w pool)
  let rated := { pool with interestRate := rate, lastHeightInterestRateComputed := w.height }
  let health ← ofExcept (ClpKeeper.calculatePoolHealth rated)
  visitPositions env { rated with health := health }

/-- One pool of `BeginBlocker`; the pool in memory is written back whatever happened. -/
def visitPool (env : Env β) (dropped : List Failure) (pool : Pool) : Action β (List Failure) := do
  let w ← read
  let fresh := { pool with blockInterestExternal := 0, blockInterestNative := 0 }
  let state ← (if ClpKeeper.isPoolEnabled w.margin fresh.externalAsset then visitEnabledPool env fresh
    else pure ⟨fresh, []⟩ : Action β BlockState)
  Action.ignoreError (ClpKeeper.setPool env state.pool)
  pure (dropped ++ state.dropped)

/-- `BeginBlocker`, with the failures it dropped. -/
def beginBlocker (env : Env β) : Action β (List Failure) := do
  let w ← read
  if getEpochPosition w.height w.margin.epochLength = 0 then
    accumulate (visitPool env) [] w.pools.rows
  else pure []
end MarginKeeper
end FuryNode
