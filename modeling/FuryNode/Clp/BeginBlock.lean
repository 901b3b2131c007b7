import Mathlib.Data.Nat.Size
import FuryNode.Clp.MsgServer
import FuryNode.Sdk.LedgerBank

/-!
The begin of a block in x/clp with the messages that steer it. Liquidity protection is
replenished, the PMTP policy (a rate that grows block by block within a window of heights)
moves on, and the spot prices of all pools are written anew.
-/
namespace FuryNode
open StatefulProgram StatefulProgram.Prog KeyedTable

structure PmtpParams where
  pmtpPeriodGovernanceRate : Dec
  pmtpPeriodEpochLength : ℤ
  pmtpPeriodStartBlock : ℤ
  pmtpPeriodEndBlock : ℤ
  deriving DecidableEq, Repr

structure PmtpEpoch where
  epochCounter : ℤ
  blockCounter : ℤ
  deriving DecidableEq, Repr

/-- `Dec` functions of the SDK that are not modelled, and the block rate, which is computed in
    floating point when a policy starts. -/
structure PolicyEnv (β : Type) extends Env β where
  newDecFromStr : String → Option Dec
  power : Dec → ℕ → Fallible Dec
  policyBlockRate : PmtpParams → Fallible Dec

inductive AdminType where
  | clpdex
  | pmtprewards
  deriving DecidableEq, Repr

/-- The world with what only the begin of a block and its messages use. The running rate and
    the parameters of liquidity protection are parts of the world. -/
structure PolicyState (β : Type) where
  world : World β
  protectionEpochLength : ℕ
  pmtpParams : PmtpParams
  pmtpPeriodBlockRate : Dec
  pmtpInterPolicyRate : Dec
  pmtpEpoch : PmtpEpoch
  /-- `SwapPriceNative` and `SwapPriceExternal` of each pool. -/
  swapPrices : PoolKey → Option (Dec × Dec)
  /-- The decimals of the registry entries. -/
  decimals : String → Int64
  isAdminAccount : AdminType → AccAddress → Bool

abbrev PolicyAction (β α : Type) := Prog (PolicyState β) Failure α

variable {β : Type}

namespace PolicyState

def runningRate (s : PolicyState β) : Dec := s.world.clp.pmtpCurrentRunningRate

/-- `SetPmtpCurrentRunningRate`. -/
def setRunningRate (s : PolicyState β) (rate : Dec) : PolicyState β :=
  { s with world := { s.world with clp := { s.world.clp with pmtpCurrentRunningRate := rate } } }

/-- `SetLiquidityProtectionCurrentFuryLiquidityThreshold`. -/
def setThreshold (s : PolicyState β) (threshold : ℕ) : PolicyState β :=
  { s with world := { s.world with currentFuryLiquidityThreshold := threshold } }

def isInsidePmtpWindow (s : PolicyState β) : Prop :=
  s.world.height ≤ s.pmtpParams.pmtpPeriodEndBlock ∧ s.pmtpParams.pmtpPeriodStartBlock ≤ s.world.height

instance (s : PolicyState β) : Decidable s.isInsidePmtpWindow := inferInstanceAs (Decidable (_ ∧ _))

/-- An address that the message server takes for an administrator of the given type. -/
def Authorised (env : PolicyEnv β) (s : PolicyState β) (adminType : AdminType) (signer : String) : Prop :=
  ∃ address, env.accAddressFromBech32 signer = some address ∧ s.isAdminAccount adminType address = true

end PolicyState

namespace BeginBlock

/-- The threshold after a block: an epoch's share is added, up to the maximum. -/
def replenished (maximum current epochLength : ℕ) : Fallible ℕ := do
  let replenishmentAmount ← Uint.quo maximum epochLength
  let room ← Uint.sub maximum current
  if room < replenishmentAmount then pure maximum else Uint.add current replenishmentAmount

def replenishThreshold : PolicyAction β Unit := do
  let s ← read
  when (s.world.clp.liquidityProtectionIsActive = true) do
    let threshold ← ofExcept (replenished s.world.clp.maxFuryLiquidityThreshold
      s.world.currentFuryLiquidityThreshold s.protectionEpochLength)
    modify (fun s => s.setThreshold threshold)

def policyStart (env : PolicyEnv β) : PolicyAction β Unit := do
  let s ← read
  let p := s.pmtpParams
  let numBlocksInPolicyPeriod := wrapInt64 (p.pmtpPeriodEndBlock - p.pmtpPeriodStartBlock + 1)
  require (p.pmtpPeriodEpochLength ≠ 0) (.panic .divisionByZero)
  let numEpochsInPolicyPeriod := numBlocksInPolicyPeriod.tdiv p.pmtpPeriodEpochLength
  let blockRate ← ofExcept (env.policyBlockRate p)
  modify (fun s => { s with
    pmtpPeriodBlockRate := blockRate
    pmtpEpoch := ⟨numEpochsInPolicyPeriod, p.pmtpPeriodEpochLength⟩ })

def policyCalculations (env : PolicyEnv β) : PolicyAction β Dec := do
  let s ← read
  let base ← ofExcept (Dec.one.add s.pmtpPeriodBlockRate)
  let power ← ofExcept
    (env.power base (uint64OfInt (s.world.height - s.pmtpParams.pmtpPeriodStartBlock + 1)))
  let grown ← ofExcept (power.sub Dec.one)
  let rate ← ofExcept (grown.add s.pmtpInterPolicyRate)
  modify (fun s => s.setRunningRate rate)
  pure rate

def startPolicy (env : PolicyEnv β) : PolicyAction β Unit := do
  let s ← read
  when (s.world.height = s.pmtpParams.pmtpPeriodStartBlock ∧ s.pmtpEpoch.epochCounter = 0 ∧
    s.pmtpEpoch.blockCounter = 0) (policyStart env)

/-- Manage Block Counter. The result is the rate that the prices are computed with. -/
def countBlock (env : PolicyEnv β) : PolicyAction β Dec := do
  let s ← read
  if s.pmtpParams.pmtpPeriodStartBlock ≤ s.world.height ∧ s.world.height ≤ s.pmtpParams.pmtpPeriodEndBlock ∧
      0 < s.pmtpEpoch.epochCounter then do
    let rate ← policyCalculations env
    modify (fun s => { s with
      pmtpEpoch := ⟨s.pmtpEpoch.epochCounter, s.pmtpEpoch.blockCounter - 1⟩ })
    pure rate
  else pure s.runningRate

def countEpoch : PolicyAction β Unit := do
  let s ← read
  when (s.pmtpEpoch.blockCounter = 0 ∧ s.world.height < s.pmtpParams.pmtpPeriodEndBlock ∧
      s.pmtpParams.pmtpPeriodStartBlock ≤ s.world.height)
    (modify (fun s => { s with
      pmtpEpoch := ⟨s.pmtpEpoch.epochCounter - 1, s.pmtpParams.pmtpPeriodEpochLength⟩ }))

def endPolicy (rate : Dec) : PolicyAction β Unit := do
  let s ← read
  when (s.world.height = s.pmtpParams.pmtpPeriodEndBlock)
    (modify (fun s => { s with pmtpEpoch := ⟨0, 0⟩, pmtpInterPolicyRate := rate }))

def pmtpBlock (env : PolicyEnv β) : PolicyAction β Dec := do
  startPolicy env
  let rate ← countBlock env
  countEpoch
  endPolicy rate
  pure rate

/-! Spot prices. -/

inductive SpotPriceErr where
  | errInValidAmount
  | decimalOutOfRange (bitLen : ℕ)
  deriving DecidableEq, Repr

def ratToDec (r : ℚ) : Except SpotPriceErr Dec :=
  let d := (r.num * 10 ^ 18).tdiv r.den
  if Dec.fits d then .ok ⟨d⟩ else .error (.decimalOutOfRange d.natAbs.size)

def calcDenomChangeMultiplier (decimalsX decimalsY : ℕ) : ℚ :=
  if decimalsY < decimalsX then 10 ^ (decimalsX - decimalsY) else 1 / 10 ^ (decimalsY - decimalsX)

/-- `CalcSpotPriceX`. A division by a factor of zero panics. -/
def calcSpotPriceX (X Y decimalsX decimalsY : ℕ) (pmtpCurrentRunningRate : Dec) (isXNative : Bool) :
    Fallible (Except SpotPriceErr Dec) :=
  if X = 0 then .ok (.error .errInValidAmount)
  else do
    let price : ℚ := Y / X
    let pmtpPrice ← (if isXNative then .ok (price * calcPmtpFactor pmtpCurrentRunningRate)
      else ratQuo price (calcPmtpFactor pmtpCurrentRunningRate) : Fallible ℚ)
    pure (ratToDec (pmtpPrice * calcDenomChangeMultiplier decimalsX decimalsY))

def nativeAssetDecimals : ℕ := 18

def calcSpotPriceNative (pool : Pool) (decimalsExternal : ℕ) (pmtpCurrentRunningRate : Dec) :
    Fallible (Except SpotPriceErr Dec) := do
  let (X, Y) ← pool.extractDebt pool.nativeAssetBalance pool.externalAssetBalance false
  calcSpotPriceX X Y nativeAssetDecimals decimalsExternal pmtpCurrentRunningRate true

def calcSpotPriceExternal (pool : Pool) (decimalsExternal : ℕ) (pmtpCurrentRunningRate : Dec) :
    Fallible (Except SpotPriceErr Dec) := do
  let (X, Y) ← pool.extractDebt pool.externalAssetBalance pool.nativeAssetBalance true
  calcSpotPriceX X Y decimalsExternal nativeAssetDecimals pmtpCurrentRunningRate false

/-- `GetAssetDecimals`: an entry is needed, and decimals that fit a byte. -/
def getAssetDecimals (s : PolicyState β) (symbol : String) : Option ℕ :=
  match ClpKeeper.getEntry s.world.clp symbol with
  | .error _ => none
  | .ok entry =>
      let decimals := (s.decimals entry.denom).toInt
      if 0 ≤ decimals ∧ decimals < 256 then some decimals.toNat else none

/-- `SetPool` with new prices; its error is dropped. -/
def setSwapPrices (env : PolicyEnv β) (pool : Pool) (native external : Dec) : PolicyAction β Unit := do
  let valid ← ofExcept (assetValidate env.toEnv pool.externalAsset)
  when (valid = true)
    (modify (fun s => { s with swapPrices := Function.update s.swapPrices pool.key (some (native, external)) }))

def priceOrZero : Except SpotPriceErr Dec → Dec
  | .ok price => price
  | .error _ => Dec.zero

/-- One pool of `PolicyRun`. -/
def updatePrices (env : PolicyEnv β) (rate : Dec) (pool : Pool) : PolicyAction β Unit := do
  let s ← read
  match getAssetDecimals s pool.externalAsset with
  | none => pure ()
  | some decimalsExternal => do
      let spotPriceNative ← ofExcept (calcSpotPriceNative pool decimalsExternal rate)
      let spotPriceExternal ← ofExcept (calcSpotPriceExternal pool decimalsExternal rate)
      setSwapPrices env pool (priceOrZero spotPriceNative) (priceOrZero spotPriceExternal)

def policyRun (env : PolicyEnv β) (pmtpCurrentRunningRate : Dec) : PolicyAction β Unit := do
  let s ← read
  forEach (updatePrices env pmtpCurrentRunningRate) s.world.pools.rows

/-- Prices are all that `PolicyRun` writes. -/
theorem policyRun_scope {τ : Type} {obs : PolicyState β → τ}
    (blind : ∀ s prices, obs { s with swapPrices := prices } = obs s) (env : PolicyEnv β) (rate : Dec) :
    Preserves obs (policyRun env rate) := by
  refine preserves_read_then fun s => preserves_forEach (fun pool => ?_)
  refine preserves_read_then ?_
  intro s
  split
  · exact preserves_pure ()
  · exact preserves_ofExcept_then fun _ => preserves_ofExcept_then fun _ =>
      preserves_ofExcept_then fun _ =>
      preserves_when (preserves_modify fun s => blind s _)

/-- `BeginBlocker`, at the height of the state. -/
def beginBlocker (env : PolicyEnv β) : PolicyAction β Unit := do
  replenishThreshold
  let rate ← pmtpBlock env
  policyRun env rate

end BeginBlock

/-! The messages. -/

structure MsgUpdatePmtpParams where
  signer : String
  pmtpPeriodGovernanceRate : String
  pmtpPeriodEpochLength : Int64
  pmtpPeriodStartBlock : Int64
  pmtpPeriodEndBlock : Int64

structure MsgModifyPmtpRates where
  signer : String
  blockRate : String
  runningRate : String
  endPolicy : Bool

structure MsgUpdateLiquidityProtectionParams where
  signer : String
  maxFuryLiquidityThreshold : ℕ
  maxFuryLiquidityThresholdAsset : String
  epochLength : ℕ
  isActive : Bool

structure MsgModifyLiquidityProtectionRates where
  signer : String
  currentFuryLiquidityThreshold : ℕ

namespace PolicyMsgServer
open BeginBlock

def requireAdmin (env : PolicyEnv β) (adminType : AdminType) (signer : String) : PolicyAction β Unit := do
  let address ← ofExcept (decodeAddress env.toEnv signer)
  let s ← read
  require (s.isAdminAccount adminType address = true) (.err .errNotEnoughPermissions)

theorem requireAdmin_succeeds {env : PolicyEnv β} {adminType : AdminType} {signer : String}
    {s t : PolicyState β} {u : Unit} :
    (requireAdmin env adminType signer).run s = (.ok u, t) ↔ s.Authorised env adminType signer ∧ s = t := by
  simp only [requireAdmin, ofExcept_then, read_then, require_succeeds, PolicyState.Authorised]
  constructor
  · rintro ⟨address, decoded, admin, rfl⟩
    exact ⟨⟨address, (decodeAddress_succeeds env.toEnv).mp decoded, admin⟩, rfl⟩
  · rintro ⟨⟨address, decoded, admin⟩, rfl⟩
    exact ⟨address, (decodeAddress_succeeds env.toEnv).mpr decoded, admin, rfl⟩

theorem requireAdmin_scope {τ : Type} {obs : PolicyState β → τ} (env : PolicyEnv β)
    {adminType : AdminType} {signer : String} : Preserves obs (requireAdmin env adminType signer) :=
  preserves_ofExcept_then fun _ => preserves_read_then fun _ =>
    preserves_require

/-- `MsgUpdatePmtpParams.ValidateBasic`. -/
def validatePmtpParams (env : PolicyEnv β) (m : MsgUpdatePmtpParams) : Fallible Unit := do
  let _ ← decodeAddress env.toEnv m.signer
  check (0 < m.pmtpPeriodEpochLength.toInt) (.err .errEpochLengthNotPositive)
  check (0 ≤ m.pmtpPeriodStartBlock.toInt) (.err .errNegativeStartBlock)
  check (0 < m.pmtpPeriodEndBlock.toInt) (.err .errEndBlockNotPositive)
  check (m.pmtpPeriodStartBlock.toInt ≤ m.pmtpPeriodEndBlock.toInt) (.err .errEndBlockBeforeStart)
  check ((wrapInt64 (m.pmtpPeriodEndBlock.toInt - m.pmtpPeriodStartBlock.toInt + 1)).tmod
    m.pmtpPeriodEpochLength.toInt = 0) (.err .errUnequalEpochs)

def parseRate (env : PolicyEnv β) (text : String) (old : Dec) : Fallible Dec :=
  if text = "" then .ok old
  else match env.newDecFromStr text with
    | some rate => .ok rate
    | none => .error (.err .errInvalidDecimal)

def updatePmtpParams (env : PolicyEnv β) (m : MsgUpdatePmtpParams) : PolicyAction β Unit := do
  ofExcept (validatePmtpParams env m)
  requireAdmin env .pmtprewards m.signer
  let s ← read
  require (¬s.isInsidePmtpWindow) (.err .errCannotStartPolicy)
  require (s.world.height < m.pmtpPeriodStartBlock.toInt) (.err .errStartBlockNotInFuture)
  let rGov ← ofExcept
    (parseRate env m.pmtpPeriodGovernanceRate s.pmtpParams.pmtpPeriodGovernanceRate)
  modify (fun s => { s with
    pmtpParams := ⟨rGov, m.pmtpPeriodEpochLength.toInt, m.pmtpPeriodStartBlock.toInt,
      m.pmtpPeriodEndBlock.toInt⟩ })

/-- `ModifyPmtpRates`: rates are set between policies only, and a policy is ended only while it
    runs. -/
def modifyPmtpRates (env : PolicyEnv β) (m : MsgModifyPmtpRates) : PolicyAction β Unit := do
  requireAdmin env .pmtprewards m.signer
  let s ← read
  if s.isInsidePmtpWindow then
    when (m.endPolicy = true)
      (modify (fun s => { s with
        pmtpParams := { s.pmtpParams with pmtpPeriodEndBlock := s.world.height }
        pmtpEpoch := ⟨0, 0⟩
        pmtpInterPolicyRate := s.runningRate }))
  else do
    let blockRate ← ofExcept (parseRate env m.blockRate s.pmtpPeriodBlockRate)
    let runningRate ← ofExcept (parseRate env m.runningRate s.runningRate)
    let interPolicyRate := if m.runningRate = "" then s.pmtpInterPolicyRate else runningRate
    modify (fun s => { s.setRunningRate runningRate with
      pmtpPeriodBlockRate := blockRate, pmtpInterPolicyRate := interPolicyRate })

def updateLiquidityProtectionParams (env : PolicyEnv β) (m : MsgUpdateLiquidityProtectionParams) :
    PolicyAction β Unit := do
  let _ ← ofExcept (decodeAddress env.toEnv m.signer)
  require (0 < m.epochLength) (.err .errEpochLengthNotPositive)
  requireAdmin env .clpdex m.signer
  modify (fun s => { s with
    protectionEpochLength := m.epochLength
    world := { s.world with
      currentFuryLiquidityThreshold := m.maxFuryLiquidityThreshold
      clp := { s.world.clp with
        maxFuryLiquidityThreshold := m.maxFuryLiquidityThreshold
        maxFuryLiquidityThresholdAsset := m.maxFuryLiquidityThresholdAsset
        liquidityProtectionIsActive := m.isActive } } })

/-- `ModifyLiquidityProtectionRates`: any threshold is taken. -/
def modifyLiquidityProtectionRates (env : PolicyEnv β) (m : MsgModifyLiquidityProtectionRates) :
    PolicyAction β Unit := do
  requireAdmin env .clpdex m.signer
  modify (fun s => s.setThreshold m.currentFuryLiquidityThreshold)

end PolicyMsgServer

inductive PolicyMsg where
  | updatePmtpParams (m : MsgUpdatePmtpParams)
  | modifyPmtpRates (m : MsgModifyPmtpRates)
  | updateLiquidityProtectionParams (m : MsgUpdateLiquidityProtectionParams)
  | modifyLiquidityProtectionRates (m : MsgModifyLiquidityProtectionRates)
  | trade (m : ClpMsg)

def PolicyMsg.action (env : PolicyEnv β) : PolicyMsg → PolicyAction β Unit
  | .updatePmtpParams m => PolicyMsgServer.updatePmtpParams env m
  | .modifyPmtpRates m => PolicyMsgServer.modifyPmtpRates env m
  | .updateLiquidityProtectionParams m => PolicyMsgServer.updateLiquidityProtectionParams env m
  | .modifyLiquidityProtectionRates m => PolicyMsgServer.modifyLiquidityProtectionRates env m
  | .trade m => zoom PolicyState.world (fun w s => { s with world := w }) (m.action env.toEnv)

theorem trade_keeps {I : World β → Prop} {env : PolicyEnv β} {m : ClpMsg}
    (inner : Maintains I (m.action env.toEnv)) :
    Maintains (fun s : PolicyState β => I s.world) ((PolicyMsg.trade m).action env) :=
  maintains_zoom PolicyState.world (fun w s => { s with world := w }) inner fun _ _ => rfl

/-- A message that fails leaves no trace. -/
def PolicyMsg.deliver (env : PolicyEnv β) (m : PolicyMsg) (s : PolicyState β) : PolicyState β :=
  transact (m.action env) s

def BeginBlock.nextBlock (env : PolicyEnv β) : PolicyAction β Unit := do
  modify (fun s => { s with world := { s.world with height := s.world.height + 1 } })
  beginBlocker env

inductive PolicyEvent where
  | beginBlock
  | deliver (m : PolicyMsg)

/-- A block whose begin panics is never reached: the chain halts before it. -/
def PolicyEvent.step (env : PolicyEnv β) : PolicyEvent → PolicyState β → PolicyState β
  | .beginBlock, s => transact (BeginBlock.nextBlock env) s
  | .deliver m, s => m.deliver env s

/-! A chain at genesis with one pool, on which the model runs. -/
namespace PlainPolicy

def newDecFromStr (text : String) : Option Dec :=
  if text = "-1.0" then some ⟨-10 ^ 18⟩ else if text = "0.5" then some ⟨5 * 10 ^ 17⟩ else none

def power (base : Dec) : ℕ → Fallible Dec
  | 0 => .ok Dec.one
  | n + 1 => do
      let smaller ← power base n
      smaller.mul base

def env : PolicyEnv LedgerBank.Balances where
  toEnv := LedgerBank.env
  newDecFromStr := newDecFromStr
  power := power
  policyBlockRate _ := .ok ⟨10 ^ 16⟩

/-- The defaults of `InitGenesis`; carol administers everything. -/
def start : PolicyState LedgerBank.Balances where
  world := { LedgerBank.pooled with
    currentFuryLiquidityThreshold := 10 ^ 12
    clp := { LedgerBank.clpParams with
      maxFuryLiquidityThreshold := 10 ^ 12
      maxFuryLiquidityThresholdAsset := "cusdc" } }
  protectionEpochLength := 14400
  pmtpParams := ⟨Dec.zero, 1, 0, 0⟩
  pmtpPeriodBlockRate := Dec.zero
  pmtpInterPolicyRate := Dec.zero
  pmtpEpoch := ⟨0, 0⟩
  swapPrices _ := none
  decimals _ := 18
  isAdminAccount _ address := address = ⟨[3]⟩

end PlainPolicy
end FuryNode
