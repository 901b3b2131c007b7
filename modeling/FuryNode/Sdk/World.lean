import Mathlib.Data.List.Lex
import FuryNode.Library.KeyedTable
import FuryNode.Sdk.Chain

/-!
The state the modules share: the bank, the stores of x/clp and x/margin, and the
parameters they read. A store is a table whose rows carry their key, in the
order of the key bytes, so that an iteration over it sees each row once.
-/
namespace FuryNode
open StatefulProgram StatefulProgram.Prog KeyedTable

structure Pool where
  externalAsset : String
  nativeAssetBalance : ℕ
  externalAssetBalance : ℕ
  poolUnits : ℕ
  rewardPeriodNativeDistributed : ℕ := 0
  externalLiabilities : ℕ := 0
  externalCustody : ℕ := 0
  nativeLiabilities : ℕ := 0
  nativeCustody : ℕ := 0
  health : Dec := Dec.zero
  interestRate : Dec := Dec.zero
  lastHeightInterestRateComputed : ℤ := 0
  unsettledExternalLiabilities : ℕ := 0
  unsettledNativeLiabilities : ℕ := 0
  blockInterestNative : ℕ := 0
  blockInterestExternal : ℕ := 0
  deriving DecidableEq, Repr

/-- `types.Pool{}`. -/
def Pool.zero : Pool := {
  externalAsset := ""
  nativeAssetBalance := 0
  externalAssetBalance := 0
  poolUnits := 0 }

structure LiquidityUnlock where
  requestHeight : ℤ
  units : ℕ
  deriving DecidableEq, Repr

structure LiquidityProvider where
  asset : String
  liquidityProviderUnits : ℕ
  liquidityProviderAddress : String
  unlocks : List LiquidityUnlock := []
  deriving DecidableEq, Repr

structure MsgRemoveLiquidity where
  signer : String
  externalAsset : String
  wBasisPoints : ℤ
  asymmetry : ℤ
  deriving DecidableEq, Repr

structure RemovalRequest where
  id : ℤ
  msg : MsgRemoveLiquidity
  value : ℕ
  deriving DecidableEq, Repr

structure RemovalQueue where
  symbol : String
  count : ℤ := 0
  id : ℤ := 0
  startHeight : ℤ := 0
  totalValue : ℕ := 0
  deriving DecidableEq, Repr

inductive Position where
  | unspecified
  | long
  | short
  deriving DecidableEq, Repr

structure MTP where
  address : String
  collateralAsset : String
  collateralAmount : ℕ := 0
  liabilities : ℕ := 0
  interestPaidCollateral : ℕ := 0
  interestPaidCustody : ℕ := 0
  interestUnpaidCollateral : ℕ := 0
  custodyAsset : String
  custodyAmount : ℕ := 0
  leverage : Dec
  mtpHealth : Dec := Dec.zero
  position : Position
  id : ℕ := 0
  deriving DecidableEq, Repr

structure PoolKey where
  symbol : String
  deriving DecidableEq, Repr

structure ProviderKey where
  symbol : String
  address : String
  deriving DecidableEq, Repr

structure RequestKey where
  signer : String
  id : ℤ
  deriving DecidableEq, Repr

structure QueueKey where
  symbol : String
  deriving DecidableEq, Repr

structure MtpKey where
  address : String
  id : ℕ
  deriving DecidableEq, Repr

/-- `GetPoolKey`. -/
def PoolKey.text (k : PoolKey) : String := k.symbol ++ "_" ++ nativeSymbol

/-- `GetLiquidityProviderKey`. -/
def ProviderKey.text (k : ProviderKey) : String := k.symbol ++ "_" ++ k.address

/-- `GetRemovalRequestKey`. -/
def RequestKey.text (k : RequestKey) : String := k.signer ++ "_" ++ toString k.id

/-- `GetMTPKey`: the address, then the id in eight big-endian bytes. -/
def MtpKey.bytes (k : MtpKey) : List ℕ :=
  k.address.toList.map Char.toNat ++ (List.range 8).map (fun i => k.id / 256 ^ (7 - i) % 256)

instance : StoreOrder PoolKey := ⟨fun a b => decide (a.text ≤ b.text)⟩
instance : StoreOrder ProviderKey := ⟨fun a b => decide (a.text ≤ b.text)⟩
instance : StoreOrder RequestKey := ⟨fun a b => decide (a.text ≤ b.text)⟩
instance : StoreOrder QueueKey := ⟨fun a b => decide (a.symbol ≤ b.symbol)⟩
instance : StoreOrder MtpKey := ⟨fun a b => decide (a.bytes ≤ b.bytes)⟩

def Pool.key (p : Pool) : PoolKey := ⟨p.externalAsset⟩
def LiquidityProvider.key (l : LiquidityProvider) : ProviderKey :=
  ⟨l.asset, l.liquidityProviderAddress⟩
def RemovalRequest.key (r : RemovalRequest) : RequestKey := ⟨r.msg.signer, r.id⟩
def RemovalQueue.key (q : RemovalQueue) : QueueKey := ⟨q.symbol⟩
def MTP.key (m : MTP) : MtpKey := ⟨m.address, m.id⟩

inductive Permission where
  | clp
  | ibcExport
  | ibcImport
  | disableBuy
  | disableSell
  deriving DecidableEq, Repr

structure RegistryEntry where
  denom : String
  permissions : List Permission
  deriving DecidableEq, Repr

structure SwapFeeTokenParams where
  asset : String
  swapFeeRate : Dec
  deriving DecidableEq, Repr

structure PoolMultiplier where
  poolMultiplierAsset : String
  multiplier : Option Dec
  deriving DecidableEq, Repr

/-- The allocation is a pointer that a message can leave nil. -/
structure RewardPeriod where
  rewardPeriodId : String
  rewardPeriodStartBlock : ℕ
  rewardPeriodEndBlock : ℕ
  rewardPeriodAllocation : Option ℕ
  rewardPeriodPoolMultipliers : List PoolMultiplier
  rewardPeriodDefaultMultiplier : Dec
  rewardPeriodDistribute : Bool
  rewardPeriodMod : ℕ
  deriving DecidableEq, Repr

structure ProviderDistributionPeriod where
  distributionPeriodBlockRate : Dec
  distributionPeriodStartBlock : ℕ
  distributionPeriodEndBlock : ℕ
  distributionPeriodMod : ℕ
  deriving DecidableEq, Repr

/-- What x/clp reads and its messages never write. -/
structure ClpParams where
  defaultSwapFeeRate : Dec
  tokenParams : List SwapFeeTokenParams
  pmtpCurrentRunningRate : Dec
  liquidityProtectionIsActive : Bool
  maxFuryLiquidityThreshold : ℕ
  maxFuryLiquidityThresholdAsset : String
  liquidityRemovalLockPeriod : ℕ
  liquidityRemovalCancelPeriod : ℕ
  rewardPeriods : List RewardPeriod
  distributionPeriods : List ProviderDistributionPeriod
  enableRemovalQueue : Bool
  clpWhiteList : Option (List String)
  registry : List RegistryEntry
  deriving DecidableEq, Repr

structure MarginParams where
  leverageMax : Dec
  interestRateMax : Dec
  interestRateMin : Dec
  interestRateIncrease : Dec
  interestRateDecrease : Dec
  healthGainFactor : Dec
  epochLength : ℤ
  pools : List String
  closedPools : List String
  removalQueueThreshold : Dec
  maxOpenPositions : ℕ
  poolOpenThreshold : Dec
  forceCloseFundPercentage : Dec
  forceCloseFundAddress : String
  incrementalInterestPaymentFundPercentage : Dec
  incrementalInterestPaymentFundAddress : String
  safetyFactor : Dec
  incrementalInterestPaymentEnabled : Bool
  whitelistingEnabled : Bool
  furyCollateralEnabled : Bool
  whitelist : List String
  /-- The accounts of admin type MARGIN. -/
  admins : List String
  deriving DecidableEq, Repr

/-- An amount attributed to a pool, as `PrintPools` shows it. -/
structure PoolAmount where
  pool : String
  amount : ℕ
  deriving DecidableEq, Repr

inductive Event where
  | payout (kind recipient : String) (totalAmount : ℕ) (amounts : List PoolAmount)
  | payoutError (kind : String) (liquidityProvider : AccAddress)
  | addressError (liquidityProvider : String)
  | rewards (kind : String) (totalAmount : ℤ) (amounts : List PoolAmount)
  deriving DecidableEq, Repr

structure World (β : Type) where
  bank : β
  height : ℤ
  blockTime : String
  pools : Table Pool.key
  providers : Table LiquidityProvider.key
  requests : Table RemovalRequest.key
  queues : Table RemovalQueue.key
  clp : ClpParams
  rewardPeriodStartTime : String
  currentFuryLiquidityThreshold : ℕ
  blockDistributionAccu : ℕ
  mtps : Table MTP.key
  mtpCount : ℕ
  openMtpCount : ℕ
  sqBeginBlock : String → ℕ
  margin : MarginParams
  events : List Event

variable {β α : Type}

/-- What a block fixes for the messages in it: height, time and the parameters, which
    only governance changes. -/
structure BlockContext where
  height : ℤ
  blockTime : String
  clp : ClpParams
  margin : MarginParams

def World.within (w : World β) (c : BlockContext) : World β :=
  { w with height := c.height, blockTime := c.blockTime, clp := c.clp, margin := c.margin }

abbrev Action (β α : Type) := Prog (World β) Failure α

variable {p : Action β α} {w : World β}

namespace Action

def panic (p : Panic) : Action β α := fail (.panic p)

/-- `err != nil` as a value; a panic passes through. -/
def result (p : Action β α) : Action β (Except Err α) := do
  match ← attempt p with
  | .ok a => pure (.ok a)
  | .error (.err e) => pure (.error e)
  | .error (.panic q) => panic q

def ignoreError (p : Action β Unit) : Action β Unit := do
  let _ ← result p
  pure ()

/-- `sdkerrors.Wrap`. -/
def wrapped (outer : Err) (p : Action β α) : Action β α := do
  match ← result p with
  | .ok a => pure a
  | .error _ => fail (.err outer)

theorem result_succeeds {w' : World β} {r : Except Err α} :
    (result p).run w = (.ok r, w') ↔
      (∃ a, r = .ok a ∧ p.run w = (.ok a, w')) ∨ ∃ e, r = .error e ∧ p.run w = (.error (.err e), w') := by
  simp only [result, bind_succeeds, attempt_succeeds]
  rcases p.run w with ⟨outcome, t⟩
  rcases outcome with (e | q) | a
  · simp [pure, Prog.fail, panic, eq_comm, and_comm]
  · simp [pure, Prog.fail, panic]
  · simp [pure, Prog.fail, panic, eq_comm]

theorem wrapped_succeeds {outer : Err} {w' : World β} {a : α} :
    (wrapped outer p).run w = (.ok a, w') ↔ p.run w = (.ok a, w') := by
  simp only [wrapped, bind_succeeds, result_succeeds]
  constructor
  · rintro ⟨r, t, ⟨b, rfl, run⟩ | ⟨e, rfl, run⟩, rest⟩
    · obtain ⟨rfl, rfl⟩ := pure_succeeds.mp rest
      exact run
    · exact absurd rest (by simp [Prog.fail])
  · intro run
    exact ⟨.ok a, w', Or.inl ⟨a, rfl, run⟩, by simp [pure]⟩

theorem ensures_wrapped {outer : Err} {Q : α → World β → Prop} (inner : Ensures p w Q) :
    Ensures (wrapped outer p) w Q :=
  fun a t run => inner a t (wrapped_succeeds.mp run)

theorem meets_result {Q : Except Err α → World β → Prop} {E : Failure → World β → Prop}
    (inner : Meets p w (fun a => Q (.ok a))
      (fun f t => match f with | .err e => Q (.error e) t | .panic q => E (.panic q) t)) :
    Meets (result p) w Q E := by
  unfold result
  refine meets_bind (P := fun outcome t => p.run w = (outcome, t)) ?_ ?_
  · exact ⟨fun outcome t run => attempt_succeeds.mp run,
      fun e t run => by simp [attempt] at run⟩
  · intro outcome t run
    rcases outcome with (e | q) | a
    · exact meets_pure (inner.error _ t run)
    · exact meets_fail (inner.error _ t run)
    · exact meets_pure (inner.ok a t run)

theorem meets_ignoreError {p : Action β Unit} {I : World β → Prop} {E : Failure → World β → Prop}
    (inner : Meets p w (fun _ => I)
      (fun f t => match f with | .err _ => I t | .panic q => E (.panic q) t)) :
    Meets (ignoreError p) w (fun _ => I) E := by
  refine meets_bind (P := fun _ => I) (meets_result ?_) (fun _ _ kept => meets_pure kept)
  exact meets_mono _ inner (fun _ _ kept => kept) (fun f t kept => by cases f <;> exact kept)

theorem ignoreError_keeps {p : Action β Unit} {I : World β → Prop}
    (inner : Meets p w (fun _ => I) (fun _ => I)) :
    Meets (ignoreError p) w (fun _ => I) (fun _ => I) :=
  meets_ignoreError (meets_mono _ inner (fun _ _ kept => kept)
    (fun f _ kept => by cases f <;> exact kept))

end Action
end FuryNode
