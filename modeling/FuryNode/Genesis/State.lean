import FuryNode.Clp.BeginBlock
import FuryNode.Dispensation.Keeper

/-!
What the genesis functions of x/clp, x/margin and x/dispensation export and import. A parameter
stands here with the value its getter returns, which for one that was never written is the
default the getter gives. An import starts from empty stores.
-/
namespace FuryNode.Genesis
open StatefulProgram KeyedTable KeyedTable.Table Dispensation
variable {β : Type}

structure RewardParams where
  liquidityRemovalLockPeriod : ℕ
  liquidityRemovalCancelPeriod : ℕ
  rewardPeriods : List RewardPeriod
  rewardPeriodStartTime : String
  deriving DecidableEq, Repr

structure PmtpRateParams where
  pmtpPeriodBlockRate : Dec
  pmtpCurrentRunningRate : Dec
  pmtpInterPolicyRate : Dec
  deriving DecidableEq, Repr

structure LiquidityProtectionParams where
  maxFuryLiquidityThreshold : ℕ
  maxFuryLiquidityThresholdAsset : String
  epochLength : ℕ
  isActive : Bool
  deriving DecidableEq, Repr

structure SwapFeeParams where
  defaultSwapFeeRate : Dec
  tokenParams : List SwapFeeTokenParams
  deriving DecidableEq, Repr

/-- `types.Params` of x/clp. -/
structure ModuleParams where
  minCreatePoolThreshold : ℕ
  enableRemovalQueue : Bool
  deriving DecidableEq, Repr

def getDefaultRewardParams : RewardParams := ⟨0, 12 * 60 * 24 * 30, [], ""⟩

def getDefaultPmtpParams : PmtpParams := ⟨Dec.zero, 1, 0, 0⟩

def getDefaultLiquidityProtectionParams : LiquidityProtectionParams :=
  ⟨1000000000000, "cusdc", 14400, false⟩

/-- What `GetSwapFeeParams` returns when nothing is stored. -/
def defaultSwapFeeParams : SwapFeeParams := ⟨⟨3 * 10 ^ 15⟩, []⟩

structure ClpStore where
  params : ModuleParams
  addressWhitelist : List String
  pools : Table Pool.key
  providers : Table LiquidityProvider.key
  rewardParams : RewardParams
  pmtpRateParams : PmtpRateParams
  pmtpEpoch : PmtpEpoch
  pmtpParams : PmtpParams
  liquidityProtectionParams : LiquidityProtectionParams
  currentFuryLiquidityThreshold : ℕ
  swapFeeParams : SwapFeeParams
  providerDistributionPeriods : List ProviderDistributionPeriod
  requests : Table RemovalRequest.key
  queues : Table RemovalQueue.key

/-- `GetRemovalQueue`: a queue that is not stored reads as an empty one. -/
def ClpStore.getRemovalQueue (s : ClpStore) (symbol : String) : RemovalQueue :=
  (s.queues.get ⟨symbol⟩).getD { symbol := symbol }

structure MarginStore where
  params : MarginParams
  sqModifier : Dec
  mtps : Table MTP.key
  mtpCount : ℕ
  openMtpCount : ℕ

structure DispensationStore where
  records : Table DistributionRecord.key
  distributions : Table Distribution.key
  claims : Table UserClaim.key
  mintController : Option MintController

structure Stores where
  clp : ClpStore
  margin : MarginStore
  dispensation : DispensationStore

inductive GenesisPanic where
  | addressWhiteListMustBeSet
  | invalidAddress (entry : String)
  | invalidDenom (symbol : String)
  | poolCouldNotBeSet (pool : Pool)
  | invalidMarginParams
  | settingDistributionRecord (record : DistributionRecord)
  | settingDistribution (distribution : Distribution)
  | settingClaim (claim : UserClaim)
  deriving DecidableEq, Repr

abbrev Outcome (α : Type) := Except GenesisPanic α

def decode (env : Env β) (entry : String) : Outcome AccAddress :=
  match env.accAddressFromBech32 entry with
  | some a => .ok a
  | none => .error (.invalidAddress entry)

def pageLimit : ℕ := 2 ^ 64 - 1

/-- `query.Paginate` from the start of a store: at most as many entries as the limit. -/
def page {α : Type} (entries : List α) : List α := entries.take pageLimit

structure ClpGenesis where
  params : ModuleParams
  addressWhitelist : List String
  poolList : List Pool
  liquidityProviders : List LiquidityProvider

/-- `clp.ExportGenesis`. -/
def exportClp (env : Env β) (s : ClpStore) : Outcome ClpGenesis := do
  let whiteList ← s.addressWhitelist.mapM (decode env)
  pure ⟨s.params, whiteList.map env.addressString, page s.pools.rows, page s.providers.rows⟩

/-- `Asset.Validate`, whose coin panics on a malformed denomination. -/
def validateAsset (env : Env β) (symbol : String) : Outcome Bool :=
  match assetValidate env symbol with
  | .ok valid => .ok valid
  | .error _ => .error (.invalidDenom symbol)

def importPool (env : Env β) (pools : Table Pool.key) (pool : Pool) : Outcome (Table Pool.key) := do
  let valid ← validateAsset env pool.externalAsset
  if valid then pure (pools.put pool) else .error (.poolCouldNotBeSet pool)

def importProvider (env : Env β) (providers : Table LiquidityProvider.key) (lp : LiquidityProvider) :
    Outcome (Table LiquidityProvider.key) := do
  let valid ← validateAsset env lp.asset
  pure (if valid then providers.put lp else providers)

/-- `clp.InitGenesis`. -/
def initClp (env : Env β) (data : ClpGenesis) : Outcome ClpStore := do
  if data.addressWhitelist = [] then .error .addressWhiteListMustBeSet
  let wl ← data.addressWhitelist.mapM (decode env)
  let pools ← data.poolList.foldlM (importPool env) .empty
  let providers ← data.liquidityProviders.foldlM (importProvider env) .empty
  pure {
    params := data.params
    addressWhitelist := wl.map env.addressString
    pools := pools
    providers := providers
    rewardParams := getDefaultRewardParams
    pmtpRateParams := ⟨Dec.zero, Dec.zero, Dec.zero⟩
    pmtpEpoch := ⟨0, 0⟩
    pmtpParams := getDefaultPmtpParams
    liquidityProtectionParams := getDefaultLiquidityProtectionParams
    currentFuryLiquidityThreshold := getDefaultLiquidityProtectionParams.maxFuryLiquidityThreshold
    swapFeeParams := defaultSwapFeeParams
    providerDistributionPeriods := []
    requests := .empty
    queues := .empty }

/-- `margin.ExportGenesis`: three fields of the parameters are not exported, the whitelist and
    the positions neither. -/
def exportMargin (env : Env β) (s : MarginStore) : Outcome (MarginParams × Dec) := do
  let forceCloseFund ← decode env s.params.forceCloseFundAddress
  let incrementalFund ← decode env s.params.incrementalInterestPaymentFundAddress
  pure ({ s.params with
    forceCloseFundAddress := env.addressString forceCloseFund
    incrementalInterestPaymentFundAddress := env.addressString incrementalFund
    closedPools := []
    incrementalInterestPaymentEnabled := false
    whitelistingEnabled := false
    whitelist := [] }, s.sqModifier)

/-- `margin.InitGenesis`, with `ValidateParams`. -/
def initMargin (data : MarginParams × Dec) : Outcome MarginStore :=
  if data.2.raw = 0 ∨ data.1.leverageMax.raw < 0 then .error .invalidMarginParams
  else .ok ⟨data.1, data.2, .empty, 0, 0⟩

structure DispensationGenesis where
  distributionRecords : List DistributionRecord
  distributions : List Distribution
  claims : List UserClaim

/-- `GetRecords`: the pending records, then the completed, then the failed ones. -/
def getRecords (records : Table DistributionRecord.key) : List DistributionRecord :=
  [DistributionStatus.pending, .completed, .failed].flatMap
    (fun status => records.rows.filter (fun r => r.key.leading = status.leading))

/-- `dispensation.ExportGenesis`. -/
def exportDispensation (s : DispensationStore) : DispensationGenesis :=
  ⟨getRecords s.records, s.distributions.rows, s.claims.rows⟩

/-- A row is written if it is valid and is a panic otherwise. -/
def importRow {κ ν : Type} {key : ν → κ} [DecidableEq κ] [StoreOrder κ] (validate : ν → Bool)
    (failure : ν → GenesisPanic) (t : Table key) (v : ν) : Outcome (Table key) :=
  if validate v then .ok (t.put v) else .error (failure v)

def validateDistribution (d : Distribution) : Bool := d.distributionName ≠ ""

def validateClaim (c : UserClaim) : Bool := c.userAddress.utf8ByteSize ≠ 0

/-- `dispensation.InitGenesis`. -/
def initDispensation (env : DispensationEnv β) (data : DispensationGenesis) : Outcome DispensationStore := do
  let records ← data.distributionRecords.foldlM
    (importRow (DistributionRecord.validate env) .settingDistributionRecord) .empty
  let distributions ← data.distributions.foldlM (importRow validateDistribution .settingDistribution) .empty
  let claims ← data.claims.foldlM (importRow validateClaim .settingClaim) .empty
  pure ⟨records, distributions, claims, some ⟨⟨nativeSymbol, 0⟩⟩⟩

def roundTrip (env : DispensationEnv β) (s : Stores) : Outcome Stores := do
  let clpData ← exportClp env.toEnv s.clp
  let marginData ← exportMargin env.toEnv s.margin
  let clp ← initClp env.toEnv clpData
  let margin ← initMargin marginData
  let dispensation ← initDispensation env (exportDispensation s.dispensation)
  pure ⟨clp, margin, dispensation⟩

end FuryNode.Genesis
