import FuryNode.Library.Pagination
import FuryNode.Clp.Calculations

/-!
The keeper of x/clp: stores, coin movements, liquidity protection, unlock records
and the removal queue. The writes of an action that fails stay; only the delivery
of a message discards them.
-/
namespace FuryNode.ClpKeeper
open StatefulProgram StatefulProgram.Prog KeyedTable Pagination
variable {β : Type} (env : Env β)

def setPool (env : Env β) (pool : Pool) : Action β Unit := do
  let valid ← ofExcept (assetValidate env pool.externalAsset)
  require (valid = true) (.err .errUnableToSetPool)
  modify (fun w => { w with pools := w.pools.put pool })

def getPool (symbol : String) : Action β Pool := do
  let w ← read
  match w.pools.get ⟨symbol⟩ with
  | some pool => pure pool
  | none => fail (.err .errPoolDoesNotExist)

def destroyPool (symbol : String) : Action β Unit := do
  let _ ← getPool symbol
  modify (fun w => { w with pools := w.pools.delete ⟨symbol⟩ })

/-- `SetLiquidityProvider` drops a record with an invalid asset without an error. -/
def setLiquidityProvider (env : Env β) (lp : LiquidityProvider) : Action β Unit := do
  let valid ← ofExcept (assetValidate env lp.asset)
  when (valid = true) (modify (fun w => { w with providers := w.providers.put lp }))

def getLiquidityProvider (symbol lpAddress : String) : Action β LiquidityProvider := do
  let w ← read
  match w.providers.get ⟨symbol, lpAddress⟩ with
  | some lp => pure lp
  | none => fail (.err .errLiquidityProviderDoesNotExist)

def destroyLiquidityProvider (symbol lpAddress : String) : Action β Unit :=
  modify (fun w => { w with providers := w.providers.delete ⟨symbol, lpAddress⟩ })

/-- `CreateLiquidityProvider`: the key is the canonical spelling of the address. -/
def createLiquidityProvider (env : Env β) (asset : String) (lpunits : ℕ) (lpaddress : AccAddress) :
    Action β LiquidityProvider := do
  let lp : LiquidityProvider := {
    asset := asset
    liquidityProviderUnits := lpunits
    liquidityProviderAddress := env.addressString lpaddress }
  setLiquidityProvider env lp
  pure lp

variable {w w' : World β} {u : Unit}

theorem setPool_succeeds {pool : Pool} :
    (setPool env pool).run w = (.ok u, w') ↔ assetValidate env pool.externalAsset = .ok true ∧
      { w with pools := w.pools.put pool } = w' := by
  simp only [setPool, bind_succeeds, ofExcept_succeeds, require_succeeds, modify_succeeds]
  constructor
  · rintro ⟨valid, r, ⟨validated, rfl⟩, _, s, ⟨rfl, rfl⟩, written⟩
    exact ⟨validated, written⟩
  · rintro ⟨validated, written⟩
    exact ⟨true, w, ⟨validated, rfl⟩, (), w, ⟨rfl, rfl⟩, written⟩

theorem setPool_meets {I : World β → Prop} (env : Env β) {pool : Pool} (now : I w)
    (stored : I { w with pools := w.pools.put pool }) :
    Meets (setPool env pool) w (fun _ => I) (fun _ => I) := by
  unfold setPool
  refine meets_ofExcept_then (fun _ _ => ?_) (fun _ _ => now)
  exact meets_require_then (fun _ => meets_modify stored) (fun _ => now)

theorem getPool_succeeds {symbol : String} {pool : Pool} :
    (getPool symbol).run w = (.ok pool, w') ↔ w.pools.get ⟨symbol⟩ = some pool ∧ w = w' := by
  simp only [getPool, bind_succeeds, read_succeeds]
  constructor
  · rintro ⟨v, r, ⟨rfl, rfl⟩, run⟩
    cases found : w.pools.get ⟨symbol⟩ with
    | none => simp [found, fail] at run
    | some p => simpa [found, pure] using run
  · rintro ⟨found, rfl⟩
    exact ⟨w, w, ⟨rfl, rfl⟩, by simp [found, pure]⟩

theorem destroyPool_succeeds {symbol : String} (run : (destroyPool symbol).run w = (.ok u, w')) :
    { w with pools := w.pools.delete ⟨symbol⟩ } = w' := by
  simp only [destroyPool, bind_succeeds, getPool_succeeds, modify_succeeds] at run
  obtain ⟨_, _, ⟨_, rfl⟩, written⟩ := run
  exact written

theorem setLiquidityProvider_succeeds {lp : LiquidityProvider}
    (run : (setLiquidityProvider env lp).run w = (.ok u, w')) :
    (assetValidate env lp.asset = .ok true ∧ { w with providers := w.providers.put lp } = w') ∨
      (assetValidate env lp.asset = .ok false ∧ w = w') := by
  simp only [setLiquidityProvider, bind_succeeds, ofExcept_succeeds, when_succeeds,
    modify_succeeds] at run
  obtain ⟨valid, _, ⟨validated, rfl⟩, ⟨rfl, written⟩ | ⟨invalid, same⟩⟩ := run
  · exact Or.inl ⟨validated, written⟩
  · rw [Bool.not_eq_true] at invalid
    exact Or.inr ⟨invalid ▸ validated, same⟩

theorem getLiquidityProvider_succeeds {symbol lpAddress : String} {lp : LiquidityProvider} :
    (getLiquidityProvider symbol lpAddress).run w = (.ok lp, w') ↔
      w.providers.get ⟨symbol, lpAddress⟩ = some lp ∧ w = w' := by
  simp only [getLiquidityProvider, bind_succeeds, read_succeeds]
  constructor
  · rintro ⟨v, r, ⟨rfl, rfl⟩, run⟩
    cases found : w.providers.get ⟨symbol, lpAddress⟩ with
    | none => simp [found, fail] at run
    | some l => simpa [found, pure] using run
  · rintro ⟨found, rfl⟩
    exact ⟨w, w, ⟨rfl, rfl⟩, by simp [found, pure]⟩

def getAllLiquidityProviders (w : World β) : List LiquidityProvider :=
  filteredPaginate (fun _ _ => true) (2 ^ 64 - 2) w.providers.rows

/-- `GetLiquidityProvidersForAssetPaginated` with the limit `DecommissionPool` asks for. -/
def getLiquidityProvidersForAsset (asset : String) (w : World β) : List LiquidityProvider :=
  filteredPaginate (fun _ lp => lp.asset = asset) (2 ^ 64 - 1) w.providers.rows

def bankCall (call : β → Except BankFailure β) : Action β Unit := do
  let w ← read
  match call w.bank with
  | .ok b => modify (fun w => { w with bank := b })
  | .error f => fail f.toFailure

def sendCoinsFromModuleToAccount (env : Env β) (recipient : AccAddress) (amt : Coins) :
    Action β Unit :=
  bankCall (fun b => env.bank.sendCoinsFromModuleToAccount b clpModuleName recipient amt)

def sendCoinsFromAccountToModule (env : Env β) (sender : AccAddress) (amt : Coins) :
    Action β Unit :=
  bankCall (fun b => env.bank.sendCoinsFromAccountToModule b sender clpModuleName amt)

theorem bankCall_succeeds {call : β → Except BankFailure β} :
    (bankCall call).run w = (.ok u, w') ↔
      ∃ b, call w.bank = .ok b ∧ { w with bank := b } = w' := by
  simp only [bankCall, bind_succeeds, read_succeeds]
  cases called : call w.bank with
  | error f =>
    simp only [reduceCtorEq, false_and, exists_false, iff_false]
    rintro ⟨_, _, ⟨rfl, rfl⟩, run⟩
    simp [called, fail] at run
  | ok b =>
    simp only [Except.ok.injEq, exists_eq_left']
    constructor
    · rintro ⟨_, _, ⟨rfl, rfl⟩, run⟩
      simpa [called, Prog.modify] using run
    · intro written
      exact ⟨w, w, ⟨rfl, rfl⟩, by simp [called, Prog.modify, written]⟩

theorem sendCoinsFromModuleToAccount_moves {recipient : AccAddress} {amt : Coins}
    (run : (sendCoinsFromModuleToAccount env recipient amt).run w = (.ok u, w')) :
    ∃ b, Moves (env.bank.getBalance w.bank) (env.bank.getBalance b) (moduleAddress env) recipient
      (amountOf amt) ∧ w' = { w with bank := b } := by
  obtain ⟨b, sent, written⟩ := bankCall_succeeds.mp run
  exact ⟨b, env.bank.fromModule_moves _ _ _ _ _ sent, written.symm⟩

theorem sendCoinsFromModuleToAccount_other {recipient : AccAddress} {amt : Coins}
    (run : (sendCoinsFromModuleToAccount env recipient amt).run w = (.ok u, w')) :
    recipient ≠ moduleAddress env := by
  obtain ⟨b, sent, _⟩ := bankCall_succeeds.mp run
  rintro rfl
  exact env.bank.fromModule_blocked _ _ _ _ _ sent

theorem sendCoinsFromAccountToModule_moves {sender : AccAddress} {amt : Coins}
    (run : (sendCoinsFromAccountToModule env sender amt).run w = (.ok u, w')) :
    ∃ b, Moves (env.bank.getBalance w.bank) (env.bank.getBalance b) sender (moduleAddress env)
      (amountOf amt) ∧ w' = { w with bank := b } := by
  obtain ⟨b, sent, written⟩ := bankCall_succeeds.mp run
  exact ⟨b, env.bank.toModule_moves _ _ _ _ _ sent, written.symm⟩

def hasBalance (env : Env β) (w : World β) (addr : AccAddress) (coin : Coin) : Prop :=
  coin.amount ≤ env.bank.getBalance w.bank addr coin.denom

instance (env : Env β) (w : World β) (addr : AccAddress) (coin : Coin) :
    Decidable (hasBalance env w addr coin) := inferInstanceAs (Decidable (_ ≤ _))

def getSwapFeeRate (params : ClpParams) (asset : String) (marginEnabled : Bool) : Dec :=
  if marginEnabled then params.defaultSwapFeeRate
  else match params.tokenParams.find? (fun p => p.asset = asset) with
    | some p => p.swapFeeRate
    | none => params.defaultSwapFeeRate

/-- `GetEntry` of the token registry. -/
def getEntry (params : ClpParams) (denom : String) : Fallible RegistryEntry :=
  match params.registry.find? (fun e => e.denom = denom) with
  | some e => .ok e
  | none => .error (.err .errTokenNotSupported)

theorem getEntry_denom {params : ClpParams} {denom : String} {entry : RegistryEntry}
    (found : getEntry params denom = .ok entry) : entry.denom = denom := by
  unfold getEntry at found
  split at found
  · rename_i e listed
    cases found
    simpa using List.find?_some listed
  · cases found

/-- `CheckEntryPermissions` for one permission. -/
def checkEntryPermission (entry : RegistryEntry) (permission : Permission) : Prop :=
  permission ∈ entry.permissions

instance (entry : RegistryEntry) (permission : Permission) :
    Decidable (checkEntryPermission entry permission) := inferInstanceAs (Decidable (_ ∈ _))

/-- `IsPoolEnabled` of x/margin. -/
def isPoolEnabled (params : MarginParams) (asset : String) : Bool := asset ∈ params.pools

/-- `CalculatePoolHealth` of x/margin. -/
def calculatePoolHealth (pool : Pool) : Fallible Dec := do
  let externalAssetBalance := Dec.ofInt pool.externalAssetBalance
  let nativeAssetBalance := Dec.ofInt pool.nativeAssetBalance
  let external ← externalAssetBalance.add (Dec.ofInt pool.externalLiabilities)
  let native ← nativeAssetBalance.add (Dec.ofInt pool.nativeLiabilities)
  if external.isZero ∨ native.isZero then pure Dec.zero
  else do
    let mul1 ← externalAssetBalance.quo external
    let mul2 ← nativeAssetBalance.quo native
    mul1.mul mul2

/-- `ValidateAddress` against the decommission whitelist. -/
def validateAddress (env : Env β) (params : ClpParams) (address : AccAddress) : Fallible Bool :=
  match params.clpWhiteList with
  | none => .ok false
  | some entries => do
      let list ← entries.mapM (getSigner env)
      .ok (address ∈ list)

def getNativePrice : Action β Dec := do
  let w ← read
  if w.clp.maxFuryLiquidityThresholdAsset = nativeSymbol then pure Dec.one
  else match w.pools.get ⟨w.clp.maxFuryLiquidityThresholdAsset⟩ with
    | none => fail (.err .errMaxFuryLiquidityThresholdAssetPoolDoesNotExist)
    | some pool => ofExcept (calcFurySpotPrice pool w.clp.pmtpCurrentRunningRate)

def isBlockedByLiquidityProtection (nativeAmount : ℕ) (nativePrice : Dec) : Action β Bool := do
  let w ← read
  let value ← ofExcept (calcFuryValue nativeAmount nativePrice)
  pure (decide (w.currentFuryLiquidityThreshold < value))

/-- The threshold after a sale or a purchase of `nativeValue`. -/
def updatedThreshold (sellNative : Bool) (maximum current nativeValue : ℕ) : Fallible ℕ :=
  if sellNative then
    if current < nativeValue then .error (.panic .sellNativeValueAboveThreshold)
    else Uint.sub current nativeValue
  else do
    let room ← Uint.sub maximum current
    if room < nativeValue then pure maximum else Uint.add current nativeValue

def mustUpdateLiquidityProtectionThreshold (sellNative : Bool) (nativeAmount : ℕ)
    (nativePrice : Dec) : Action β Unit := do
  let w ← read
  when (w.clp.liquidityProtectionIsActive = true) do
    let nativeValue ← ofExcept (calcFuryValue nativeAmount nativePrice)
    let updated ← ofExcept (updatedThreshold sellNative w.clp.maxFuryLiquidityThreshold
      w.currentFuryLiquidityThreshold nativeValue)
    modify (fun w => { w with currentFuryLiquidityThreshold := updated })

theorem getNativePrice_unchanged (w : World β) :
    Ensures getNativePrice w (fun _ w' => w = w') := by
  unfold getNativePrice
  refine ensures_read_then (ensures_ite ?_ ?_)
  · intro _
    exact ensures_pure rfl
  · intro _
    split
    · exact ensures_fail
    · exact ensures_ofExcept (fun _ _ => rfl)

theorem isBlocked_unchanged {nativeAmount : ℕ} {nativePrice : Dec} (w : World β) :
    Ensures (isBlockedByLiquidityProtection nativeAmount nativePrice) w (fun _ w' => w = w') := by
  unfold isBlockedByLiquidityProtection
  exact ensures_read_then (ensures_ofExcept_then fun _ _ => ensures_pure rfl)

def OnlyThreshold (w w' : World β) : Prop :=
  ∃ threshold, w' = { w with currentFuryLiquidityThreshold := threshold }

theorem onlyThreshold_refl : OnlyThreshold w w := ⟨_, rfl⟩

theorem onlyThreshold_trans {u v : World β} (first : OnlyThreshold u v) (second : OnlyThreshold v w) :
    OnlyThreshold u w := by
  obtain ⟨_, rfl⟩ := first
  obtain ⟨threshold, rfl⟩ := second
  exact ⟨threshold, rfl⟩

theorem mustUpdateLiquidityProtectionThreshold_writes {sellNative : Bool} {nativeAmount : ℕ}
    {nativePrice : Dec} (w : World β) :
    Ensures (mustUpdateLiquidityProtectionThreshold sellNative nativeAmount nativePrice) w
      (fun _ w' => OnlyThreshold w w') := by
  unfold mustUpdateLiquidityProtectionThreshold
  refine ensures_read_then (ensures_when ?_ (fun _ => onlyThreshold_refl))
  intro _
  exact ensures_ofExcept_then fun _ _ => ensures_ofExcept_then fun updated _ =>
    ensures_modify ⟨updated, rfl⟩

/-- The records after `left` units were drawn from them in order, and what is still missing. -/
def drawUnlocks (any : Bool) (lockPeriod : ℕ) (currentHeight : ℤ) :
    ℕ → List LiquidityUnlock → ℕ × List LiquidityUnlock
  | left, [] => (left, [])
  | left, record :: rest =>
      if any = true ∨ wrapInt64 (record.requestHeight + int64 lockPeriod) ≤ currentHeight then
        if record.units < left then
          let (missing, drawn) := drawUnlocks any lockPeriod currentHeight (left - record.units) rest
          (missing, { record with units := 0 } :: drawn)
        else (0, { record with units := record.units - left } :: rest)
      else
        let (missing, drawn) := drawUnlocks any lockPeriod currentHeight left rest
        (missing, record :: drawn)

/-- `UseUnlockedLiquidity`. The caller's record shares the drawn unlock records,
    used ones included, so it is returned with them. -/
def useUnlockedLiquidity (env : Env β) (lp : LiquidityProvider) (units : ℕ) (any : Bool) :
    Action β LiquidityProvider := do
  let w ← read
  let lockPeriod := w.clp.liquidityRemovalLockPeriod
  let (missing, drawn) := drawUnlocks any lockPeriod w.height units lp.unlocks
  require (lockPeriod = 0 ∨ missing = 0) (.err .errBalanceNotAvailable)
  setLiquidityProvider env { lp with unlocks := drawn.filter (fun r => r.units ≠ 0) }
  pure { lp with unlocks := drawn }

/-- An unlock record that `PruneUnlockRecords` drops. -/
def isPruned (lockPeriod cancelPeriod : ℕ) (currentHeight : ℤ) (record : LiquidityUnlock) : Bool :=
  wrapInt64 (wrapInt64 (record.requestHeight + int64 lockPeriod) + int64 cancelPeriod)
    ≤ currentHeight || record.units = 0

def pruneUnlockRecords (env : Env β) (lp : LiquidityProvider) : Action β LiquidityProvider := do
  let w ← read
  let pruned := isPruned w.clp.liquidityRemovalLockPeriod w.clp.liquidityRemovalCancelPeriod w.height
  let kept := { lp with unlocks := lp.unlocks.filter (fun r => !pruned r) }
  if lp.unlocks.any pruned then do
    setLiquidityProvider env kept
    pure kept
  else pure lp
end FuryNode.ClpKeeper
