import FuryNode.Clp.MsgServer

/-!
What a message that adds or removes liquidity does when it succeeds, one statement
per handler. The provider store is seen as the finite map from keys to units:
unlock records come and go without changing it.
-/
namespace FuryNode
open StatefulProgram StatefulProgram.Prog KeyedTable KeyedTable.Table ClpKeeper
variable {β : Type} (env : Env β)

def ledger (providers : Table LiquidityProvider.key) (k : ProviderKey) : Option ℕ :=
  (providers.get k).map LiquidityProvider.liquidityProviderUnits

theorem ledger_put (providers : Table LiquidityProvider.key) (lp : LiquidityProvider)
    (k : ProviderKey) :
    ledger (providers.put lp) k =
      if lp.key = k then some lp.liquidityProviderUnits else ledger providers k := by
  simp only [ledger, get_put]
  split <;> rfl

theorem ledger_delete (providers : Table LiquidityProvider.key) (k l : ProviderKey) :
    ledger (providers.delete k) l = if k = l then none else ledger providers l := by
  simp only [ledger, get_delete]
  split <;> rfl

def pairAmount (externalAsset : String) (external native : ℕ) (d : String) : ℕ :=
  (if externalAsset = d then external else 0) + (if nativeSymbol = d then native else 0)

theorem pairAmount_add (externalAsset : String) (x x' y y' : ℕ) (d : String) :
    pairAmount externalAsset (x + x') (y + y') d =
      pairAmount externalAsset x y d + pairAmount externalAsset x' y' d := by
  unfold pairAmount
  split <;> split <;> omega

variable {pool : Pool} {lpUnitsLeft native external : ℕ} {externalAsset signer : String}
  {externalCoin nativeCoin : Coin} {lp : LiquidityProvider} {w w' : World β} {msg : MsgAddLiquidity}

theorem addToPool_succeeds {updated : Pool} {newPoolUnits nativeAmount externalAmount : ℕ}
    (computed : addToPool pool newPoolUnits nativeAmount externalAmount = .ok updated) :
    updated = { pool with
      poolUnits := newPoolUnits
      nativeAssetBalance := pool.nativeAssetBalance + nativeAmount
      externalAssetBalance := pool.externalAssetBalance + externalAmount } := by
  simp only [addToPool, except_bind_succeeds, Uint.add_succeeds, except_pure_succeeds] at computed
  obtain ⟨_, ⟨_, rfl⟩, _, ⟨_, rfl⟩, rfl⟩ := computed
  rfl

theorem subtractFromPool_succeeds {reduced : Pool} {lpUnits : ℕ}
    (computed : subtractFromPool pool lpUnits lpUnitsLeft native external = .ok reduced) :
    lpUnits ≤ pool.poolUnits ∧ native ≤ pool.nativeAssetBalance ∧
      external ≤ pool.externalAssetBalance ∧ reduced = { pool with
        poolUnits := pool.poolUnits - lpUnits + lpUnitsLeft
        nativeAssetBalance := pool.nativeAssetBalance - native
        externalAssetBalance := pool.externalAssetBalance - external } := by
  simp only [subtractFromPool, except_bind_succeeds, Uint.sub_succeeds, Uint.add_succeeds,
    except_pure_succeeds] at computed
  obtain ⟨_, ⟨units, rfl⟩, _, ⟨_, rfl⟩, _, ⟨nativeBound, rfl⟩, _, ⟨externalBound, rfl⟩, rfl⟩ :=
    computed
  exact ⟨units, nativeBound, externalBound, rfl⟩

theorem extractDebt_succeeds {X Y X' Y' : ℕ} {toFury : Bool}
    (computed : pool.extractDebt X Y toFury = .ok (X', Y')) :
    (X', Y') = if toFury then (X + pool.externalLiabilities, Y + pool.nativeLiabilities)
      else (X + pool.nativeLiabilities, Y + pool.externalLiabilities) := by
  unfold Pool.extractDebt at computed
  split at computed <;>
  · rename_i direction
    simp only [except_bind_succeeds, Uint.add_succeeds, except_pure_succeeds] at computed
    obtain ⟨_, ⟨_, rfl⟩, _, ⟨_, rfl⟩, same⟩ := computed
    simp [direction, ← same]

theorem extractDebt_forward {X Y debtX debtY : ℕ}
    (computed : pool.extractDebt X Y false = .ok (debtX, debtY)) :
    debtX = X + pool.nativeLiabilities ∧ debtY = Y + pool.externalLiabilities := by
  have both := extractDebt_succeeds computed
  simpa using both

theorem liquidityCoins_amounts {extInt nativeInt : ℕ} {coins : Coins}
    (made : liquidityCoins env externalAsset extInt nativeInt = .ok coins) :
    amountOf coins = pairAmount externalAsset extInt nativeInt := by
  simp only [liquidityCoins, except_bind_succeeds, newCoin_succeeds] at made
  obtain ⟨_, ⟨_, rfl⟩, first, added, _, ⟨_, rfl⟩, addedNative⟩ := made
  funext d
  have distinct := coins_add_distinct [] first _ (by simp) added
  rw [coins_add_amounts _ _ _ distinct addedNative d,
    coins_add_amounts _ _ _ (by simp) added d, amountOf_nil, Nat.zero_add]
  rfl

theorem withdrawalCoins_amounts {external sendCoins : Coins}
    (added : Coins.add [] externalCoin = .ok external)
    (addedNative : Coins.add external nativeCoin = .ok sendCoins) (d : String) :
    amountOf sendCoins d = (if externalCoin.denom = d then externalCoin.amount else 0) +
      (if nativeCoin.denom = d then nativeCoin.amount else 0) := by
  have distinct := coins_add_distinct [] external _ (by simp) added
  rw [coins_add_amounts _ _ _ distinct addedNative d,
    coins_add_amounts _ _ _ (by simp) added d, amountOf_nil, Nat.zero_add]

theorem moves_nothing {balances : AccAddress → String → ℕ} {sender recipient : AccAddress}
    {amt : String → ℕ} (zero : ∀ d, amt d = 0) : Moves balances balances sender recipient amt := by
  intro a d
  simp [zero d]

theorem setLiquidityProvider_valid (lp : LiquidityProvider) (w w' : World β) (u : Unit)
    (valid : assetValidate env lp.asset = .ok true)
    (run : (setLiquidityProvider env lp).run w = (.ok u, w')) :
    w' = { w with providers := w.providers.put lp } := by
  rcases setLiquidityProvider_succeeds env run with ⟨_, written⟩ | ⟨invalid, _⟩
  · exact written.symm
  · rw [valid] at invalid
    cases invalid

/-- Only unlock records were written: `lp` became `lp'` and no key gained or lost units. -/
def UnlocksOnly (w w' : World β) (lp lp' : LiquidityProvider) : Prop :=
  ∃ providers unlocks, w' = { w with providers := providers } ∧
    lp' = { lp with unlocks := unlocks } ∧ ∀ k, ledger providers k = ledger w.providers k

theorem unlocks_written {unlocks : List LiquidityUnlock} {u : Unit}
    (valid : assetValidate env lp.asset = .ok true)
    (stored : ledger w.providers lp.key = some lp.liquidityProviderUnits)
    (run : (setLiquidityProvider env { lp with unlocks := unlocks }).run w = (.ok u, w')) :
    ∃ providers, w' = { w with providers := providers } ∧
      ∀ k, ledger providers k = ledger w.providers k := by
  refine ⟨_, setLiquidityProvider_valid env { lp with unlocks := unlocks } w w' u valid run,
    ?_⟩
  intro k
  rw [ledger_put]
  split
  · rename_i same
    exact same ▸ stored.symm
  · rfl

theorem unlocksOnly_refl (w : World β) (lp : LiquidityProvider) : UnlocksOnly w w lp lp :=
  ⟨w.providers, lp.unlocks, rfl, rfl, fun _ => rfl⟩

theorem pruneUnlockRecords_effect (valid : assetValidate env lp.asset = .ok true)
    (stored : ledger w.providers lp.key = some lp.liquidityProviderUnits) :
    Ensures (pruneUnlockRecords env lp) w (fun lp' w' => UnlocksOnly w w' lp lp') := by
  unfold pruneUnlockRecords
  refine ensures_read_then (ensures_ite ?_ ?_)
  · intro _
    refine ensures_bind (fun u v run => unlocks_written env valid stored run) ?_
    rintro _ _ ⟨providers, rfl, kept⟩
    exact ensures_pure ⟨providers, _, rfl, rfl, kept⟩
  · intro _
    exact ensures_pure (unlocksOnly_refl w lp)

theorem useUnlockedLiquidity_effect {units : ℕ} {any : Bool}
    (valid : assetValidate env lp.asset = .ok true)
    (stored : ledger w.providers lp.key = some lp.liquidityProviderUnits) :
    Ensures (useUnlockedLiquidity env lp units any) w (fun lp' w' => UnlocksOnly w w' lp lp') := by
  unfold useUnlockedLiquidity
  refine ensures_read_then (ensures_require_then ?_)
  intro _
  refine ensures_bind (fun u v run => unlocks_written env valid stored run) ?_
  rintro _ _ ⟨providers, rfl, kept⟩
  exact ensures_pure ⟨providers, _, rfl, rfl, kept⟩

theorem unlocksOnly_trans {u v : World β} {first second third : LiquidityProvider}
    (earlier : UnlocksOnly u v first second) (later : UnlocksOnly v w second third) :
    UnlocksOnly u w first third := by
  obtain ⟨_, _, rfl, rfl, kept⟩ := earlier
  obtain ⟨providers, unlocks, rfl, rfl, keptAgain⟩ := later
  exact ⟨providers, unlocks, rfl, rfl, fun k => (keptAgain k).trans (kept k)⟩

/-- The ledger after a provider was left with `lpUnitsLeft` units: none means gone. -/
def withdrawnLedger (before : ProviderKey → Option ℕ) (key : ProviderKey) (lpUnitsLeft : ℕ)
    (k : ProviderKey) : Option ℕ :=
  if key = k then (if lpUnitsLeft = 0 then none else some lpUnitsLeft) else before k

/-- The records after a provider was left with `lpUnitsLeft` units. -/
def settledProviders (providers : Table LiquidityProvider.key) (lp : LiquidityProvider)
    (lpUnitsLeft : ℕ) : Table LiquidityProvider.key :=
  if lpUnitsLeft = 0 then providers.delete lp.key
  else providers.put { lp with liquidityProviderUnits := lpUnitsLeft }

theorem ledger_settled (providers : Table LiquidityProvider.key) (lp : LiquidityProvider)
    (lpUnitsLeft : ℕ) (k : ProviderKey) :
    ledger (settledProviders providers lp lpUnitsLeft) k =
      withdrawnLedger (ledger providers) lp.key lpUnitsLeft k := by
  unfold settledProviders withdrawnLedger
  by_cases none : lpUnitsLeft = 0
  · rw [if_pos none, if_pos none, ledger_delete]
  · rw [if_neg none, if_neg none, ledger_put]
    rfl

/-- `paid` leaves the module for `addr`; the module pays nothing to itself. -/
def PaidTo (env : Env β) (b b' : β) (addr : AccAddress) (paid : String → ℕ) : Prop :=
  Moves (env.bank.getBalance b) (env.bank.getBalance b') (moduleAddress env) addr paid ∧
    (addr = moduleAddress env → ∀ d, paid d = 0)

theorem keeper_removeLiquidity_effect {poolOriginalEB poolOriginalNB : ℕ} {u : Unit}
    (asset : pool.externalAsset = lp.asset)
    (run : (ClpKeeper.removeLiquidity env pool externalCoin nativeCoin lp lpUnitsLeft
      poolOriginalEB poolOriginalNB).run w = (.ok u, w')) :
    ∃ addr b, env.accAddressFromBech32 lp.liquidityProviderAddress = some addr ∧
      externalCoin.amount < poolOriginalEB ∧ nativeCoin.amount < poolOriginalNB ∧
      PaidTo env w.bank b addr (fun d => (if externalCoin.denom = d then externalCoin.amount else 0) +
        (if nativeCoin.denom = d then nativeCoin.amount else 0)) ∧
      w' = { w with
        bank := b
        pools := w.pools.put pool
        providers := settledProviders w.providers lp lpUnitsLeft } := by
  simp only [ClpKeeper.removeLiquidity, bind_succeeds, ofExcept_succeeds, decodeAddress_succeeds,
    require_succeeds, Action.wrapped_succeeds, setPool_succeeds, when_succeeds,
    read_succeeds] at run
  obtain ⟨addr, _, ⟨decoded, rfl⟩, external, _, ⟨added, rfl⟩, sendCoins, _, ⟨addedNative, rfl⟩, _,
    _, ⟨⟨externalBound, nativeBound⟩, rfl⟩, _, _, ⟨valid, rfl⟩, _, paid, payment, last⟩ := run
  have amounts := funext (withdrawalCoins_amounts added addedNative)
  have sent : ∃ b, PaidTo env w.bank b addr (amountOf sendCoins) ∧
      paid = { w with pools := w.pools.put pool, bank := b } := by
    rcases payment with ⟨_, _, _, ⟨rfl, rfl⟩, _, _, ⟨_, rfl⟩, sending⟩ | ⟨empty, rfl⟩
    · obtain ⟨b, moved, same⟩ := sendCoinsFromModuleToAccount_moves env sending
      have other := sendCoinsFromModuleToAccount_other env sending
      exact ⟨b, ⟨moved, fun self => absurd self other⟩, same⟩
    · have none : ∀ d, amountOf sendCoins d = 0 := by
        intro d
        simp only [ne_eq, not_not] at empty
        rw [empty, amountOf_nil]
      exact ⟨w.bank, ⟨moves_nothing none, fun _ => none⟩, rfl⟩
  obtain ⟨b, moved, rfl⟩ := sent
  rw [amounts] at moved
  refine ⟨addr, b, decoded, externalBound, nativeBound, moved, ?_⟩
  unfold settledProviders
  split at last
  · rename_i none
    simp only [destroyLiquidityProvider, modify_succeeds] at last
    rw [if_pos none, ← last]
    rfl
  · rename_i some
    rw [if_neg some]
    exact setLiquidityProvider_valid env { lp with liquidityProviderUnits := lpUnitsLeft } _ w' u
      (asset ▸ valid) last

/-- What a removal does: the pool loses the two amounts, the module pays them to the
    signer, and the provider keeps `lpUnitsLeft` units. -/
structure RemovalEffect (env : Env β) (externalAsset signer : String) (pool : Pool)
    (lp : LiquidityProvider) (native external lpUnitsLeft : ℕ) (w w' : World β) : Prop where
  pool_found : w.pools.get ⟨externalAsset⟩ = some pool
  provider_found : w.providers.get ⟨externalAsset, signer⟩ = some lp
  units_bound : lp.liquidityProviderUnits ≤ pool.poolUnits
  native_bound : native ≤ pool.nativeAssetBalance
  external_bound : external ≤ pool.externalAssetBalance
  native_shallow : native < pool.nativeAssetBalance + pool.nativeLiabilities
  external_shallow : external < pool.externalAssetBalance + pool.externalLiabilities
  written : ∃ addr b providers,
    env.accAddressFromBech32 signer = some addr ∧
    Moves (env.bank.getBalance w.bank) (env.bank.getBalance b) (moduleAddress env) addr
      (pairAmount externalAsset external native) ∧
    w' = { w with
      bank := b
      pools := w.pools.put { pool with
        poolUnits := pool.poolUnits - lp.liquidityProviderUnits + lpUnitsLeft
        nativeAssetBalance := pool.nativeAssetBalance - native
        externalAssetBalance := pool.externalAssetBalance - external }
      providers := providers } ∧
    ∀ k, ledger providers k =
      withdrawnLedger (ledger w.providers) ⟨externalAsset, signer⟩ lpUnitsLeft k

theorem guardPoolHealth_unchanged {eAsset : RegistryEntry} {swapFeeRate : Dec}
    {request : ℕ → Fallible (MsgRemoveLiquidity × ℕ)} (w : World β) :
    Ensures (ClpMsgServer.guardPoolHealth eAsset pool native external swapFeeRate request) w
      (fun _ w' => w = w') := by
  unfold ClpMsgServer.guardPoolHealth
  refine ensures_read_then (ensures_when ?_ (fun _ => rfl))
  intro _
  refine ensures_ofExcept_then fun _ _ => ensures_ofExcept_then fun _ _ =>
    ensures_ofExcept_then fun _ _ => ensures_ofExcept_then fun _ _ =>
    ensures_when ?_ (fun _ => rfl)
  intro _
  refine ensures_ite (fun _ => ?_) (fun _ => ensures_fail)
  refine ensures_ofExcept_then ?_
  rintro ⟨msg, value⟩ _
  exact ensures_bind (P := fun _ _ => True) (fun _ _ _ => trivial) (fun _ _ _ => ensures_fail)

theorem removal_effect {reduced : Pool} {lp' : LiquidityProvider} {v : World β} {u : Unit}
    (pool_found : w.pools.get ⟨externalAsset⟩ = some pool)
    (provider_found : w.providers.get ⟨externalAsset, signer⟩ = some lp)
    (unlocked : UnlocksOnly w v lp lp')
    (computed : subtractFromPool pool lp'.liquidityProviderUnits lpUnitsLeft native external =
      .ok reduced)
    (run : (ClpKeeper.removeLiquidity env reduced ⟨externalAsset, external⟩ ⟨nativeSymbol, native⟩
      lp' lpUnitsLeft (pool.externalAssetBalance + pool.externalLiabilities)
      (pool.nativeAssetBalance + pool.nativeLiabilities)).run v = (.ok u, w')) :
    RemovalEffect env externalAsset signer pool lp native external lpUnitsLeft w w' := by
  obtain ⟨_, _, rfl, rfl, kept⟩ := unlocked
  obtain ⟨units, nativeBound, externalBound, rfl⟩ := subtractFromPool_succeeds computed
  have poolKey := w.pools.get_key _ _ pool_found
  have lpKey := w.providers.get_key _ _ provider_found
  simp only [Pool.key, PoolKey.mk.injEq] at poolKey
  simp only [LiquidityProvider.key, ProviderKey.mk.injEq] at lpKey
  have effect := fun asset => keeper_removeLiquidity_effect env asset run
  obtain ⟨addr, b, decoded, externalShallow, nativeShallow, moved, rfl⟩ :=
    effect (poolKey.trans lpKey.1.symm)
  simp only [lpKey.2] at decoded
  refine ⟨pool_found, provider_found, units, nativeBound, externalBound, nativeShallow,
    externalShallow, addr, b, _, decoded, moved.1, rfl, ?_⟩
  intro k
  rw [ledger_settled]
  simp only [withdrawnLedger, LiquidityProvider.key, lpKey]
  split
  · rfl
  · exact kept k

theorem ledger_found {providers : Table LiquidityProvider.key} {k : ProviderKey}
    (found : providers.get k = some lp) :
    ledger providers lp.key = some lp.liquidityProviderUnits := by
  rw [providers.get_key k lp found, ledger, found]
  rfl

theorem lookupRemoval_effect (w : World β) :
    Ensures (ClpMsgServer.lookupRemoval externalAsset signer) w (fun found w' =>
      w.pools.get ⟨externalAsset⟩ = some found.2.1 ∧
        w.providers.get ⟨externalAsset, signer⟩ = some found.2.2 ∧
        found.1.denom = found.2.1.externalAsset ∧ w = w') := by
  unfold ClpMsgServer.lookupRemoval ClpMsgServer.requirePermission
  refine ensures_read_then (ensures_ofExcept_then ?_)
  intro eAsset listed
  refine ensures_require_then ?_
  intro _
  refine ensures_bind (fun pool w' run => getPool_succeeds.mp run) ?_
  rintro pool _ ⟨pool_found, rfl⟩
  refine ensures_bind (fun lp w' run => getLiquidityProvider_succeeds.mp run) ?_
  rintro lp _ ⟨provider_found, rfl⟩
  have key := congrArg PoolKey.symbol (w.pools.get_key _ _ pool_found)
  exact ensures_pure ⟨pool_found, provider_found, (getEntry_denom listed).trans key.symm, rfl⟩

theorem requireUnqueued_effect {units : Fallible ℕ} (w : World β) :
    Ensures (ClpMsgServer.requireUnqueued lp units) w (fun _ w' =>
      (∃ n, units = .ok n ∧ n ≤ lp.liquidityProviderUnits) ∧ w = w') := by
  unfold ClpMsgServer.requireUnqueued
  refine ensures_read_then (ensures_ofExcept_then ?_)
  intro queued _
  refine ensures_ofExcept_then ?_
  intro requested computed
  refine ensures_ofExcept_then ?_
  intro available subtracted
  obtain ⟨_, rfl⟩ := (Uint.sub_succeeds _ _ _).mp subtracted
  intro _ _ run
  obtain ⟨enough, rfl⟩ := require_succeeds.mp run
  exact ⟨⟨requested, computed, by omega⟩, rfl⟩

theorem drawUnits_effect (lpUnitsLeft : ℕ) (valid : assetValidate env lp.asset = .ok true)
    (stored : ledger w.providers lp.key = some lp.liquidityProviderUnits) :
    Ensures (ClpMsgServer.drawUnits env lp lpUnitsLeft) w (fun lp' w' =>
      lpUnitsLeft ≤ lp.liquidityProviderUnits ∧ UnlocksOnly w w' lp lp') := by
  unfold ClpMsgServer.drawUnits
  refine ensures_ofExcept_then ?_
  intro used subtracted
  have bound := ((Uint.sub_succeeds _ _ _).mp subtracted).1
  exact ensures_mono (useUnlockedLiquidity_effect env valid stored)
    (fun _ _ unlocked => ⟨bound, unlocked⟩)

theorem withdrawalCoins_succeeds
    (made : withdrawalCoins env externalAsset external native = .ok (externalCoin, nativeCoin)) :
    externalCoin = ⟨externalAsset, external⟩ ∧ nativeCoin = ⟨nativeSymbol, native⟩ := by
  simp only [withdrawalCoins, except_bind_succeeds, parseToInt_succeeds, newCoin_succeeds,
    except_pure_succeeds, Prod.mk.injEq] at made
  obtain ⟨_, ⟨_, rfl⟩, _, ⟨_, rfl⟩, _, ⟨_, rfl⟩, _, ⟨_, rfl⟩, rfl, rfl⟩ := made
  exact ⟨rfl, rfl⟩

theorem unlocksOnly_stored {lp' : LiquidityProvider}
    (stored : ledger w.providers lp.key = some lp.liquidityProviderUnits)
    (unlocked : UnlocksOnly w w' lp lp') :
    ledger w'.providers lp'.key = some lp'.liquidityProviderUnits := by
  obtain ⟨_, _, rfl, rfl, kept⟩ := unlocked
  exact (kept lp.key).trans stored

/-- The providers of a removal: found, pruned and drawn from, they differ in unlock
    records only. -/
theorem removal_provider {v : World β} {pruned : LiquidityProvider}
    (valid : assetValidate env externalAsset = .ok true)
    (found : w.providers.get ⟨externalAsset, signer⟩ = some lp)
    (pruning : UnlocksOnly w v lp pruned) : assetValidate env pruned.asset = .ok true ∧
      ledger v.providers pruned.key = some pruned.liquidityProviderUnits := by
  have stored := unlocksOnly_stored (ledger_found found) pruning
  have key := w.providers.get_key _ lp found
  obtain ⟨_, _, _, rfl, _⟩ := pruning
  have asset : lp.asset = externalAsset := congrArg ProviderKey.symbol key
  exact ⟨by simpa only [asset] using valid, stored⟩

theorem prune_found (valid : assetValidate env externalAsset = .ok true)
    (found : w.providers.get ⟨externalAsset, signer⟩ = some lp) :
    Ensures (pruneUnlockRecords env lp) w (fun pruned v => UnlocksOnly w v lp pruned ∧
      assetValidate env pruned.asset = .ok true ∧
      ledger v.providers pruned.key = some pruned.liquidityProviderUnits) := by
  obtain ⟨asset, stored⟩ := removal_provider env valid found (unlocksOnly_refl w lp)
  refine ensures_mono (pruneUnlockRecords_effect env asset stored) ?_
  intro pruned v pruning
  exact ⟨pruning, removal_provider env valid found pruning⟩

/-- What a removal ran once its checks had passed: the records of the provider are pruned and
    drawn from, and the executor settles the rest. -/
structure RemovalRun (env : Env β) (externalAsset signer : String) (pool : Pool)
    (lp : LiquidityProvider) (native external lpUnitsLeft : ℕ) (w w' : World β) : Prop where
  pool_found : w.pools.get ⟨externalAsset⟩ = some pool
  provider_found : w.providers.get ⟨externalAsset, signer⟩ = some lp
  ran : ∃ pruned v drawn r reduced u,
    (pruneUnlockRecords env lp).run w = (.ok pruned, v) ∧
    (ClpMsgServer.drawUnits env pruned lpUnitsLeft).run v = (.ok drawn, r) ∧
    subtractFromPool pool drawn.liquidityProviderUnits lpUnitsLeft native external = .ok reduced ∧
    (ClpKeeper.removeLiquidity env reduced ⟨externalAsset, external⟩ ⟨nativeSymbol, native⟩ drawn
      lpUnitsLeft (pool.externalAssetBalance + pool.externalLiabilities)
      (pool.nativeAssetBalance + pool.nativeLiabilities)).run r = (.ok u, w')

theorem removalRun_effect (valid : assetValidate env externalAsset = .ok true)
    (removal : RemovalRun env externalAsset signer pool lp native external lpUnitsLeft w w') :
    RemovalEffect env externalAsset signer pool lp native external lpUnitsLeft w w' := by
  obtain ⟨pruned, v, drawn, r, reduced, u, pruning, drawing, subtracted, removing⟩ := removal.ran
  obtain ⟨first, asset, stored⟩ :=
    prune_found env valid removal.provider_found pruned v pruning
  have second := (drawUnits_effect env lpUnitsLeft asset stored drawn r drawing).2
  exact removal_effect env removal.pool_found removal.provider_found
    (unlocksOnly_trans first second) subtracted removing

theorem pruneUnlockRecords_record (lp : LiquidityProvider) (w : World β) :
    Ensures (pruneUnlockRecords env lp) w (fun pruned _ =>
      ∃ unlocks, pruned = { lp with unlocks := unlocks }) := by
  unfold pruneUnlockRecords
  refine ensures_read_then (ensures_ite ?_ ?_)
  · intro _
    exact ensures_bind (P := fun _ _ => True) (fun _ _ _ => trivial)
      (fun _ _ _ => ensures_pure ⟨_, rfl⟩)
  · intro _
    exact ensures_pure ⟨lp.unlocks, rfl⟩

theorem removeLiquidityUnits_runs (msg : MsgRemoveLiquidityUnits) (w : World β) :
    Ensures (ClpMsgServer.removeLiquidityUnits env msg) w (fun _ w' =>
      ∃ pool lp native external lpUnitsLeft,
        RemovalRun env msg.externalAsset msg.signer pool lp native external lpUnitsLeft w w' ∧
        msg.withdrawUnits ≤ lp.liquidityProviderUnits ∧
        calculateWithdrawalFromUnits pool.poolUnits
          (pool.nativeAssetBalance + pool.nativeLiabilities)
          (pool.externalAssetBalance + pool.externalLiabilities) lp.liquidityProviderUnits
          msg.withdrawUnits = .ok (native, external, lpUnitsLeft)) := by
  unfold ClpMsgServer.removeLiquidityUnits
  refine ensures_bind (lookupRemoval_effect w) ?_
  rintro ⟨eAsset, pool, lp⟩ _ ⟨pool_found, provider_found, _, rfl⟩
  refine ensures_bind (requireUnqueued_effect w) ?_
  rintro _ _ ⟨⟨_, requested, enough⟩, rfl⟩
  cases requested
  refine ensures_read_then ?_
  refine ensures_bind (fun _ _ run => run) ?_
  intro pruned v pruning
  obtain ⟨_, rfl⟩ := pruneUnlockRecords_record env lp w pruned v pruning
  refine ensures_ofExcept_then ?_
  rintro ⟨nativeDepth, externalDepth⟩ debt
  obtain ⟨rfl, rfl⟩ := extractDebt_forward debt
  refine ensures_ofExcept_then ?_
  rintro ⟨native, external, lpUnitsLeft⟩ computed
  refine ensures_bind (fun _ _ run => run) ?_
  intro drawn r drawing
  refine ensures_bind (guardPoolHealth_unchanged r) ?_
  rintro _ _ rfl
  refine ensures_ofExcept_then ?_
  rintro ⟨externalCoin, nativeCoin⟩ made
  obtain ⟨rfl, rfl⟩ := withdrawalCoins_succeeds env made
  refine ensures_ofExcept_then ?_
  intro reduced subtracted
  refine Action.ensures_wrapped ?_
  intro u w' run
  exact ⟨pool, lp, native, external, lpUnitsLeft, ⟨pool_found, provider_found, _, v, drawn, r,
    reduced, u, pruning, drawing, subtracted, run⟩, enough, computed⟩

theorem adjustAsymmetry_none {swapAmount : ℕ} {swapped : Pool} {externalPaid nativePaid : Coin}
    {pmtp nativeFee externalFee : Dec}
    (computed : adjustAsymmetry externalAsset 0 swapAmount pool externalCoin nativeCoin pmtp
      nativeFee externalFee = .ok (externalPaid, nativePaid, swapped)) :
    externalPaid = externalCoin ∧ nativePaid = nativeCoin ∧ swapped = pool := by
  simp only [adjustAsymmetry, lt_self_iff_false, ↓reduceIte, except_bind_succeeds,
    except_pure_succeeds, Prod.mk.injEq] at computed
  obtain ⟨_, _, rfl, rfl, rfl⟩ := computed
  exact ⟨rfl, rfl, rfl⟩

theorem removeLiquidity_runs (msg : MsgRemoveLiquidity) (w : World β) :
    Ensures (ClpMsgServer.removeLiquidity env msg) w (fun _ w' =>
      ∃ pool lp native external lpUnitsLeft swapAmount,
        RemovalRun env msg.externalAsset msg.signer pool lp native external lpUnitsLeft w w' ∧
        calculateWithdrawal pool.poolUnits
          (pool.nativeAssetBalance + pool.nativeLiabilities)
          (pool.externalAssetBalance + pool.externalLiabilities) lp.liquidityProviderUnits
          msg.wBasisPoints 0 = .ok (native, external, lpUnitsLeft, swapAmount)) := by
  unfold ClpMsgServer.removeLiquidity
  refine ensures_bind (lookupRemoval_effect w) ?_
  rintro ⟨eAsset, pool, lp⟩ _ ⟨pool_found, provider_found, _, rfl⟩
  refine ensures_read_then ?_
  refine ensures_bind (fun _ _ run => run) ?_
  intro pruned v pruning
  obtain ⟨_, rfl⟩ := pruneUnlockRecords_record env lp w pruned v pruning
  refine ensures_require_then ?_
  intro symmetric
  refine ensures_bind (requireUnqueued_effect v) ?_
  rintro _ _ ⟨_, rfl⟩
  refine ensures_ofExcept_then ?_
  rintro ⟨nativeDepth, externalDepth⟩ debt
  obtain ⟨rfl, rfl⟩ := extractDebt_forward debt
  refine ensures_ofExcept_then ?_
  rintro ⟨native, external, lpUnitsLeft, swapAmount⟩ computed
  refine ensures_bind (fun _ _ run => run) ?_
  intro drawn r drawing
  refine ensures_bind (guardPoolHealth_unchanged r) ?_
  rintro _ _ rfl
  refine ensures_ofExcept_then ?_
  rintro ⟨externalCoin, nativeCoin⟩ made
  obtain ⟨rfl, rfl⟩ := withdrawalCoins_succeeds env made
  refine ensures_ofExcept_then ?_
  intro reduced subtracted
  refine ensures_ofExcept_then ?_
  rintro ⟨externalPaid, nativePaid, swapped⟩ adjusted
  rw [symmetric] at adjusted computed
  obtain ⟨rfl, rfl, rfl⟩ := adjustAsymmetry_none adjusted
  refine Action.ensures_wrapped ?_
  intro u w' run
  exact ⟨pool, lp, native, external, lpUnitsLeft, swapAmount, ⟨pool_found, provider_found, _, v,
    drawn, r, swapped, u, pruning, drawing, subtracted, run⟩, computed⟩

structure CreationEffect (env : Env β) (msg : MsgCreatePool) (poolUnits lpUnits : ℕ)
    (w w' : World β) : Prop where
  pool_missing : w.pools.get ⟨msg.externalAsset⟩ = none
  computed : ∃ sellFee buyFee swapStatus swapAmount,
    calculatePoolUnits 0 0 0 msg.nativeAssetAmount msg.externalAssetAmount sellFee buyFee
      w.clp.pmtpCurrentRunningRate = .ok (poolUnits, lpUnits, swapStatus, swapAmount)
  written : ∃ addr b providers,
    env.accAddressFromBech32 msg.signer = some addr ∧
    Moves (env.bank.getBalance w.bank) (env.bank.getBalance b) addr (moduleAddress env)
      (pairAmount msg.externalAsset msg.externalAssetAmount msg.nativeAssetAmount) ∧
    w' = { w with
      bank := b
      pools := w.pools.put {
        externalAsset := msg.externalAsset
        nativeAssetBalance := msg.nativeAssetAmount
        externalAssetBalance := msg.externalAssetAmount
        poolUnits := poolUnits }
      providers := providers } ∧
    ∀ k, ledger providers k =
      if ⟨msg.externalAsset, env.addressString addr⟩ = k then some lpUnits
      else ledger w.providers k

theorem createLiquidityProvider_effect {asset : String} {lpunits : ℕ} {address : AccAddress}
    (w : World β) (valid : assetValidate env asset = .ok true) :
    Ensures (createLiquidityProvider env asset lpunits address) w (fun lp w' =>
      lp = ⟨asset, lpunits, env.addressString address, []⟩ ∧
        w' = { w with providers := w.providers.put lp }) := by
  unfold createLiquidityProvider
  refine ensures_bind (fun u v run => setLiquidityProvider_valid env
    ⟨asset, lpunits, env.addressString address, []⟩ w v u valid run) ?_
  rintro _ _ rfl
  exact ensures_pure ⟨rfl, rfl⟩

theorem keeper_createPool_effect {poolUnits : ℕ} {msg : MsgCreatePool} :
    Ensures (ClpKeeper.createPool env poolUnits msg) w (fun pool w' =>
      pool = {
        externalAsset := msg.externalAsset
        nativeAssetBalance := msg.nativeAssetAmount
        externalAssetBalance := msg.externalAssetAmount
        poolUnits := poolUnits } ∧
      ∃ addr b, env.accAddressFromBech32 msg.signer = some addr ∧
        Moves (env.bank.getBalance w.bank) (env.bank.getBalance b) addr (moduleAddress env)
          (pairAmount msg.externalAsset msg.externalAssetAmount msg.nativeAssetAmount) ∧
        w' = { w with bank := b, pools := w.pools.put pool }) := by
  unfold ClpKeeper.createPool
  refine ensures_ofExcept_then fun extInt external => ensures_ofExcept_then fun nativeInt native =>
    ensures_ofExcept_then fun addr decoded => ensures_ofExcept_then fun externalCoin madeExternal =>
    ensures_ofExcept_then fun nativeCoin madeNative => ensures_read_then
    (ensures_require_then fun _ => ensures_ofExcept_then fun coins made => ?_)
  obtain ⟨_, rfl⟩ := parseToInt_succeeds.mp external
  obtain ⟨_, rfl⟩ := parseToInt_succeeds.mp native
  obtain ⟨_, rfl⟩ := (newCoin_succeeds _ _ _).mp madeExternal
  obtain ⟨_, rfl⟩ := (newCoin_succeeds _ _ _).mp madeNative
  have amounts : amountOf coins =
      pairAmount msg.externalAsset msg.externalAssetAmount msg.nativeAssetAmount := by
    funext d
    rw [newCoins_amounts _ _ made]
    simp only [amountOf_cons, amountOf_nil, Nat.add_zero]
    rfl
  refine ensures_bind (fun u v run => sendCoinsFromAccountToModule_moves env run) ?_
  rintro _ _ ⟨b, moved, rfl⟩
  refine ensures_bind (Action.ensures_wrapped
    (fun u v run => ((setPool_succeeds _).mp run).2)) ?_
  rintro _ _ rfl
  exact ensures_pure ⟨rfl, addr, b, (decodeAddress_succeeds _).mp decoded, amounts ▸ moved, rfl⟩

theorem createPool_effect (msg : MsgCreatePool) (w : World β)
    (valid : assetValidate env msg.externalAsset = .ok true) :
    Ensures (ClpMsgServer.createPool env msg) w (fun _ w' =>
      ∃ poolUnits lpUnits, CreationEffect env msg poolUnits lpUnits w w') := by
  unfold ClpMsgServer.createPool ClpMsgServer.requirePermission
  refine ensures_require_then fun _ => ensures_read_then (ensures_ofExcept_then fun _ _ =>
    ensures_require_then fun _ => ensures_require_then fun missing => ensures_ofExcept_then ?_)
  rintro ⟨poolUnits, lpUnits, swapStatus, swapAmount⟩ computed
  refine ensures_bind (Action.ensures_wrapped (keeper_createPool_effect env)) ?_
  rintro _ _ ⟨rfl, addr, b, decoded, moved, rfl⟩
  refine ensures_ofExcept_then ?_
  intro accAddr again
  obtain rfl : addr = accAddr := by
    simpa [decoded] using (decodeAddress_succeeds _).mp again
  refine ensures_bind (createLiquidityProvider_effect env _ valid) ?_
  rintro _ _ ⟨rfl, rfl⟩
  refine ensures_pure ⟨poolUnits, lpUnits, missing,
    ⟨_, _, swapStatus, swapAmount, mapFailure_succeeds.mp computed⟩,
    addr, b, _, decoded, moved, rfl, ?_⟩
  intro k
  rw [ledger_put]
  rfl

/-- The ledger after an addition: units are added to the record found under the signer's
    spelling, and a new record goes under the canonical one. -/
def addedLedger (env : Env β) (before : ProviderKey → Option ℕ) (externalAsset signer : String)
    (addr : AccAddress) (lpUnits : ℕ) (k : ProviderKey) : Option ℕ :=
  match before ⟨externalAsset, signer⟩ with
  | some units => if ⟨externalAsset, signer⟩ = k then some (units + lpUnits) else before k
  | none => if ⟨externalAsset, env.addressString addr⟩ = k then some lpUnits else before k

/-- What an addition of liquidity does while no removal is queued. -/
structure AdditionEffect (env : Env β) (msg : MsgAddLiquidity) (pool : Pool)
    (newPoolUnits lpUnits : ℕ) (w w' : World β) : Prop where
  pool_found : w.pools.get ⟨msg.externalAsset⟩ = some pool
  computed : ∃ sellFee buyFee swapStatus swapAmount,
    calculatePoolUnits pool.poolUnits (pool.nativeAssetBalance + pool.nativeLiabilities)
      (pool.externalAssetBalance + pool.externalLiabilities) msg.nativeAssetAmount
      msg.externalAssetAmount sellFee buyFee w.clp.pmtpCurrentRunningRate =
        .ok (newPoolUnits, lpUnits, swapStatus, swapAmount)
  written : ∃ addr b providers threshold,
    env.accAddressFromBech32 msg.signer = some addr ∧
    Moves (env.bank.getBalance w.bank) (env.bank.getBalance b) addr (moduleAddress env)
      (pairAmount msg.externalAsset msg.externalAssetAmount msg.nativeAssetAmount) ∧
    w' = { w with
      bank := b
      pools := w.pools.put { pool with
        poolUnits := newPoolUnits
        nativeAssetBalance := pool.nativeAssetBalance + msg.nativeAssetAmount
        externalAssetBalance := pool.externalAssetBalance + msg.externalAssetAmount }
      providers := providers
      currentFuryLiquidityThreshold := threshold } ∧
    ∀ k, ledger providers k =
      addedLedger env (ledger w.providers) msg.externalAsset msg.signer addr lpUnits k

theorem guardImplicitSwap_effect {nAsset eAsset : RegistryEntry} {swapStatus : SwapStatus}
    {swapAmount nativeDepth externalDepth : ℕ} {sellFee buyFee : Dec} (w : World β) :
    Ensures (ClpMsgServer.guardImplicitSwap nAsset eAsset swapStatus swapAmount nativeDepth
      externalDepth sellFee buyFee) w (fun _ w' => OnlyThreshold w w') := by
  unfold ClpMsgServer.guardImplicitSwap ClpMsgServer.forbidPermission
  cases swapStatus with
  | noSwap => exact ensures_pure onlyThreshold_refl
  | sellNative =>
    refine ensures_require_then fun _ => ensures_require_then fun _ => ensures_read_then
      (ensures_when ?_ (fun _ => onlyThreshold_refl))
    intro _
    refine ensures_bind (getNativePrice_unchanged w) ?_
    rintro price _ rfl
    refine ensures_bind (isBlocked_unchanged w) ?_
    rintro blocked _ rfl
    refine ensures_require_then fun _ => ensures_ofExcept_then fun _ _ => ?_
    exact mustUpdateLiquidityProtectionThreshold_writes w
  | buyNative =>
    refine ensures_require_then fun _ => ensures_require_then fun _ => ensures_read_then
      (ensures_when ?_ (fun _ => onlyThreshold_refl))
    intro _
    refine ensures_ofExcept_then ?_
    rintro ⟨nativeAmount, _⟩ _
    refine ensures_bind (getNativePrice_unchanged w) ?_
    rintro price _ rfl
    exact mustUpdateLiquidityProtectionThreshold_writes w

theorem addLiquidityUnits_effect {addr : AccAddress} {lpUnits : ℕ}
    (valid : assetValidate env msg.externalAsset = .ok true) :
    Ensures (addLiquidityUnits env msg addr lpUnits) w (fun lp w' =>
      lp.asset = msg.externalAsset ∧
      (∃ providers, w' = { w with providers := providers }) ∧
      ∀ k, (if lp.key = k then some lp.liquidityProviderUnits else ledger w'.providers k) =
        addedLedger env (ledger w.providers) msg.externalAsset msg.signer addr lpUnits k) := by
  unfold addLiquidityUnits
  refine ensures_read_then ?_
  cases found : w.providers.get ⟨msg.externalAsset, msg.signer⟩ with
  | some lp =>
    dsimp only
    have key := w.providers.get_key _ lp found
    refine ensures_ofExcept_then ?_
    intro units added
    obtain ⟨_, rfl⟩ := (Uint.add_succeeds _ _ _).mp added
    refine ensures_pure ⟨congrArg ProviderKey.symbol key, ⟨_, rfl⟩, ?_⟩
    intro k
    have units : ledger w.providers ⟨msg.externalAsset, msg.signer⟩ =
        some lp.liquidityProviderUnits := key ▸ ledger_found found
    simp only [addedLedger, units]
    rw [← key]
    rfl
  | none =>
    dsimp only
    intro lp w' run
    obtain ⟨rfl, rfl⟩ := createLiquidityProvider_effect env w valid lp w' run
    refine ⟨rfl, ⟨_, rfl⟩, ?_⟩
    intro k
    have missing : ledger w.providers ⟨msg.externalAsset, msg.signer⟩ = none := by
      simp only [ledger, found, Option.map_none]
    simp only [addedLedger, missing, ledger_put, LiquidityProvider.key]
    split
    · rfl
    · rename_i other
      simp only [other, ↓reduceIte]

theorem requireSomeBalance_unchanged {addr : AccAddress} {coins : Coins} :
    Ensures (requireSomeBalance env addr coins) w (fun _ w' => w = w') := by
  unfold requireSomeBalance
  refine ensures_read_then (ensures_ofExcept_then fun _ _ => ensures_ite ?_ ?_)
  · intro _
    exact ensures_pure rfl
  · intro _
    refine ensures_ofExcept_then fun _ _ => ?_
    intro u w' run
    exact (require_succeeds.mp run).2

theorem keeper_addLiquidity_effect (pool : Pool) (newPoolUnits lpUnits : ℕ)
    (valid : assetValidate env msg.externalAsset = .ok true) :
    Ensures (ClpKeeper.addLiquidity env msg pool newPoolUnits lpUnits) w (fun _ w' =>
      ∃ addr b providers,
        env.accAddressFromBech32 msg.signer = some addr ∧
        Moves (env.bank.getBalance w.bank) (env.bank.getBalance b) addr (moduleAddress env)
          (pairAmount msg.externalAsset msg.externalAssetAmount msg.nativeAssetAmount) ∧
        w' = { w with
          bank := b
          pools := w.pools.put { pool with
            poolUnits := newPoolUnits
            nativeAssetBalance := pool.nativeAssetBalance + msg.nativeAssetAmount
            externalAssetBalance := pool.externalAssetBalance + msg.externalAssetAmount }
          providers := providers } ∧
        ∀ k, ledger providers k =
          addedLedger env (ledger w.providers) msg.externalAsset msg.signer addr lpUnits k) := by
  unfold ClpKeeper.addLiquidity
  refine ensures_ofExcept_then fun extInt external => ensures_ofExcept_then fun nativeInt native =>
    ensures_ofExcept_then fun coins made => ensures_ofExcept_then fun addr decoded => ?_
  obtain ⟨_, rfl⟩ := parseToInt_succeeds.mp external
  obtain ⟨_, rfl⟩ := parseToInt_succeeds.mp native
  refine ensures_bind (requireSomeBalance_unchanged env) ?_
  rintro _ _ rfl
  refine ensures_bind (fun u v run => sendCoinsFromAccountToModule_moves env run) ?_
  rintro _ _ ⟨b, moved, rfl⟩
  refine ensures_ofExcept_then fun updated computed => ?_
  obtain rfl := addToPool_succeeds computed
  refine ensures_bind (addLiquidityUnits_effect env valid) ?_
  rintro lp _ ⟨asset, ⟨providers, rfl⟩, after⟩
  refine ensures_bind (Action.ensures_wrapped
    (fun u v run => ((setPool_succeeds _).mp run).2)) ?_
  rintro _ _ rfl
  refine ensures_bind
    (fun u v run => setLiquidityProvider_valid env lp _ v u (asset ▸ valid) run) ?_
  rintro _ _ rfl
  refine ensures_pure ⟨addr, b, _, (decodeAddress_succeeds _).mp decoded,
    liquidityCoins_amounts env made ▸ moved, rfl, ?_⟩
  intro k
  rw [ledger_put]
  exact after k

theorem processRemovalQueue_empty {units : ℕ} (empty : w.requests.rows = []) :
    Ensures (processRemovalQueue env externalAsset units) w (fun _ w' => w = w') := by
  unfold processRemovalQueue
  refine ensures_read_then (ensures_ofExcept_then fun _ _ => ?_)
  rw [empty]
  exact ensures_pure rfl

/-- What an addition ran once its units were computed: the implicit swap is checked, the executor
    writes, and queued removals are served. -/
structure AdditionRun (env : Env β) (msg : MsgAddLiquidity) (pool : Pool)
    (newPoolUnits lpUnits : ℕ) (swapStatus : SwapStatus) (swapAmount : ℕ) (w w' : World β) :
    Prop where
  pool_found : w.pools.get ⟨msg.externalAsset⟩ = some pool
  computed : calculatePoolUnits pool.poolUnits (pool.nativeAssetBalance + pool.nativeLiabilities)
    (pool.externalAssetBalance + pool.externalLiabilities) msg.nativeAssetAmount
    msg.externalAssetAmount (getSwapFeeRate w.clp nativeSymbol false)
    (getSwapFeeRate w.clp msg.externalAsset false) w.clp.pmtpCurrentRunningRate =
      .ok (newPoolUnits, lpUnits, swapStatus, swapAmount)
  ran : ∃ nAsset eAsset u v lp x u',
    (ClpMsgServer.guardImplicitSwap nAsset eAsset swapStatus swapAmount
      (pool.nativeAssetBalance + pool.nativeLiabilities)
      (pool.externalAssetBalance + pool.externalLiabilities)
      (getSwapFeeRate w.clp nativeSymbol false)
      (getSwapFeeRate w.clp msg.externalAsset false)).run w = (.ok u, v) ∧
    (ClpKeeper.addLiquidity env msg pool newPoolUnits lpUnits).run v = (.ok lp, x) ∧
    (when (isPoolEnabled x.margin msg.externalAsset = true ∧ x.clp.enableRemovalQueue = true
        ∧ 0 < (getRemovalQueue x msg.externalAsset).count)
      (processRemovalQueue env msg.externalAsset newPoolUnits)).run x = (.ok u', w')

theorem addLiquidity_runs :
    Ensures (ClpMsgServer.addLiquidity env msg) w (fun _ w' =>
      ∃ pool newPoolUnits lpUnits swapStatus swapAmount,
        AdditionRun env msg pool newPoolUnits lpUnits swapStatus swapAmount w w') := by
  unfold ClpMsgServer.addLiquidity ClpMsgServer.requirePermission
  refine ensures_read_then (ensures_ofExcept_then fun nAsset _ => ensures_ofExcept_then
    fun eAsset _ => ensures_require_then fun _ => ?_)
  refine ensures_bind (fun pool v run => getPool_succeeds.mp run) ?_
  rintro pool _ ⟨pool_found, rfl⟩
  refine ensures_ofExcept_then ?_
  rintro ⟨nativeDepth, externalDepth⟩ debt
  obtain ⟨rfl, rfl⟩ := extractDebt_forward debt
  refine ensures_ofExcept_then ?_
  rintro ⟨newPoolUnits, lpUnits, swapStatus, swapAmount⟩ computed
  refine ensures_bind (fun _ _ run => run) ?_
  intro u v guarded
  refine ensures_bind (Action.ensures_wrapped (fun _ _ run => run)) ?_
  intro lp x added
  refine ensures_read_then ?_
  intro u' w' served
  exact ⟨pool, newPoolUnits, lpUnits, swapStatus, swapAmount, pool_found, computed, nAsset, eAsset,
    u, v, lp, x, u', guarded, added, served⟩

theorem addLiquidity_effect (valid : assetValidate env msg.externalAsset = .ok true)
    (empty : w.requests.rows = []) :
    Ensures (ClpMsgServer.addLiquidity env msg) w (fun _ w' =>
      ∃ pool newPoolUnits lpUnits, AdditionEffect env msg pool newPoolUnits lpUnits w w') := by
  refine ensures_mono (addLiquidity_runs env) ?_
  rintro _ w' ⟨pool, newPoolUnits, lpUnits, swapStatus, swapAmount, addition⟩
  obtain ⟨nAsset, eAsset, u, v, lp, x, u', guarded, added, served⟩ := addition.ran
  obtain ⟨threshold, rfl⟩ := guardImplicitSwap_effect w u v guarded
  obtain ⟨addr, b, providers, decoded, moved, rfl, after⟩ :=
    keeper_addLiquidity_effect env pool newPoolUnits lpUnits valid lp x added
  have effect : AdditionEffect env msg pool newPoolUnits lpUnits w _ :=
    ⟨addition.pool_found, ⟨_, _, swapStatus, swapAmount, addition.computed⟩, addr, b, providers,
      threshold, decoded, moved, rfl, after⟩
  rcases when_succeeds.mp served with ⟨_, processed⟩ | ⟨_, rfl⟩
  · obtain rfl := processRemovalQueue_empty env (by exact empty) u' w' processed
    exact ⟨pool, newPoolUnits, lpUnits, effect⟩
  · exact ⟨pool, newPoolUnits, lpUnits, effect⟩
end FuryNode
