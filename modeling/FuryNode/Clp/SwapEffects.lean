import FuryNode.Clp.LiquidityEffects

/-!
What a swap and the end of a pool do when they succeed.
-/
namespace FuryNode
open StatefulProgram StatefulProgram.Prog KeyedTable KeyedTable.Table ClpKeeper
variable {β : Type} (env : Env β)

def oneAmount (denom : String) (amount : ℕ) (d : String) : ℕ := if denom = d then amount else 0

/-- The pool after `sentAmount` was sold to it for `emitAmount` of `toAsset`. -/
def Pool.swapped (pool : Pool) (toAsset : String) (sentAmount emitAmount : ℕ) : Pool :=
  if toAsset = nativeSymbol then { pool with
    externalAssetBalance := pool.externalAssetBalance + sentAmount
    nativeAssetBalance := pool.nativeAssetBalance - emitAmount }
  else { pool with
    nativeAssetBalance := pool.nativeAssetBalance + sentAmount
    externalAssetBalance := pool.externalAssetBalance - emitAmount }

def Pool.stock (pool : Pool) (toAsset : String) : ℕ :=
  if toAsset = nativeSymbol then pool.nativeAssetBalance else pool.externalAssetBalance

variable {sentAmount emitAmount : ℕ} {w : World β}

theorem swapOne_succeeds {toAsset : String} {pool finalPool : Pool} {pmtp swapFeeRate : Dec}
    {fee impact : ℕ}
    (computed : swapOne sentAmount toAsset pool pmtp swapFeeRate =
      .ok (emitAmount, fee, impact, finalPool)) :
    emitAmount < pool.stock toAsset ∧ finalPool = pool.swapped toAsset sentAmount emitAmount := by
  simp only [swapOne, except_bind_succeeds, check_succeeds, Pool.updateBalances,
    Uint.add_succeeds, Uint.sub_succeeds, except_pure_succeeds, Prod.mk.injEq] at computed
  obtain ⟨_, _, _, _, ⟨emitted, _⟩, _, _, bound, swapped, ⟨_, ⟨_, rfl⟩, _, ⟨_, rfl⟩, written⟩, rfl, _,
    _, rfl⟩ := computed
  subst written
  by_cases native : toAsset = nativeSymbol
  · simp only [Pool.extractValues, native, ↓reduceIte] at bound
    simp [Pool.stock, Pool.swapped, Pool.extractValues, native, bound]
  · simp only [Pool.extractValues, native, ↓reduceIte] at bound
    simp [Pool.stock, Pool.swapped, Pool.extractValues, native, bound]

theorem swapped_key (pool : Pool) (toAsset : String) (sentAmount emitAmount : ℕ) :
    (pool.swapped toAsset sentAmount emitAmount).key = pool.key := by
  unfold Pool.swapped
  split <;> rfl

theorem swapped_units {pool : Pool} {toAsset : String} :
    (pool.swapped toAsset sentAmount emitAmount).poolUnits = pool.poolUnits := by
  unfold Pool.swapped
  split <;> rfl

/-- The pools after a swap: one that trades fury, or two with fury in between. -/
inductive SwapsPools (msg : MsgSwap) (emitAmount : ℕ) (pools : Table Pool.key) :
    Table Pool.key → Prop
  | one (symbol : String) (pool : Pool)
      (side : (msg.receivedAsset = nativeSymbol ∧ symbol = msg.sentAsset) ∨
        (msg.sentAsset = nativeSymbol ∧ symbol = msg.receivedAsset))
      (found : pools.get ⟨symbol⟩ = some pool)
      (bound : emitAmount < pool.stock msg.receivedAsset) :
      SwapsPools msg emitAmount pools
        (pools.put (pool.swapped msg.receivedAsset msg.sentAmount emitAmount))
  | two (inPool outPool : Pool) (through : ℕ)
      (sent_external : msg.sentAsset ≠ nativeSymbol)
      (received_external : msg.receivedAsset ≠ nativeSymbol)
      (in_found : pools.get ⟨msg.sentAsset⟩ = some inPool)
      (out_found : pools.get ⟨msg.receivedAsset⟩ = some outPool)
      (in_bound : through < inPool.stock nativeSymbol)
      (out_bound : emitAmount < outPool.stock msg.receivedAsset) :
      SwapsPools msg emitAmount pools
        ((pools.put (inPool.swapped nativeSymbol msg.sentAmount through)).put
          (outPool.swapped msg.receivedAsset through emitAmount))

def SwapEffect (env : Env β) (msg : MsgSwap) (w w' : World β) : Prop :=
  ∃ addr received paid pools threshold emitAmount,
    env.accAddressFromBech32 msg.signer = some addr ∧
    Moves (env.bank.getBalance w.bank) (env.bank.getBalance received) addr (moduleAddress env)
      (oneAmount msg.sentAsset msg.sentAmount) ∧
    Moves (env.bank.getBalance received) (env.bank.getBalance paid) (moduleAddress env) addr
      (oneAmount msg.receivedAsset emitAmount) ∧
    SwapsPools msg emitAmount w.pools pools ∧
    w' = { w with bank := paid, pools := pools, currentFuryLiquidityThreshold := threshold }

theorem lookupSwap_unchanged (msg : MsgSwap) (w : World β) :
    Ensures (ClpMsgServer.lookupSwap msg) w (fun _ w' => w = w') := by
  unfold ClpMsgServer.lookupSwap ClpMsgServer.requirePermission ClpMsgServer.forbidPermission
  exact ensures_read_then (ensures_ofExcept_then fun _ _ => ensures_ofExcept_then fun _ _ =>
    ensures_require_then fun _ => ensures_require_then fun _ => ensures_require_then fun _ =>
    ensures_require_then fun _ => ensures_pure rfl)

theorem guardSwapPrice_unchanged {sAsset : RegistryEntry} (w : World β) :
    Ensures (ClpMsgServer.guardSwapPrice sAsset sentAmount) w (fun _ w' => w = w') := by
  unfold ClpMsgServer.guardSwapPrice
  refine ensures_read_then (ensures_ite ?_ ?_)
  · intro _
    refine ensures_bind (getNativePrice_unchanged w) ?_
    rintro price _ rfl
    refine ensures_bind (P := fun _ w' => w = w') (ensures_when ?_ (fun _ => rfl)) ?_
    · intro _
      refine ensures_bind (isBlocked_unchanged w) ?_
      rintro blocked _ rfl
      intro u w' run
      exact (require_succeeds.mp run).2
    · rintro _ _ rfl
      exact ensures_pure rfl
  · intro _
    exact ensures_pure rfl

theorem newCoins_one {denom : String} {amount : ℕ} {coins : Coins}
    (made : newCoins [⟨denom, amount⟩] = .ok coins) : amountOf coins = oneAmount denom amount := by
  funext d
  rw [newCoins_amounts _ _ made]
  simp only [amountOf_cons, amountOf_nil, Nat.add_zero]
  rfl

theorem takeSent_effect (msg : MsgSwap) (w : World β) :
    Ensures (ClpMsgServer.takeSent env msg) w (fun _ w' =>
      ∃ addr b, env.accAddressFromBech32 msg.signer = some addr ∧
        Moves (env.bank.getBalance w.bank) (env.bank.getBalance b) addr (moduleAddress env)
          (oneAmount msg.sentAsset msg.sentAmount) ∧
        w' = { w with bank := b }) := by
  unfold ClpMsgServer.takeSent initiateSwap
  refine ensures_ofExcept_then fun amount parsed => ensures_ofExcept_then fun addr decoded =>
    ensures_ofExcept_then fun coin made => Action.ensures_wrapped (ensures_read_then
    (ensures_require_then fun _ => ensures_ofExcept_then fun coins collected => ?_))
  obtain ⟨_, rfl⟩ := parseToInt_succeeds.mp parsed
  obtain ⟨_, rfl⟩ := (newCoin_succeeds _ _ _).mp made
  intro u w' run
  obtain ⟨b, moved, rfl⟩ := sendCoinsFromAccountToModule_moves env run
  exact ⟨addr, b, (decodeAddress_succeeds _).mp decoded, newCoins_one collected ▸ moved, rfl⟩

theorem finalizeSwap_effect {finalPool : Pool} {msg : MsgSwap} :
    Ensures (finalizeSwap env emitAmount finalPool msg) w (fun _ w' =>
      ∃ addr b, env.accAddressFromBech32 msg.signer = some addr ∧
        Moves (env.bank.getBalance w.bank) (env.bank.getBalance b) (moduleAddress env) addr
          (oneAmount msg.receivedAsset emitAmount) ∧
        w' = { w with bank := b, pools := w.pools.put finalPool }) := by
  unfold finalizeSwap
  refine ensures_bind (Action.ensures_wrapped
    (fun u v run => ((setPool_succeeds _).mp run).2)) ?_
  rintro _ _ rfl
  refine ensures_ofExcept_then fun amount parsed => ensures_ofExcept_then fun addr decoded =>
    ensures_ofExcept_then fun coin made => ensures_ofExcept_then fun coins collected => ?_
  obtain ⟨_, rfl⟩ := parseToInt_succeeds.mp parsed
  obtain ⟨_, rfl⟩ := (newCoin_succeeds _ _ _).mp made
  intro u w' run
  obtain ⟨b, moved, rfl⟩ := sendCoinsFromModuleToAccount_moves env run
  exact ⟨addr, b, (decodeAddress_succeeds _).mp decoded, newCoins_one collected ▸ moved, rfl⟩

theorem swapToNative_effect {msg : MsgSwap} {inPool : Pool} {swapFeeRate : Dec} :
    Ensures (ClpMsgServer.swapToNative env msg inPool swapFeeRate) w (fun first w' =>
      (msg.sentAsset ≠ nativeSymbol ∧ msg.receivedAsset ≠ nativeSymbol ∧
        first.1 < inPool.stock nativeSymbol ∧
        w' = { w with
          pools := w.pools.put (inPool.swapped nativeSymbol msg.sentAmount first.1) }) ∨
      ((msg.sentAsset = nativeSymbol ∨ msg.receivedAsset = nativeSymbol) ∧
        first.1 = msg.sentAmount ∧ w' = w)) := by
  unfold ClpMsgServer.swapToNative
  refine ensures_read_then (ensures_ite ?_ ?_)
  · rintro ⟨sent, received⟩
    refine ensures_ofExcept_then ?_
    rintro ⟨through, fee, impact, finalPool⟩ computed
    obtain ⟨bound, rfl⟩ := swapOne_succeeds computed
    refine ensures_bind (Action.ensures_wrapped
      (fun u v run => ((setPool_succeeds _).mp run).2)) ?_
    rintro _ _ rfl
    exact ensures_pure (Or.inl ⟨sent, received, bound, rfl⟩)
  · intro one
    exact ensures_pure (Or.inr ⟨by tauto, rfl, rfl⟩)

theorem protectSwap_effect {sAsset rAsset : RegistryEntry} {swapFeeRate price : Dec} :
    Ensures (ClpMsgServer.protectSwap sAsset rAsset sentAmount emitAmount swapFeeRate price) w
      (fun _ w' => OnlyThreshold w w') := by
  unfold ClpMsgServer.protectSwap
  refine ensures_read_then (ensures_when ?_ (fun _ => onlyThreshold_refl))
  intro _
  refine ensures_bind (P := fun _ w' => OnlyThreshold w w')
    (ensures_when ?_ (fun _ => onlyThreshold_refl)) ?_
  · intro _
    exact ensures_ofExcept_then fun _ _ => mustUpdateLiquidityProtectionThreshold_writes w
  · intro _ r sold
    refine ensures_when ?_ (fun _ => sold)
    intro _
    exact ensures_mono (mustUpdateLiquidityProtectionThreshold_writes r)
      (fun _ t bought => onlyThreshold_trans sold bought)

theorem swapInPool_effect {sentAsset : String} :
    Ensures (if sentAsset = nativeSymbol then pure Pool.zero else getPool sentAsset : Action β Pool)
      w (fun inPool w' =>
        (sentAsset ≠ nativeSymbol → w.pools.get ⟨sentAsset⟩ = some inPool) ∧ w = w') := by
  refine ensures_ite ?_ ?_
  · intro native
    exact ensures_pure ⟨fun external => absurd native external, rfl⟩
  · intro _ pool w' run
    obtain ⟨found, same⟩ := getPool_succeeds.mp run
    exact ⟨fun _ => found, same⟩

theorem swap_effect (msg : MsgSwap) (w : World β) (different : msg.sentAsset ≠ msg.receivedAsset) :
    Ensures (ClpMsgServer.swap env msg) w (fun _ w' => SwapEffect env msg w w') := by
  unfold ClpMsgServer.swap
  refine ensures_bind (lookupSwap_unchanged msg w) ?_
  rintro ⟨sAsset, rAsset⟩ _ rfl
  refine ensures_read_then (ensures_bind (guardSwapPrice_unchanged w) ?_)
  rintro price _ rfl
  refine ensures_bind swapInPool_effect ?_
  rintro inPool _ ⟨in_found, rfl⟩
  refine ensures_bind (takeSent_effect env msg w) ?_
  rintro _ _ ⟨addr, received, decoded, taken, rfl⟩
  refine ensures_bind (swapToNative_effect env) ?_
  rintro ⟨sentAmount, feeNative, firstImpact⟩ r first
  refine ensures_bind (fun pool v run => getPool_succeeds.mp run) ?_
  rintro outPool _ ⟨out_found, rfl⟩
  refine ensures_ofExcept_then ?_
  rintro ⟨emitAmount, fee, impact, finalPool⟩ computed
  obtain ⟨bound, rfl⟩ := swapOne_succeeds computed
  refine ensures_require_then fun _ => ?_
  refine ensures_bind (Action.ensures_wrapped (finalizeSwap_effect env)) ?_
  rintro _ _ ⟨again, paid, decodedAgain, sent, rfl⟩
  obtain rfl : addr = again := by simpa [decoded] using decodedAgain
  refine ensures_ofExcept_then fun _ _ => ?_
  refine ensures_mono protectSwap_effect ?_
  rintro _ _ ⟨threshold, rfl⟩
  rcases first with ⟨sentExternal, receivedExternal, through, rfl⟩ | ⟨side, rfl, rfl⟩
  · simp only [receivedExternal, ↓reduceIte] at out_found
    have key : (inPool.swapped nativeSymbol msg.sentAmount sentAmount).key ≠
        ⟨msg.receivedAsset⟩ := by
      rw [swapped_key, w.pools.get_key _ _ (in_found sentExternal)]
      simpa using different
    rw [get_put_other _ _ _ key] at out_found
    exact ⟨addr, received, paid, _, threshold, emitAmount, decoded, taken, sent,
      .two inPool outPool sentAmount sentExternal receivedExternal (in_found sentExternal)
        out_found through bound, rfl⟩
  · refine ⟨addr, received, paid, _, threshold, emitAmount, decoded, taken, sent,
      .one _ outPool ?_ out_found bound, rfl⟩
    by_cases native : msg.receivedAsset = nativeSymbol
    · simp [native]
    · simpa [native] using side

theorem removeLiquidityProvider_effect {coins : Coins} {lp : LiquidityProvider} :
    Ensures (removeLiquidityProvider env coins lp) w (fun _ w' => ∃ addr b,
      env.accAddressFromBech32 lp.liquidityProviderAddress = some addr ∧
      Moves (env.bank.getBalance w.bank) (env.bank.getBalance b) (moduleAddress env) addr
        (amountOf coins) ∧
      addr ≠ moduleAddress env ∧
      w' = { w with bank := b, providers := w.providers.delete lp.key }) := by
  unfold removeLiquidityProvider destroyLiquidityProvider
  refine ensures_ofExcept_then fun addr decoded => ?_
  refine ensures_bind (Action.ensures_wrapped (fun u v run =>
    And.intro (sendCoinsFromModuleToAccount_moves env run)
      (sendCoinsFromModuleToAccount_other env run))) ?_
  rintro _ _ ⟨⟨b, moved, rfl⟩, other⟩
  exact ensures_modify ⟨addr, b, (decodeAddress_succeeds env).mp decoded, moved, other, rfl⟩

theorem refundProvider_effect {symbol : String} {pool : Pool} {left : ClpMsgServer.Remaining}
    {lp : LiquidityProvider} :
    Ensures (ClpMsgServer.refundProvider env symbol pool left lp) w (fun rest w' =>
      ∃ addr b native external unitsLeft swapAmount,
        calculateAllAssetsForLP pool lp = .ok (native, external, unitsLeft, swapAmount) ∧
        env.accAddressFromBech32 lp.liquidityProviderAddress = some addr ∧
        Moves (env.bank.getBalance w.bank) (env.bank.getBalance b) (moduleAddress env) addr
          (pairAmount symbol external native) ∧
        addr ≠ moduleAddress env ∧
        native ≤ left.nativeAssetBalance ∧ external ≤ left.externalAssetBalance ∧
        rest.nativeAssetBalance = left.nativeAssetBalance - native ∧
        rest.externalAssetBalance = left.externalAssetBalance - external ∧
        w' = { w with bank := b, providers := w.providers.delete lp.key }) := by
  unfold ClpMsgServer.refundProvider
  refine ensures_ofExcept_then ?_
  rintro ⟨native, external, unitsLeft, swapAmount⟩ share
  refine ensures_ofExcept_then fun _ _ => ensures_ofExcept_then fun nativeLeft nativeTaken =>
    ensures_ofExcept_then fun externalLeft externalTaken => ensures_ofExcept_then
    fun nativeInt nativeParsed => ensures_ofExcept_then fun externalInt externalParsed =>
    ensures_ofExcept_then fun nativeCoin madeNative => ensures_ofExcept_then
    fun externalCoin madeExternal => ensures_ofExcept_then fun coins collected => ?_
  obtain ⟨nativeBound, rfl⟩ := (Uint.sub_succeeds _ _ _).mp nativeTaken
  obtain ⟨externalBound, rfl⟩ := (Uint.sub_succeeds _ _ _).mp externalTaken
  obtain ⟨_, rfl⟩ := parseToInt_succeeds.mp nativeParsed
  obtain ⟨_, rfl⟩ := parseToInt_succeeds.mp externalParsed
  obtain ⟨_, rfl⟩ := (newCoin_succeeds _ _ _).mp madeNative
  obtain ⟨_, rfl⟩ := (newCoin_succeeds _ _ _).mp madeExternal
  have amounts : amountOf coins = pairAmount symbol externalInt nativeInt := by
    funext d
    rw [newCoins_amounts _ _ collected]
    simp only [amountOf_cons, amountOf_nil, Nat.add_zero]
    rfl
  refine ensures_bind (Action.ensures_wrapped (removeLiquidityProvider_effect env)) ?_
  rintro _ _ ⟨addr, b, decoded, moved, other, rfl⟩
  exact ensures_pure ⟨addr, b, nativeInt, externalInt, unitsLeft, swapAmount, share, decoded,
    amounts ▸ moved, other, nativeBound, externalBound, rfl, rfl, rfl⟩

theorem refundProviders_effect (symbol : String) (pool : Pool) (left : ClpMsgServer.Remaining)
    (lps : List LiquidityProvider) (w : World β) :
    Ensures (ClpMsgServer.refundProviders env symbol pool left lps) w (fun _ w' =>
      ∃ b providers native external,
        native ≤ left.nativeAssetBalance ∧ external ≤ left.externalAssetBalance ∧
        (∀ d, env.bank.getBalance b (moduleAddress env) d + pairAmount symbol external native d =
          env.bank.getBalance w.bank (moduleAddress env) d) ∧
        w' = { w with bank := b, providers := providers }) := by
  induction lps generalizing left w with
  | nil =>
    refine ensures_pure ⟨w.bank, w.providers, 0, 0, Nat.zero_le _, Nat.zero_le _, ?_, rfl⟩
    intro d
    simp [pairAmount]
  | cons lp lps ih =>
    refine ensures_bind (refundProvider_effect env) ?_
    rintro rest _ ⟨addr, b, y, x, _, _, _, _, moved, other, _, _, nativeLeft, externalLeft, rfl⟩
    refine ensures_mono (ih rest _) ?_
    rintro _ _ ⟨b', providers', y', x', nativeBound, externalBound, paid, rfl⟩
    refine ⟨b', providers', y' + y, x' + x, by omega, by omega, ?_, rfl⟩
    intro d
    have first := moved (moduleAddress env) d
    have later := paid d
    simp only [↓reduceIte, other.symm, Nat.add_zero] at first
    rw [pairAmount_add]
    dsimp only at later
    omega

/-- A pool that is decommissioned is gone, and the module paid no more than it held. -/
def DecommissionEffect (env : Env β) (msg : MsgDecommissionPool) (w w' : World β) : Prop :=
  ∃ pool b providers native external,
    w.pools.get ⟨msg.symbol⟩ = some pool ∧
    native ≤ pool.nativeAssetBalance ∧ external ≤ pool.externalAssetBalance ∧
    (∀ d, env.bank.getBalance b (moduleAddress env) d + pairAmount msg.symbol external native d =
      env.bank.getBalance w.bank (moduleAddress env) d) ∧
    w' = { w with bank := b, pools := w.pools.delete ⟨msg.symbol⟩, providers := providers }

theorem decommissionPool_effect (msg : MsgDecommissionPool) (w : World β) :
    Ensures (ClpMsgServer.decommissionPool env msg) w
      (fun _ w' => DecommissionEffect env msg w w') := by
  unfold ClpMsgServer.decommissionPool
  refine ensures_bind (fun pool v run => getPool_succeeds.mp run) ?_
  rintro pool _ ⟨found, rfl⟩
  refine ensures_ofExcept_then fun _ _ => ensures_read_then (ensures_ofExcept_then fun _ _ =>
    ensures_require_then fun _ => ensures_require_then fun _ => ?_)
  refine ensures_bind (refundProviders_effect env _ _ _ _ w) ?_
  rintro _ _ ⟨b, providers, native, external, nativeBound, externalBound, paid, rfl⟩
  refine Action.ensures_wrapped ?_
  intro u w' run
  obtain rfl := destroyPool_succeeds run
  have symbol : pool.externalAsset = msg.symbol := congrArg PoolKey.symbol
    (w.pools.get_key _ _ found)
  rw [symbol]
  exact ⟨pool, b, providers, native, external, found, nativeBound, externalBound, paid, rfl⟩
end FuryNode
