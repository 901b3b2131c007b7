import FuryNode.Clp.MsgServer

/-!
The scope of the messages of x/clp: coins, pools, providers and queued removals. A
predicate that sees none of them is left as it was by every handler, except that trades
of fury move the threshold of liquidity protection.
-/
namespace FuryNode
open StatefulProgram StatefulProgram.Prog KeyedTable ClpKeeper
variable {β α τ : Type} (env : Env β)

structure Blind (obs : World β → τ) : Prop where
  bank : ∀ w b, obs { w with bank := b } = obs w
  pools : ∀ w pools, obs { w with pools := pools } = obs w
  positions : ∀ w mtps count openCount,
    obs { w with mtps := mtps, mtpCount := count, openMtpCount := openCount } = obs w
  shortfall : ∀ w begins, obs { w with sqBeginBlock := begins } = obs w

structure BlindToLiquidity (obs : World β → τ) : Prop extends Blind obs where
  providers : ∀ w providers, obs { w with providers := providers } = obs w

/-- An observation that sees nothing of what trades and liquidity write, the threshold
    apart. -/
structure BlindToTrades (obs : World β → τ) : Prop extends BlindToLiquidity obs where
  requests : ∀ w requests, obs { w with requests := requests } = obs w
  queues : ∀ w queues, obs { w with queues := queues } = obs w

attribute [grind →] BlindToLiquidity.toBlind BlindToTrades.toBlindToLiquidity

variable {lp : LiquidityProvider}

section Executors
variable {obs : World β → τ}

@[grind ←] theorem result_scope {p : Action β α} (inner : Preserves obs p) :
    Preserves obs (Action.result p) := by
  refine preserves_bind (preserves_attempt inner) ?_
  intro outcome
  rcases outcome with (e | q) | a <;> simp [Action.panic]

@[grind ←] theorem wrapped_scope {p : Action β α} {outer : Err} (inner : Preserves obs p) :
    Preserves obs (Action.wrapped outer p) := by
  refine preserves_bind (result_scope inner) ?_
  intro outcome
  cases outcome <;> simp

@[grind ←] theorem getPool_scope {symbol : String} : Preserves obs (getPool symbol : Action β Pool) := by
  unfold getPool
  grind

@[grind ←] theorem setPool_scope (blind : Blind obs) (env : Env β) (pool : Pool) : Preserves obs (setPool env pool) :=
  preserves_ofExcept_then fun _ => preserves_require_then fun _ =>
    preserves_modify fun w => blind.pools w _

@[grind ←] theorem bankCall_scope (blind : Blind obs) (call : β → Except BankFailure β) : Preserves obs (bankCall call) := by
  refine preserves_read_then ?_
  intro w
  split
  · exact preserves_modify (fun w => blind.bank w _)
  · exact preserves_fail

@[grind ←] theorem getLiquidityProvider_scope {symbol address : String} :
    Preserves obs (getLiquidityProvider symbol address : Action β LiquidityProvider) := by
  unfold getLiquidityProvider
  grind

@[grind ←] theorem getNativePrice_scope : Preserves obs (getNativePrice : Action β Dec) := by
  unfold getNativePrice
  grind

@[grind ←] theorem isBlocked_scope (nativeAmount : ℕ) (nativePrice : Dec) :
    Preserves obs (isBlockedByLiquidityProtection nativeAmount nativePrice : Action β Bool) := by
  unfold isBlockedByLiquidityProtection
  grind

@[grind ←] theorem requireSomeBalance_scope (address : AccAddress) (coins : Coins) :
    Preserves obs (requireSomeBalance env address coins) := by
  unfold requireSomeBalance
  grind

section Liquidity
variable (blind : BlindToLiquidity obs) (env : Env β)
include blind

@[grind ←] theorem setLiquidityProvider_scope (lp : LiquidityProvider) :
    Preserves obs (setLiquidityProvider env lp) :=
  preserves_ofExcept_then fun _ =>
    preserves_when (preserves_modify fun w => blind.providers w _)

@[grind ←] theorem destroyLiquidityProvider_scope (symbol address : String) :
    Preserves obs (destroyLiquidityProvider symbol address : Action β Unit) :=
  preserves_modify fun w => blind.providers w _

@[grind ←] theorem createLiquidityProvider_scope (asset : String) (units : ℕ)
    (address : AccAddress) : Preserves obs (createLiquidityProvider env asset units address) := by
  unfold createLiquidityProvider
  grind

@[grind ←] theorem storedPool_scope (pool : Pool) :
    Preserves obs (Action.wrapped .errUnableToSetPool (setPool env pool)) :=
  wrapped_scope (setPool_scope blind.toBlind env pool)

@[grind ←] theorem createPool_scope (poolUnits : ℕ) (msg : MsgCreatePool) :
    Preserves obs (ClpKeeper.createPool env poolUnits msg) := by
  unfold ClpKeeper.createPool sendCoinsFromAccountToModule
  refine preserves_bind ?_ fun _ => preserves_bind ?_ fun _ => preserves_bind ?_ fun _ => ?_ <;> grind

@[grind ←] theorem addLiquidityUnits_scope (msg : MsgAddLiquidity) (address : AccAddress)
    (lpUnits : ℕ) : Preserves obs (addLiquidityUnits env msg address lpUnits) := by
  unfold addLiquidityUnits
  grind

@[grind ←] theorem addLiquidity_scope (msg : MsgAddLiquidity) (pool : Pool)
    (newPoolUnits lpUnits : ℕ) :
    Preserves obs (ClpKeeper.addLiquidity env msg pool newPoolUnits lpUnits) := by
  unfold ClpKeeper.addLiquidity sendCoinsFromAccountToModule
  refine preserves_bind ?_ fun _ => preserves_bind ?_ fun _ => preserves_bind ?_ fun _ => ?_ <;> grind

@[grind ←] theorem removeLiquidityProvider_scope {coins : Coins} :
    Preserves obs (removeLiquidityProvider env coins lp) := by
  unfold removeLiquidityProvider sendCoinsFromModuleToAccount
  grind

@[grind ←] theorem removeLiquidity_scope {pool : Pool} {externalAssetCoin nativeAssetCoin : Coin}
    {lpUnitsLeft poolOriginalEB poolOriginalNB : ℕ} :
    Preserves obs (ClpKeeper.removeLiquidity env pool externalAssetCoin nativeAssetCoin lp
      lpUnitsLeft poolOriginalEB poolOriginalNB) := by
  unfold ClpKeeper.removeLiquidity sendCoinsFromModuleToAccount
  refine preserves_bind ?_ fun _ => preserves_bind ?_ fun _ => preserves_bind ?_ fun _ => ?_ <;> grind

@[grind ←] theorem processRemoveLiquidityMsg_scope (msg : MsgRemoveLiquidity) :
    Preserves obs (processRemoveLiquidityMsg env msg) := by
  unfold processRemoveLiquidityMsg
  refine preserves_read_then fun _ => preserves_ofExcept_then fun _ =>
    preserves_bind getPool_scope fun _ => preserves_bind getLiquidityProvider_scope fun _ =>
    preserves_ofExcept_then ?_
  rintro ⟨nativeAssetDepth, externalAssetDepth⟩
  refine preserves_ofExcept_then ?_
  rintro ⟨native, external, lpUnitsLeft, swapAmount⟩
  refine preserves_ofExcept_then fun _ => preserves_ofExcept_then ?_
  rintro ⟨externalAssetCoin, nativeAssetCoin⟩
  refine preserves_ofExcept_then fun _ => preserves_ofExcept_then ?_
  rintro ⟨externalPaid, nativePaid, swapped⟩
  exact preserves_bind (wrapped_scope (removeLiquidity_scope blind env)) fun _ =>
    preserves_ofExcept

@[grind ←] theorem pruneUnlockRecords_scope : Preserves obs (pruneUnlockRecords env lp) := by
  unfold pruneUnlockRecords
  grind

@[grind ←] theorem drawUnits_scope {lpUnitsLeft : ℕ} :
    Preserves obs (ClpMsgServer.drawUnits env lp lpUnitsLeft) := by
  unfold ClpMsgServer.drawUnits useUnlockedLiquidity
  grind

end Liquidity

variable (blind : BlindToTrades obs) (env : Env β)
include blind

@[grind ←] theorem setProcessedRemovalRequest_scope (request : RemovalRequest) (pointsProcessed : ℤ)
    (furyRemoved : ℕ) :
    Preserves obs (setProcessedRemovalRequest request pointsProcessed furyRemoved : Action β Unit) := by
  have queued : ∀ queue, Preserves obs (setRemovalQueue queue : Action β Unit) :=
    fun _ => preserves_modify fun w => blind.queues w _
  have dequeued : ∀ request, Preserves obs (dequeueRemovalRequest request : Action β Unit) :=
    fun _ => preserves_bind (preserves_modify fun w => blind.requests w _) fun _ =>
      preserves_read_then fun _ => queued _
  exact preserves_bind (preserves_modify fun w => blind.requests w _) fun _ =>
    preserves_read_then fun _ => preserves_ofExcept_then fun _ =>
    preserves_bind (queued _) fun _ => preserves_when (dequeued _)

@[grind ←] theorem processRemovalQueue_scope (externalAsset : String) (unitsToDistribute : ℕ) :
    Preserves obs (processRemovalQueue env externalAsset unitsToDistribute) := by
  refine preserves_read_then fun _ => preserves_ofExcept_then fun _ =>
    preserves_forEach (fun _ => preserves_when (preserves_bind (result_scope getLiquidityProvider_scope) ?_))
  intro found
  cases found with
  | error e => exact preserves_pure ()
  | ok lp => refine preserves_bind ?_ fun _ => preserves_bind ?_ fun _ => preserves_bind ?_ fun _ => ?_ <;> grind

@[grind ←] theorem queueRemoval_scope (msg : MsgRemoveLiquidity) (furyValue : ℕ) :
    Preserves obs (queueRemoval msg furyValue : Action β Unit) :=
  preserves_read_then fun _ =>
    preserves_bind (preserves_modify fun w => blind.requests w _) fun _ =>
    preserves_ofExcept_then fun _ => preserves_modify fun w => blind.queues w _

@[grind ←] theorem guardPoolHealth_scope {eAsset : RegistryEntry} {pool : Pool} {native external : ℕ}
    {swapFeeRate : Dec} {request : ℕ → Fallible (MsgRemoveLiquidity × ℕ)} :
    Preserves obs
      (ClpMsgServer.guardPoolHealth eAsset pool native external swapFeeRate request : Action β Unit) := by
  unfold ClpMsgServer.guardPoolHealth
  refine preserves_bind ?_ fun _ => preserves_when (preserves_bind ?_ fun _ => preserves_bind ?_ fun _ =>
    preserves_bind ?_ fun _ => preserves_bind ?_ fun _ => ?_) <;> grind

end Executors

/-! The handlers. -/

section Handlers
variable {obs : World β → τ}

@[grind ←] theorem requirePermission_scope (entry : RegistryEntry) (permission : Permission) (e : Err) :
    Preserves obs (ClpMsgServer.requirePermission entry permission e : Action β Unit) :=
  preserves_require

@[grind ←] theorem forbidPermission_scope (entry : RegistryEntry) (permission : Permission) (e : Err) :
    Preserves obs (ClpMsgServer.forbidPermission entry permission e : Action β Unit) :=
  preserves_require

@[grind ←] theorem lookupRemoval_scope {externalAsset signer : String} :
    Preserves obs (ClpMsgServer.lookupRemoval externalAsset signer :
      Action β (RegistryEntry × Pool × LiquidityProvider)) := by
  unfold ClpMsgServer.lookupRemoval
  grind

@[grind ←] theorem requireUnqueued_scope {units : Fallible ℕ} :
    Preserves obs (ClpMsgServer.requireUnqueued lp units : Action β Unit) := by
  unfold ClpMsgServer.requireUnqueued
  grind

@[grind ←] theorem lookupSwap_scope (msg : MsgSwap) :
    Preserves obs (ClpMsgServer.lookupSwap msg : Action β (RegistryEntry × RegistryEntry)) := by
  unfold ClpMsgServer.lookupSwap
  grind

@[grind ←] theorem guardSwapPrice_scope {sAsset : RegistryEntry} {sentAmount : ℕ} :
    Preserves obs (ClpMsgServer.guardSwapPrice sAsset sentAmount : Action β Dec) := by
  unfold ClpMsgServer.guardSwapPrice
  grind

variable (blind : BlindToTrades obs) (env : Env β)
include blind

@[grind ←] theorem takeSent_scope (msg : MsgSwap) :
    Preserves obs (ClpMsgServer.takeSent env msg) := by
  unfold ClpMsgServer.takeSent initiateSwap sendCoinsFromAccountToModule
  refine preserves_bind ?_ fun _ => preserves_bind ?_ fun _ => preserves_bind ?_ fun _ => ?_ <;> grind

@[grind ←] theorem swapToNative_scope {msg : MsgSwap} {inPool : Pool} {swapFeeRate : Dec} :
    Preserves obs (ClpMsgServer.swapToNative env msg inPool swapFeeRate) := by
  unfold ClpMsgServer.swapToNative
  grind

@[grind ←] theorem finalizeSwap_scope {sentAmount : ℕ} {finalPool : Pool} {msg : MsgSwap} :
    Preserves obs (finalizeSwap env sentAmount finalPool msg) := by
  unfold finalizeSwap sendCoinsFromModuleToAccount
  grind

@[grind ←] theorem refundProviders_scope (symbol : String) (pool : Pool)
    (lps : List LiquidityProvider) (left : ClpMsgServer.Remaining) :
    Preserves obs (ClpMsgServer.refundProviders env symbol pool left lps) := by
  induction lps generalizing left with
  | nil => exact preserves_pure ()
  | cons lp rest ih =>
    refine preserves_bind ?_ ih
    refine preserves_ofExcept_then ?_
    rintro ⟨native, external, _, _⟩
    exact preserves_ofExcept_then fun _ => preserves_ofExcept_then fun _ =>
      preserves_ofExcept_then fun _ => preserves_ofExcept_then fun _ =>
      preserves_ofExcept_then fun _ => preserves_ofExcept_then fun _ =>
      preserves_ofExcept_then fun _ => preserves_ofExcept_then fun _ =>
      preserves_bind (wrapped_scope (removeLiquidityProvider_scope blind.toBlindToLiquidity env)) fun _ =>
      preserves_pure _

@[grind ←] theorem createPoolMsg_scope (msg : MsgCreatePool) :
    Preserves obs (ClpMsgServer.createPool env msg) := by
  unfold ClpMsgServer.createPool
  refine preserves_bind ?_ fun _ => preserves_bind ?_ fun _ => preserves_bind ?_ fun _ =>
    preserves_bind ?_ fun _ => preserves_bind ?_ fun _ => ?_ <;> grind

@[grind ←] theorem removeLiquidityUnitsMsg_scope (msg : MsgRemoveLiquidityUnits) :
    Preserves obs (ClpMsgServer.removeLiquidityUnits env msg) := by
  refine preserves_bind lookupRemoval_scope ?_
  rintro ⟨eAsset, pool, lp⟩
  refine preserves_bind requireUnqueued_scope fun _ => preserves_read_then fun _ =>
    preserves_bind (pruneUnlockRecords_scope blind.toBlindToLiquidity env) fun _ =>
    preserves_ofExcept_then ?_
  rintro ⟨nativeAssetDepth, externalAssetDepth⟩
  refine preserves_ofExcept_then ?_
  rintro ⟨native, external, lpUnitsLeft⟩
  refine preserves_bind (drawUnits_scope blind.toBlindToLiquidity env) fun _ =>
    preserves_bind (guardPoolHealth_scope blind) fun _ =>
    preserves_ofExcept_then ?_
  rintro ⟨externalAssetCoin, nativeAssetCoin⟩
  exact preserves_ofExcept_then fun _ =>
    wrapped_scope (removeLiquidity_scope blind.toBlindToLiquidity env)

@[grind ←] theorem removeLiquidityMsg_scope (msg : MsgRemoveLiquidity) :
    Preserves obs (ClpMsgServer.removeLiquidity env msg) := by
  refine preserves_bind lookupRemoval_scope ?_
  rintro ⟨eAsset, pool, lp⟩
  refine preserves_read_then fun _ =>
    preserves_bind (pruneUnlockRecords_scope blind.toBlindToLiquidity env) fun _ =>
    preserves_require_then fun _ => preserves_bind requireUnqueued_scope fun _ =>
    preserves_ofExcept_then ?_
  rintro ⟨nativeAssetDepth, externalAssetDepth⟩
  refine preserves_ofExcept_then ?_
  rintro ⟨native, external, lpUnitsLeft, swapAmount⟩
  refine preserves_bind (drawUnits_scope blind.toBlindToLiquidity env) fun _ =>
    preserves_bind (guardPoolHealth_scope blind) fun _ =>
    preserves_ofExcept_then ?_
  rintro ⟨externalAssetCoin, nativeAssetCoin⟩
  refine preserves_ofExcept_then fun _ => preserves_ofExcept_then ?_
  rintro ⟨externalPaid, nativePaid, swapped⟩
  exact wrapped_scope (removeLiquidity_scope blind.toBlindToLiquidity env)

@[grind ←] theorem decommissionPoolMsg_scope (msg : MsgDecommissionPool) :
    Preserves obs (ClpMsgServer.decommissionPool env msg) :=
  preserves_bind getPool_scope fun _ => preserves_ofExcept_then fun _ =>
    preserves_read_then fun _ => preserves_ofExcept_then fun _ =>
    preserves_require_then fun _ => preserves_require_then fun _ =>
    preserves_bind (refundProviders_scope blind env _ _ _ _) fun _ =>
    wrapped_scope (preserves_bind getPool_scope fun _ => preserves_modify fun w => blind.pools w _)

end Handlers

section Messages
variable {I : World β → Prop} (blind : BlindToTrades I)
  (update : ∀ sellNative nativeAmount nativePrice,
    Maintains I (mustUpdateLiquidityProtectionThreshold sellNative nativeAmount nativePrice : Action β Unit))
  (env : Env β)

section Threshold
include update

@[grind ←] theorem protectSwap_keeps (sAsset rAsset : RegistryEntry) (sentAmount emitAmount : ℕ)
    (swapFeeRate price : Dec) :
    Maintains I (ClpMsgServer.protectSwap sAsset rAsset sentAmount emitAmount swapFeeRate price :
      Action β Unit) := by
  unfold ClpMsgServer.protectSwap
  refine maintains_then preserves_read fun _ => maintains_when (maintains_bind ?_ fun _ => ?_) <;> grind

@[grind ←] theorem guardImplicitSwap_keeps (nAsset eAsset : RegistryEntry) (swapStatus : SwapStatus)
    (swapAmount nativeAssetDepth externalAssetDepth : ℕ) (sellFee buyFee : Dec) :
    Maintains I (ClpMsgServer.guardImplicitSwap nAsset eAsset swapStatus swapAmount nativeAssetDepth
      externalAssetDepth sellFee buyFee : Action β Unit) := by
  unfold ClpMsgServer.guardImplicitSwap
  cases swapStatus with
  | noSwap => exact maintains_of_preserves (preserves_pure ())
  | sellNative | buyNative => refine maintains_then ?_ fun _ => maintains_then ?_ fun _ => ?_ <;> grind

end Threshold

include blind update

theorem addLiquidityMsg_keeps (msg : MsgAddLiquidity) :
    Maintains I (ClpMsgServer.addLiquidity env msg) := by
  unfold ClpMsgServer.addLiquidity
  refine maintains_then ?_ fun _ => maintains_then ?_ fun _ => maintains_then ?_ fun _ =>
    maintains_then ?_ fun _ => maintains_then ?_ fun _ => maintains_then ?_ fun _ =>
    maintains_then ?_ fun _ => maintains_bind ?_ fun _ => maintains_of_preserves ?_ <;> grind

theorem swapMsg_keeps (msg : MsgSwap) : Maintains I (ClpMsgServer.swap env msg) := by
  unfold ClpMsgServer.swap
  refine maintains_then ?_ fun _ => maintains_then ?_ fun _ => maintains_then ?_ fun _ =>
    maintains_then ?_ fun _ => maintains_then ?_ fun _ => maintains_then ?_ fun _ =>
    maintains_then ?_ fun _ => ?_ <;> grind

theorem clpMsg_keeps (msg : ClpMsg) : Maintains I (msg.action env) := by
  have delivered : ∀ signer validateBasic (handler : Action β Unit), Maintains I handler →
      Maintains I (runMsg env signer validateBasic handler) := by
    intro signer validateBasic handler handled
    unfold runMsg
    grind
  cases msg with
  | addLiquidity m => exact delivered _ _ _ (addLiquidityMsg_keeps blind update env m)
  | swap m => exact delivered _ _ _ (swapMsg_keeps blind update env m)
  | createPool m | removeLiquidity m | removeLiquidityUnits m | decommissionPool m =>
    apply delivered
    apply maintains_of_preserves
    grind

end Messages

theorem clpMsg_scope {obs : World β → τ} (blind : BlindToTrades obs)
    (threshold : ∀ w n, obs { w with currentFuryLiquidityThreshold := n } = obs w) (env : Env β)
    (msg : ClpMsg) : Preserves obs (msg.action env) := by
  intro w
  have same : BlindToTrades (fun w' => obs w' = obs w) := {
    bank := fun v b => by rw [blind.bank]
    pools := fun v pools => by rw [blind.pools]
    positions := fun v mtps count openCount => by rw [blind.positions]
    shortfall := fun v begins => by rw [blind.shortfall]
    providers := fun v providers => by rw [blind.providers]
    requests := fun v requests => by rw [blind.requests]
    queues := fun v queues => by rw [blind.queues] }
  refine clpMsg_keeps same (fun sellNative nativeAmount nativePrice => maintains_of_preserves ?_) env msg w rfl
  refine preserves_read_then fun _ => preserves_when (preserves_ofExcept_then fun _ =>
    preserves_ofExcept_then fun _ => preserves_modify fun v => ?_)
  rw [threshold]

end FuryNode
