import FuryNode.Clp.ProviderDistribution
import FuryNode.Clp.Delivery
import FuryNode.Clp.TradeScope

/-!
Sales of fury under liquidity protection. The guard values the whole amount and the update
values the amount less the fee, at one price. Rounding keeps the order of the two, so what the
guard lets pass the update can subtract.
-/
namespace FuryNode
open StatefulProgram StatefulProgram.Prog KeyedTable ClpKeeper
variable {β : Type}

theorem rateOf_mono {rate : Dec} (n m : ℕ) (nonneg : 0 ≤ rate.raw) (order : n ≤ m) :
    0 ≤ rateOf rate n ∧ rateOf rate n ≤ rateOf rate m := by
  obtain ⟨r, same⟩ := Int.eq_ofNat_of_zero_le nonneg
  have products : r * n ≤ r * m := Nat.mul_le_mul_left r order
  have rounded := HalfEven.halfEven_mono (r * n) (r * m) Dec.precision products
  rw [rateOf, rateOf, same, ← Nat.cast_mul, ← Nat.cast_mul, Dec.chop_natCast, Dec.chop_natCast]
  omega

theorem mul_whole_succeeds (rate d : Dec) (n : ℕ) :
    rate.mul (Dec.ofInt n) = .ok d ↔ Dec.fits (rate.raw * n) ∧ d = ⟨rate.raw * n⟩ := by
  have whole : rate.raw * (Dec.ofInt n).raw = rate.raw * n * Dec.precision := by
    simp only [Dec.ofInt]
    ring
  rw [Dec.mul, whole, Dec.chop_whole, Dec.checked_succeeds]

theorem calcFuryValue_succeeds {n v : ℕ} {price : Dec} :
    calcFuryValue n price = .ok v ↔
      Dec.fits (price.raw * n) ∧ rateOf price n = v ∧ v < 2 ^ 256 := by
  simp only [calcFuryValue, decRoundToUint, Dec.roundInt, except_bind_succeeds, mul_whole_succeeds,
    Dec.toInt_succeeds, Uint.ofBigInt_succeeds]
  constructor
  · rintro ⟨_, ⟨fits, rfl⟩, _, ⟨_, rfl⟩, value, small⟩
    exact ⟨fits, value, small⟩
  · rintro ⟨fits, value, small⟩
    have bound : (Dec.chopPrecisionAndRound (price.raw * n)).natAbs < 2 ^ 256 := by
      rw [rateOf] at value
      omega
    exact ⟨_, ⟨fits, rfl⟩, _, ⟨bound, rfl⟩, value, small⟩

theorem calcFuryValue_part {n m v : ℕ} {price : Dec} (nonneg : 0 ≤ price.raw) (order : n ≤ m)
    (valued : calcFuryValue m price = .ok v) : ∃ u ≤ v, calcFuryValue n price = .ok u := by
  obtain ⟨fits, value, small⟩ := calcFuryValue_succeeds.mp valued
  obtain ⟨positive, rounded⟩ := rateOf_mono n m nonneg order
  obtain ⟨u, part⟩ := Int.eq_ofNat_of_zero_le positive
  have less : u ≤ v := by omega
  have products : price.raw * n ≤ price.raw * m :=
    mul_le_mul_of_nonneg_left (by exact_mod_cast order) nonneg
  have low : 0 ≤ price.raw * (n : ℤ) := mul_nonneg nonneg (Int.natCast_nonneg n)
  have smaller : Dec.fits (price.raw * n) := by
    unfold Dec.fits at fits ⊢
    omega
  exact ⟨u, less, calcFuryValue_succeeds.mpr ⟨smaller, part, by omega⟩⟩

theorem dec_mul_comm (a b : Dec) : a.mul b = b.mul a := by
  rw [Dec.mul, Dec.mul, mul_comm]

theorem calculateDiscountedSentAmount_le {sentAmount discounted : ℕ} {swapFeeRate : Dec}
    (nonneg : 0 ≤ swapFeeRate.raw)
    (computed : calculateDiscountedSentAmount sentAmount swapFeeRate = .ok discounted) :
    discounted ≤ sentAmount := by
  simp only [calculateDiscountedSentAmount, dec_mul_comm, Dec.roundInt, except_bind_succeeds,
    mul_whole_succeeds, Dec.toInt_succeeds, Uint.ofBigInt_succeeds] at computed
  obtain ⟨_, ⟨_, rfl⟩, _, ⟨_, rfl⟩, rest, _⟩ := computed
  have fee : 0 ≤ Dec.chopPrecisionAndRound (⟨swapFeeRate.raw * sentAmount⟩ : Dec).raw :=
    (rateOf_mono sentAmount sentAmount nonneg le_rfl).1
  omega

theorem calculateDiscountedSentAmount_overflow (sentAmount : ℕ) {swapFeeRate : Dec}
    (nonneg : 0 ≤ swapFeeRate.raw) (atMostOne : swapFeeRate.raw ≤ Dec.precision) :
    FailsOnly (calculateDiscountedSentAmount sentAmount swapFeeRate) Overflows := by
  unfold calculateDiscountedSentAmount
  refine failsOnly_bind Dec.checked_fails ?_
  intro fee multiplied
  rw [dec_mul_comm] at multiplied
  have raw := mul_whole multiplied
  refine failsOnly_bind Dec.toInt_fails ?_
  intro rounded whole
  obtain ⟨_, rfl⟩ := Dec.toInt_succeeds.mp whole
  have bound := rateOf_le sentAmount nonneg atMostOne
  rw [rateOf, ← raw] at bound
  refine failsOnly_mono (Uint.ofBigInt_fails _) ?_
  intro f fails
  rcases fails with overflow | ⟨_, negative⟩
  · exact overflow
  · omega

section Charging

/-- The price and the fee rate are in range and the guard lets the amount pass. -/
structure AllowedSale (w : World β) (amount : ℕ) (price fee : Dec) : Prop where
  price_nonneg : 0 ≤ price.raw
  fee_nonneg : 0 ≤ fee.raw
  fee_le_one : fee.raw ≤ Dec.precision
  passes : (isBlockedByLiquidityProtection amount price).run w = (.ok false, w)

def SaleCharged (amount : ℕ) (price fee : Dec) (w w' : World β) : Prop :=
  ∃ discounted value, calculateDiscountedSentAmount amount fee = .ok discounted ∧
    calcFuryValue discounted price = .ok value ∧
    w'.currentFuryLiquidityThreshold + value = w.currentFuryLiquidityThreshold

/-- The discount does not fit into a decimal. -/
def DiscountOverflows (amount : ℕ) (fee : Dec) (f : Failure) : Prop :=
  Overflows f ∧ calculateDiscountedSentAmount amount fee = .error f

variable (amount : ℕ) (price fee : Dec) (w v : World β)

theorem isBlocked_passes
    (passes : (isBlockedByLiquidityProtection amount price).run w = (.ok false, v)) :
    ∃ value, calcFuryValue amount price = .ok value ∧
      value ≤ w.currentFuryLiquidityThreshold := by
  unfold isBlockedByLiquidityProtection at passes
  rw [read_then, ofExcept_then] at passes
  obtain ⟨value, valued, result⟩ := passes
  have below : ¬w.currentFuryLiquidityThreshold < value := by
    intro above
    simp [pure, above] at result
  exact ⟨value, valued, by omega⟩

theorem allowed_value (allowed : AllowedSale w amount price fee) {discounted : ℕ}
    (computed : calculateDiscountedSentAmount amount fee = .ok discounted) :
    ∃ value, calcFuryValue discounted price = .ok value ∧
      value ≤ w.currentFuryLiquidityThreshold := by
  obtain ⟨whole, valued, bound⟩ := isBlocked_passes amount price w w allowed.passes
  have less := calculateDiscountedSentAmount_le allowed.fee_nonneg computed
  obtain ⟨value, part, found⟩ :=
    calcFuryValue_part allowed.price_nonneg less valued
  exact ⟨value, found, by omega⟩

theorem mustUpdate_sells {discounted value : ℕ} (active : v.clp.liquidityProtectionIsActive = true)
    (valued : calcFuryValue discounted price = .ok value)
    (bound : value ≤ v.currentFuryLiquidityThreshold) :
    (mustUpdateLiquidityProtectionThreshold true discounted price).run v =
      (.ok (), { v with currentFuryLiquidityThreshold := v.currentFuryLiquidityThreshold - value }) := by
  have updated : updatedThreshold true v.clp.maxFuryLiquidityThreshold
      v.currentFuryLiquidityThreshold value = .ok (v.currentFuryLiquidityThreshold - value) := by
    unfold updatedThreshold
    rw [if_pos rfl, if_neg (Nat.not_lt.mpr bound)]
    exact (Uint.sub_succeeds _ _ _).mpr ⟨bound, rfl⟩
  unfold mustUpdateLiquidityProtectionThreshold
  rw [read_then]
  simp only [when, active, if_true]
  rw [ofExcept_then]
  refine ⟨value, valued, ?_⟩
  rw [ofExcept_then]
  exact ⟨_, updated, rfl⟩

theorem sale_charged (allowed : AllowedSale w amount price fee)
    (active : v.clp.liquidityProtectionIsActive = true)
    (same : v.currentFuryLiquidityThreshold = w.currentFuryLiquidityThreshold) :
    Meets (do
        let discounted ← ofExcept (calculateDiscountedSentAmount amount fee)
        mustUpdateLiquidityProtectionThreshold true discounted price) v
      (fun _ v' => SaleCharged amount price fee w v') (fun f _ => DiscountOverflows amount fee f) := by
  refine meets_ofExcept_then ?_ ?_
  · intro discounted computed
    obtain ⟨value, valued, bound⟩ := allowed_value amount price fee w allowed computed
    have run := mustUpdate_sells price v active valued (by omega)
    refine meets_of_run run ⟨discounted, value, computed, valued, ?_⟩
    dsimp only
    omega
  · intro f failed
    exact ⟨calculateDiscountedSentAmount_overflow amount allowed.fee_nonneg
      allowed.fee_le_one f failed, failed⟩

end Charging

section Swaps
open ClpMsgServer

structure Trade where
  sAsset : RegistryEntry
  rAsset : RegistryEntry
  emitAmount : ℕ
  swapFeeRate : Dec
  price : Dec

/-- `Swap` up to the update of the threshold. -/
def swapTrade (env : Env β) (msg : MsgSwap) : Action β Trade := do
  let (sAsset, rAsset) ← lookupSwap msg
  let w ← read
  let pmtpCurrentRunningRate := w.clp.pmtpCurrentRunningRate
  let swapFeeRate := getSwapFeeRate w.clp msg.sentAsset false
  let price ← guardSwapPrice sAsset msg.sentAmount
  let inPool ← (if msg.sentAsset = nativeSymbol then pure Pool.zero
    else getPool msg.sentAsset : Action β Pool)
  takeSent env msg
  let (sentAmount, liquidityFeeNative, firstImpact) ← swapToNative env msg inPool swapFeeRate
  let outPool ← getPool (if msg.receivedAsset = nativeSymbol then msg.sentAsset
    else msg.receivedAsset)
  let (emitAmount, fee, impact, finalPool) ← ofExcept
    (swapOne sentAmount msg.receivedAsset outPool pmtpCurrentRunningRate swapFeeRate)
  require (msg.minReceivingAmount ≤ emitAmount) (.err .errReceivedAmountBelowExpected)
  Action.wrapped .errUnableToSwap (finalizeSwap env emitAmount finalPool msg)
  let _ ← ofExcept (reportedSwapCost liquidityFeeNative fee firstImpact impact msg.receivedAsset
    outPool pmtpCurrentRunningRate swapFeeRate)
  pure ⟨sAsset, rAsset, emitAmount, swapFeeRate, price⟩

theorem swap_protects (env : Env β) (msg : MsgSwap) :
    swap env msg = swapTrade env msg >>= fun t =>
      protectSwap t.sAsset t.rAsset msg.sentAmount t.emitAmount t.swapFeeRate t.price := by
  unfold swap swapTrade
  simp only [sequence_assoc, pure_then]

def World.protection (w : World β) : ClpParams × ℕ := (w.clp, w.currentFuryLiquidityThreshold)

theorem protection_blind : BlindToTrades (World.protection (β := β)) where
  bank _ _ := rfl
  pools _ _ := rfl
  positions _ _ _ _ := rfl
  shortfall _ _ := rfl
  providers _ _ := rfl
  requests _ _ := rfl
  queues _ _ := rfl

theorem swapTrade_scope (env : Env β) (msg : MsgSwap) :
    Preserves World.protection (swapTrade env msg) := by
  refine preserves_bind (lookupSwap_scope _) ?_
  rintro ⟨sAsset, rAsset⟩
  refine preserves_read_then fun _ => preserves_bind guardSwapPrice_scope fun _ =>
    preserves_bind (preserves_ite (preserves_pure _) getPool_scope) fun _ =>
    preserves_bind (takeSent_scope protection_blind env _) fun _ =>
    preserves_bind (swapToNative_scope protection_blind env) ?_
  rintro ⟨sentAmount, liquidityFeeNative, firstImpact⟩
  refine preserves_bind getPool_scope fun _ => preserves_ofExcept_then ?_
  rintro ⟨emitAmount, fee, impact, finalPool⟩
  exact preserves_require_then fun _ =>
    preserves_bind (wrapped_scope (finalizeSwap_scope protection_blind env)) fun _ =>
    preserves_ofExcept_then fun _ => preserves_pure _

theorem lookupSwap_entries (msg : MsgSwap) (w : World β) :
    Ensures (lookupSwap msg) w (fun entries w' =>
      entries.1.denom = msg.sentAsset ∧ entries.2.denom = msg.receivedAsset ∧ w = w') := by
  unfold lookupSwap requirePermission forbidPermission
  exact ensures_read_then (ensures_ofExcept_then fun _ sent => ensures_ofExcept_then fun _ received =>
    ensures_require_then fun _ => ensures_require_then fun _ => ensures_require_then fun _ =>
    ensures_require_then fun _ => ensures_pure ⟨getEntry_denom sent, getEntry_denom received, rfl⟩)

theorem swapTrade_terms (env : Env β) (msg : MsgSwap) (w : World β) :
    Ensures (swapTrade env msg) w (fun t _ =>
      t.sAsset.denom = msg.sentAsset ∧ t.rAsset.denom = msg.receivedAsset ∧
      t.swapFeeRate = getSwapFeeRate w.clp msg.sentAsset false ∧
      (guardSwapPrice t.sAsset msg.sentAmount).run w = (.ok t.price, w)) := by
  unfold swapTrade
  refine ensures_bind (lookupSwap_entries msg w) ?_
  rintro ⟨sAsset, rAsset⟩ _ ⟨sent, received, rfl⟩
  refine ensures_read_then (ensures_bind (fun _ _ run => run) ?_)
  intro price r guarded
  obtain rfl := guardSwapPrice_unchanged _ _ _ guarded
  refine ensures_bind (fun _ _ run => run) fun inPool _ _ => ?_
  refine ensures_bind (fun _ _ run => run) fun _ _ _ => ?_
  refine ensures_bind (fun _ _ run => run) ?_
  rintro ⟨sentAmount, liquidityFeeNative, firstImpact⟩ _ _
  refine ensures_bind (fun _ _ run => run) fun outPool _ _ => ensures_ofExcept_then ?_
  rintro ⟨emitAmount, fee, impact, finalPool⟩ _
  refine ensures_require_then fun _ => ensures_bind (fun _ _ run => run) fun _ _ _ => ?_
  exact ensures_ofExcept_then fun _ _ => ensures_pure ⟨sent, received, rfl, guarded⟩

theorem guardSwapPrice_passes {sAsset : RegistryEntry} {sentAmount : ℕ} {price : Dec} {w : World β}
    (active : w.clp.liquidityProtectionIsActive = true) (native : sAsset.denom = nativeSymbol)
    (guarded : (guardSwapPrice sAsset sentAmount).run w = (.ok price, w)) :
    getNativePrice.run w = (.ok price, w) ∧
      (isBlockedByLiquidityProtection sentAmount price).run w = (.ok false, w) := by
  unfold guardSwapPrice at guarded
  rw [read_then, if_pos active, bind_succeeds] at guarded
  obtain ⟨found, r, priced, rest⟩ := guarded
  obtain rfl := getNativePrice_unchanged w _ _ priced
  simp only [when, native, if_true] at rest
  rw [bind_succeeds] at rest
  obtain ⟨_, v, checked, returned⟩ := rest
  rw [bind_succeeds] at checked
  obtain ⟨blocked, u, decided, passed⟩ := checked
  obtain rfl := isBlocked_unchanged w _ _ decided
  obtain ⟨free, rfl⟩ := require_succeeds.mp passed
  cases returned
  exact ⟨priced, free ▸ decided⟩

theorem protectSwap_charges {t : Trade} {amount : ℕ} {w v : World β}
    (allowed : AllowedSale w amount t.price t.swapFeeRate)
    (active : w.clp.liquidityProtectionIsActive = true) (same : v.protection = w.protection)
    (sells : t.sAsset.denom = nativeSymbol) (buys : t.rAsset.denom ≠ nativeSymbol) :
    Meets (protectSwap t.sAsset t.rAsset amount t.emitAmount t.swapFeeRate t.price) v
      (fun _ v' => SaleCharged amount t.price t.swapFeeRate w v')
      (fun f _ => DiscountOverflows amount t.swapFeeRate f) := by
  obtain ⟨params, threshold⟩ := Prod.mk.inj same
  have activeThen : v.clp.liquidityProtectionIsActive = true := by
    rw [params]
    exact active
  unfold protectSwap
  refine meets_read_then (meets_when ?_ (fun off => absurd activeThen off))
  intro _
  refine meets_bind (P := fun _ v' => SaleCharged amount t.price t.swapFeeRate w v')
    (meets_when ?_ (fun other => absurd sells other)) ?_
  · intro _
    exact sale_charged amount t.price t.swapFeeRate w v allowed activeThen threshold
  · intro _ v' charged
    exact meets_when (fun native => absurd native buys) (fun _ => charged)

end Swaps

section Additions
open ClpMsgServer

def SwapForbidden (f : Failure) : Prop :=
  f = .err .errNotAllowedToSellAsset ∨ f = .err .errNotAllowedToBuyAsset

variable (nAsset eAsset : RegistryEntry) (amount nativeDepth externalDepth : ℕ)
  (price sellFee buyFee : Dec) (w : World β)

theorem guardImplicitSwap_charges (allowed : AllowedSale w amount price sellFee)
    (active : w.clp.liquidityProtectionIsActive = true)
    (priced : getNativePrice.run w = (.ok price, w)) :
    Meets (guardImplicitSwap nAsset eAsset .sellNative amount nativeDepth externalDepth sellFee buyFee) w
      (fun _ w' => SaleCharged amount price sellFee w w')
      (fun f _ => SwapForbidden f ∨ DiscountOverflows amount sellFee f) := by
  unfold guardImplicitSwap forbidPermission
  refine meets_require_then (fun _ => meets_require_then (fun _ => ?_) ?_) ?_
  · refine meets_read_then (meets_when ?_ (fun off => absurd active off))
    intro _
    refine meets_bind (P := fun found w' => found = price ∧ w = w') ?_ ?_
    · exact meets_of_run priced ⟨rfl, rfl⟩
    · rintro _ _ ⟨rfl, rfl⟩
      refine meets_bind (P := fun blocked w' => blocked = false ∧ w = w') ?_ ?_
      · exact meets_of_run allowed.passes ⟨rfl, rfl⟩
      · rintro _ _ ⟨rfl, rfl⟩
        refine meets_require_then (fun _ => ?_) (fun blocked => absurd rfl blocked)
        exact meets_mono _ (sale_charged amount _ sellFee w w allowed active rfl) (fun _ _ charged => charged)
          (fun _ _ overflows => Or.inr overflows)
  · intro _
    exact Or.inl (Or.inr rfl)
  · intro _
    exact Or.inl (Or.inl rfl)

theorem guardImplicitSwap_passes (active : w.clp.liquidityProtectionIsActive = true) :
    Ensures (guardImplicitSwap nAsset eAsset .sellNative amount nativeDepth externalDepth sellFee buyFee) w
      (fun _ _ => ∃ found, getNativePrice.run w = (.ok found, w) ∧
        (isBlockedByLiquidityProtection amount found).run w = (.ok false, w)) := by
  unfold guardImplicitSwap forbidPermission
  refine ensures_require_then fun _ => ensures_require_then fun _ => ensures_read_then
    (ensures_when ?_ (fun off => absurd active off))
  intro _
  refine ensures_bind (fun _ _ run => run) ?_
  intro found r priced
  obtain rfl := getNativePrice_unchanged w _ _ priced
  refine ensures_bind (fun _ _ run => run) ?_
  intro blocked r decided
  obtain rfl := isBlocked_unchanged w _ _ decided
  refine ensures_require_then fun free => ?_
  intro _ _ _
  exact ⟨found, priced, free ▸ decided⟩

end Additions

section Messages
variable (env : Env β) (w : World β) (amount : ℕ) (price fee : Dec)

/-- A message that sells fury takes its value off the threshold, or changes nothing. -/
def SaleSettled (msg : ClpMsg) : Prop :=
  (∀ u w', (msg.action env).run w = (.ok u, w') → SaleCharged amount price fee w w') ∧
  ∀ f w', (msg.action env).run w = (.error f, w') →
    (msg.deliver env w).currentFuryLiquidityThreshold = w.currentFuryLiquidityThreshold

structure ProtectedSale : Prop where
  active : w.clp.liquidityProtectionIsActive = true
  priced : getNativePrice.run w = (.ok price, w)
  price_nonneg : 0 ≤ price.raw
  fee_is : getSwapFeeRate w.clp nativeSymbol false = fee
  fee_nonneg : 0 ≤ fee.raw
  fee_le_one : fee.raw ≤ Dec.precision

theorem saleSettled_of_charged {msg : ClpMsg}
    (charged : ∀ u w', (msg.action env).run w = (.ok u, w') → SaleCharged amount price fee w w') :
    SaleSettled env w amount price fee msg := by
  refine ⟨charged, ?_⟩
  intro f w' failed
  rw [ClpMsg.deliver, transact_error failed]

theorem swapTrade_allowed (sale : ProtectedSale w price fee) {msg : MsgSwap}
    (native : msg.sentAsset = nativeSymbol) {t : Trade} {v : World β}
    (traded : (swapTrade env msg).run w = (.ok t, v)) :
    t.price = price ∧ t.swapFeeRate = fee ∧ AllowedSale w msg.sentAmount price fee := by
  obtain ⟨sent, _, rate, guarded⟩ := swapTrade_terms env msg w t v traded
  obtain ⟨found, passes⟩ := guardSwapPrice_passes sale.active (sent.trans native) guarded
  have same : t.price = price := by simpa [sale.priced] using found.symm
  rw [native, sale.fee_is] at rate
  exact ⟨same, rate, sale.price_nonneg, sale.fee_nonneg, sale.fee_le_one, same ▸ passes⟩

theorem tradeUpdate_charges (sale : ProtectedSale w price fee) {msg : MsgSwap}
    (native : msg.sentAsset = nativeSymbol) (different : msg.sentAsset ≠ msg.receivedAsset) {t : Trade}
    {v : World β} (traded : (swapTrade env msg).run w = (.ok t, v)) :
    Meets (ClpMsgServer.protectSwap t.sAsset t.rAsset msg.sentAmount t.emitAmount t.swapFeeRate t.price) v
      (fun _ v' => SaleCharged msg.sentAmount price fee w v')
      (fun f _ => DiscountOverflows msg.sentAmount fee f) := by
  obtain ⟨rfl, rfl, allowed⟩ := swapTrade_allowed env w price fee sale native traded
  obtain ⟨sent, received, _, _⟩ := swapTrade_terms env msg w t v traded
  have same : v.protection = w.protection := by
    have kept := swapTrade_scope env msg w
    rw [traded] at kept
    exact kept
  refine protectSwap_charges allowed sale.active same (sent.trans native) ?_
  rw [received, ← native]
  exact different.symm

theorem swap_settles (sale : ProtectedSale w price fee) {msg : MsgSwap}
    (native : msg.sentAsset = nativeSymbol) :
    SaleSettled env w msg.sentAmount price fee (.swap msg) := by
  refine saleSettled_of_charged env w msg.sentAmount price fee ?_
  refine runMsg_effect env fun u validated _ => ?_
  have different := swap_validated env validated
  rw [swap_protects]
  refine ensures_bind (fun _ _ run => run) ?_
  intro t v traded
  exact (tradeUpdate_charges env w price fee sale native different traded).ok

def additionUnits (params : ClpParams) (pool : Pool) (msg : MsgAddLiquidity) :
    Fallible (ℕ × ℕ × SwapStatus × ℕ) :=
  calculatePoolUnits pool.poolUnits (pool.nativeAssetBalance + pool.nativeLiabilities)
    (pool.externalAssetBalance + pool.externalLiabilities) msg.nativeAssetAmount
    msg.externalAssetAmount (getSwapFeeRate params nativeSymbol false)
    (getSwapFeeRate params msg.externalAsset false) params.pmtpCurrentRunningRate

theorem addition_settles (sale : ProtectedSale w price fee) {msg : MsgAddLiquidity} {pool : Pool}
    {newPoolUnits lpUnits : ℕ} (found : w.pools.get ⟨msg.externalAsset⟩ = some pool)
    (computed : additionUnits w.clp pool msg = .ok (newPoolUnits, lpUnits, .sellNative, amount)) :
    SaleSettled env w amount price fee (.addLiquidity msg) := by
  refine saleSettled_of_charged env w amount price fee ?_
  refine runMsg_effect env fun u _ _ => ?_
  refine ensures_mono (addLiquidity_runs env) ?_
  rintro _ w' ⟨stored, units, minted, status, swapAmount, run⟩
  obtain rfl : stored = pool := Option.some.inj (run.pool_found.symm.trans found)
  have same := Except.ok.inj (run.computed.symm.trans computed)
  simp only [Prod.mk.injEq] at same
  obtain ⟨rfl, rfl, rfl, rfl⟩ := same
  obtain ⟨nAsset, eAsset, _, v, lp, x, _, guarded, added, served⟩ := run.ran
  rw [sale.fee_is] at guarded
  obtain ⟨at_price, priced, passes⟩ := guardImplicitSwap_passes _ _ _ _ _ _ _ w sale.active _ _ guarded
  obtain rfl : at_price = price := by simpa [sale.priced] using priced.symm
  have allowed : AllowedSale w swapAmount at_price fee :=
    ⟨sale.price_nonneg, sale.fee_nonneg, sale.fee_le_one, passes⟩
  obtain ⟨discounted, value, discount, valued, threshold⟩ :=
    (guardImplicitSwap_charges _ _ _ _ _ _ _ _ w allowed sale.active priced).ok _ _ guarded
  -- the rest of the handler does not touch the threshold
  have kept : x.protection = v.protection := by
    have scope := addLiquidity_scope protection_blind.toBlindToLiquidity env msg stored units minted v
    rw [added] at scope
    exact scope
  have keptToo : w'.protection = x.protection := by
    have scope := preserves_when (processRemovalQueue_scope protection_blind env msg.externalAsset units)
      (c := isPoolEnabled x.margin msg.externalAsset = true ∧ x.clp.enableRemovalQueue = true ∧
        0 < (getRemovalQueue x msg.externalAsset).count) x
    rw [served] at scope
    exact scope
  have unchanged := (Prod.mk.inj (keptToo.trans kept)).2
  exact ⟨discounted, value, discount, valued, by omega⟩

end Messages

/-- A sale that the guard lets pass is charged to the threshold: the discount does not underflow and
    the update does not panic, in a swap of fury and in an addition that sells fury. -/
theorem allowed_sales_charged (env : Env β) (w : World β) :
    (∀ amount price fee, AllowedSale w amount price fee →
      FailsOnly (calculateDiscountedSentAmount amount fee) Overflows ∧
      ∀ v : World β, v.clp.liquidityProtectionIsActive = true →
        v.currentFuryLiquidityThreshold = w.currentFuryLiquidityThreshold →
        Meets (do
            let discounted ← ofExcept (calculateDiscountedSentAmount amount fee)
            mustUpdateLiquidityProtectionThreshold true discounted price) v
          (fun _ v' => SaleCharged amount price fee w v')
          (fun f _ => DiscountOverflows amount fee f)) ∧
    ∀ price fee, ProtectedSale w price fee →
      (∀ msg : MsgSwap, msg.sentAsset = nativeSymbol →
        (msg.sentAsset ≠ msg.receivedAsset → ∀ t v, (swapTrade env msg).run w = (.ok t, v) →
          Meets (ClpMsgServer.protectSwap t.sAsset t.rAsset msg.sentAmount t.emitAmount t.swapFeeRate
              t.price) v
            (fun _ v' => SaleCharged msg.sentAmount price fee w v')
            (fun f _ => DiscountOverflows msg.sentAmount fee f)) ∧
        SaleSettled env w msg.sentAmount price fee (.swap msg)) ∧
      ∀ (msg : MsgAddLiquidity) (pool : Pool) (newPoolUnits lpUnits swapAmount : ℕ),
        w.pools.get ⟨msg.externalAsset⟩ = some pool →
        additionUnits w.clp pool msg = .ok (newPoolUnits, lpUnits, .sellNative, swapAmount) →
        (AllowedSale w swapAmount price fee → ∀ nAsset eAsset nativeDepth externalDepth buyFee,
          Meets (ClpMsgServer.guardImplicitSwap nAsset eAsset .sellNative swapAmount nativeDepth
              externalDepth fee buyFee) w
            (fun _ w' => SaleCharged swapAmount price fee w w')
            (fun f _ => SwapForbidden f ∨ DiscountOverflows swapAmount fee f)) ∧
        SaleSettled env w swapAmount price fee (.addLiquidity msg) := by
  constructor
  · intro amount price fee allowed
    refine ⟨calculateDiscountedSentAmount_overflow amount allowed.fee_nonneg allowed.fee_le_one, ?_⟩
    intro v active same
    exact sale_charged amount price fee w v allowed active same
  · intro price fee sale
    constructor
    · intro msg native
      refine ⟨?_, swap_settles env w price fee sale native⟩
      intro different t v traded
      exact tradeUpdate_charges env w price fee sale native different traded
    · intro msg pool newPoolUnits lpUnits swapAmount found computed
      refine ⟨?_, addition_settles env w swapAmount price fee sale found computed⟩
      intro allowed nAsset eAsset nativeDepth externalDepth buyFee
      exact guardImplicitSwap_charges nAsset eAsset swapAmount nativeDepth externalDepth price fee buyFee w
        allowed sale.active sale.priced

def protectedPool : World LedgerBank.Balances :=
  { LedgerBank.pooled with
    currentFuryLiquidityThreshold := 10 ^ 6
    clp := { LedgerBank.clpParams with
      liquidityProtectionIsActive := true
      maxFuryLiquidityThreshold := 10 ^ 6
      maxFuryLiquidityThresholdAsset := nativeSymbol } }

def furySale : MsgSwap := {
  signer := "alice"
  sentAsset := nativeSymbol
  receivedAsset := "ceth"
  sentAmount := 1000
  minReceivingAmount := 0 }

theorem protectedPool_sale : ProtectedSale protectedPool Dec.one ⟨3 * 10 ^ 15⟩ where
  active := rfl
  priced := by rfl
  price_nonneg := by decide
  fee_is := by decide +kernel
  fee_nonneg := by decide
  fee_le_one := by decide

theorem fury_sale_charged : ∃ u w',
    ((ClpMsg.swap furySale).action LedgerBank.env).run protectedPool = (.ok u, w') ∧
      SaleCharged 1000 Dec.one ⟨3 * 10 ^ 15⟩ protectedPool w' ∧
      w'.currentFuryLiquidityThreshold = 10 ^ 6 - 997 := by
  have returned : ∃ u, (((ClpMsg.swap furySale).action LedgerBank.env).run protectedPool).1 = .ok u ∧
      (((ClpMsg.swap furySale).action LedgerBank.env).run protectedPool).2.currentFuryLiquidityThreshold =
        10 ^ 6 - 997 := by
    decide +kernel
  obtain ⟨u, ok, threshold⟩ := returned
  have run := run_of_returned ok
  exact ⟨u, _, run, (((allowed_sales_charged LedgerBank.env protectedPool).2 _ _
    protectedPool_sale).1 furySale rfl).2.1 u _ run, threshold⟩

end FuryNode
