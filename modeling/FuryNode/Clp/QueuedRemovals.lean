import FuryNode.Clp.UnlockRecords
import FuryNode.Clp.SwapEffects

/-!
The removal that serves a queued request, `ProcessRemoveLiquidityMsg`: what it pays, what the
pool loses and what the provider keeps. It alone can still swap a part of the withdrawn coins.
-/
namespace FuryNode
open StatefulProgram StatefulProgram.Prog KeyedTable KeyedTable.Table ClpKeeper
variable {β : Type} (env : Env β)

def MsgRemoveLiquidity.bought (msg : MsgRemoveLiquidity) : String :=
  if 0 < msg.asymmetry then msg.externalAsset else nativeSymbol

def MsgRemoveLiquidity.swapFee (msg : MsgRemoveLiquidity) (params : ClpParams) : Dec :=
  getSwapFeeRate params (if 0 < msg.asymmetry then nativeSymbol else msg.externalAsset) false

variable {pool : Pool} {msg : MsgRemoveLiquidity}

theorem swapWithdrawn_succeeds {bought : String} {swapAmount : ℕ} {swapped : Pool}
    {coin paid coin' paid' : Coin} {rate fee : Dec}
    (computed : swapWithdrawn bought swapAmount pool coin paid rate fee = .ok (coin', paid', swapped)) :
    ∃ received liquidityFee impact,
      swapOne swapAmount bought pool rate fee = .ok (received, liquidityFee, impact, swapped) ∧
      coin' = { coin with amount := coin.amount + received } ∧
      ((received = 0 ∧ paid' = paid) ∨ (received ≠ 0 ∧ swapAmount ≤ paid.amount ∧
        paid' = { paid with amount := paid.amount - swapAmount })) := by
  unfold swapWithdrawn at computed
  obtain ⟨⟨received, liquidityFee, impact, swappedPool⟩, swap, rest⟩ :=
    except_bind_succeeds.mp computed
  have traded := mapFailure_succeeds.mp swap
  dsimp only at rest
  split at rest
  · rename_i none
    simp only [except_pure_succeeds, Prod.mk.injEq] at rest
    obtain ⟨rfl, rfl, rfl⟩ := rest
    refine ⟨received, liquidityFee, impact, traded, ?_, Or.inl ⟨none, rfl⟩⟩
    rw [none, Nat.add_zero]
  · rename_i some
    simp only [except_bind_succeeds, parseToInt_succeeds, coinAdd, coinSub, Uint.add_succeeds,
      except_pure_succeeds, Prod.mk.injEq] at rest
    obtain ⟨_, ⟨_, rfl⟩, _, ⟨_, rfl⟩, _, ⟨_, ⟨_, rfl⟩, rfl⟩, _, subtracted, rfl, rfl, rfl⟩ := rest
    split at subtracted
    · rename_i enough
      cases subtracted
      exact ⟨_, liquidityFee, impact, traded, rfl, Or.inr ⟨some, enough, rfl⟩⟩
    · cases subtracted

/-- What is paid and the pool that stays once an asymmetry is settled. A swap that buys nothing
    still puts the amount sold into the pool. -/
inductive AsymmetrySettled (params : ClpParams) (msg : MsgRemoveLiquidity) (swapAmount : ℕ)
    (pool : Pool) (external native : ℕ) : ℕ → ℕ → Pool → Prop
  | symmetric (even : msg.asymmetry = 0) :
      AsymmetrySettled params msg swapAmount pool external native external native pool
  | nothing (swapped : Pool) (fee impact : ℕ) (uneven : msg.asymmetry ≠ 0)
      (traded : swapOne swapAmount msg.bought pool params.pmtpCurrentRunningRate
        (msg.swapFee params) = .ok (0, fee, impact, swapped)) :
      AsymmetrySettled params msg swapAmount pool external native external native swapped
  | toExternal (swapped : Pool) (received fee impact : ℕ) (positive : 0 < msg.asymmetry)
      (traded : swapOne swapAmount msg.bought pool params.pmtpCurrentRunningRate
        (msg.swapFee params) = .ok (received, fee, impact, swapped))
      (some : received ≠ 0) (enough : swapAmount ≤ native) :
      AsymmetrySettled params msg swapAmount pool external native (external + received)
        (native - swapAmount) swapped
  | toNative (swapped : Pool) (received fee impact : ℕ) (negative : msg.asymmetry < 0)
      (traded : swapOne swapAmount msg.bought pool params.pmtpCurrentRunningRate
        (msg.swapFee params) = .ok (received, fee, impact, swapped))
      (some : received ≠ 0) (enough : swapAmount ≤ external) :
      AsymmetrySettled params msg swapAmount pool external native (external - swapAmount)
        (native + received) swapped

theorem adjustAsymmetry_settles {params : ClpParams} {swapAmount external native : ℕ}
    {swapped : Pool} {externalPaid nativePaid : Coin}
    (computed : adjustAsymmetry msg.externalAsset msg.asymmetry swapAmount pool
      ⟨msg.externalAsset, external⟩ ⟨nativeSymbol, native⟩ params.pmtpCurrentRunningRate
      (getSwapFeeRate params nativeSymbol false) (getSwapFeeRate params msg.externalAsset false) =
        .ok (externalPaid, nativePaid, swapped)) :
    externalPaid = ⟨msg.externalAsset, externalPaid.amount⟩ ∧
      nativePaid = ⟨nativeSymbol, nativePaid.amount⟩ ∧
      AsymmetrySettled params msg swapAmount pool external native externalPaid.amount
        nativePaid.amount swapped := by
  unfold adjustAsymmetry at computed
  obtain ⟨_, _, computed⟩ := except_bind_succeeds.mp computed
  split at computed
  · rename_i positive
    have bought : msg.bought = msg.externalAsset := if_pos positive
    have fee : msg.swapFee params = getSwapFeeRate params nativeSymbol false := by
      rw [MsgRemoveLiquidity.swapFee, if_pos positive]
    obtain ⟨⟨external', native', pool'⟩, swap, last⟩ := except_bind_succeeds.mp computed
    cases except_pure_succeeds.mp last
    obtain ⟨received, liquidityFee, impact, traded, rfl, ⟨rfl, rfl⟩ | ⟨some, enough, rfl⟩⟩ :=
      swapWithdrawn_succeeds swap
    · exact ⟨rfl, rfl, .nothing swapped liquidityFee impact positive.ne' (by rw [bought, fee, traded])⟩
    · exact ⟨rfl, rfl, .toExternal swapped received liquidityFee impact positive
        (by rw [bought, fee, traded]) some enough⟩
  · split at computed
    · rename_i flat negative
      have bought : msg.bought = nativeSymbol := if_neg flat
      have fee : msg.swapFee params = getSwapFeeRate params msg.externalAsset false := by
        rw [MsgRemoveLiquidity.swapFee, if_neg flat]
      obtain ⟨⟨native', external', pool'⟩, swap, last⟩ := except_bind_succeeds.mp computed
      cases except_pure_succeeds.mp last
      obtain ⟨received, liquidityFee, impact, traded, rfl, ⟨rfl, rfl⟩ | ⟨some, enough, rfl⟩⟩ :=
        swapWithdrawn_succeeds swap
      · exact ⟨rfl, rfl, .nothing swapped liquidityFee impact negative.ne
          (by rw [bought, fee, traded])⟩
      · exact ⟨rfl, rfl, .toNative swapped received liquidityFee impact negative
          (by rw [bought, fee, traded]) some enough⟩
    · cases except_pure_succeeds.mp computed
      exact ⟨rfl, rfl, .symmetric (by omega)⟩

/-- What a queued removal does: the withdrawal is computed from the stored pool and provider, an
    asymmetry is settled, and the executor writes the result. -/
structure QueuedRemoval (env : Env β) (msg : MsgRemoveLiquidity) (pool : Pool)
    (lp : LiquidityProvider) (native external lpUnitsLeft swapAmount externalPaid nativePaid : ℕ)
    (swapped : Pool) (w w' : World β) : Prop where
  pool_found : w.pools.get ⟨msg.externalAsset⟩ = some pool
  provider_found : w.providers.get ⟨msg.externalAsset, msg.signer⟩ = some lp
  computed : calculateWithdrawal pool.poolUnits (pool.nativeAssetBalance + pool.nativeLiabilities)
    (pool.externalAssetBalance + pool.externalLiabilities) lp.liquidityProviderUnits
    msg.wBasisPoints msg.asymmetry = .ok (native, external, lpUnitsLeft, swapAmount)
  units_bound : lp.liquidityProviderUnits ≤ pool.poolUnits
  native_bound : native ≤ pool.nativeAssetBalance
  external_bound : external ≤ pool.externalAssetBalance
  settled : AsymmetrySettled w.clp msg swapAmount { pool with
    poolUnits := pool.poolUnits - lp.liquidityProviderUnits + lpUnitsLeft
    nativeAssetBalance := pool.nativeAssetBalance - native
    externalAssetBalance := pool.externalAssetBalance - external } external native externalPaid
      nativePaid swapped
  written : ∃ addr b, env.accAddressFromBech32 msg.signer = some addr ∧
    PaidTo env w.bank b addr (pairAmount msg.externalAsset externalPaid nativePaid) ∧
    w' = { w with
      bank := b
      pools := w.pools.put swapped
      providers := settledProviders w.providers lp lpUnitsLeft }

theorem settled_pool {params : ClpParams} {swapAmount external native externalPaid nativePaid : ℕ}
    {swapped : Pool}
    (settled : AsymmetrySettled params msg swapAmount pool external native externalPaid nativePaid
      swapped) :
    swapped.externalAsset = pool.externalAsset ∧ swapped.poolUnits = pool.poolUnits := by
  have traded : ∀ received fee impact, swapOne swapAmount msg.bought pool
      params.pmtpCurrentRunningRate (msg.swapFee params) = .ok (received, fee, impact, swapped) →
      swapped.externalAsset = pool.externalAsset ∧ swapped.poolUnits = pool.poolUnits := by
    intro received fee impact computed
    rw [(swapOne_succeeds computed).2]
    exact ⟨congrArg PoolKey.symbol (swapped_key _ _ _ _), swapped_units⟩
  cases settled with
  | symmetric => exact ⟨rfl, rfl⟩
  | nothing _ fee impact _ computed => exact traded 0 fee impact computed
  | toExternal _ received fee impact _ computed => exact traded received fee impact computed
  | toNative _ received fee impact _ computed => exact traded received fee impact computed

/-- The value of a removal from the stored pool: what `ProcessRemoveLiquidityMsg` reports. -/
def removalValue (w : World β) (m : MsgRemoveLiquidity) : Fallible ℕ :=
  match w.pools.get ⟨m.externalAsset⟩, w.providers.get ⟨m.externalAsset, m.signer⟩ with
  | some pool, some lp => do
      let (native, external, _, _) ← calculateWithdrawal pool.poolUnits
        (pool.nativeAssetBalance + pool.nativeLiabilities)
        (pool.externalAssetBalance + pool.externalLiabilities) lp.liquidityProviderUnits
        m.wBasisPoints m.asymmetry
      let extFuryValue ← calculateWithdrawalFuryValue external nativeSymbol pool
        w.clp.pmtpCurrentRunningRate (getSwapFeeRate w.clp m.externalAsset false)
      Uint.add extFuryValue native
  | _, _ => .error (.err .errPoolDoesNotExist)

theorem processRemoveLiquidityMsg_effect (msg : MsgRemoveLiquidity) (w : World β) :
    Ensures (processRemoveLiquidityMsg env msg) w (fun value w' =>
      (∃ pool lp native external lpUnitsLeft swapAmount externalPaid nativePaid swapped,
        QueuedRemoval env msg pool lp native external lpUnitsLeft swapAmount externalPaid nativePaid
          swapped w w') ∧ removalValue w msg = .ok value) := by
  unfold processRemoveLiquidityMsg
  refine ensures_read_then (ensures_ofExcept_then fun _ _ => ?_)
  refine ensures_bind (fun pool v run => getPool_succeeds.mp run) ?_
  rintro pool _ ⟨pool_found, rfl⟩
  refine ensures_bind (fun lp v run => getLiquidityProvider_succeeds.mp run) ?_
  rintro lp _ ⟨provider_found, rfl⟩
  refine ensures_ofExcept_then ?_
  rintro ⟨nativeDepth, externalDepth⟩ debt
  obtain ⟨rfl, rfl⟩ := extractDebt_forward debt
  refine ensures_ofExcept_then ?_
  rintro ⟨native, external, lpUnitsLeft, swapAmount⟩ computed
  refine ensures_ofExcept_then fun extFuryValue valued => ensures_ofExcept_then ?_
  rintro ⟨externalCoin, nativeCoin⟩ made
  obtain ⟨rfl, rfl⟩ := withdrawalCoins_succeeds env made
  refine ensures_ofExcept_then fun reduced subtracted => ?_
  obtain ⟨units, nativeBound, externalBound, rfl⟩ := subtractFromPool_succeeds subtracted
  refine ensures_ofExcept_then ?_
  rintro ⟨⟨externalDenom, externalPaid⟩, ⟨nativeDenom, nativePaid⟩, swapped⟩ adjusted
  obtain ⟨external_coin, native_coin, settled⟩ := adjustAsymmetry_settles adjusted
  cases external_coin
  cases native_coin
  have asset : swapped.externalAsset = lp.asset :=
    (settled_pool settled).1.trans ((congrArg PoolKey.symbol (w.pools.get_key _ _ pool_found)).trans
        (congrArg ProviderKey.symbol (w.providers.get_key _ _ provider_found)).symm)
  refine ensures_bind (Action.ensures_wrapped (fun u v run =>
    keeper_removeLiquidity_effect env asset run)) ?_
  rintro _ _ ⟨addr, b, decoded, _, _, paid, rfl⟩
  have address : lp.liquidityProviderAddress = msg.signer :=
    congrArg ProviderKey.address (w.providers.get_key _ _ provider_found)
  rw [address] at decoded
  refine ensures_ofExcept ?_
  intro _ added
  refine ⟨⟨pool, lp, native, external, lpUnitsLeft, swapAmount, externalPaid, nativePaid, swapped,
    pool_found, provider_found, computed, units, nativeBound, externalBound, settled, addr, b,
    decoded, paid, rfl⟩, ?_⟩
  simp only [removalValue, pool_found, provider_found, except_bind_succeeds]
  exact ⟨_, computed, extFuryValue, valued, added⟩

/-- The swap an asymmetry asks for: the amount that `CalculateWithdrawal` has it sell, and what
    `SwapOne` gives for it once the withdrawn coins have left the pool. -/
def asymmetricSwap (params : ClpParams) (msg : MsgRemoveLiquidity) (pool : Pool)
    (lp : LiquidityProvider) : Fallible (ℕ × ℕ) := do
  let (native, external, lpUnitsLeft, swapAmount) ← calculateWithdrawal pool.poolUnits
    (pool.nativeAssetBalance + pool.nativeLiabilities)
    (pool.externalAssetBalance + pool.externalLiabilities) lp.liquidityProviderUnits
    msg.wBasisPoints msg.asymmetry
  let (received, _, _, _) ← swapOne swapAmount msg.bought { pool with
      poolUnits := pool.poolUnits - lp.liquidityProviderUnits + lpUnitsLeft
      nativeAssetBalance := pool.nativeAssetBalance - native
      externalAssetBalance := pool.externalAssetBalance - external }
    params.pmtpCurrentRunningRate (msg.swapFee params)
  pure (swapAmount, received)

def SwapPays (params : ClpParams) (msg : MsgRemoveLiquidity) (pool : Pool)
    (lp : LiquidityProvider) : Prop :=
  msg.asymmetry = 0 ∨
    ¬∃ swap, asymmetricSwap params msg pool lp = .ok swap ∧ swap.1 ≠ 0 ∧ swap.2 = 0

instance (params : ClpParams) (msg : MsgRemoveLiquidity) (pool : Pool) (lp : LiquidityProvider) :
    Decidable (SwapPays params msg pool lp) := inferInstanceAs (Decidable (_ ∨ _))

def pairChange (externalAsset : String) (external native : ℤ) (d : String) : ℤ :=
  (if externalAsset = d then external else 0) + (if nativeSymbol = d then native else 0)

theorem pairChange_add (externalAsset : String) (x x' y y' : ℤ) (d : String) :
    pairChange externalAsset (x + x') (y + y') d =
      pairChange externalAsset x y d + pairChange externalAsset x' y' d := by
  unfold pairChange
  split <;> split <;> omega

theorem pairAmount_change {externalAsset : String} {external native : ℕ} {d : String} :
    (pairAmount externalAsset external native d : ℤ) = pairChange externalAsset external native d := by
  unfold pairAmount pairChange
  push_cast
  rfl

def Pool.loss (pool pool' : Pool) : String → ℤ :=
  pairChange pool.externalAsset (pool.externalAssetBalance - pool'.externalAssetBalance)
    (pool.nativeAssetBalance - pool'.nativeAssetBalance)

theorem loss_trans {middle pool' : Pool} (same : middle.externalAsset = pool.externalAsset)
    (d : String) : pool.loss pool' d = pool.loss middle d + middle.loss pool' d := by
  unfold Pool.loss
  rw [same, ← pairChange_add]
  congr 1
  · ring
  · ring

/-- The coins paid to the provider are those the pool lost, an increase counting as negative, and
    the pool lost the units that the provider lost. -/
structure ConservesValue (env : Env β) (msg : MsgRemoveLiquidity) (pool pool' : Pool)
    (lp : LiquidityProvider) (w w' : World β) : Prop where
  paid : ∃ addr paid, env.accAddressFromBech32 msg.signer = some addr ∧
    PaidTo env w.bank w'.bank addr paid ∧ ∀ d, (paid d : ℤ) = pool.loss pool' d
  units : (pool.poolUnits : ℤ) - pool'.poolUnits = lp.liquidityProviderUnits -
    valueAt LiquidityProvider.liquidityProviderUnits w'.providers ⟨msg.externalAsset, msg.signer⟩

theorem paidTo_unique {b b' : β} {addr : AccAddress} {p q : String → ℕ}
    (first : PaidTo env b b' addr p) (second : PaidTo env b b' addr q) : p = q := by
  funext d
  by_cases self : addr = moduleAddress env
  · rw [first.2 self, second.2 self]
  · have one := first.1 (moduleAddress env) d
    have two := second.1 (moduleAddress env) d
    simp only [↓reduceIte, Ne.symm self] at one two
    omega

def MsgRemoveLiquidity.sold (msg : MsgRemoveLiquidity) : String :=
  if msg.bought = nativeSymbol then msg.externalAsset else nativeSymbol

theorem bought_side (msg : MsgRemoveLiquidity) :
    msg.bought = nativeSymbol ∨ msg.bought = msg.externalAsset := by
  unfold MsgRemoveLiquidity.bought
  split
  · exact Or.inr rfl
  · exact Or.inl rfl

theorem swapped_loss {sent : ℕ} {received : ℕ} (asset : pool.externalAsset = msg.externalAsset)
    (bound : received < pool.stock msg.bought) (d : String) :
    pool.loss (pool.swapped msg.bought sent received) d =
      (if msg.bought = d then (received : ℤ) else 0) - (if msg.sold = d then (sent : ℤ) else 0) := by
  unfold Pool.loss pairChange Pool.swapped MsgRemoveLiquidity.sold
  unfold Pool.stock at bound
  rw [asset]
  by_cases native : msg.bought = nativeSymbol
  · simp only [native, ↓reduceIte] at bound ⊢
    split <;> split <;> omega
  · have same := (bought_side msg).resolve_left native
    simp only [native, ↓reduceIte] at bound ⊢
    rw [same]
    split <;> split <;> omega

theorem adjusted_change (msg : MsgRemoveLiquidity) (external native received sent : ℕ)
    (enough : sent ≤ if 0 < msg.asymmetry then native else external)
    (d : String) :
    (if 0 < msg.asymmetry then
        pairChange msg.externalAsset ((external + received : ℕ) : ℤ) ((native - sent : ℕ) : ℤ) d
      else pairChange msg.externalAsset ((external - sent : ℕ) : ℤ) ((native + received : ℕ) : ℤ) d) =
      pairChange msg.externalAsset external native d +
        ((if msg.bought = d then (received : ℤ) else 0) - (if msg.sold = d then (sent : ℤ) else 0)) := by
  by_cases positive : 0 < msg.asymmetry
  · have bought : msg.bought = msg.externalAsset := if_pos positive
    have sold : msg.sold = nativeSymbol := by
      unfold MsgRemoveLiquidity.sold
      rw [bought]
      split
      · assumption
      · rfl
    simp only [positive, ↓reduceIte] at enough ⊢
    rw [bought, sold, Nat.cast_add, Nat.cast_sub enough]
    unfold pairChange
    split <;> split <;> omega
  · have bought : msg.bought = nativeSymbol := if_neg positive
    have sold : msg.sold = msg.externalAsset := if_pos bought
    simp only [positive, ↓reduceIte] at enough ⊢
    rw [bought, sold, Nat.cast_add, Nat.cast_sub enough]
    unfold pairChange
    split <;> split <;> omega

theorem settledProviders_units {providers : Table LiquidityProvider.key} {k : ProviderKey}
    {lp : LiquidityProvider} (lpUnitsLeft : ℕ) (found : providers.get k = some lp) :
    valueAt LiquidityProvider.liquidityProviderUnits (settledProviders providers lp lpUnitsLeft) k =
      lpUnitsLeft := by
  have left := ledger_settled providers lp lpUnitsLeft k
  rw [providers.get_key k lp found, withdrawnLedger, if_pos rfl] at left
  unfold valueAt
  unfold ledger at left
  rw [left]
  split
  · rename_i none
    simp [none]
  · rfl

section Settled
variable {msg : MsgRemoveLiquidity} {pool swapped : Pool} {lp : LiquidityProvider}
  {native external lpUnitsLeft swapAmount externalPaid nativePaid : ℕ} {w w' : World β}
  (removal : QueuedRemoval env msg pool lp native external lpUnitsLeft swapAmount externalPaid
    nativePaid swapped w w')
include removal

/-- The pool keeps the amount of a swap that buys nothing, although it was paid out as well. -/
theorem settled_keeps : ∃ kept : ℕ, (kept = 0 ↔ SwapPays w.clp msg pool lp) ∧
    ∀ d, pairChange msg.externalAsset externalPaid nativePaid d =
        pool.loss swapped d + if msg.sold = d then (kept : ℤ) else 0 := by
  have asset : pool.externalAsset = msg.externalAsset :=
    congrArg PoolKey.symbol (w.pools.get_key _ _ removal.pool_found)
  have nativeBound := removal.native_bound
  have externalBound := removal.external_bound
  have settled := removal.settled
  -- the pool between the withdrawal and the swap
  generalize made : ({ pool with
    poolUnits := pool.poolUnits - lp.liquidityProviderUnits + lpUnitsLeft
    nativeAssetBalance := pool.nativeAssetBalance - native
    externalAssetBalance := pool.externalAssetBalance - external } : Pool) = reduced at settled
  have kind : reduced.externalAsset = pool.externalAsset := by rw [← made]
  have withdrawn : ∀ d, pool.loss reduced d = pairChange msg.externalAsset external native d := by
    intro d
    rw [Pool.loss, asset, ← made]
    dsimp only
    rw [Nat.cast_sub externalBound, Nat.cast_sub nativeBound, sub_sub_cancel, sub_sub_cancel]
  have asks : ∀ received fee impact swapped, swapOne swapAmount msg.bought reduced
      w.clp.pmtpCurrentRunningRate (msg.swapFee w.clp) = .ok (received, fee, impact, swapped) →
      asymmetricSwap w.clp msg pool lp = .ok (swapAmount, received) := by
    intro received fee impact swapped traded
    rw [← made] at traded
    exact except_bind_succeeds.mpr ⟨_, removal.computed, except_bind_succeeds.mpr ⟨_, traded, rfl⟩⟩
  cases settled with
  | symmetric even =>
    refine ⟨0, by simp [SwapPays, even], ?_⟩
    intro d
    rw [withdrawn]
    simp
  | nothing _ fee impact uneven traded =>
    obtain ⟨bound, rfl⟩ := swapOne_succeeds traded
    refine ⟨swapAmount, by simp [SwapPays, uneven, asks _ _ _ _ traded], ?_⟩
    intro d
    rw [loss_trans kind, withdrawn,
      swapped_loss (kind.trans asset) bound]
    simp
  | toExternal _ received fee impact positive traded some enough =>
    obtain ⟨bound, rfl⟩ := swapOne_succeeds traded
    refine ⟨0, by simp [SwapPays, asks _ _ _ _ traded, some], ?_⟩
    intro d
    have change := adjusted_change msg external native received swapAmount
      (by rwa [if_pos positive]) d
    rw [if_pos positive] at change
    rw [loss_trans kind, withdrawn, change,
      swapped_loss (kind.trans asset) bound]
    simp
  | toNative _ received fee impact negative traded some enough =>
    obtain ⟨bound, rfl⟩ := swapOne_succeeds traded
    refine ⟨0, by simp [SwapPays, asks _ _ _ _ traded, some], ?_⟩
    intro d
    have change := adjusted_change msg external native received swapAmount
      (by rwa [if_neg negative.not_gt]) d
    rw [if_neg negative.not_gt] at change
    rw [loss_trans kind, withdrawn, change,
      swapped_loss (kind.trans asset) bound]
    simp

theorem conserves_iff_pays :
    ConservesValue env msg pool swapped lp w w' ↔ SwapPays w.clp msg pool lp := by
  obtain ⟨kept, pays, paid⟩ := settled_keeps env removal
  obtain ⟨addr, b, decoded, sent, rfl⟩ := removal.written
  rw [← pays]
  constructor
  · intro conserved
    obtain ⟨other, amounts, again, received, equal⟩ := conserved.paid
    cases decoded.symm.trans again
    rw [paidTo_unique env received sent] at equal
    have sold := pairAmount_change.symm.trans (equal msg.sold)
    rw [paid, if_pos rfl] at sold
    omega
  · intro none
    refine ⟨⟨addr, _, decoded, sent, ?_⟩, ?_⟩
    · intro d
      rw [pairAmount_change, paid, none]
      simp
    · have bound := removal.units_bound
      rw [settledProviders_units lpUnitsLeft removal.provider_found,
        (settled_pool removal.settled).2]
      dsimp only
      omega

theorem removal_stores : w'.pools.get ⟨msg.externalAsset⟩ = some swapped := by
  have stored : pool.key = ⟨msg.externalAsset⟩ := w.pools.get_key _ _ removal.pool_found
  have key : swapped.key = ⟨msg.externalAsset⟩ := by
    rw [Pool.key, (settled_pool removal.settled).1, ← stored]
    rfl
  obtain ⟨_, _, _, _, rfl⟩ := removal.written
  exact key ▸ get_put_same _ _

end Settled

/-- A queued removal that succeeds conserves value exactly when its asymmetry, if it sells
    something, buys something. -/
theorem queued_removal_conserves (env : Env β) (msg : MsgRemoveLiquidity) (w w' : World β)
    (value : ℕ) (run : (processRemoveLiquidityMsg env msg).run w = (.ok value, w')) :
    ∃ pool pool' lp, w.pools.get ⟨msg.externalAsset⟩ = some pool ∧
      w'.pools.get ⟨msg.externalAsset⟩ = some pool' ∧
      w.providers.get ⟨msg.externalAsset, msg.signer⟩ = some lp ∧
      (ConservesValue env msg pool pool' lp w w' ↔ SwapPays w.clp msg pool lp) := by
  obtain ⟨⟨pool, lp, _, _, _, _, _, _, swapped, removal⟩, _⟩ :=
    processRemoveLiquidityMsg_effect env msg w value w' run
  exact ⟨pool, swapped, lp, removal.pool_found,
    removal_stores env removal, removal.provider_found, conserves_iff_pays env removal⟩

def thinPool : World LedgerBank.Balances :=
  { LedgerBank.pooled with
    pools := ⟨[{ LedgerBank.cethPool with externalAssetBalance := 1000 }], by simp⟩
    providers := ⟨[⟨"ceth", 5 * 10 ^ 17, "alice", []⟩], by simp⟩ }

/-- All fury of the withdrawal is to be sold for ceth, of which it buys less than one unit. -/
def thinRemoval : MsgRemoveLiquidity := ⟨"alice", "ceth", 1, 10000⟩

/-- Alice gets the fury that was to be sold, and the pool has it as well. -/
theorem sold_fury_paid_twice :
    ∃ value w', (processRemoveLiquidityMsg LedgerBank.env thinRemoval).run thinPool =
        (.ok value, w') ∧
      ∀ pool pool' lp, thinPool.pools.get ⟨"ceth"⟩ = some pool → w'.pools.get ⟨"ceth"⟩ = some pool' →
        thinPool.providers.get ⟨"ceth", "alice"⟩ = some lp →
        ¬ConservesValue LedgerBank.env thinRemoval pool pool' lp thinPool w' := by
  have succeeds : ∃ value, ((processRemoveLiquidityMsg LedgerBank.env thinRemoval).run thinPool).1 =
      .ok value ∧ value = 5 * 10 ^ 13 := by decide +kernel
  obtain ⟨value, returned, _⟩ := succeeds
  refine ⟨value, _, Prod.ext returned rfl, ?_⟩
  intro pool pool' lp before after provider conserved
  obtain ⟨⟨_, _, _, _, _, _, _, _, swapped, removal⟩, _⟩ := processRemoveLiquidityMsg_effect
    LedgerBank.env thinRemoval thinPool value _ (Prod.ext returned rfl)
  cases before.symm.trans removal.pool_found
  cases provider.symm.trans removal.provider_found
  cases after.symm.trans (removal_stores LedgerBank.env removal)
  have pays := (conserves_iff_pays LedgerBank.env removal).mp conserved
  cases before
  cases provider
  revert pays
  decide +kernel

def balancedRemoval : MsgRemoveLiquidity := ⟨"alice", "ceth", 1000, 5000⟩

theorem balanced_removal_conserves :
    ∃ value w' pool pool' lp, (processRemoveLiquidityMsg LedgerBank.env balancedRemoval).run
        soleProvider = (.ok value, w') ∧
      ConservesValue LedgerBank.env balancedRemoval pool pool' lp soleProvider w' := by
  have succeeds : ∃ value, ((processRemoveLiquidityMsg LedgerBank.env balancedRemoval).run
      soleProvider).1 = .ok value ∧ 0 < value := by decide +kernel
  obtain ⟨value, returned, _⟩ := succeeds
  obtain ⟨pool, pool', lp, before, _, provider, conserved⟩ := queued_removal_conserves
    LedgerBank.env balancedRemoval soleProvider _ value (Prod.ext returned rfl)
  refine ⟨value, _, pool, pool', lp, Prod.ext returned rfl, conserved.mpr ?_⟩
  cases before
  cases provider
  decide +kernel
end FuryNode
