import FuryNode.Clp.Runs
import FuryNode.Sdk.LedgerBank

/-!
Unit accounting of x/clp: the units of the providers of a pool add up to the units of
the pool. Additions break it in two ways, and in no other: units counted from scratch
in a pool that has some, and a provider record that is written over.
-/
namespace FuryNode
open StatefulProgram StatefulProgram.Prog KeyedTable KeyedTable.Table ClpKeeper
variable {β : Type} (env : Env β)

def providedUnits (providers : Table LiquidityProvider.key) (symbol : String) : ℕ :=
  total (fun lp => if lp.asset = symbol then lp.liquidityProviderUnits else 0) providers

/-- An asset without a pool counts as one with no units. -/
def UnitsBalance (w : World β) : Prop :=
  ∀ symbol, providedUnits w.providers symbol = valueAt Pool.poolUnits w.pools ⟨symbol⟩

def unitsAt (before : ProviderKey → Option ℕ) (symbol : String) (k : ProviderKey) : ℕ :=
  if k.symbol = symbol then (before k).getD 0 else 0

theorem row_units (providers : Table LiquidityProvider.key) (symbol : String) (k : ProviderKey) :
    (providers.get k).map (fun lp => if lp.asset = symbol then lp.liquidityProviderUnits else 0) =
      (ledger providers k).map (fun units => if k.symbol = symbol then units else 0) := by
  unfold ledger
  cases found : providers.get k with
  | none => rfl
  | some lp =>
    have asset : lp.asset = k.symbol := congrArg ProviderKey.symbol (providers.get_key k lp found)
    simp [asset]

theorem providedUnits_update (before after : Table LiquidityProvider.key) (key : ProviderKey)
    (same : ∀ k, key ≠ k → ledger after k = ledger before k) (symbol : String) :
    providedUnits after symbol + unitsAt (ledger before) symbol key =
      providedUnits before symbol + unitsAt (ledger after) symbol key := by
  have update := total_update
    (fun lp => if lp.asset = symbol then lp.liquidityProviderUnits else 0) before after key
    (fun k other => by rw [row_units, row_units, same k other])
  have value : ∀ t : Table LiquidityProvider.key, valueAt
      (fun lp => if lp.asset = symbol then lp.liquidityProviderUnits else 0) t key =
        unitsAt (ledger t) symbol key := by
    intro t
    rw [valueAt, row_units, unitsAt]
    cases ledger t key <;> simp
  rw [value, value] at update
  exact update

theorem unitsAt_other {before : ProviderKey → Option ℕ} {symbol : String} {k : ProviderKey}
    (other : k.symbol ≠ symbol) : unitsAt before symbol k = 0 := by
  simp [unitsAt, other]

variable {lpUnits : ℕ} {w w' : World β}

theorem calculatePoolUnitsSymmetric_succeeds {X x P poolUnits : ℕ}
    (computed : calculatePoolUnitsSymmetric X x P = .ok (poolUnits, lpUnits)) :
    poolUnits = P + lpUnits ∧ (P = 0 → lpUnits = 0) := by
  simp only [calculatePoolUnitsSymmetric, except_bind_succeeds, Uint.quo_succeeds,
    Uint.ofBigInt_succeeds, Uint.add_succeeds, except_pure_succeeds, Prod.mk.injEq] at computed
  obtain ⟨quotient, ⟨_, rfl⟩, units, ⟨same, _⟩, _, ⟨_, rfl⟩, rfl, rfl⟩ := computed
  refine ⟨rfl, ?_⟩
  rintro rfl
  simpa using same.symm

/-- What the units of an addition are: proportional to the units there are, or counted
    from scratch if a side of the pool is empty. -/
theorem calculatePoolUnits_succeeds {P R A r a newPoolUnits swapAmount : ℕ}
    {sellFee buyFee pmtp : Dec} {swapStatus : SwapStatus}
    (computed : calculatePoolUnits P R A r a sellFee buyFee pmtp =
      .ok (newPoolUnits, lpUnits, swapStatus, swapAmount)) :
    (R = 0 ∨ A = 0 → newPoolUnits = r ∧ lpUnits = r ∧ r ≠ 0) ∧
      (¬(R = 0 ∨ A = 0) → newPoolUnits = P + lpUnits ∧ (P = 0 → lpUnits = 0)) := by
  unfold calculatePoolUnits at computed
  by_cases empty : R = 0 ∨ A = 0
  · refine ⟨fun _ => ?_, fun filled => absurd empty filled⟩
    have state : getLiquidityAddSymmetryState A a R r = .errorEmptyPool := by
      simp [getLiquidityAddSymmetryState, Or.comm, empty]
    simp only [state] at computed
    split at computed
    · cases computed
    · rename_i amounts
      cases computed
      exact ⟨rfl, rfl, fun zero => amounts (Or.inr zero)⟩
  · refine ⟨fun drained => absurd drained empty, fun _ => ?_⟩
    split at computed
    · rename_i state
      simp only [getLiquidityAddSymmetryState, Or.comm, empty, ↓reduceIte] at state
      split_ifs at state
    · cases computed
      exact ⟨rfl, fun _ => rfl⟩
    · simp only [except_bind_succeeds, except_pure_succeeds, Prod.mk.injEq] at computed
      obtain ⟨_, _, _, _, _, _, ⟨poolUnits, units⟩, symmetric, rfl, rfl, _⟩ := computed
      exact calculatePoolUnitsSymmetric_succeeds symmetric
    · simp only [except_bind_succeeds, except_pure_succeeds, Prod.mk.injEq] at computed
      obtain ⟨⟨poolUnits, units⟩, symmetric, rfl, rfl, _⟩ := computed
      exact calculatePoolUnitsSymmetric_succeeds symmetric
    · simp only [except_bind_succeeds, except_pure_succeeds, Prod.mk.injEq] at computed
      obtain ⟨_, _, _, _, _, _, ⟨poolUnits, units⟩, symmetric, rfl, rfl, _⟩ := computed
      exact calculatePoolUnitsSymmetric_succeeds symmetric

theorem unitsAt_le (providers : Table LiquidityProvider.key) (symbol : String) (k : ProviderKey) :
    unitsAt (ledger providers) symbol k ≤ providedUnits providers symbol := by
  have split := providedUnits_update providers (providers.delete k) k
    (fun l other => by rw [ledger_delete]; simp [other]) symbol
  have gone : unitsAt (ledger (providers.delete k)) symbol k = 0 := by
    simp [unitsAt, ledger_delete]
  omega

theorem keepsUnits_balance (w w' : World β) (kept : KeepsUnits w w') (balance : UnitsBalance w) :
    UnitsBalance w' := by
  intro symbol
  rw [kept.providers, balance symbol, valueAt, valueAt, kept.units]

theorem create_balance {m : MsgCreatePool} {poolUnits : ℕ}
    (effect : CreationEffect env m poolUnits lpUnits w w') (balance : UnitsBalance w) :
    UnitsBalance w' := by
  obtain ⟨addr, b, providers, _, _, rfl, after⟩ := effect.written
  obtain ⟨_, _, _, _, computed⟩ := effect.computed
  obtain ⟨rfl, same, _⟩ := (calculatePoolUnits_succeeds computed).1 (Or.inl rfl)
  intro symbol
  have update := providedUnits_update w.providers providers
    ⟨m.externalAsset, env.addressString addr⟩ (fun k other => by rw [after]; simp [other]) symbol
  rw [valueAt_put, Pool.key]
  by_cases asset : m.externalAsset = symbol
  · subst asset
    -- no pool, so no units: whatever record is written over had none
    have nothing : providedUnits w.providers m.externalAsset = 0 := by
      rw [balance, valueAt, effect.pool_missing]
      rfl
    have old := unitsAt_le w.providers m.externalAsset ⟨m.externalAsset, env.addressString addr⟩
    have new : unitsAt (ledger providers) m.externalAsset
        ⟨m.externalAsset, env.addressString addr⟩ = lpUnits := by
      simp [unitsAt, after]
    simp only [↓reduceIte]
    omega
  · rw [unitsAt_other asset, unitsAt_other asset] at update
    simp only [PoolKey.mk.injEq, asset, ↓reduceIte]
    rw [← balance symbol]
    omega

theorem remove_balance {externalAsset signer : String} {pool : Pool} {lp : LiquidityProvider}
    {native external lpUnitsLeft : ℕ}
    (effect : RemovalEffect env externalAsset signer pool lp native external lpUnitsLeft w w')
    (balance : UnitsBalance w) : UnitsBalance w' := by
  obtain ⟨addr, b, providers, _, _, rfl, after⟩ := effect.written
  have asset : pool.externalAsset = externalAsset :=
    congrArg PoolKey.symbol (w.pools.get_key _ _ effect.pool_found)
  intro symbol
  have update := providedUnits_update w.providers providers ⟨externalAsset, signer⟩
    (fun k other => by rw [after, withdrawnLedger]; simp [other]) symbol
  rw [valueAt_put, Pool.key]
  simp only [asset]
  by_cases same : externalAsset = symbol
  · subst same
    have old : unitsAt (ledger w.providers) externalAsset ⟨externalAsset, signer⟩ =
        lp.liquidityProviderUnits := by
      simp [unitsAt, ledger, effect.provider_found]
    have new : unitsAt (ledger providers) externalAsset ⟨externalAsset, signer⟩ = lpUnitsLeft := by
      rw [unitsAt, after, withdrawnLedger]
      by_cases none : lpUnitsLeft = 0
      · simp [none]
      · simp [none]
    have units : providedUnits w.providers externalAsset = pool.poolUnits := by
      rw [balance, valueAt, effect.pool_found]
      rfl
    have bound := effect.units_bound
    simp only [↓reduceIte]
    omega
  · rw [unitsAt_other same, unitsAt_other same] at update
    simp only [PoolKey.mk.injEq, same, ↓reduceIte]
    rw [← balance symbol]
    omega

/-- The units of the record that a new provider record is written over: the signer was not
    found under its own spelling, but is there under the canonical one. -/
def overwrittenUnits (env : Env β) (w : World β) (m : MsgAddLiquidity) : ℕ :=
  match ledger w.providers ⟨m.externalAsset, m.signer⟩, env.accAddressFromBech32 m.signer with
  | none, some addr => (ledger w.providers ⟨m.externalAsset, env.addressString addr⟩).getD 0
  | _, _ => 0

/-- The units that the pool forgets are those that the providers lose: all of them if a side
    of the pool is empty, none otherwise. -/
def ForgetsEvenly (env : Env β) (w : World β) (m : MsgAddLiquidity) (pool : Pool) : Prop :=
  overwrittenUnits env w m =
    if pool.nativeAssetBalance + pool.nativeLiabilities = 0 ∨
        pool.externalAssetBalance + pool.externalLiabilities = 0 then pool.poolUnits else 0

instance (env : Env β) (w : World β) (m : MsgAddLiquidity) (pool : Pool) :
    Decidable (ForgetsEvenly env w m pool) := inferInstanceAs (Decidable (_ = _))

theorem add_provided {m : MsgAddLiquidity} {pool : Pool} {newPoolUnits : ℕ}
    (effect : AdditionEffect env m pool newPoolUnits lpUnits w w') (symbol : String) :
    providedUnits w'.providers symbol +
        (if m.externalAsset = symbol then overwrittenUnits env w m else 0) =
      providedUnits w.providers symbol + (if m.externalAsset = symbol then lpUnits else 0) := by
  obtain ⟨addr, b, providers, threshold, decoded, _, rfl, after⟩ := effect.written
  cases record : ledger w.providers ⟨m.externalAsset, m.signer⟩ with
  | some units =>
    have update := providedUnits_update w.providers providers ⟨m.externalAsset, m.signer⟩
      (fun k other => by rw [after]; simp [addedLedger, record, other]) symbol
    simp only [unitsAt, after, addedLedger, record, ↓reduceIte, Option.getD_some] at update
    simp only [overwrittenUnits, record]
    by_cases same : m.externalAsset = symbol
    · simp only [same, ↓reduceIte] at update ⊢
      omega
    · simp only [same, ↓reduceIte] at update ⊢
      omega
  | none =>
    have update := providedUnits_update w.providers providers
      ⟨m.externalAsset, env.addressString addr⟩
      (fun k other => by rw [after]; simp [addedLedger, record, other]) symbol
    simp only [unitsAt, after, addedLedger, record, ↓reduceIte, Option.getD_some] at update
    simp only [overwrittenUnits, record, decoded]
    exact update

theorem add_balance_iff {m : MsgAddLiquidity} {pool : Pool} {newPoolUnits : ℕ}
    (effect : AdditionEffect env m pool newPoolUnits lpUnits w w') (balance : UnitsBalance w) :
    UnitsBalance w' ↔ ForgetsEvenly env w m pool := by
  have provided := add_provided env effect
  obtain ⟨addr, b, providers, threshold, _, _, rfl, _⟩ := effect.written
  obtain ⟨_, _, _, _, computed⟩ := effect.computed
  have units := calculatePoolUnits_succeeds computed
  have asset : pool.externalAsset = m.externalAsset :=
    congrArg PoolKey.symbol (w.pools.get_key _ _ effect.pool_found)
  have before : providedUnits w.providers m.externalAsset = pool.poolUnits := by
    rw [balance, valueAt, effect.pool_found]
    rfl
  have own : providedUnits providers m.externalAsset = newPoolUnits ↔
      ForgetsEvenly env w m pool := by
    have sum := provided m.externalAsset
    simp only [↓reduceIte] at sum
    unfold ForgetsEvenly
    split
    · rename_i empty
      obtain ⟨rfl, rfl, _⟩ := units.1 empty
      omega
    · rename_i filled
      obtain ⟨rfl, _⟩ := units.2 filled
      omega
  constructor
  · intro kept
    have mine := kept m.externalAsset
    rw [valueAt_put, Pool.key] at mine
    simp only [asset, ↓reduceIte] at mine
    exact own.mp mine
  · intro evenly symbol
    rw [valueAt_put, Pool.key]
    simp only [asset]
    by_cases same : m.externalAsset = symbol
    · subst same
      simp only [↓reduceIte]
      exact own.mpr evenly
    · have sum := provided symbol
      simp only [same, ↓reduceIte] at sum
      simp only [PoolKey.mk.injEq, same, ↓reduceIte]
      rw [← balance symbol]
      omega

/-- The condition on the events of a run: no pool is decommissioned, and an addition to a pool
    forgets evenly. -/
def KeepsAccounts (env : Env β) (w : World β) : ClpEvent → Prop
  | .endBlock _ _ => True
  | .message _ (.decommissionPool _) => False
  | .message _ (.addLiquidity m) =>
      ∀ pool ∈ w.pools.get ⟨m.externalAsset⟩, ForgetsEvenly env w m pool
  | .message _ _ => True

instance (env : Env β) (w : World β) : (e : ClpEvent) → Decidable (KeepsAccounts env w e)
  | .endBlock _ _ => inferInstanceAs (Decidable True)
  | .message _ (.decommissionPool _) => inferInstanceAs (Decidable False)
  | .message _ (.addLiquidity _) => inferInstanceAs (Decidable (∀ pool ∈ _, ForgetsEvenly _ _ _ _))
  | .message _ (.createPool _) => inferInstanceAs (Decidable True)
  | .message _ (.removeLiquidity _) => inferInstanceAs (Decidable True)
  | .message _ (.removeLiquidityUnits _) => inferInstanceAs (Decidable True)
  | .message _ (.swap _) => inferInstanceAs (Decidable True)

theorem effect_balance (c : BlockContext) (msg : ClpMsg) (w w' : World β)
    (effect : MsgEffect env msg w w') (condition : KeepsAccounts env w (.message c msg))
    (balance : UnitsBalance w) : UnitsBalance w' := by
  cases effect with
  | createPool m _ _ _ _ _ _ _ _ effect => exact create_balance env effect balance
  | addLiquidity m _ _ pool _ _ _ _ effect =>
    exact (add_balance_iff env effect balance).mpr (condition pool effect.pool_found)
  | removeLiquidity m _ _ _ _ _ _ _ _ _ _ _ effect =>
    exact remove_balance env effect balance
  | removeLiquidityUnits m _ _ _ _ _ _ _ _ _ _ effect =>
    exact remove_balance env effect balance
  | swap m _ _ _ different effect =>
    exact keepsUnits_balance w w' (swap_keepsUnits env different effect) balance
  | decommissionPool m _ _ _ => exact condition.elim

theorem step_balance (w : World β) (e : ClpEvent) (condition : KeepsAccounts env w e)
    (before : Settled w ∧ UnitsBalance w) :
    Settled (e.step env w) ∧ UnitsBalance (e.step env w) := by
  refine ⟨step_settled env e before.1, ?_⟩
  cases e with
  | message c msg =>
    rcases deliver_cases env msg (w.within c) before.1.no_requests with same | effect
    · rw [ClpEvent.step, same]
      exact before.2
    · refine effect_balance env c msg (w.within c) _ effect ?_ before.2
      cases msg <;> exact condition
  | endBlock c order => exact keepsUnits_balance w _ (endBlock_step env) before.2

/-- In a run whose additions forget evenly, the units of a pool are those of its providers. -/
theorem units_balance_over_runs {env : Env β} {w : World β} (empty : EmptyClp w)
    {events : List ClpEvent} (guarded : Guarded env (KeepsAccounts env) events w) :
    ∀ pool ∈ (runEvents env events w).pools.rows,
      providedUnits (runEvents env events w).providers pool.externalAsset = pool.poolUnits := by
  have start : Settled w ∧ UnitsBalance w := by
    refine ⟨emptyClp_settled empty, ?_⟩
    intro symbol
    rw [empty.providers, empty.pools]
    rfl
  have balance := (runEvents_preserves env (KeepsAccounts env) _ (step_balance env) events w
    guarded start).2
  intro pool member
  have found : (runEvents env events w).pools.get ⟨pool.externalAsset⟩ = some pool :=
    (get_some_iff _ _ _).mpr ⟨member, rfl⟩
  rw [balance, valueAt, found]
  rfl

/-- A block in which all fury of the pools goes to the providers, at the rate of one that the
    validation of distribution periods still accepts. -/
def fullRate (height : ℤ) : BlockContext :=
  { LedgerBank.block height with
    clp := { LedgerBank.clpParams with distributionPeriods := [⟨Dec.one, 1, 100, 1⟩] } }

def createdPool : ClpEvent :=
  .message (LedgerBank.block 2) (.createPool ⟨"alice", "ceth", 10 ^ 18, 10 ^ 18⟩)

def drainedRun : List ClpEvent :=
  [createdPool, .endBlock (fullRate 2) .asWritten,
    .message (LedgerBank.block 3) (.addLiquidity ⟨"bob", "ceth", 10 ^ 18, 10 ^ 18⟩)]

def respelledRun : List ClpEvent :=
  [createdPool, .message (LedgerBank.block 3) (.addLiquidity ⟨"ALICE", "ceth", 10 ^ 18, 10 ^ 18⟩)]

theorem additions_lose_units :
    EmptyClp LedgerBank.genesis ∧
      (¬∀ pool ∈ (runEvents LedgerBank.env drainedRun LedgerBank.genesis).pools.rows,
        providedUnits (runEvents LedgerBank.env drainedRun LedgerBank.genesis).providers
          pool.externalAsset = pool.poolUnits) ∧
      ¬∀ pool ∈ (runEvents LedgerBank.env respelledRun LedgerBank.genesis).pools.rows,
        providedUnits (runEvents LedgerBank.env respelledRun LedgerBank.genesis).providers
          pool.externalAsset = pool.poolUnits :=
  ⟨⟨rfl, rfl, rfl⟩, by decide +kernel, by decide +kernel⟩

def accountedRun : List ClpEvent :=
  [createdPool,
    .message (LedgerBank.block 3) (.addLiquidity ⟨"bob", "ceth", 10 ^ 17, 3 * 10 ^ 17⟩),
    .message (LedgerBank.block 3) (.swap ⟨"bob", "fury", "ceth", 10 ^ 16, 1⟩),
    .message (LedgerBank.block 4) (.removeLiquidity ⟨"bob", "ceth", 2500, 0⟩),
    .endBlock (fullRate 4) .asWritten]

theorem units_balance_in_accounted_run :
    Guarded LedgerBank.env (KeepsAccounts LedgerBank.env) accountedRun LedgerBank.genesis ∧
      ∀ pool ∈ (runEvents LedgerBank.env accountedRun LedgerBank.genesis).pools.rows,
        providedUnits (runEvents LedgerBank.env accountedRun LedgerBank.genesis).providers
          pool.externalAsset = pool.poolUnits := by
  have guarded : Guarded LedgerBank.env (KeepsAccounts LedgerBank.env) accountedRun
      LedgerBank.genesis := by decide +kernel
  exact ⟨guarded, units_balance_over_runs ⟨rfl, rfl, rfl⟩ guarded⟩

end FuryNode
