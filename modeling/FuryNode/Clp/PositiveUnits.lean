import FuryNode.Clp.Units

/-!
Pools that have providers have units, so a distribution divides by no zero. Two kinds of
events break it: the removal of the last units of a pool that still has a provider record
without units, and an addition to a pool whose units are gone but whose coins are not.
-/
namespace FuryNode
open StatefulProgram StatefulProgram.Prog KeyedTable KeyedTable.Table Pagination ClpKeeper
variable {β : Type} (env : Env β)

def UnitsPositive (w : World β) : Prop :=
  ∀ k, ledger w.providers k ≠ none → 0 < valueAt Pool.poolUnits w.pools ⟨k.symbol⟩

theorem keepsUnits_positive {w w' : World β} (kept : KeepsUnits w w') (positive : UnitsPositive w) :
    UnitsPositive w' := by
  intro k present
  rw [kept.providers] at present
  rw [valueAt, kept.units]
  exact positive k present

theorem create_positive {m : MsgCreatePool} {poolUnits lpUnits : ℕ} {w w' : World β}
    (effect : CreationEffect env m poolUnits lpUnits w w') (positive : UnitsPositive w) :
    UnitsPositive w' := by
  obtain ⟨addr, b, providers, _, _, rfl, after⟩ := effect.written
  obtain ⟨_, _, _, _, computed⟩ := effect.computed
  obtain ⟨same, _, nonzero⟩ := (calculatePoolUnits_succeeds computed).1 (Or.inl rfl)
  intro k present
  rw [valueAt_put, Pool.key]
  by_cases asset : m.externalAsset = k.symbol
  · simp only [asset, ↓reduceIte]
    omega
  · have other : (⟨m.externalAsset, env.addressString addr⟩ : ProviderKey) ≠ k := by
      rintro rfl
      exact asset rfl
    simp only [PoolKey.mk.injEq, asset, ↓reduceIte]
    simp only [after, other, ↓reduceIte] at present
    exact positive k present

/-- An addition leaves units unless there were none and both sides hold coins. -/
def AddsUnits (pool : Pool) : Prop :=
  0 < pool.poolUnits ∨ pool.nativeAssetBalance + pool.nativeLiabilities = 0 ∨
    pool.externalAssetBalance + pool.externalLiabilities = 0

instance (pool : Pool) : Decidable (AddsUnits pool) := inferInstanceAs (Decidable (_ ∨ _))

theorem add_positive {m : MsgAddLiquidity} {pool : Pool} {newPoolUnits lpUnits : ℕ} {w w' : World β}
    (effect : AdditionEffect env m pool newPoolUnits lpUnits w w') (adds : AddsUnits pool)
    (positive : UnitsPositive w) : UnitsPositive w' := by
  obtain ⟨addr, b, providers, threshold, _, _, rfl, after⟩ := effect.written
  obtain ⟨_, _, _, _, computed⟩ := effect.computed
  have units := calculatePoolUnits_succeeds computed
  have asset : pool.externalAsset = m.externalAsset :=
    congrArg PoolKey.symbol (w.pools.get_key _ _ effect.pool_found)
  have grown : 0 < newPoolUnits := by
    by_cases empty : pool.nativeAssetBalance + pool.nativeLiabilities = 0 ∨
        pool.externalAssetBalance + pool.externalLiabilities = 0
    · have scratch := units.1 empty
      omega
    · have proportional := units.2 empty
      rcases adds with some | drained
      · omega
      · exact absurd drained empty
  intro k present
  rw [valueAt_put, Pool.key]
  simp only [asset]
  by_cases same : m.externalAsset = k.symbol
  · simp only [same, ↓reduceIte]
    exact grown
  · simp only [PoolKey.mk.injEq, same, ↓reduceIte]
    have foreign : ∀ address, (⟨m.externalAsset, address⟩ : ProviderKey) ≠ k := by
      rintro address rfl
      exact same rfl
    have unchanged : ledger providers k = ledger w.providers k := by
      rw [after, addedLedger]
      split
      · simp only [foreign, ↓reduceIte]
      · simp only [foreign, ↓reduceIte]
    exact positive k (unchanged ▸ present)

/-- The provider with this address is the only one of the asset. -/
def SoleProvider (w : World β) (externalAsset signer : String) : Prop :=
  ∀ lp ∈ w.providers.rows, lp.asset = externalAsset → lp.liquidityProviderAddress = signer

instance (w : World β) (externalAsset signer : String) :
    Decidable (SoleProvider w externalAsset signer) :=
  inferInstanceAs (Decidable (∀ lp ∈ w.providers.rows, _))

/-- A record that is there after others were removed keeps its pool above zero: some of its
    units stay, others have units, or there is no other record. -/
theorem remove_positive {externalAsset signer : String} {pool : Pool} {lp : LiquidityProvider}
    {native external lpUnitsLeft : ℕ} {w w' : World β}
    (effect : RemovalEffect env externalAsset signer pool lp native external lpUnitsLeft w w')
    (condition : 0 < lpUnitsLeft ∨ lp.liquidityProviderUnits < pool.poolUnits ∨
      SoleProvider w externalAsset signer) (positive : UnitsPositive w) : UnitsPositive w' := by
  obtain ⟨addr, b, providers, _, _, rfl, after⟩ := effect.written
  have asset : pool.externalAsset = externalAsset :=
    congrArg PoolKey.symbol (w.pools.get_key _ _ effect.pool_found)
  intro k present
  rw [after, withdrawnLedger] at present
  rw [valueAt_put, Pool.key]
  simp only [asset]
  by_cases same : externalAsset = k.symbol
  · simp only [same, ↓reduceIte]
    rcases condition with some | more | sole
    · omega
    · omega
    · by_cases own : (⟨externalAsset, signer⟩ : ProviderKey) = k
      · simp only [own, ↓reduceIte] at present
        split at present
        · exact absurd rfl present
        · omega
      · -- another record of the asset, which the only provider excludes
        simp only [own, ↓reduceIte] at present
        exfalso
        cases found : w.providers.get k with
        | none => simp [ledger, found] at present
        | some other =>
          obtain ⟨member, key⟩ := get_mem found
          have address := sole other member ((congrArg ProviderKey.symbol key).trans same.symm)
          apply own
          rw [← key, LiquidityProvider.key, address, same, ← key]
          rfl
  · have other : (⟨externalAsset, signer⟩ : ProviderKey) ≠ k := by
      rintro rfl
      exact same rfl
    simp only [PoolKey.mk.injEq, same, ↓reduceIte]
    simp only [other, ↓reduceIte] at present
    exact positive k present

theorem withdrawalFromUnits_left {poolUnits nativeDepth externalDepth lpUnits withdrawUnits native
    external lpUnitsLeft : ℕ}
    (computed : calculateWithdrawalFromUnits poolUnits nativeDepth externalDepth lpUnits
      withdrawUnits = .ok (native, external, lpUnitsLeft)) :
    lpUnitsLeft + withdrawUnits = lpUnits := by
  simp only [calculateWithdrawalFromUnits, except_bind_succeeds, except_pure_succeeds,
    Prod.mk.injEq] at computed
  obtain ⟨_, _, _, _, lpUnitsF, lpDigits, withdrawUnitsF, withdrawDigits, _, _, _, _, left, subtracted,
    _, _, _, _, unitsLeft, rounded, _, _, rfl⟩ := computed
  obtain rfl := Dec.fromDigits_succeeds lpDigits
  obtain rfl := Dec.fromDigits_succeeds withdrawDigits
  obtain ⟨_, rfl⟩ := Dec.checked_succeeds.mp subtracted
  simp only [decRoundToUint, Dec.roundInt, except_bind_succeeds, Dec.toInt_succeeds,
    Uint.ofBigInt_succeeds] at rounded
  obtain ⟨_, ⟨_, rfl⟩, whole, _⟩ := rounded
  rw [Dec.ofInt, Dec.ofInt, ← sub_mul, Dec.chop_whole] at whole
  omega

section Divisions

/-- From `r` the program never divides by zero. -/
def Spares {α : Type} (p : Action β α) (r : World β) : Prop :=
  Meets p r (fun _ _ => True) (fun f _ => NotByZero f)

variable {w r : World β}

theorem partition_positive {pool : Pool} (positive : UnitsPositive w) (kept : KeepsUnits w r)
    (tracks : TracksUnits w pool) (present : partition r pool.externalAsset ≠ []) :
    0 < pool.poolUnits := by
  obtain ⟨lp, member⟩ := List.exists_mem_of_ne_nil _ present
  obtain ⟨listed, asset⟩ := List.mem_filter.mp member
  have row : lp ∈ w.providers.rows := by
    rw [← kept.providers]
    exact (List.mem_filter.mp (filteredPaginate_sublist.subset listed)).1
  have record := positive lp.key (by
    rw [ledger, get_row row]
    simp)
  have key : (⟨lp.key.symbol⟩ : PoolKey) = pool.key := by
    simpa [LiquidityProvider.key, Pool.key] using asset
  rw [key, valueAt, tracks] at record
  exact record

theorem stops_spares {I : World β → Prop} {α : Type} {p : Action β α}
    (kept : Meets p r (fun _ => I) (Stops I False)) : Spares p r :=
  meets_mono _ kept (fun _ _ _ => trivial) (fun _ _ stops => stops.2.resolve_right not_false)

theorem units_divide (positive : UnitsPositive w) (t : World β) (pool : Pool) (kept : KeepsUnits w t)
    (tracks : TracksUnits w pool) (present : partition t pool.externalAsset ≠ []) :
    0 < pool.poolUnits ∨ False :=
  Or.inl (partition_positive positive kept tracks present)

theorem providerDistribution_spares (order : MapOrder) (positive : UnitsPositive w) :
    Spares (providerDistributionPolicyRun env order) w :=
  stops_spares (providerDistribution_keeps (keepsUnits_block w) (units_divide positive) env order
    (keepsUnits_spends env (keepsUnits_refl w)) (keepsUnits_refl w))

theorem distributeDepthRewards_spares (order : MapOrder) (blockDistribution : ℕ)
    (period : RewardPeriod) (positive : UnitsPositive w) :
    Spares (distributeDepthRewards env order blockDistribution period w.pools.rows) w :=
  stops_spares (distributeDepthRewards_keeps ((keepsUnits_block w).credits env)
    (units_divide positive) order blockDistribution period (tracksUnits_rows w) (keepsUnits_refl w))

end Divisions

/-- The condition on the events of a run: additions that leave units, and removals after which
    the pool has units or no provider. -/
def KeepsUnitsPositive (w : World β) : ClpEvent → Prop
  | .endBlock _ _ => True
  | .message _ (.decommissionPool _) => False
  | .message _ (.addLiquidity m) => ∀ pool ∈ w.pools.get ⟨m.externalAsset⟩, AddsUnits pool
  | .message _ (.removeLiquidity m) =>
      ∀ pool ∈ w.pools.get ⟨m.externalAsset⟩, ∀ lp ∈ w.providers.get ⟨m.externalAsset, m.signer⟩,
        lp.liquidityProviderUnits < pool.poolUnits ∨ SoleProvider w m.externalAsset m.signer
  | .message _ (.removeLiquidityUnits m) =>
      ∀ pool ∈ w.pools.get ⟨m.externalAsset⟩, ∀ lp ∈ w.providers.get ⟨m.externalAsset, m.signer⟩,
        m.withdrawUnits < lp.liquidityProviderUnits ∨ lp.liquidityProviderUnits < pool.poolUnits ∨
          SoleProvider w m.externalAsset m.signer
  | .message _ _ => True

instance (w : World β) : (e : ClpEvent) → Decidable (KeepsUnitsPositive w e)
  | .endBlock _ _ => inferInstanceAs (Decidable True)
  | .message _ (.decommissionPool _) => inferInstanceAs (Decidable False)
  | .message _ (.addLiquidity _) => inferInstanceAs (Decidable (∀ pool ∈ _, AddsUnits _))
  | .message _ (.removeLiquidity _) =>
      inferInstanceAs (Decidable (∀ pool ∈ _, ∀ lp ∈ _, _ < _ ∨ SoleProvider _ _ _))
  | .message _ (.removeLiquidityUnits _) =>
      inferInstanceAs (Decidable (∀ pool ∈ _, ∀ lp ∈ _, _ < _ ∨ _ < _ ∨ SoleProvider _ _ _))
  | .message _ (.createPool _) => inferInstanceAs (Decidable True)
  | .message _ (.swap _) => inferInstanceAs (Decidable True)

theorem effect_positive (c : BlockContext) {msg : ClpMsg} {w w' : World β}
    (effect : MsgEffect env msg w w') (condition : KeepsUnitsPositive w (.message c msg))
    (positive : UnitsPositive w) : UnitsPositive w' := by
  cases effect with
  | createPool m _ _ _ _ _ _ _ _ effect => exact create_positive env effect positive
  | addLiquidity m _ _ pool _ _ _ _ effect =>
    exact add_positive env effect (condition pool effect.pool_found) positive
  | removeLiquidity m _ _ pool lp _ _ _ _ _ _ _ effect =>
    exact remove_positive env effect
      (Or.inr (condition pool effect.pool_found lp effect.provider_found)) positive
  | removeLiquidityUnits m _ _ pool lp _ _ left _ _ computed effect =>
    refine remove_positive env effect ?_ positive
    have rest := withdrawalFromUnits_left computed
    rcases condition pool effect.pool_found lp effect.provider_found with part | others
    · exact Or.inl (by omega)
    · exact Or.inr others
  | swap m _ _ _ different effect =>
    exact keepsUnits_positive (swap_keepsUnits env different effect) positive
  | decommissionPool m _ _ _ => exact condition.elim

theorem step_positive (w : World β) (e : ClpEvent) (condition : KeepsUnitsPositive w e)
    (before : Settled w ∧ UnitsPositive w) :
    Settled (e.step env w) ∧ UnitsPositive (e.step env w) := by
  refine ⟨step_settled env e before.1, ?_⟩
  cases e with
  | message c msg =>
    rcases deliver_cases env msg (w.within c) before.1.no_requests with same | effect
    · rw [ClpEvent.step, same]
      exact before.2
    · refine effect_positive env c effect ?_ before.2
      cases msg <;> exact condition
  | endBlock c order => exact keepsUnits_positive (endBlock_step env) before.2

/-- In a run whose events meet the condition, pools with providers have units, and no
    distribution at the end of a block divides by the units of a pool without any. -/
theorem distributions_never_divide_by_zero {env : Env β} {w : World β} (empty : EmptyClp w)
    {events : List ClpEvent} (guarded : Guarded env KeepsUnitsPositive events w) :
    (∀ pool ∈ (runEvents env events w).pools.rows,
      (∃ lp ∈ (runEvents env events w).providers.rows, lp.asset = pool.externalAsset) →
        0 < pool.poolUnits) ∧
    ∀ (c : BlockContext) (order : MapOrder),
      Spares (providerDistributionPolicyRun env order) ((runEvents env events w).within c) ∧
      (∀ blockDistribution period, Spares (distributeDepthRewards env order blockDistribution period
        (runEvents env events w).pools.rows) ((runEvents env events w).within c)) ∧
      ∀ u r, (providerDistributionPolicyRun env order).run ((runEvents env events w).within c) =
          (.ok u, r) →
        ∀ blockDistribution period,
          Spares (distributeDepthRewards env order blockDistribution period r.pools.rows) r := by
  have start : Settled w ∧ UnitsPositive w := by
    refine ⟨emptyClp_settled empty, ?_⟩
    intro k present
    rw [empty.providers] at present
    exact absurd rfl present
  have positive := (runEvents_preserves env KeepsUnitsPositive _ (step_positive env) events w
    guarded start).2
  refine ⟨?_, ?_⟩
  · rintro pool member ⟨lp, listed, asset⟩
    have record := positive lp.key (by
      rw [ledger, (get_some_iff _ _ _).mpr ⟨listed, rfl⟩]
      simp)
    have found : (runEvents env events w).pools.get ⟨lp.key.symbol⟩ = some pool :=
      (get_some_iff _ _ _).mpr ⟨member, congrArg PoolKey.mk asset.symm⟩
    simpa [valueAt, found] using record
  · intro c order
    have within : UnitsPositive ((runEvents env events w).within c) := positive
    refine ⟨providerDistribution_spares env order within,
      fun blockDistribution period =>
        distributeDepthRewards_spares env order blockDistribution period within, ?_⟩
    intro u r run blockDistribution period
    have kept := (providerDistribution_keeps (keepsUnits_block _) (units_divide within) env order
      (keepsUnits_spends env (keepsUnits_refl _)) (keepsUnits_refl _)).ok u r run
    exact distributeDepthRewards_spares env order blockDistribution period
      (keepsUnits_positive kept within)

/-- Nearly all units are removed, again and again, until truncation leaves none. -/
def removesMost : ClpEvent :=
  .message (LedgerBank.block 3) (.removeLiquidity ⟨"alice", "ceth", 9999, 0⟩)

/-- The pool is left with coins and no units, and then added to. -/
def emptiedRun : List ClpEvent :=
  [createdPool, removesMost, removesMost, removesMost, removesMost, removesMost,
    .message (LedgerBank.block 4) (.addLiquidity ⟨"bob", "ceth", 10 ^ 18, 10 ^ 18⟩)]

/-- A provider joins with an amount too small for a unit, and then the units of the other one
    are gone. -/
def dustRun : List ClpEvent :=
  [createdPool, removesMost, removesMost, removesMost, removesMost,
    .message (LedgerBank.block 4) (.addLiquidity ⟨"bob", "ceth", 1, 1⟩), removesMost]

def endState (events : List ClpEvent) : World LedgerBank.Balances :=
  runEvents LedgerBank.env events LedgerBank.genesis

theorem providers_without_units :
    EmptyClp LedgerBank.genesis ∧ ∀ events ∈ [emptiedRun, dustRun],
      (endState events).pools.rows.map Pool.poolUnits = [0] ∧
      (endState events).providers.rows.map LiquidityProvider.asset = ["ceth"] ∧
      ((providerDistributionPolicyRun LedgerBank.env .asWritten).run
        ((endState events).within (fullRate 5))).1 = .error (.panic .divisionByZero) :=
  ⟨⟨rfl, rfl, rfl⟩, by decide +kernel⟩

def unitsRun : List ClpEvent :=
  [createdPool, .message (LedgerBank.block 3) (.addLiquidity ⟨"bob", "ceth", 10 ^ 17, 10 ^ 17⟩),
    removesMost, .message (LedgerBank.block 4) (.removeLiquidityUnits ⟨"bob", "ceth", 10 ^ 16⟩),
    .endBlock (fullRate 4) .asWritten]

theorem units_run_never_divides_by_zero :
    Guarded LedgerBank.env KeepsUnitsPositive unitsRun LedgerBank.genesis ∧
      (endState unitsRun).providers.rows.length = 2 ∧
      Spares (providerDistributionPolicyRun LedgerBank.env .asWritten)
        ((endState unitsRun).within (fullRate 5)) := by
  have guarded : Guarded LedgerBank.env KeepsUnitsPositive unitsRun LedgerBank.genesis := by
    decide +kernel
  exact ⟨guarded, by decide +kernel,
    ((distributions_never_divide_by_zero ⟨rfl, rfl, rfl⟩ guarded).2 (fullRate 5) .asWritten).1⟩

end FuryNode
