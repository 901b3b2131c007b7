import FuryNode.Clp.ProviderDistribution
import FuryNode.Clp.PositiveUnits
import FuryNode.Clp.Unlocks
import FuryNode.Margin.WellFormed

/-!
Runs of x/clp and x/margin together, and the divisions at the beginning of a block. The
interest rate of a pool is computed outside the recovery of a position, and it divides by
both balances of the pool: the invariant of a run is that both are positive.
-/
namespace FuryNode
open StatefulProgram StatefulProgram.Prog KeyedTable KeyedTable.Table ClpKeeper MarginKeeper
variable {β : Type}

/-- An event of a chain with both modules, in a block with its height and parameters. -/
inductive ChainEvent where
  | clp (e : ClpEvent)
  | unlock (c : BlockContext) (msg : UnlockMsg)
  | margin (e : MarginEvent)

def ChainEvent.step (env : Env β) : ChainEvent → World β → World β
  | .clp e, w => e.step env w
  | .unlock c msg, w => transact (msg.action env) (w.within c)
  | .margin e, w => e.step env w

def runChain (env : Env β) (events : List ChainEvent) (w : World β) : World β :=
  EventRuns.run (ChainEvent.step env) events w

def Leaves (pool : Pool) : Fallible (ℕ × ℕ) → Prop
  | .ok (native, external) =>
      native < pool.nativeAssetBalance ∧ external < pool.externalAssetBalance
  | .error _ => True

/-- The two amounts of a withdrawal by basis points, from the depths with their liabilities. -/
def withdrawalOf (pool : Pool) (lp : LiquidityProvider) (wBasisPoints : ℤ) : Fallible (ℕ × ℕ) :=
  (calculateWithdrawal pool.poolUnits (pool.nativeAssetBalance + pool.nativeLiabilities)
    (pool.externalAssetBalance + pool.externalLiabilities) lp.liquidityProviderUnits wBasisPoints
    0).map (fun w => (w.1, w.2.1))

def unitsWithdrawalOf (pool : Pool) (lp : LiquidityProvider) (units : ℕ) : Fallible (ℕ × ℕ) :=
  (calculateWithdrawalFromUnits pool.poolUnits (pool.nativeAssetBalance + pool.nativeLiabilities)
    (pool.externalAssetBalance + pool.externalLiabilities) lp.liquidityProviderUnits units).map
    (fun w => (w.1, w.2.1))

/-- The condition on the events of a run: a removal asks for less than each balance, and a
    provider distribution for less than all the fury of a pool. -/
def SparesBalances (w : World β) : ChainEvent → Prop
  | .clp (.message _ (.removeLiquidity m)) =>
      ∀ pool ∈ w.pools.get ⟨m.externalAsset⟩, ∀ lp ∈ w.providers.get ⟨m.externalAsset, m.signer⟩,
        Leaves pool (withdrawalOf pool lp m.wBasisPoints)
  | .clp (.message _ (.removeLiquidityUnits m)) =>
      ∀ pool ∈ w.pools.get ⟨m.externalAsset⟩, ∀ lp ∈ w.providers.get ⟨m.externalAsset, m.signer⟩,
        Leaves pool (unitsWithdrawalOf pool lp m.withdrawUnits)
  | .clp (.endBlock c _) => isDistributionBlock (w.within c) = .ok true →
      ∀ pool ∈ w.pools.rows, partition w pool.externalAsset ≠ [] →
        rateOf (activeRate (w.within c)) pool.nativeAssetBalance < pool.nativeAssetBalance
  | _ => True

instance (pool : Pool) : (withdrawn : Fallible (ℕ × ℕ)) → Decidable (Leaves pool withdrawn)
  | .ok (_, _) => inferInstanceAs (Decidable (_ ∧ _))
  | .error _ => inferInstanceAs (Decidable True)

instance (w : World β) : (e : ChainEvent) → Decidable (SparesBalances w e)
  | .clp (.message _ (.removeLiquidity _)) =>
      inferInstanceAs (Decidable (∀ pool ∈ _, ∀ lp ∈ _, Leaves _ _))
  | .clp (.message _ (.removeLiquidityUnits _)) =>
      inferInstanceAs (Decidable (∀ pool ∈ _, ∀ lp ∈ _, Leaves _ _))
  | .clp (.endBlock _ _) => inferInstanceAs (Decidable (_ → ∀ pool ∈ _, _ → _ < _))
  | .clp (.message _ (.createPool _)) => inferInstanceAs (Decidable True)
  | .clp (.message _ (.addLiquidity _)) => inferInstanceAs (Decidable True)
  | .clp (.message _ (.swap _)) => inferInstanceAs (Decidable True)
  | .clp (.message _ (.decommissionPool _)) => inferInstanceAs (Decidable True)
  | .unlock _ _ => inferInstanceAs (Decidable True)
  | .margin _ => inferInstanceAs (Decidable True)

structure Funded (env : Env β) (p : Pool) : Prop where
  native : 0 < p.nativeAssetBalance
  external : 0 < p.externalAssetBalance
  named : assetValidate env p.externalAsset = .ok true

structure Funding (env : Env β) (w : World β) : Prop where
  no_requests : w.requests.rows = []
  numbered : ∀ m ∈ w.mtps.rows, m.id ≠ 0
  funded : ∀ p ∈ w.pools.rows, Funded env p

section Pools
variable {env : Env β}

theorem funded_put {pools : Table Pool.key} {pool : Pool} (new : Funded env pool)
    (funded : ∀ p ∈ pools.rows, Funded env p) : ∀ p ∈ (pools.put pool).rows, Funded env p := by
  intro p member
  rcases (mem_put pools pool p).mp member with rfl | ⟨old, _⟩
  · exact new
  · exact funded p old

theorem funded_found {pools : Table Pool.key} {k : PoolKey} {pool : Pool}
    (funded : ∀ p ∈ pools.rows, Funded env p) (found : pools.get k = some pool) :
    Funded env pool :=
  funded pool (get_mem found).1

/-- The rows of x/margin: writing an amount keeps a pool funded unless a balance is emptied. -/
theorem funded_rows (env : Env β) : RowInvariant (fun m => m.id ≠ 0) (Funded env) where
  numbered := fun _ numbered => numbered
  amounts := fun _ _ same numbered => same.id ▸ numbered
  grown := by
    intro p s field n grows funded
    have named := funded.named
    have native := funded.native
    have external := funded.external
    cases s <;> cases field <;> simp only [Pool.amount] at grows <;>
      exact ⟨by simp only [Pool.setAmount]; omega, by simp only [Pool.setAmount]; omega, named⟩
  shrunk := by
    intro p s field n other funded
    cases s <;> cases field <;> first
      | exact absurd rfl other
      | exact ⟨funded.native, funded.external, funded.named⟩
  returned := by
    intro p s n positive funded
    cases s
    · exact ⟨positive, funded.external, funded.named⟩
    · exact ⟨funded.native, positive, funded.named⟩
  computed := fun _ _ _ _ funded => ⟨funded.native, funded.external, funded.named⟩

theorem swapped_funded {pool : Pool} {toAsset : String} (sentAmount emitAmount : ℕ)
    (bound : emitAmount < pool.stock toAsset) (funded : Funded env pool) :
    Funded env (pool.swapped toAsset sentAmount emitAmount) := by
  have native := funded.native
  have external := funded.external
  unfold Pool.stock at bound
  unfold Pool.swapped
  split
  · rename_i buysNative
    rw [if_pos buysNative] at bound
    exact ⟨Nat.sub_pos_of_lt bound, by dsimp only; omega, funded.named⟩
  · rename_i buysExternal
    rw [if_neg buysExternal] at bound
    exact ⟨by dsimp only; omega, Nat.sub_pos_of_lt bound, funded.named⟩

end Pools

section Messages
variable {env : Env β} {w w' : World β}

theorem removal_funded {externalAsset signer : String} {pool : Pool} {lp : LiquidityProvider}
    {native external lpUnitsLeft : ℕ}
    (effect : RemovalEffect env externalAsset signer pool lp native external lpUnitsLeft w w')
    (leaves : native < pool.nativeAssetBalance ∧ external < pool.externalAssetBalance)
    (now : Funding env w) : Funding env w' := by
  have funded := funded_found now.funded effect.pool_found
  obtain ⟨_, _, _, _, _, rfl, _⟩ := effect.written
  exact ⟨now.no_requests, now.numbered, funded_put ⟨Nat.sub_pos_of_lt leaves.1,
    Nat.sub_pos_of_lt leaves.2, funded.named⟩ now.funded⟩

theorem swap_funded (m : MsgSwap) (effect : SwapEffect env m w w') (now : Funding env w) :
    Funding env w' := by
  obtain ⟨_, _, _, pools, _, _, _, _, _, swapping, rfl⟩ := effect
  refine ⟨now.no_requests, now.numbered, ?_⟩
  cases swapping with
  | one symbol pool _ found bound =>
    exact funded_put (swapped_funded _ _ bound (funded_found now.funded found)) now.funded
  | two inPool outPool through _ _ inFound outFound inBound outBound =>
    have bought := swapped_funded m.sentAmount through inBound (funded_found now.funded inFound)
    have sold := swapped_funded through _ outBound (funded_found now.funded outFound)
    exact funded_put sold (funded_put bought now.funded)

theorem effect_funded {c : BlockContext} {msg : ClpMsg} (effect : MsgEffect env msg w w')
    (named : ∀ m, msg = .createPool m → assetValidate env m.externalAsset = .ok true)
    (condition : SparesBalances w (.clp (.message c msg))) (now : Funding env w) :
    Funding env w' := by
  cases effect with
  | createPool m _ _ _ _ _ _ native external effect =>
    obtain ⟨_, _, _, _, _, rfl, _⟩ := effect.written
    exact ⟨now.no_requests, now.numbered,
      funded_put ⟨native, external, named m rfl⟩ now.funded⟩
  | addLiquidity m _ _ pool _ _ _ _ effect =>
    have funded := funded_found now.funded effect.pool_found
    obtain ⟨_, _, _, _, _, _, rfl, _⟩ := effect.written
    exact ⟨now.no_requests, now.numbered, funded_put ⟨Nat.add_pos_left funded.native _,
      Nat.add_pos_left funded.external _, funded.named⟩ now.funded⟩
  | removeLiquidity m _ _ pool lp native external _ _ _ _ computed effect =>
    have leaves := condition pool effect.pool_found lp effect.provider_found
    rw [withdrawalOf, computed] at leaves
    exact removal_funded effect leaves now
  | removeLiquidityUnits m _ _ pool lp native external _ _ _ computed effect =>
    have leaves := condition pool effect.pool_found lp effect.provider_found
    rw [unitsWithdrawalOf, computed] at leaves
    exact removal_funded effect leaves now
  | swap m _ _ _ _ effect => exact swap_funded m effect now
  | decommissionPool m _ _ effect =>
    obtain ⟨_, _, _, _, _, _, _, _, _, rfl⟩ := effect
    exact ⟨now.no_requests, now.numbered, fun p member => now.funded p ((mem_delete _ _ p).mp member).1⟩

theorem createPool_named (m : MsgCreatePool) (w : World β) :
    Ensures (ClpMsg.action env (.createPool m)) w
      (fun _ _ => assetValidate env m.externalAsset = .ok true) := by
  refine runMsg_effect env fun u validated _ _ _ _ => ?_
  exact (createPool_validated env validated).1

theorem deliver_funded (c : BlockContext) (msg : ClpMsg)
    (condition : SparesBalances w (.clp (.message c msg))) (now : Funding env w) :
    Funding env (msg.deliver env w) := by
  rcases transact_cases (msg.action env) w with same | ⟨u, ran⟩
  · exact (congrArg (Funding env) same).mpr now
  · refine effect_funded (action_effect env msg now.no_requests u _ ran) ?_ condition now
    rintro m rfl
    exact createPool_named m w u _ ran

end Messages

section Blocks
variable {env : Env β}

theorem collected_le {symbol : String} {depth : ℕ} {blockRate : Dec} {poolUnits : ℕ}
    {lps : List ValidLiquidityProvider} {maps : Collected} {collected : ℕ × Collected}
    (computed : collectProviderDistribution env symbol (Dec.ofInt depth) blockRate poolUnits lps maps =
      .ok collected) : (collected.1 : ℤ) ≤ rateOf blockRate depth := by
  obtain ⟨furyPd, multiplied, computed⟩ := except_bind_succeeds.mp computed
  obtain ⟨furyPdUint, rounded, computed⟩ := except_bind_succeeds.mp computed
  have limit := decRoundToUint_succeeds rounded
  rw [mul_whole multiplied] at limit
  have clipped : collected.1 ≤ furyPdUint := by
    refine foldlM_preserves (I := fun _ (state : ℕ × Collected) => state.1 ≤ furyPdUint) lps (0, maps)
      collected ?_ (Nat.zero_le _) computed
    intro provider _ state next within shared
    obtain ⟨providerFury, _, shared⟩ := except_bind_succeeds.mp shared
    obtain ⟨⟨share, total⟩, clip, shared⟩ := except_bind_succeeds.mp shared
    obtain ⟨_, _, shared⟩ := except_bind_succeeds.mp shared
    cases except_pure_succeeds.mp shared
    exact ((clipShare_spec within).2 share total clip).2
  rw [rateOf, limit]
  omega

structure FundingWith (env : Env β) (w r : World β) : Prop where
  funding : Funding env r
  providers : r.providers = w.providers

theorem funding_block (w : World β) : BlockInvariant (FundingWith env w) (Funded env) where
  rows := fun _ now => now.funding.funded
  written := fun _ _ new now => ⟨⟨now.funding.no_requests, now.funding.numbered,
    funded_put new now.funding.funded⟩, now.providers⟩
  settled := fun _ _ _ _ _ now => ⟨⟨now.funding.no_requests, now.funding.numbered,
    now.funding.funded⟩, now.providers⟩
  rewarded := fun _ _ _ grows funded => ⟨Nat.lt_of_lt_of_le funded.native grows, funded.external,
    funded.named⟩

theorem endBlock_funded {c : BlockContext} {order : MapOrder} {w : World β}
    (condition : SparesBalances w (.clp (.endBlock c order))) (now : Funding env w) :
    Funding env (ClpEvent.step env (.endBlock c order) w) := by
  have start : FundingWith env w (w.within c) := ⟨⟨now.no_requests, now.numbered, now.funded⟩, rfl⟩
  have spends : isDistributionBlock (w.within c) = .ok true →
      Spends env (FundingWith env w) (Funded env) (w.within c) := by
    intro distributes period active pool member t kept present lps maps collected computed paid within
    have funded := now.funded pool member
    have same : partition t pool.externalAsset = partition w pool.externalAsset := by
      simp only [partition, getAllLiquidityProviders, kept.providers]
    have asked := condition distributes pool member (same ▸ present)
    rw [activeRate, active] at asked
    have total := collected_le computed
    dsimp only [Option.elim_some] at asked within
    exact ⟨by dsimp only; omega, funded.external, funded.named⟩
  exact (transact_preserves (FundingWith env w) (endBlocker env order) (w.within c)
    (endBlocker_keeps ((funding_block w).credits env) order spends start).ok start).funding

theorem poolAfter_funded {m : MsgOpen} {w : World β} {t : OpenTerms} {b : β}
    (opened : Opened env m w t b) (funded : Funded env t.pool) : Funded env (t.poolAfter m) := by
  have inv := funded_rows env
  have custody := (clpSwap_bounds opened.swapped).2
  have borrowed : Funded env (t.borrowedPool m) :=
    inv.grown _ _ _ _ (by simp [amount_set]) (inv.grown _ _ _ _ (Nat.le_add_right _ _) funded)
  have rated : Funded env ((t.borrowedPool m).withHealth t.poolHealth) :=
    ⟨borrowed.native, borrowed.external, borrowed.named⟩
  have held : t.pool.amount (sideOf m.borrowAsset) .balance ≤
      (t.borrowedPool m).amount (sideOf m.borrowAsset) .balance := by
    by_cases same : sideOf m.collateralAsset = sideOf m.borrowAsset
    · simp [OpenTerms.borrowedPool, Pool.borrowed, amount_set, same]
    · simp [OpenTerms.borrowedPool, Pool.borrowed, amount_set, same]
  refine inv.shrunk _ _ _ _ (by decide) (inv.returned _ _ _ ?_ rated)
  rw [amount_withHealth]
  omega

theorem open_funded (c : BlockContext) (m : MsgOpen) (w : World β) (now : Funding env w) :
    Funding env (MarginEvent.step env (.message c (.open' m)) w) := by
  rcases transact_cases (MarginEvent.action env (.message c (.open' m))) (w.within c) with
    same | ⟨dropped, ran⟩
  · exact (congrArg (Funding env) same).mpr ⟨now.no_requests, now.numbered, now.funded⟩
  · obtain ⟨_, _, handled⟩ := action_succeeds _ _ _ _ ran
    obtain ⟨t, b, opened, _, after⟩ := open_succeeds handled
    rw [MarginEvent.step, MarginEvent.context, after]
    refine ⟨now.no_requests, ?_, ?_⟩
    · intro row member
      rcases (mem_put _ _ row).mp member with rfl | ⟨old, _⟩
      · exact opened.numbered
      · exact now.numbered row old
    · exact funded_put (poolAfter_funded opened (funded_found now.funded opened.found)) now.funded

theorem step_funded {w : World β} {e : ChainEvent} (condition : SparesBalances w e)
    (now : Funding env w) : Funding env (e.step env w) := by
  have within : ∀ c, Funding env (w.within c) := fun _ =>
    ⟨now.no_requests, now.numbered, now.funded⟩
  cases e with
  | clp e =>
    cases e with
    | message c msg =>
      refine deliver_funded c msg ?_ (within c)
      cases msg <;> exact condition
    | endBlock c order => exact endBlock_funded condition now
  | unlock c msg =>
    refine transact_preserves (Funding env) (msg.action env) (w.within c) ?_ (within c)
    intro u t ran
    obtain ⟨_, rfl, _⟩ := unlock_effect env msg (w.within c) u t ran
    exact ⟨now.no_requests, now.numbered, now.funded⟩
  | margin e =>
    by_cases opening : ∃ c m, e = .message c (.open' m)
    · obtain ⟨c, m, rfl⟩ := opening
      exact open_funded c m w now
    · have before : Rows (fun m => m.id ≠ 0) (Funded env) w.mtpCount (w.within e.context) :=
        ⟨rfl, now.numbered, now.funded⟩
      have inv := (rows_events (funded_rows env) w.mtpCount).and (fun t : World β => t.requests.rows = [])
        (fun _ _ none => none) (fun _ _ none => none) (fun _ _ _ none => none) (fun _ _ none => none)
      have after := transact_preserves _ (e.action env) _ (event_keeps inv env e
        (fun c m same => opening ⟨c, m, same⟩) ⟨before, now.no_requests⟩).ok ⟨before, now.no_requests⟩
      exact ⟨after.2, after.1.mtps, after.1.pools⟩

end Blocks

section Divisions
variable {env : Env β} {w : World β}

theorem ofInt_nonzero {n : ℕ} (positive : 0 < n) : (Dec.ofInt n).raw ≠ 0 := by
  have whole := Dec.precision_pos
  simp only [Dec.ofInt]
  positivity

theorem approachRate_overflows (params : MarginParams) (previous target : Dec) :
    FailsOnly (approachRate params previous target) Overflows := by
  simp [approachRate]

/-- With both balances positive, a rate fails only if a number leaves its range. -/
theorem interestRateComputation_overflows (pool : Pool) (funded : Funded env pool) :
    FailsOnly (interestRateComputation env w pool) Overflows := by
  simp [interestRateComputation, getSQFromBlocks, approachRate_overflows,
    ofInt_nonzero funded.external, ofInt_nonzero funded.native]

theorem calculatePoolHealth_overflows (pool : Pool) :
    FailsOnly (calculatePoolHealth pool) Overflows := by
  simp only [calculatePoolHealth, failsOnly_bind_iff]
  refine ⟨by simp, fun external _ => ⟨by simp, fun native _ => failsOnly_ite (by simp) fun deep => ?_⟩⟩
  have nonzero : external.raw ≠ 0 ∧ native.raw ≠ 0 := by
    simpa [Dec.isZero] using deep
  simp [nonzero]

theorem ignored_setPool_succeeds (pool : Pool) (funded : Funded env pool) :
    Meets (Action.ignoreError (setPool env pool)) w (fun _ _ => True) (fun f _ => Overflows f) :=
  Action.meets_ignoreError (meets_mono _ (setPool_valid env pool w funded.named)
    (fun _ _ _ => trivial) (fun _ _ never => never.elim))

theorem visitPositions_overflows (pool : Pool) (funded : Funded env pool) :
    Meets (visitPositions env pool) w (fun _ _ => True) (fun f _ => Overflows f) := by
  refine meets_bind (ignored_setPool_succeeds pool funded) (fun _ t _ => ?_)
  refine meets_bind (P := fun _ _ => True) ?_ (fun _ u _ => meets_read_then ?_)
  · refine meets_read_then (meets_ite (fun _ => ?_) (fun _ => ?_))
    · exact meets_when (fun _ => meets_modify trivial) (fun _ => trivial)
    · exact meets_when (fun _ => meets_modify trivial) (fun _ => trivial)
  · refine meets_accumulate (I := fun _ _ _ => True) _ _ _ ?_ trivial
    intro mtp _ state v _
    refine meets_bind (P := fun _ _ => True) (meets_enter ?_) (fun _ _ _ => meets_pure trivial)
    refine meets_bind (P := fun _ _ => True) (meets_attempt ⟨fun _ _ _ => trivial, fun _ _ _ => trivial⟩)
      (fun result _ _ => ?_)
    cases result with
    | ok _ => exact meets_pure trivial
    | error e => exact meets_modify trivial

theorem visitEnabledPool_overflows (pool : Pool) (funded : Funded env pool) :
    Meets (visitEnabledPool env pool) w (fun _ _ => True) (fun f _ => Overflows f) := by
  refine meets_read_then (meets_ofExcept_then (fun rate _ => ?_)
    (interestRateComputation_overflows pool funded))
  refine meets_ofExcept_then (fun health _ => ?_) (calculatePoolHealth_overflows _)
  exact visitPositions_overflows _ ((funded_rows env).computed pool rate w.height health funded)

theorem visitPool_overflows {dropped : List Failure} {pool : Pool} {n : ℕ} (funded : Funded env pool)
    (rows : Rows (fun m => m.id ≠ 0) (Funded env) n w) :
    Meets (visitPool env dropped pool) w (fun _ _ => True) (fun f _ => Overflows f) := by
  have fresh : Funded env { pool with blockInterestExternal := 0, blockInterestNative := 0 } :=
    ⟨funded.native, funded.external, funded.named⟩
  refine meets_read_then (meets_bind (P := fun after _ => Funded env after.pool) ?_ ?_)
  · refine meets_ite (fun _ => ?_) (fun _ => meets_pure fresh)
    exact meets_mono _ (meets_and (visitEnabledPool_overflows _ fresh)
      (visitEnabledPool_keeps (rows_events (funded_rows env) n) env fresh rows)) (fun _ _ both => both.2.1)
      (fun _ _ both => both.1)
  · intro state u after
    exact meets_bind (ignored_setPool_succeeds _ after) (fun _ _ _ => meets_pure trivial)

theorem beginBlocker_overflows (now : Funding env w) :
    Meets (beginBlocker env) w (fun _ _ => True) (fun f _ => Overflows f) := by
  refine meets_read_then (meets_ite (fun _ => ?_) (fun _ => meets_pure trivial))
  have start : Rows (fun m => m.id ≠ 0) (Funded env) w.mtpCount w := ⟨rfl, now.numbered, now.funded⟩
  refine meets_mono _ (meets_accumulate (I := fun rest _ t => (∀ p ∈ rest, Funded env p) ∧
    Rows (fun m => m.id ≠ 0) (Funded env) w.mtpCount t) _ _ _ ?_ ⟨now.funded, start⟩)
    (fun _ _ _ => trivial) (fun _ _ failed => failed)
  rintro pool rest dropped t ⟨left, rows⟩
  have funded := left pool (by simp)
  exact meets_mono _ (meets_and (visitPool_overflows funded rows)
    (visitPool_keeps (rows_events (funded_rows env) _) env dropped pool funded rows))
    (fun _ _ both => ⟨fun p member => left p (by simp [member]), both.2⟩) (fun _ _ both => both.1)

end Divisions

structure EmptyStores (w : World β) : Prop where
  clp : EmptyClp w
  mtps : w.mtps = .empty

/-- In a run whose events meet the condition, no interest rate divides by zero, and the beginning
    of a block panics only if a number leaves its range. -/
theorem interest_rates_never_divide_by_zero {env : Env β} {w : World β} (empty : EmptyStores w)
    {events : List ChainEvent}
    (guarded : EventRuns.Guarded (ChainEvent.step env) SparesBalances events w) (c : BlockContext) :
    (∀ pool ∈ (runChain env events w).pools.rows,
      isPoolEnabled c.margin pool.externalAsset = true →
        0 < pool.nativeAssetBalance ∧ 0 < pool.externalAssetBalance ∧
        FailsOnly (interestRateComputation env ((runChain env events w).within c) pool) Overflows) ∧
    ∀ f t, (beginBlocker env).run ((runChain env events w).within c) = (.error f, t) →
      f = .panic .overflow := by
  have start : Funding env w := by
    refine ⟨?_, ?_, ?_⟩
    · rw [empty.clp.requests]
      rfl
    · intro m member
      rw [empty.mtps] at member
      exact absurd member List.not_mem_nil
    · intro p member
      rw [empty.clp.pools] at member
      exact absurd member List.not_mem_nil
  have reached := EventRuns.run_preserves (ChainEvent.step env) SparesBalances (Funding env)
    (fun s e met now => step_funded met now) events w guarded start
  refine ⟨?_, ?_⟩
  · intro pool member _
    have funded := reached.funded pool member
    exact ⟨funded.native, funded.external, interestRateComputation_overflows pool funded⟩
  · intro f t failed
    have within : Funding env ((runChain env events w).within c) :=
      ⟨reached.no_requests, reached.numbered, reached.funded⟩
    exact (beginBlocker_overflows within).error f t failed

def tenthRate (height : ℤ) : BlockContext :=
  { LedgerBank.block height with
    clp := { LedgerBank.clpParams with distributionPeriods := [⟨⟨10 ^ 17⟩, 1, 100, 1⟩] } }

def disabled (height : ℤ) : BlockContext :=
  { LedgerBank.block height with margin := { LedgerBank.marginParams with pools := [] } }

def distributedRun : List ChainEvent :=
  [.clp createdPool, .clp (.endBlock (fullRate 3) .asWritten)]

/-- While bob owes fury, alice withdraws all the fury that is left, in a block in which the pool
    is disabled. -/
def withdrawnRun : List ChainEvent :=
  [.clp createdPool, .margin (.beginBlock (LedgerBank.block 3)),
    .margin (.message (LedgerBank.block 3)
      (.open' ⟨"bob", "fury", 10 ^ 16, "ceth", .long, ⟨2 * 10 ^ 18⟩⟩)),
    .clp (.message (disabled 4)
      (.removeLiquidityUnits ⟨"alice", "ceth", 10 ^ 18 * 101 / 102⟩))]

theorem emptied_pools_halt_the_chain :
    EmptyStores LedgerBank.genesis ∧ ∀ events ∈ [distributedRun, withdrawnRun],
      (runChain LedgerBank.env events LedgerBank.genesis).pools.rows.map Pool.nativeAssetBalance =
        [0] ∧
      ((beginBlocker LedgerBank.env).run ((runChain LedgerBank.env events LedgerBank.genesis).within
        (LedgerBank.block 5))).1 = .error (.panic .divisionByZero) :=
  ⟨⟨⟨rfl, rfl, rfl⟩, rfl⟩, by decide +kernel⟩

def sparingRun : List ChainEvent :=
  [.clp createdPool, .clp (.endBlock (tenthRate 3) .asWritten),
    .margin (.beginBlock (LedgerBank.block 4)),
    .margin (.message (LedgerBank.block 4)
      (.open' ⟨"bob", "fury", 10 ^ 16, "ceth", .long, ⟨2 * 10 ^ 18⟩⟩)),
    .unlock (LedgerBank.block 4) (.unlock ⟨"alice", "ceth", 10 ^ 17⟩),
    .clp (.message (disabled 4) (.removeLiquidityUnits ⟨"alice", "ceth", 10 ^ 17⟩))]

theorem spared_pools_have_rates :
    EventRuns.Guarded (ChainEvent.step LedgerBank.env) SparesBalances sparingRun
      LedgerBank.genesis ∧
    (runChain LedgerBank.env sparingRun LedgerBank.genesis).mtps.rows.length = 1 ∧
    ∀ f t, (beginBlocker LedgerBank.env).run ((runChain LedgerBank.env sparingRun
      LedgerBank.genesis).within (LedgerBank.block 5)) = (.error f, t) → f = .panic .overflow := by
  have guarded : EventRuns.Guarded (ChainEvent.step LedgerBank.env) SparesBalances sparingRun
      LedgerBank.genesis := by decide +kernel
  exact ⟨guarded, by decide +kernel, (interest_rates_never_divide_by_zero
    ⟨⟨rfl, rfl, rfl⟩, rfl⟩ guarded (LedgerBank.block 5)).2⟩

end FuryNode
