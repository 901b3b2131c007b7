import FuryNode.Clp.DepthRewards
import FuryNode.Clp.TradeScope
import FuryNode.Sdk.Supply
import Mathlib.Algebra.Order.BigOperators.Group.Finset

/-!
The rewards of a run of blocks against the allocations of its periods. What a block allots is
passed to the next distribution or stays in the accumulator, a distribution mints no more than
it is passed, and a period is current in no more blocks than it is long.
-/
namespace FuryNode
open StatefulProgram StatefulProgram.Prog KeyedTable KeyedTable.Table ClpKeeper
variable {β : Type}

/-- The fury that a bank was asked to mint so far: transfers and burns leave the count alone. -/
structure MintCount (bank : BankKeeper β) where
  minted : β → ℤ
  sent : ∀ b b' senderModule recipient amt,
    bank.sendCoinsFromModuleToAccount b senderModule recipient amt = .ok b' → minted b' = minted b
  burned : ∀ b b' moduleName amt, bank.burnCoins b moduleName amt = .ok b' → minted b' = minted b
  mints : ∀ b b' moduleName amt, bank.mintCoins b moduleName amt = .ok b' →
    minted b' = minted b + amountOf amt nativeSymbol

section Emission
variable {env : Env β} (count : MintCount env.bank)

/-- What the rewards of a block depend on, with the count. -/
def emission (w : World β) : ℤ × List RewardPeriod × ℕ × ℤ :=
  (w.height, w.clp.rewardPeriods, w.blockDistributionAccu, count.minted w.bank)

theorem bankCall_emission {call : β → Except BankFailure β}
    (kept : ∀ b b', call b = .ok b' → count.minted b' = count.minted b) :
    Preserves (emission count) (bankCall call) := by
  intro w
  rcases ran : (bankCall call).run w with ⟨result, t⟩
  cases result with
  | ok _ =>
    obtain ⟨b, called, rfl⟩ := (bankCall_meets call w).ok _ t ran
    simp [emission, kept _ _ called]
  | error _ => rw [((bankCall_meets call w).error _ t ran).1]

@[grind ←] theorem send_emission (recipient : AccAddress) (coins : Coins) :
    Preserves (emission count) (sendCoinsFromModuleToAccount env recipient coins) :=
  bankCall_emission count fun _ _ => count.sent _ _ _ _ _

@[grind ←] theorem burnFury_emission (amount : ℕ) : Preserves (emission count) (burnFury env amount) :=
  preserves_ofExcept_then fun _ => preserves_ofExcept_then fun _ =>
    bankCall_emission count fun _ _ => count.burned _ _ _ _

@[grind ←] theorem emit_emission (event : Event) : Preserves (emission count) (emit event) :=
  preserves_modify fun _ => rfl

@[grind ←] theorem setPool_emission (pool : Pool) : Preserves (emission count) (setPool env pool) :=
  preserves_ofExcept_then fun _ => preserves_require_then fun _ => preserves_modify fun _ => rfl

@[grind ←] theorem ignoreError_emission {p : Action β Unit} (inner : Preserves (emission count) p) :
    Preserves (emission count) (Action.ignoreError p) := by
  unfold Action.ignoreError
  grind

@[grind ←] theorem filterValid_emission (lps : List LiquidityProvider) :
    Preserves (emission count) (filterValidLiquidityProviders env lps) := by
  induction lps with
  | nil => exact preserves_pure _
  | cons lp rest ih =>
    unfold filterValidLiquidityProviders
    grind

@[grind ←] theorem collectShares_emission (pool : Pool) (depth : ℕ) (rate : Dec)
    (state : PoolFuryMap × Collected) :
    Preserves (emission count) (collectShares env pool depth rate state) := by
  unfold collectShares
  grind

@[grind ←] theorem transfer_emission (order : MapOrder) (poolFury : PoolFuryMap) (maps : Collected)
    (errorKind successKind : String) : Preserves (emission count)
      (transferProviderDistributionGeneric env order poolFury maps errorKind successKind) := by
  unfold transferProviderDistributionGeneric payRecipient
  refine preserves_accumulate (fun _ _ => ?_) _ _
  grind

theorem policyRun_emission (order : MapOrder) :
    Preserves (emission count) (providerDistributionPolicyRun env order) := by
  unfold providerDistributionPolicyRun doProviderDistribution collectProviderDistributions collectPool
    transferProviderDistribution removeFuryFromPool
  grind

@[grind ←] theorem addRewards_emission (pool : Pool) (reward : ℕ) :
    Preserves (emission count) (addRewardsToPool env pool reward) := by
  unfold addRewardsToPool
  grind

@[grind ←] theorem payRewards_emission (order : MapOrder) (tuples : List PoolReward) (coins before : ℕ) :
    Preserves (emission count) (payRewards env order tuples coins before) := by
  unfold payRewards collectReward countDistributed burnUnpaid
  refine preserves_bind ?_ fun _ => preserves_bind ?_ fun _ => preserves_bind ?_ fun _ =>
    preserves_bind ?_ fun _ => ?_ <;> grind

/-- Nothing is minted, or the sum of tuples in which no pool comes twice. -/
def MintsWithin (d : ℕ) (period : RewardPeriod) (t u : World β) : Prop :=
  count.minted u.bank = count.minted t.bank ∨
    ∃ pools depth tuples coins, collectPoolRewardTuples pools d depth period = .ok (tuples, coins) ∧
      (tuples.map fun e => e.pool.key).Nodup ∧ (tuples.map PoolReward.reward).sum = coins ∧ coins ≤ d ∧
      count.minted u.bank = count.minted t.bank + coins

theorem calcTotalDepth_copies {pools : List Pool} {period : RewardPeriod} {height : ℕ} {r : World β} :
    Meets (calcTotalDepth env pools period height) r
      (fun result t => result.2.map Pool.key = pools.map Pool.key ∧ emission count t = emission count r)
      (fun _ t => emission count t = emission count r) := by
  refine meets_mono _ (meets_accumulate (I := fun rest state t =>
    state.2.map Pool.key ++ rest.map Pool.key = pools.map Pool.key ∧
      emission count t = emission count r) _ pools _ ?_ ⟨rfl, rfl⟩) ?_ (fun _ _ kept => kept)
  · rintro pool rest state t ⟨keys, kept⟩
    unfold addDepth
    refine meets_ofExcept_then (fun _ _ => ?_) (fun _ _ => kept)
    refine meets_ofExcept_then (fun _ _ => ?_) (fun _ _ => kept)
    refine meets_bind (meets_mono _ (preserves_when (setPool_emission count _) |>.meets t)
      (fun _ _ same => same.trans kept) (fun _ _ same => same.trans kept)) ?_
    intro _ u still
    refine meets_pure ⟨?_, still⟩
    simpa [Pool.key, resetDistributed_asset] using keys
  · rintro result t ⟨keys, kept⟩
    exact ⟨by simpa using keys, kept⟩

theorem emission_minted {t u : World β} (same : emission count u = emission count t) :
    count.minted u.bank = count.minted t.bank := congrArg (·.2.2.2) same

/-- However a distribution ends, it mints what its tuples sum to, and no more than it was passed. -/
theorem distributeDepthRewards_mints (order : MapOrder) (d : ℕ) (period : RewardPeriod) (t : World β) :
    Meets (distributeDepthRewards env order d period t.pools.rows) t
      (fun _ => MintsWithin count d period t) (fun _ => MintsWithin count d period t) := by
  unfold distributeDepthRewards
  refine meets_read_then (meets_bind (P := fun _ v => emission count v = emission count t)
    (meets_when (fun _ => meets_modify rfl) (fun _ => rfl)) ?_)
  intro _ v start
  refine meets_when (fun _ => ?_) (fun _ => Or.inl (emission_minted count start))
  refine meets_bind (meets_mono _ (calcTotalDepth_copies count) (fun _ _ done => done)
    (fun _ _ same => Or.inl (emission_minted count (same.trans start)))) ?_
  rintro ⟨depth, copies⟩ x ⟨keys, same⟩
  have before := emission_minted count (same.trans start)
  refine meets_when (fun _ => ?_) (fun _ => Or.inl before)
  refine meets_ofExcept_then ?_ (fun _ _ => Or.inl before)
  rintro ⟨tuples, coins⟩ collected
  obtain ⟨_, sum, within⟩ := collectTuples_rewards _ _ _ _ _ _ _ _ collected
  have once : (tuples.map fun e => e.pool.key).Nodup := by
    have listed := (collectTuples_pools _ _ _ _ _ _ _ _ collected).map Pool.key
    rw [List.map_map, keys] at listed
    exact t.pools.distinct.sublist listed
  refine meets_read_then (meets_bind (meets_mono _ (mintRewards_effect env) (fun _ _ done => done)
    (fun _ _ failed => failed ▸ Or.inl before)) ?_)
  rintro _ y ⟨b, amt, amounts, minted, rfl⟩
  have raised := count.mints _ _ _ _ minted
  rw [amounts, if_pos rfl, before] at raised
  have paid : Preserves (emission count) (if period.rewardPeriodDistribute then
      payRewards env order tuples coins (getModuleFury env x)
    else do
      forEach (fun e => addRewardsToPool env e.pool e.reward) tuples
      emit (.rewards "rewards/accumulation" coins (tuples.map fun e => ⟨e.pool.externalAsset, e.reward⟩))) := by
    grind
  have done : ∀ u, emission count u = emission count { x with bank := b } →
      MintsWithin count d period t u := by
    intro u same
    exact Or.inr ⟨copies, depth, tuples, coins, collected, once, by omega, by omega,
      (emission_minted count same).trans raised⟩
  exact meets_mono _ (paid.meets _) (fun _ u => done u) (fun _ u => done u)

def perBlock (period : RewardPeriod) : ℕ := (calcBlockDistribution period).toOption.getD 0

/-- What the current period allots to a block. -/
def allotment (w : World β) : ℕ := (getCurrentRewardPeriod w).elim 0 perBlock

theorem perBlock_quotient (period : RewardPeriod) :
    perBlock period = period.rewardPeriodAllocation.getD 0 /
      uint64OfInt ((period.rewardPeriodEndBlock : ℤ) - period.rewardPeriodStartBlock + 1) := by
  unfold perBlock calcBlockDistribution Uint.quo
  cases period.rewardPeriodAllocation with
  | none => simp [deref, bind, Except.bind, Except.toOption]
  | some n =>
    simp only [deref, bind, Except.bind]
    split <;> simp_all [Except.toOption]

/-- The amount and the period that the end of a block passes to `DistributeDepthRewards`. -/
def rewardCall (w : World β) : Option (ℕ × RewardPeriod) :=
  (getCurrentRewardPeriod w).bind fun period =>
    if period.rewardPeriodAllocation ≠ some 0 ∧
        isDistributionBlockPure w.height period.rewardPeriodStartBlock period.rewardPeriodMod = .ok true
    then some (w.blockDistributionAccu + allotment w, period) else none

/-- The call of a block and its effect. -/
def Called (order : MapOrder) (d : ℕ) (period : RewardPeriod) (w w' : World β) : Prop :=
  ∃ t u r, count.minted t.bank = count.minted w.bank ∧
    (distributeDepthRewards env order d period t.pools.rows).run t = (r, u) ∧
    w' = { u with blockDistributionAccu := 0 } ∧ MintsWithin count d period t u

def Emits (order : MapOrder) (w w' : World β) : Prop :=
  match rewardCall w with
  | none => w'.blockDistributionAccu = w.blockDistributionAccu + allotment w ∧
      count.minted w'.bank = count.minted w.bank
  | some (d, period) => d = w.blockDistributionAccu + allotment w ∧ Called count order d period w w'

theorem rewardDepth_emits (order : MapOrder) {w t : World β} (same : emission count t = emission count w) :
    Meets (rewardDepth env order) t (fun _ => Emits count order w) (fun _ _ => True) := by
  simp only [emission, Prod.mk.injEq] at same
  obtain ⟨height, periods, accu, minted⟩ := same
  have current : getCurrentRewardPeriod t = getCurrentRewardPeriod w := by
    simp only [getCurrentRewardPeriod, height, periods]
  unfold rewardDepth
  refine meets_read_then ?_
  rw [current]
  split
  · rename_i none
    exact meets_pure (by simp [Emits, rewardCall, allotment, none, accu, minted])
  · rename_i period active
    refine meets_ofExcept_then (fun allocation stored => ?_) (fun _ _ => trivial)
    have present : period.rewardPeriodAllocation = some allocation := by
      cases held : period.rewardPeriodAllocation with
      | none => simp [held, deref] at stored
      | some n => simpa [held, deref] using stored
    refine meets_when ?_ ?_
    · intro nonzero
      refine meets_ofExcept_then (fun distributes decided => ?_) (fun _ _ => trivial)
      refine meets_ofExcept_then (fun share computed => ?_) (fun _ _ => trivial)
      refine meets_ofExcept_then (fun total added => ?_) (fun _ _ => trivial)
      obtain ⟨_, rfl⟩ := (Uint.add_succeeds _ _ _).mp added
      have allotted : allotment w = share := by simp [allotment, active, perBlock, computed, Except.toOption]
      rw [height] at decided
      rw [accu]
      cases distributes with
      | false => exact meets_modify (by simp [Emits, rewardCall, active, decided, allotted, minted])
      | true =>
        have call : rewardCall w = some (w.blockDistributionAccu + share, period) := by
          simp [rewardCall, active, present, nonzero, decided, allotted]
        have mints := distributeDepthRewards_mints count order (w.blockDistributionAccu + share) period t
        refine meets_bind (P := fun _ v => ∃ r, (distributeDepthRewards env order
          (w.blockDistributionAccu + share) period t.pools.rows).run t = (r, v) ∧
            MintsWithin count (w.blockDistributionAccu + share) period t v) ?_ ?_
        · exact Action.meets_ignoreError ⟨fun _ v run => ⟨_, run, mints.ok _ v run⟩, fun e v run => by
            cases e with | err _ => exact ⟨_, run, mints.error _ v run⟩ | panic _ => trivial⟩
        · rintro _ v ⟨r, run, within⟩
          refine meets_modify ?_
          rw [Emits, call]
          exact ⟨by rw [allotted], t, v, r, minted, run, rfl, within⟩
    · intro zero
      obtain rfl := not_not.mp zero
      have none : allotment w = 0 := by simp [allotment, active, perBlock_quotient, present]
      simp [Emits, rewardCall, active, present, none, accu, minted]

theorem endBlocker_emits (order : MapOrder) (w : World β) :
    Meets (endBlocker env order) w (fun _ => Emits count order w) (fun _ _ => True) := by
  unfold endBlocker
  refine meets_read_then (meets_ofExcept_then (fun _ _ => ?_) (fun _ _ => trivial))
  refine meets_bind (meets_mono _ (preserves_when (policyRun_emission count order) |>.meets w)
    (fun _ _ same => same) (fun _ _ _ => trivial)) ?_
  exact fun _ t same => rewardDepth_emits count order same

structure EndedBlock (β : Type) where
  order : MapOrder
  before : World β
  after : World β

/-- Blocks at consecutive heights, the last one first, that all ended; between them everything may
    change but the accumulator and the reward periods. Heights are `int64` and not negative. -/
inductive EmissionRun (env : Env β) (periods : List RewardPeriod) (c₀ : ℕ) :
    ℤ → ℕ → List (EndedBlock β) → Prop
  | start (height : ℤ) (real : -1 ≤ height) : EmissionRun env periods c₀ height c₀ []
  | block (height : ℤ) (accu : ℕ) (blocks : List (EndedBlock β)) (b : EndedBlock β)
      (run : EmissionRun env periods c₀ height accu blocks) (next : b.before.height = height + 1)
      (real : b.before.height < 2 ^ 63) (carried : b.before.blockDistributionAccu = accu)
      (fixed : b.before.clp.rewardPeriods = periods)
      (ended : (endBlocker env b.order).run b.before = (.ok (), b.after)) :
      EmissionRun env periods c₀ (height + 1) b.after.blockDistributionAccu (b :: blocks)

def passed (w : World β) : ℕ := (rewardCall w).elim 0 Prod.fst

variable {periods : List RewardPeriod} {c₀ accu : ℕ} {height : ℤ} {blocks : List (EndedBlock β)}

theorem run_emits (run : EmissionRun env periods c₀ height accu blocks) :
    (blocks.map fun b => passed b.before).sum + accu =
        c₀ + (blocks.map fun b => allotment b.before).sum ∧
      (blocks.map fun b => count.minted b.after.bank - count.minted b.before.bank).sum ≤
        (blocks.map fun b => passed b.before).sum ∧
      ∀ b ∈ blocks, ∀ d period, rewardCall b.before = some (d, period) →
        Called count b.order d period b.before b.after := by
  induction run with
  | start => simp
  | block height accu blocks b run next real carried fixed ended ih =>
    obtain ⟨balance, bounded, called⟩ := ih
    have effect := (endBlocker_emits count b.order b.before).ok _ _ ended
    unfold Emits at effect
    simp only [List.map_cons, List.sum_cons, List.forall_mem_cons, Nat.cast_add]
    cases call : rewardCall b.before with
    | none =>
      rw [call] at effect
      have none : passed b.before = 0 := by simp [passed, call]
      exact ⟨by omega, by omega, by simp, called⟩
    | some pair =>
      obtain ⟨d, period⟩ := pair
      rw [call] at effect
      obtain ⟨total, calls⟩ := effect
      have amount : passed b.before = d := by simp [passed, call]
      obtain ⟨t, u, r, same, ran, after, mints⟩ := id calls
      have zero : b.after.blockDistributionAccu = 0 := by rw [after]
      have minted : count.minted b.after.bank - count.minted b.before.bank ≤ d := by
        rw [after]
        rcases mints with none | ⟨_, _, _, coins, _, _, _, within, raised⟩ <;> dsimp only <;> omega
      refine ⟨by omega, by omega, ?_, called⟩
      rintro _ _ ⟨⟩
      exact calls

theorem run_heights (run : EmissionRun env periods c₀ height accu blocks) :
    -1 ≤ height ∧ (∀ b ∈ blocks, 0 ≤ b.before.height ∧ b.before.height ≤ height ∧
      b.before.height < 2 ^ 63 ∧ b.before.clp.rewardPeriods = periods) ∧
      (blocks.map fun b => b.before.height).Nodup := by
  induction run with
  | start height real => simpa using real
  | block height accu blocks b run next real carried fixed ended ih =>
    obtain ⟨start, inside, distinct⟩ := ih
    refine ⟨by omega, ?_, ?_⟩
    · rintro c (_ | ⟨_, member⟩)
      · exact ⟨by omega, by omega, real, fixed⟩
      · obtain ⟨low, high, rest⟩ := inside c member
        exact ⟨low, by omega, rest⟩
    · refine List.nodup_cons.mpr ⟨?_, distinct⟩
      intro member
      obtain ⟨c, listed, same⟩ := List.mem_map.mp member
      have high := (inside c listed).2.1
      dsimp only at same
      omega

theorem current_covers {w : World β} {period : RewardPeriod} (low : 0 ≤ w.height)
    (high : w.height < 2 ^ 63) (current : getCurrentRewardPeriod w = some period) :
    (∃ p ∈ w.clp.rewardPeriods, p.rewardPeriodStartBlock = period.rewardPeriodStartBlock ∧
      p.rewardPeriodEndBlock = period.rewardPeriodEndBlock) ∧
      period.rewardPeriodStartBlock ≤ w.height.toNat ∧ w.height.toNat ≤ period.rewardPeriodEndBlock := by
  obtain ⟨p, found, rfl⟩ := Option.map_eq_some_iff.mp current
  have covers := List.find?_some found
  rw [uint64OfInt_small _ low (by omega)] at covers
  simp only [Bool.and_eq_true, decide_eq_true_eq] at covers
  refine ⟨⟨p, List.mem_of_find?_eq_some found, ?_⟩, ?_⟩
  · split <;> simp
  · split <;> simpa using covers

/-- A period is current in no more blocks than it is long. -/
theorem current_count (run : EmissionRun env periods c₀ height accu blocks) (period : RewardPeriod) :
    (blocks.filterMap fun b => getCurrentRewardPeriod b.before).count period ≤
      period.rewardPeriodEndBlock + 1 - period.rewardPeriodStartBlock := by
  obtain ⟨_, inside, distinct⟩ := run_heights run
  rw [List.count_filterMap, List.countP_eq_length_filter]
  have during : ∀ b ∈ blocks.filter fun b => getCurrentRewardPeriod b.before == some period,
      0 ≤ b.before.height ∧ period.rewardPeriodStartBlock ≤ b.before.height.toNat ∧
        b.before.height.toNat ≤ period.rewardPeriodEndBlock := by
    intro b member
    obtain ⟨listed, current⟩ := List.mem_filter.mp member
    obtain ⟨low, _, high, _⟩ := inside b listed
    exact ⟨low, (current_covers low high (beq_iff_eq.mp current)).2⟩
  have covered : (blocks.filter fun b => getCurrentRewardPeriod b.before == some period).map
      (fun b => b.before.height) ⊆ (List.range' period.rewardPeriodStartBlock
        (period.rewardPeriodEndBlock + 1 - period.rewardPeriodStartBlock)).map Int.ofNat := by
    intro h member
    obtain ⟨b, listed, rfl⟩ := List.mem_map.mp member
    obtain ⟨low, after, before⟩ := during b listed
    refine List.mem_map.mpr ⟨b.before.height.toNat, List.mem_range'_1.mpr (by omega), ?_⟩
    exact Int.toNat_of_nonneg low
  simpa using (List.subperm_of_subset (distinct.sublist (List.filter_sublist.map _)) covered).length_le

theorem allotments_current (blocks : List (EndedBlock β)) :
    (blocks.map fun b => allotment b.before).sum =
      ((blocks.filterMap fun b => getCurrentRewardPeriod b.before).map perBlock).sum := by
  induction blocks with
  | nil => rfl
  | cons b rest ih =>
    cases current : getCurrentRewardPeriod b.before with
    | none => simpa [allotment, current] using ih
    | some period => simpa [allotment, current] using ih

/-- Along a run of ended blocks the amounts passed on and the accumulator are the first accumulator
    and the allotments; every call mints at most its amount, in tuples with each pool at most once;
    and no more is minted than the first accumulator and the allocations of the periods that were current. -/
theorem emission_bounded (count : MintCount env.bank) (lengths : ∀ p ∈ periods,
      (p.rewardPeriodEndBlock : ℤ) - p.rewardPeriodStartBlock + 1 < 2 ^ 64)
    (run : EmissionRun env periods c₀ height accu blocks) :
    (blocks.map fun b => passed b.before).sum + accu =
        c₀ + (blocks.map fun b => allotment b.before).sum ∧
      (∀ b ∈ blocks, ∀ d period, rewardCall b.before = some (d, period) →
        Called count b.order d period b.before b.after) ∧
      (blocks.map fun b => count.minted b.after.bank - count.minted b.before.bank).sum ≤
        c₀ + ∑ p ∈ (blocks.filterMap fun b => getCurrentRewardPeriod b.before).toFinset,
          p.rewardPeriodAllocation.getD 0 := by
  obtain ⟨balance, minted, called⟩ := run_emits count run
  obtain ⟨_, inside, _⟩ := run_heights run
  refine ⟨balance, called, ?_⟩
  have allotted : (blocks.map fun b => allotment b.before).sum ≤
      ∑ p ∈ (blocks.filterMap fun b => getCurrentRewardPeriod b.before).toFinset,
        p.rewardPeriodAllocation.getD 0 := by
    rw [allotments_current, Finset.sum_list_map_count]
    refine Finset.sum_le_sum fun period member => ?_
    obtain ⟨b, listed, current⟩ := List.mem_filterMap.mp (List.mem_toFinset.mp member)
    obtain ⟨low, _, high, fixed⟩ := inside b listed
    obtain ⟨⟨p, stored, first, last⟩, after, before⟩ := current_covers low high current
    have length := lengths p (fixed ▸ stored)
    rw [first, last] at length
    rw [perBlock_quotient, uint64OfInt_small _ (by omega) length]
    calc _ ≤ _ := Nat.mul_le_mul_right _ (current_count run period)
      _ ≤ period.rewardPeriodAllocation.getD 0 := by
        have same : ((period.rewardPeriodEndBlock : ℤ) - period.rewardPeriodStartBlock + 1).toNat =
          period.rewardPeriodEndBlock + 1 - period.rewardPeriodStartBlock := by omega
        rw [same]
        exact Nat.mul_div_le _ _
  omega

end Emission

namespace CountedBank
open SuppliedBank

/-- The bank with supplies, except that burns leave them alone. -/
def bank : BankKeeper Accounts :=
  { SuppliedBank.bank with
    burnCoins := fun b moduleName amt => lift (fun b => LedgerBank.bank.burnCoins b moduleName amt) 0 amt b
    burn_removes := fun _ _ _ _ burned => LedgerBank.bank.burn_removes _ _ _ _ (lift_ok burned).1
    burn_succeeds := by
      intro b moduleName amt burner enough
      obtain ⟨balances, burned⟩ := LedgerBank.bank.burn_succeeds b.balances moduleName amt burner enough
      exact ⟨_, by simp only [lift, burned]; rfl⟩ }

def env : Env Accounts := { SuppliedBank.env with bank := bank }

def count : MintCount env.bank where
  minted b := b.supply nativeSymbol
  sent b b' senderModule recipient amt done := by
    dsimp only [env, bank, SuppliedBank.bank] at done
    simp [(lift_ok done).2]
  burned b b' moduleName amt done := by
    dsimp only [env, bank] at done
    simp [(lift_ok done).2]
  mints b b' moduleName amt done := by
    dsimp only [env, bank, SuppliedBank.bank] at done
    simp [(lift_ok done).2]

def period : RewardPeriod := ⟨"rp", 1, 4, some 41, [], ⟨10 ^ 18⟩, false, 2⟩

def ended (w : World Accounts) : EndedBlock Accounts := ⟨.asWritten, w, ((endBlocker env .asWritten).run w).2⟩

def next (b : EndedBlock Accounts) : World Accounts := { b.after with height := b.before.height + 1 }

theorem run_ended {height : ℤ} {accu : ℕ} {blocks : List (EndedBlock Accounts)} (w : World Accounts)
    (run : EmissionRun env [period] 7 height accu blocks) (follows : w.height = height + 1)
    (real : w.height < 2 ^ 63) (carried : w.blockDistributionAccu = accu)
    (fixed : w.clp.rewardPeriods = [period]) (returned : ((endBlocker env .asWritten).run w).1 = .ok ()) :
    EmissionRun env [period] 7 (height + 1) (ended w).after.blockDistributionAccu (ended w :: blocks) := by
  refine .block height accu blocks (ended w) run follows real carried fixed ?_
  dsimp only [ended]
  exact run_of_returned returned

def start : World Accounts :=
  { LedgerBank.pooled with
    bank := ⟨LedgerBank.pooled.bank, fun _ => 0⟩
    height := 1
    clp := { LedgerBank.pooled.clp with rewardPeriods := [period] }
    blockDistributionAccu := 7 }

def second : EndedBlock Accounts := ended (next (ended start))

def third : EndedBlock Accounts := ended (next second)

theorem three_blocks_run : ∃ accu, EmissionRun env [period] 7 3 accu [third, second, ended start] := by
  have one := run_ended start (.start 0 (by decide)) rfl (by decide) rfl rfl (by decide +kernel)
  have two := run_ended (next (ended start)) one rfl (by decide) (by simp only [next]) (by decide +kernel)
    (by decide +kernel)
  exact ⟨_, run_ended (next (ended (next (ended start)))) two rfl (by decide) (by simp only [next])
    (by decide +kernel) (by decide +kernel)⟩

/-- Forty-one over four blocks, distributed in every second one: seventeen and then twenty are minted. -/
theorem three_blocks_emit :
    let minted := ([third, second, ended start].map fun b =>
      count.minted b.after.bank - count.minted b.before.bank).sum
    minted = 37 ∧ minted ≤ 7 + 41 := by
  obtain ⟨_, run⟩ := three_blocks_run
  have bounded := (emission_bounded count (by decide) run).2.2
  exact ⟨by decide +kernel, bounded.trans (by decide +kernel)⟩

end CountedBank

end FuryNode
