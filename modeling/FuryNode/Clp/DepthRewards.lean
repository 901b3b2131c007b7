import FuryNode.Clp.DistributionEffects
import FuryNode.Clp.Solvency

/-!
Where the minted rewards of a block go. Coins for providers leave the module account and
what is left of the minting is burned, so a reward credited to a pool without providers
has no coins behind it. When rewards are only accumulated, every one is backed.
-/
namespace FuryNode
open StatefulProgram StatefulProgram.Prog KeyedTable KeyedTable.Table ClpKeeper
variable {β : Type} (env : Env β) (w : World β)

/-- Every pool passed the check of `SetPool`, through which all pools are stored. -/
def PoolsValid (env : Env β) (pools : List Pool) : Prop :=
  ∀ p ∈ pools, assetValidate env p.externalAsset = .ok true

def SameClaims (before after : Table Pool.key) : Prop :=
  ∀ k, (after.get k).map nativeClaim = (before.get k).map nativeClaim

def TracksClaim (pools : Table Pool.key) (pool : Pool) : Prop :=
  (pools.get pool.key).map nativeClaim = some (nativeClaim pool)

variable {pools : Table Pool.key} {pool : Pool} {r t : World β} {e : PoolReward}
  {rest tuples : List PoolReward} {coinsToMint blockDistribution : ℕ} {period : RewardPeriod}

theorem tracksClaim_rows (pool : Pool) (member : pool ∈ pools.rows) : TracksClaim pools pool := by
  have found : pools.get pool.key = some pool := get_row member
  simp [TracksClaim, found]

theorem sameClaims_tracks {before after : Table Pool.key} (same : SameClaims before after)
    (tracks : TracksClaim before pool) : TracksClaim after pool :=
  (same pool.key).trans tracks

theorem put_sameClaims {before now : Table Pool.key} (pool : Pool)
    (same : SameClaims before now) (tracks : TracksClaim before pool) :
    SameClaims before (now.put pool) := by
  intro k
  rw [get_put]
  split
  · rename_i key
    exact key ▸ tracks.symm
  · exact same k

theorem put_grows {pools : Table Pool.key} {grown : Pool} (key : grown.key = pool.key)
    (tracks : TracksClaim pools pool) :
    total nativeClaim (pools.put grown) =
      total nativeClaim pools + (nativeClaim grown - nativeClaim pool) := by
  have sum := total_put nativeClaim pools grown
  have value : valueAt nativeClaim pools grown.key = nativeClaim pool := by
    rw [key, valueAt, tracks, Option.getD_some]
  omega

theorem put_other_tracks {grown : Pool} (other : grown.key ≠ pool.key)
    (tracks : TracksClaim pools pool) : TracksClaim (pools.put grown) pool := by
  rw [TracksClaim, get_put_other _ _ _ other]
  exact tracks

theorem setPool_valid (pool : Pool) (r : World β)
    (valid : assetValidate env pool.externalAsset = .ok true) :
    Meets (setPool env pool) r (fun _ t => t = { r with pools := r.pools.put pool })
      (fun _ _ => False) := by
  unfold setPool
  rw [valid]
  refine meets_ofExcept_then ?_ (fun _ failed => by cases failed)
  intro passed same
  cases same
  exact meets_require_then (fun _ => meets_modify rfl) (fun refused => refused rfl)

theorem ignored_setPool_valid (r : World β)
    (valid : assetValidate env pool.externalAsset = .ok true) :
    Meets (Action.ignoreError (setPool env pool)) r
      (fun _ t => t = { r with pools := r.pools.put pool }) (fun _ _ => False) :=
  Action.meets_ignoreError (meets_mono _ (setPool_valid env pool r valid) (fun _ _ written => written)
    (fun _ _ never => never.elim))

def depthFrom (period : RewardPeriod) (depth : Dec) (pools : List Pool) : Fallible Dec :=
  pools.foldlM (fun sum pool => do
    let weighted ← (Dec.ofInt pool.nativeAssetBalance).mul
      (getPoolMultiplier pool.externalAsset period)
    sum.add weighted) depth

/-- Bank and providers are untouched and no claim has changed. -/
structure KeepsClaims (w t : World β) : Prop where
  bank : t.bank = w.bank
  providers : t.providers = w.providers
  claims : SameClaims w.pools t.pools

theorem resetDistributed_asset (period : RewardPeriod) (height : ℕ) (pool : Pool) :
    (resetDistributed period height pool).externalAsset = pool.externalAsset := by
  unfold resetDistributed
  split <;> rfl

theorem resetDistributed_balance (period : RewardPeriod) (height : ℕ) (pool : Pool) :
    (resetDistributed period height pool).nativeAssetBalance = pool.nativeAssetBalance := by
  unfold resetDistributed
  split <;> rfl

theorem resetDistributed_claim (period : RewardPeriod) (height : ℕ)
    (tracks : TracksClaim pools pool) :
    TracksClaim pools (resetDistributed period height pool) := by
  unfold resetDistributed
  split
  · exact tracks
  · exact tracks

theorem addDepth_effect (period : RewardPeriod) (height : ℕ) (state : Dec × List Pool) {w : World β}
    (valid : assetValidate env pool.externalAsset = .ok true) (tracks : TracksClaim w.pools pool)
    (kept : KeepsClaims w r) :
    Meets (addDepth env period height state pool) r
      (fun result t => KeepsClaims w t ∧ depthFrom period state.1 [pool] = .ok result.1 ∧
        result.2 = state.2 ++ [resetDistributed period height pool])
      (fun f _ => IsPanic f) := by
  have copy := resetDistributed_claim period height tracks
  unfold addDepth
  refine meets_ofExcept_then (fun weighted first => ?_) (show FailsOnly _ IsPanic by simp)
  refine meets_ofExcept_then (fun sum second => ?_) (show FailsOnly _ IsPanic by simp)
  have depth : depthFrom period state.1 [pool] = .ok sum := by
    simp [depthFrom, first, second, bind, Except.bind, pure, Except.pure]
  refine meets_bind (P := fun _ => KeepsClaims w) ?_ ?_
  · refine meets_when (fun _ => ?_) (fun _ => kept)
    refine meets_mono _ (setPool_valid env _ r (resetDistributed_asset period height pool ▸ valid))
      ?_ (fun _ _ never => never.elim)
    rintro _ t rfl
    exact ⟨kept.bank, kept.providers, put_sameClaims _ kept.claims copy⟩
  · intro _ t still
    exact meets_pure ⟨still, depth, rfl⟩

/-- The depth is computed from the pools alone, and the copies only differ in a counter. -/
theorem calcTotalDepth_effect {pools : List Pool} (period : RewardPeriod) {height : ℕ} {w : World β}
    (valid : PoolsValid env pools) (copies : ∀ p ∈ pools, TracksClaim w.pools p)
    (kept : KeepsClaims w r) : Meets (calcTotalDepth env pools period height) r
      (fun result t => KeepsClaims w t ∧ depthFrom period Dec.zero pools = .ok result.1 ∧
        result.2 = pools.map (resetDistributed period height))
      (fun f _ => IsPanic f) := by
  refine meets_mono _ (meets_accumulate (I := fun rest state t =>
      (∀ p ∈ rest, p ∈ pools) ∧ KeepsClaims w t ∧
      depthFrom period state.1 rest = depthFrom period Dec.zero pools ∧
      state.2 ++ rest.map (resetDistributed period height) =
        pools.map (resetDistributed period height)) _ pools _ ?_
    ⟨fun _ member => member, kept, rfl, rfl⟩) ?_ (fun _ _ failed => failed)
  · rintro pool rest state t ⟨inside, now, depth, made⟩
    have member := inside pool (by simp)
    refine meets_mono _ (addDepth_effect env period height state (valid pool member)
      (copies pool member) now) ?_ (fun _ _ failed => failed)
    rintro result u ⟨still, first, copied⟩
    refine ⟨fun p later => inside p (by simp [later]), still, ?_, ?_⟩
    · rw [← depth, depthFrom, depthFrom, List.foldlM_cons]
      simp only [depthFrom, List.foldlM_cons, List.foldlM_nil] at first
      obtain ⟨sum, added, same⟩ := except_bind_succeeds.mp first
      cases except_pure_succeeds.mp same
      rw [added]
      rfl
    · rw [copied, ← made, List.map_cons, List.append_assoc, List.singleton_append]
  · rintro result t ⟨_, still, depth, made⟩
    refine ⟨still, depth.symm, ?_⟩
    simpa using made

def copyTuples (period : RewardPeriod) (height : ℕ) (rewards : List PoolReward × ℕ) :
    List PoolReward × ℕ :=
  (rewards.1.map (fun e => ⟨resetDistributed period height e.pool, e.reward⟩), rewards.2)

theorem collectTuples_copy (blockDistribution : ℕ) (totalDepth : Dec) (period : RewardPeriod)
    (height : ℕ) (pools : List Pool) (remaining coins : ℕ) :
    collectTuples blockDistribution totalDepth period
        (pools.map (resetDistributed period height)) remaining coins =
      (collectTuples blockDistribution totalDepth period pools remaining coins).map
        (copyTuples period height) := by
  induction pools generalizing remaining coins with
  | nil => rfl
  | cons pool rest ih =>
    rw [List.map_cons, collectTuples, collectTuples, resetDistributed_asset,
      resetDistributed_balance]
    split
    · rfl
    · cases calcPoolDistribution (getPoolMultiplier pool.externalAsset period)
        pool.nativeAssetBalance totalDepth blockDistribution with
      | error f => rfl
      | ok share =>
        simp only [bind, Except.bind]
        split
        · exact ih remaining coins
        · cases Uint.add coins (min share remaining) with
          | error f => rfl
          | ok minted =>
            cases Uint.sub remaining (min share remaining) with
            | error f => rfl
            | ok left =>
              simp only [ih]
              cases collectTuples blockDistribution totalDepth period rest left minted <;> rfl

theorem collectTuples_rewards (blockDistribution : ℕ) (totalDepth : Dec) (period : RewardPeriod)
    (pools : List Pool) (remaining coins minted : ℕ) (tuples : List PoolReward)
    (computed : collectTuples blockDistribution totalDepth period pools remaining coins =
      .ok (tuples, minted)) :
    (∀ e ∈ tuples, 0 < e.reward) ∧ minted = coins + (tuples.map PoolReward.reward).sum ∧
      minted ≤ coins + remaining := by
  induction pools generalizing remaining coins tuples with
  | nil =>
    cases except_pure_succeeds.mp computed
    simp
  | cons pool rest ih =>
    rw [collectTuples] at computed
    split at computed
    · cases except_pure_succeeds.mp computed
      simp
    · rename_i funded
      obtain ⟨share, _, computed⟩ := except_bind_succeeds.mp computed
      split at computed
      · exact ih remaining coins tuples computed
      · rename_i shared
        obtain ⟨sum, added, computed⟩ := except_bind_succeeds.mp computed
        obtain ⟨left, taken, computed⟩ := except_bind_succeeds.mp computed
        obtain ⟨⟨later, total⟩, folded, computed⟩ := except_bind_succeeds.mp computed
        cases except_pure_succeeds.mp computed
        obtain ⟨_, rfl⟩ := (Uint.add_succeeds _ _ _).mp added
        obtain ⟨_, rfl⟩ := (Uint.sub_succeeds _ _ _).mp taken
        have tail := ih _ (coins + min share remaining) later folded
        refine ⟨?_, ?_, by omega⟩
        · intro e member
          rcases List.mem_cons.mp member with rfl | inside
          · have positive : 0 < min share remaining := by omega
            exact positive
          · exact tail.1 e inside
        · have sums := tail.2.1
          simp only [List.map_cons, List.sum_cons]
          omega

/-- The rewards of a block: none without anything to distribute or without depth. -/
def rewardsOf (blockDistribution : ℕ) (period : RewardPeriod) (pools : List Pool) :
    List PoolReward :=
  match depthFrom period Dec.zero pools with
  | .error _ => []
  | .ok depth =>
      if blockDistribution ≠ 0 ∧ Dec.zero.lt depth then
        match collectPoolRewardTuples pools blockDistribution depth period with
        | .error _ => []
        | .ok (tuples, _) => tuples
      else []

def unbackedRewards (w : World β) (rewards : List PoolReward) : List PoolReward :=
  rewards.filter (fun e => partition w e.pool.externalAsset = [])

def rewardSum (rewards : List PoolReward) : ℤ := ((rewards.map PoolReward.reward).sum : ℕ)

theorem rewardSum_cons (e : PoolReward) (rest : List PoolReward) :
    rewardSum (e :: rest) = e.reward + rewardSum rest := by
  simp [rewardSum]

/-- Rewards that are still to be given, for different pools whose claims are known. -/
def Pending (pools : Table Pool.key) (rest : List PoolReward) : Prop :=
  (rest.map (fun e => e.pool.key)).Nodup ∧ ∀ e ∈ rest, TracksClaim pools e.pool

theorem pending_tail (pending : Pending pools (e :: rest)) : Pending pools rest :=
  ⟨(List.nodup_cons.mp pending.1).2, fun later member => pending.2 later (by simp [member])⟩

theorem pending_other (pending : Pending pools (e :: rest)) :
    ∀ later ∈ rest, e.pool.key ≠ later.pool.key := by
  intro later member same
  exact (List.nodup_cons.mp pending.1).1
    (List.mem_map.mpr ⟨later, member, same.symm⟩)

theorem pending_credited {pools : Table Pool.key} {grown : Pool} (key : grown.key = e.pool.key)
    (pending : Pending pools (e :: rest)) : Pending (pools.put grown) rest := by
  have others := pending_other pending
  refine ⟨(pending_tail pending).1, ?_⟩
  intro later member
  exact put_other_tracks (key ▸ others later member) (pending.2 later (by simp [member]))

theorem addRewardsToPool_effect {reward : ℕ}
    (valid : assetValidate env pool.externalAsset = .ok true) :
    Meets (addRewardsToPool env pool reward) r
      (fun _ t => ∃ grown : Pool, grown.key = pool.key ∧
        nativeClaim grown = nativeClaim pool + reward ∧ t = { r with pools := r.pools.put grown })
      (fun f _ => IsPanic f) := by
  unfold addRewardsToPool
  refine meets_ofExcept_then (fun native added => ?_) (show FailsOnly _ IsPanic by simp)
  refine meets_ofExcept_then (fun distributed _ => ?_) (show FailsOnly _ IsPanic by simp)
  refine meets_mono _ (ignored_setPool_valid env r valid) ?_ (fun _ _ never => never.elim)
  rintro _ t rfl
  obtain ⟨_, rfl⟩ := (Uint.add_succeeds _ _ _).mp added
  refine ⟨{ pool with
    nativeAssetBalance := pool.nativeAssetBalance + reward
    rewardPeriodNativeDistributed := distributed }, rfl, ?_, rfl⟩
  simp only [nativeClaim]
  omega

theorem accumulation_effect (tuples : List PoolReward) (r : World β)
    (valid : ∀ e ∈ tuples, assetValidate env e.pool.externalAsset = .ok true)
    (pending : Pending r.pools tuples) :
    Meets (forEach (fun e => addRewardsToPool env e.pool e.reward) tuples) r
      (fun _ t => t.bank = r.bank ∧
        total nativeClaim t.pools = total nativeClaim r.pools + rewardSum tuples)
      (fun f _ => IsPanic f) := by
  induction tuples generalizing r with
  | nil => exact meets_pure ⟨rfl, by simp [rewardSum]⟩
  | cons e rest ih =>
    refine meets_bind (addRewardsToPool_effect env (valid e (by simp))) ?_
    rintro _ t ⟨grown, key, claim, rfl⟩
    have credited := put_grows key (pending.2 e (by simp))
    refine meets_mono _ (ih _ (fun later member => valid later (by simp [member]))
      (pending_credited key pending)) ?_ (fun _ _ failed => failed)
    rintro _ u ⟨bank, sum⟩
    refine ⟨bank, ?_⟩
    rw [rewardSum_cons]
    dsimp only at sum
    omega

theorem partition_providers {w : World β} (asset : String) (same : t.providers = w.providers) :
    partition t asset = partition w asset := by
  simp only [partition, getAllLiquidityProviders, same]

/-- Along the collection: what was credited so far, and that the pools of the map still have
    the claims they had. -/
structure Collecting (env : Env β) (r : World β) (all rest : List PoolReward)
    (poolFury : PoolFuryMap) (t : World β) : Prop where
  bank : t.bank = r.bank
  providers : t.providers = r.providers
  pending : Pending t.pools rest
  credited : total nativeClaim t.pools + rewardSum (unbackedRewards r rest) =
    total nativeClaim r.pools + rewardSum (unbackedRewards r all)
  valid : ∀ e ∈ poolFury.rows, assetValidate env e.pool.externalAsset = .ok true
  tracked : ∀ e ∈ poolFury.rows, TracksClaim t.pools e.pool
  apart : ∀ e ∈ poolFury.rows, ∀ later ∈ rest, e.pool.key ≠ later.pool.key

theorem collectReward_effect {all : List PoolReward} {state : PoolFuryMap × Collected}
    (valid : assetValidate env e.pool.externalAsset = .ok true)
    (now : Collecting env r all (e :: rest) state.1 t) :
    Meets (collectReward env state e) t (fun result => Collecting env r all rest result.1)
      (fun f _ => IsPanic f) := by
  have same := partition_providers e.pool.externalAsset now.providers
  have others := pending_other now.pending
  unfold collectReward
  refine meets_read_then (meets_ite ?_ ?_)
  · intro none
    refine meets_bind (addRewardsToPool_effect env valid) ?_
    rintro _ u ⟨grown, key, claim, rfl⟩
    have grows := put_grows key (now.pending.2 e (by simp))
    have sum := now.credited
    have unbacked : unbackedRewards r (e :: rest) = e :: unbackedRewards r rest :=
      List.filter_cons_of_pos (by simpa [same] using none)
    rw [unbacked, rewardSum_cons] at sum
    refine meets_pure ⟨now.bank, now.providers, pending_credited key
      now.pending, ?_, now.valid, ?_, ?_⟩
    · dsimp only
      omega
    · intro entry member
      exact put_other_tracks
        (key ▸ (now.apart entry member e (by simp)).symm) (now.tracked entry member)
    · intro entry member later inside
      exact now.apart entry member later (by simp [inside])
  · intro some
    refine meets_mono _ (collectShares_effect env) ?_ ?_
    · rintro result u ⟨reports, computed⟩
      obtain ⟨⟨fury, _⟩, _, pools⟩ := sharesOf_entry env computed
      obtain ⟨addresses, rfl⟩ := reports
      have sum := now.credited
      have backed : unbackedRewards r (e :: rest) = unbackedRewards r rest :=
        List.filter_cons_of_neg (by simpa [same] using some)
      rw [backed] at sum
      refine ⟨now.bank, now.providers, pending_tail now.pending, sum, ?_, ?_, ?_⟩
      · rw [pools]
        intro entry member
        rcases (mem_put _ _ entry).mp member with rfl | ⟨old, _⟩
        · exact valid
        · exact now.valid entry old
      · rw [pools]
        intro entry member
        rcases (mem_put _ _ entry).mp member with rfl | ⟨old, _⟩
        · exact now.pending.2 e (by simp)
        · exact now.tracked entry old
      · rw [pools]
        intro entry member later inside
        rcases (mem_put _ _ entry).mp member with rfl | ⟨old, _⟩
        · exact others later inside
        · exact now.apart entry old later (by simp [inside])
    · rintro f u ⟨_, failed⟩
      exact sharesOf_within env isPanic_covers (Or.inr ⟨_, rfl⟩) f failed

theorem countDistributed_effect {e : PoolFury} {u : World β}
    (valid : assetValidate env e.pool.externalAsset = .ok true)
    (tracks : TracksClaim u.pools e.pool) (same : SameClaims u.pools t.pools) :
    Meets (countDistributed env e) t (fun _ v => SameClaims u.pools v.pools)
      (fun f _ => IsPanic f) := by
  unfold countDistributed
  refine meets_when (fun _ => ?_) (fun _ => same)
  refine meets_ofExcept_then (fun distributed _ => ?_) (show FailsOnly _ IsPanic by simp)
  refine meets_mono _ (ignored_setPool_valid env t valid) ?_ (fun _ _ never => never.elim)
  rintro _ v rfl
  exact put_sameClaims { e.pool with rewardPeriodNativeDistributed := distributed } same tracks

theorem mintRewards_effect : Meets (mintRewards env coinsToMint) r
    (fun _ t => ∃ b coins, (∀ d, amountOf coins d = if nativeSymbol = d then coinsToMint else 0) ∧
      env.bank.mintCoins r.bank clpModuleName coins = .ok b ∧ t = { r with bank := b })
    (fun _ t => t = r) := by
  obtain ⟨made, listed, amounts⟩ := furyCoins_made env coinsToMint
  unfold mintRewards
  rw [made, ofExcept_ok_then, listed, ofExcept_ok_then]
  refine meets_mono _ (bankCall_meets _ r) ?_ (fun _ _ failed => failed.1)
  rintro _ t ⟨b, minted, rfl⟩
  exact ⟨b, _, amounts, minted, rfl⟩

theorem burnFury_effect (amount : ℕ) (r : World β) (owned : amount ≤ getModuleFury env r) :
    Meets (burnFury env amount) r
      (fun _ t => getModuleFury env t + amount = getModuleFury env r ∧
        ∃ b, t = { r with bank := b })
      (fun f _ => IsPanic f) := by
  obtain ⟨made, listed, amounts⟩ := furyCoins_made env amount
  have covered : ∀ d, amountOf (furyCoins amount) d ≤
      env.bank.getBalance r.bank (env.bank.moduleAddress clpModuleName) d := by
    intro d
    rw [amounts]
    split
    · rename_i native
      exact native ▸ owned
    · exact Nat.zero_le _
  obtain ⟨b, burned⟩ := env.bank.burn_succeeds r.bank clpModuleName _ env.clp_burner covered
  unfold burnFury
  rw [made, ofExcept_ok_then, listed, ofExcept_ok_then]
  unfold bankCall
  refine meets_read_then ?_
  simp only [burned]
  refine meets_modify ⟨?_, b, rfl⟩
  have removed := env.bank.burn_removes _ _ _ _ burned (moduleAddress env) nativeSymbol
  simpa [getModuleFury, moduleAddress, amounts] using removed

theorem burnUnpaid_effect (before : ℕ) (r : World β) : Meets (burnUnpaid env before) r
      (fun _ t => getModuleFury env t = before ∧ ∃ b, t = { r with bank := b })
      (fun f _ => IsPanic f) := by
  unfold burnUnpaid
  refine meets_read_then (meets_require_then ?_ (fun _ => ⟨_, rfl⟩))
  intro grown
  refine meets_bind (P := fun _ t => getModuleFury env t = before ∧ ∃ b, t = { r with bank := b })
    ?_ (fun _ _ burned => meets_pure burned)
  refine meets_when ?_ ?_
  · intro _
    refine Action.meets_ignoreError (meets_mono _ (burnFury_effect env _ r (by omega)) ?_ ?_)
    · rintro _ t ⟨balance, written⟩
      exact ⟨by omega, written⟩
    · intro f t failed
      obtain ⟨p, rfl⟩ := failed
      exact ⟨p, rfl⟩
  · intro equal
    exact ⟨by omega, r.bank, rfl⟩

/-- Providers are paid from the minted coins and the rest is burned, whatever a pool without
    providers was credited with. -/
theorem payRewards_effect {order : MapOrder} {before : ℕ}
    (valid : ∀ e ∈ tuples, assetValidate env e.pool.externalAsset = .ok true)
    (pending : Pending r.pools tuples) : Meets (payRewards env order tuples coinsToMint before) r
      (fun _ t => getModuleFury env t = before ∧ total nativeClaim t.pools =
        total nativeClaim r.pools + rewardSum (unbackedRewards r tuples))
      (fun f _ => IsPanic f) := by
  unfold payRewards
  refine meets_bind (P := fun result => Collecting env r tuples [] result.1) ?_ ?_
  · refine meets_mono _ (meets_accumulate (I := fun rest state t => (∀ e ∈ rest, e ∈ tuples) ∧
        Collecting env r tuples rest state.1 t) _ tuples _ ?_
      ⟨fun _ member => member, rfl, rfl, pending, rfl, by simp [Table.empty], by simp [Table.empty],
        by simp [Table.empty]⟩) (fun _ _ done => done.2) (fun _ _ failed => failed)
    rintro e rest state t ⟨inside, now⟩
    refine meets_mono _ (collectReward_effect env
      (valid e (inside e (by simp))) now) ?_ (fun _ _ failed => failed)
    exact fun _ _ next => ⟨fun later member => inside later (by simp [member]), next⟩
  · rintro ⟨poolFury, maps⟩ t collected
    have sum := collected.credited
    have nothing : rewardSum (unbackedRewards r []) = 0 := rfl
    refine meets_ofExcept_then (fun _ _ => ?_) (furySum_within isPanic_covers)
    refine meets_bind (meets_mono _ (transferGeneric_effect env isPanic_covers ⟨_, rfl⟩ ⟨_, rfl⟩)
      (fun _ _ done => done) (fun _ _ failed => failed.2)) ?_
    rintro paid u ⟨⟨b, events, _, rfl⟩, kept⟩
    refine meets_bind (P := fun _ v => SameClaims t.pools v.pools) ?_ ?_
    · refine meets_forEach _ ?_ (fun _ => rfl)
      intro e member v same
      obtain ⟨old, present, equal, _⟩ := kept e ((order.perm _).mem_iff.mp member)
      exact countDistributed_effect env (equal ▸ collected.valid old present)
        (equal ▸ collected.tracked old present) same
    · intro _ v same
      refine meets_bind (burnUnpaid_effect env before v) ?_
      rintro diff x ⟨balance, b, rfl⟩
      refine meets_modify ⟨balance, ?_⟩
      have claims := total_congr nativeClaim nativeClaim v.pools t.pools same
      dsimp only at sum claims ⊢
      omega

def furySurplus (env : Env β) (w : World β) : ℤ := nativeSurplus env w.bank w.pools

theorem furySurplus_eq : furySurplus env w = getModuleFury env w - total nativeClaim w.pools := rfl

def lostBacking (w : World β) (blockDistribution : ℕ) (period : RewardPeriod) : List PoolReward :=
  if period.rewardPeriodDistribute then
    unbackedRewards w (rewardsOf blockDistribution period w.pools.rows)
  else []

theorem copied_pending {w : World β} (period : RewardPeriod) (height : ℕ)
    (listed : (tuples.map PoolReward.pool).Sublist w.pools.rows) (same : SameClaims w.pools t.pools) :
    Pending t.pools (copyTuples period height (tuples, 0)).1 := by
  have key : ∀ p, (resetDistributed period height p).key = p.key := by
    intro p
    exact congrArg PoolKey.mk (resetDistributed_asset period height p)
  constructor
  · have keys : (copyTuples period height (tuples, 0)).1.map (fun e => e.pool.key) =
        (tuples.map PoolReward.pool).map Pool.key := by
      simp [copyTuples, key]
    rw [keys]
    exact w.pools.distinct.sublist (listed.map Pool.key)
  · intro e member
    obtain ⟨original, inside, rfl⟩ := List.mem_map.mp member
    refine sameClaims_tracks same (resetDistributed_claim period height ?_)
    exact tracksClaim_rows original.pool (listed.subset (List.mem_map_of_mem inside))

theorem rewardSum_copy (period : RewardPeriod) (height : ℕ) (tuples : List PoolReward) :
    rewardSum (copyTuples period height (tuples, 0)).1 = rewardSum tuples := by
  simp [rewardSum, copyTuples, Function.comp_def]

theorem unbacked_copy {w : World β} (period : RewardPeriod) (height : ℕ) (tuples : List PoolReward)
    (same : t.providers = w.providers) :
    rewardSum (unbackedRewards t (copyTuples period height (tuples, 0)).1) =
      rewardSum (unbackedRewards w tuples) := by
  have filters : unbackedRewards t (copyTuples period height (tuples, 0)).1 =
      (copyTuples period height (unbackedRewards w tuples, 0)).1 := by
    simp only [unbackedRewards, copyTuples, List.filter_map]
    congr 1
    refine List.filter_congr ?_
    intro e _
    simp only [Function.comp_apply, resetDistributed_asset, partition_providers _ same]
  rw [filters, rewardSum_copy]

theorem rewarding_effect {order : MapOrder} {height : ℕ} {w u v : World β}
    (valid : PoolsValid env w.pools.rows)
    (listed : (tuples.map PoolReward.pool).Sublist w.pools.rows)
    (minted : (coinsToMint : ℤ) = rewardSum tuples) (kept : KeepsClaims w u)
    (added : getModuleFury env v = getModuleFury env u + coinsToMint) (pools : v.pools = u.pools)
    (providers : v.providers = u.providers) : Meets (if period.rewardPeriodDistribute then
        payRewards env order (copyTuples period height (tuples, 0)).1 coinsToMint
          (getModuleFury env u)
      else do
        forEach (fun e => addRewardsToPool env e.pool e.reward)
          (copyTuples period height (tuples, 0)).1
        emit (.rewards "rewards/accumulation" coinsToMint
          ((copyTuples period height (tuples, 0)).1.map (fun e => ⟨e.pool.externalAsset, e.reward⟩))))
      v
      (fun _ t => furySurplus env t + (if period.rewardPeriodDistribute then
        rewardSum (unbackedRewards w tuples) else 0) = furySurplus env w)
      (fun f _ => IsPanic f) := by
  have claims := total_congr nativeClaim nativeClaim u.pools w.pools kept.claims
  have pending := copied_pending period height listed (pools ▸ kept.claims)
  have bank : getModuleFury env u = getModuleFury env w := by simp only [getModuleFury, kept.bank]
  have copies_valid : ∀ e ∈ (copyTuples period height (tuples, 0)).1,
      assetValidate env e.pool.externalAsset = .ok true := by
    intro e member
    obtain ⟨original, inside, rfl⟩ := List.mem_map.mp member
    rw [resetDistributed_asset]
    exact valid _ (listed.subset (List.mem_map_of_mem inside))
  simp only [furySurplus_eq]
  refine meets_ite ?_ ?_
  · intro distribute
    refine meets_mono _ (payRewards_effect env copies_valid pending) ?_ (fun _ _ failed => failed)
    rintro _ t ⟨balance, sum⟩
    rw [unbacked_copy period height tuples (providers.trans kept.providers), pools] at sum
    simp only [distribute, ↓reduceIte]
    omega
  · intro accumulate
    refine meets_bind (accumulation_effect env _ _ copies_valid pending) ?_
    rintro _ t ⟨same, sum⟩
    rw [rewardSum_copy, pools] at sum
    have balance : getModuleFury env t = getModuleFury env u + coinsToMint := by
      rw [← added]
      simp only [getModuleFury, same]
    have kept_surplus : (getModuleFury env t : ℤ) - total nativeClaim t.pools =
        getModuleFury env w - total nativeClaim w.pools := by omega
    refine meets_modify ?_
    simp only [accumulate, ↓reduceIte, add_zero]
    exact kept_surplus

theorem nothing_lost {w : World β} (none : rewardsOf blockDistribution period w.pools.rows = [])
    (kept : KeepsClaims w t) :
    furySurplus env t + rewardSum (lostBacking w blockDistribution period) = furySurplus env w := by
  have claims := total_congr nativeClaim nativeClaim t.pools w.pools kept.claims
  have lost : lostBacking w blockDistribution period = [] := by
    simp [lostBacking, none, unbackedRewards]
  rw [lost, furySurplus_eq, furySurplus_eq, claims]
  simp [getModuleFury, kept.bank, rewardSum]

theorem lostBacking_eq {depth : Dec} (nonzero : blockDistribution ≠ 0) (deep : Dec.zero.lt depth)
    (computed : depthFrom period Dec.zero w.pools.rows = .ok depth)
    (collected : collectPoolRewardTuples w.pools.rows blockDistribution depth period =
      .ok (tuples, coinsToMint)) : rewardSum (lostBacking w blockDistribution period) =
      if period.rewardPeriodDistribute then rewardSum (unbackedRewards w tuples) else 0 := by
  have rewards : rewardsOf blockDistribution period w.pools.rows = tuples := by
    simp [rewardsOf, computed, nonzero, deep, collected]
  simp only [lostBacking, rewards]
  split <;> rfl

theorem collected_copy {totalDepth : Dec} {height : ℕ} {pools : List Pool}
    {copied : List PoolReward} {coins : ℕ}
    (collected : collectPoolRewardTuples (pools.map (resetDistributed period height)) blockDistribution totalDepth
      period = .ok (copied, coins)) :
    ∃ tuples, collectPoolRewardTuples pools blockDistribution totalDepth period = .ok (tuples, coins) ∧
      tuples.map (fun e => ⟨resetDistributed period height e.pool, e.reward⟩) = copied := by
  rw [collectPoolRewardTuples, collectTuples_copy] at collected
  rw [collectPoolRewardTuples]
  cases result : collectTuples blockDistribution totalDepth period pools blockDistribution 0 with
  | error f => simp [result, Except.map] at collected
  | ok rewards =>
    rw [result] at collected
    obtain ⟨same, rfl⟩ := Prod.mk.inj (Except.ok.inj collected)
    exact ⟨rewards.1, rfl, same⟩

/-- What a call does to the surplus, whatever the bank refuses: it shrinks by the rewards that
    pools without providers were credited with while the coins were burned. -/
theorem depthRewards_surplus (order : MapOrder) (blockDistribution : ℕ) (period : RewardPeriod)
    (w : World β) (valid : PoolsValid env w.pools.rows) :
    Meets (distributeDepthRewards env order blockDistribution period w.pools.rows) w
      (fun _ t => furySurplus env t + rewardSum (lostBacking w blockDistribution period) =
        furySurplus env w)
      (fun f t => IsPanic f ∨ furySurplus env t = furySurplus env w) := by
  have copies : ∀ p ∈ w.pools.rows, TracksClaim w.pools p := tracksClaim_rows
  unfold distributeDepthRewards
  refine meets_read_then (meets_bind (P := fun _ => KeepsClaims w) (meets_when
    (fun _ => meets_modify ⟨rfl, rfl, fun _ => rfl⟩) (fun _ => ⟨rfl, rfl, fun _ => rfl⟩)) ?_)
  intro _ t start
  refine meets_when ?_ ?_
  swap
  · intro zero
    refine nothing_lost env ?_ start
    unfold rewardsOf
    split
    · rfl
    · simp [zero]
  intro nonzero
  refine meets_bind (meets_mono _ (calcTotalDepth_effect env period valid copies
    start) (fun _ _ done => done) (fun _ _ panics => Or.inl panics)) ?_
  rintro ⟨depth, made⟩ u ⟨kept, computed, rfl⟩
  refine meets_when ?_ ?_
  swap
  · intro shallow
    refine nothing_lost env ?_ kept
    simp [rewardsOf, computed, shallow]
  intro deep
  have nonzero_depth : depth.raw ≠ 0 := by
    have above : (0 : ℤ) < depth.raw := deep
    omega
  refine meets_ofExcept_then ?_ (fun f failed => Or.inl (collectTuples_within isPanic_covers
    (Or.inl nonzero_depth) f failed))
  rintro ⟨copied, coinsToMint⟩ collected
  obtain ⟨tuples, original, rfl⟩ := collected_copy collected
  have sum := (collectTuples_rewards _ _ _ _ _ _ _ _ original).2.1
  have listed := collectTuples_pools _ _ _ _ _ _ _ _ original
  rw [lostBacking_eq w nonzero deep computed original]
  refine meets_read_then (meets_bind (meets_mono _ (mintRewards_effect env)
    (fun _ _ done => done) ?_) ?_)
  · rintro _ v rfl
    refine Or.inr ?_
    have claims := total_congr nativeClaim nativeClaim v.pools w.pools kept.claims
    rw [furySurplus_eq, furySurplus_eq, claims]
    simp only [getModuleFury, kept.bank]
  · rintro _ v ⟨b, coins, amounts, minted, rfl⟩
    have added : getModuleFury env { u with bank := b } = getModuleFury env u + coinsToMint := by
      have raised := env.bank.mint_adds _ _ _ _ minted (moduleAddress env) nativeSymbol
      simpa [getModuleFury, moduleAddress, amounts] using raised
    exact meets_mono _ (rewarding_effect env valid listed
      (by rw [rewardSum]; omega) kept added rfl rfl) (fun _ _ done => done)
      (fun _ _ panics => Or.inl panics)

theorem rewardsOf_positive {pools : List Pool} :
    ∀ e ∈ rewardsOf blockDistribution period pools, 0 < e.reward := by
  intro e member
  unfold rewardsOf at member
  split at member
  · simp at member
  · split at member
    · split at member
      · simp at member
      · rename_i tuples coins collected
        exact (collectTuples_rewards _ _ _ _ _ _ _ _ collected).1 e member
    · simp at member

theorem rewardSum_zero_iff (rewards : List PoolReward) (positive : ∀ e ∈ rewards, 0 < e.reward) :
    rewardSum rewards = 0 ↔ rewards = [] := by
  cases rewards with
  | nil => simp [rewardSum]
  | cons e rest =>
    have first := positive e (by simp)
    have others : 0 ≤ rewardSum rest := Int.natCast_nonneg _
    rw [rewardSum_cons]
    simp only [reduceCtorEq, iff_false]
    omega

/-- Every pool that gets a reward has a provider, or the rewards stay in the pools anyway. -/
def RewardsReachProviders (w : World β) (blockDistribution : ℕ) (period : RewardPeriod) : Prop :=
  period.rewardPeriodDistribute = true →
    ∀ e ∈ rewardsOf blockDistribution period w.pools.rows, partition w e.pool.externalAsset ≠ []

instance (w : World β) (blockDistribution : ℕ) (period : RewardPeriod) :
    Decidable (RewardsReachProviders w blockDistribution period) :=
  inferInstanceAs (Decidable (_ → ∀ e ∈ rewardsOf _ _ _, _))

theorem lostBacking_nil_iff (blockDistribution : ℕ) (period : RewardPeriod) :
    lostBacking w blockDistribution period = [] ↔
      RewardsReachProviders w blockDistribution period := by
  unfold lostBacking RewardsReachProviders unbackedRewards
  split
  · rename_i distribute
    simp [distribute]
  · rename_i accumulate
    simp [accumulate]

/-- A call that returns leaves the surplus unchanged exactly when no reward goes to a pool without
    providers during a period that distributes; a call that returns an error always does. -/
theorem depthRewards_conserve_iff {env : Env β} (order : MapOrder) (blockDistribution : ℕ)
    (period : RewardPeriod) {w : World β} (valid : PoolsValid env w.pools.rows) :
    (∀ w', (distributeDepthRewards env order blockDistribution period w.pools.rows).run w =
        (.ok (), w') →
      (furySurplus env w' = furySurplus env w ↔
        RewardsReachProviders w blockDistribution period)) ∧
    ∀ e w', (distributeDepthRewards env order blockDistribution period w.pools.rows).run w =
        (.error (.err e), w') → furySurplus env w' = furySurplus env w := by
  have outcome := depthRewards_surplus env order blockDistribution period w valid
  constructor
  · intro w' run
    have sum := outcome.ok () w' run
    have positive : ∀ e ∈ lostBacking w blockDistribution period, 0 < e.reward := by
      intro e member
      unfold lostBacking at member
      split at member
      · exact rewardsOf_positive e (List.mem_filter.mp member).1
      · simp at member
    rw [← lostBacking_nil_iff, ← rewardSum_zero_iff _ positive]
    omega
  · intro e w' run
    rcases outcome.error _ w' run with ⟨p, panics⟩ | same
    · cases panics
    · exact same

def abandonedPool : World LedgerBank.Balances :=
  deliverAll LedgerBank.env ((LedgerBank.block 2, .createPool ⟨"alice", "ceth", 10 ^ 18, 10 ^ 18⟩) ::
    List.replicate 5 (LedgerBank.block 3, .removeLiquidity ⟨"alice", "ceth", 9999, 0⟩))
    LedgerBank.genesis

def distributingPeriod : RewardPeriod where
  rewardPeriodId := "RP_1"
  rewardPeriodStartBlock := 1
  rewardPeriodEndBlock := 10
  rewardPeriodAllocation := some 10000
  rewardPeriodPoolMultipliers := []
  rewardPeriodDefaultMultiplier := Dec.one
  rewardPeriodDistribute := true
  rewardPeriodMod := 1

def rewardRun (w : World LedgerBank.Balances) : Fallible Unit × World LedgerBank.Balances :=
  (distributeDepthRewards LedgerBank.env .asWritten 1000 distributingPeriod w.pools.rows).run w

/-- The reward of the abandoned pool is credited to it and its coins are burned. -/
theorem abandoned_pool_loses_backing :
    PoolsValid LedgerBank.env abandonedPool.pools.rows ∧ (rewardRun abandonedPool).1 = .ok () ∧
      furySurplus LedgerBank.env abandonedPool = 0 ∧
      furySurplus LedgerBank.env (rewardRun abandonedPool).2 = -1000 := by
  unfold PoolsValid
  decide +kernel

def providedPool : World LedgerBank.Balances :=
  deliverAll LedgerBank.env [(LedgerBank.block 2, .createPool ⟨"alice", "ceth", 10 ^ 18, 10 ^ 18⟩),
    (LedgerBank.block 2, .addLiquidity ⟨"bob", "ceth", 10 ^ 17, 10 ^ 17⟩)] LedgerBank.genesis

theorem provided_pool_keeps_surplus :
    PoolsValid LedgerBank.env providedPool.pools.rows ∧
      RewardsReachProviders providedPool 1000 distributingPeriod ∧
      (rewardsOf 1000 distributingPeriod providedPool.pools.rows).length = 1 ∧
      furySurplus LedgerBank.env (rewardRun providedPool).2 =
        furySurplus LedgerBank.env providedPool := by
  have valid : PoolsValid LedgerBank.env providedPool.pools.rows := by
    unfold PoolsValid
    decide +kernel
  have reach : RewardsReachProviders providedPool 1000 distributingPeriod := by decide +kernel
  have returns : (rewardRun providedPool).1 = .ok () := by decide +kernel
  refine ⟨valid, reach, by decide +kernel, ?_⟩
  exact ((depthRewards_conserve_iff .asWritten 1000 distributingPeriod
    valid).1 _ (Prod.ext returns rfl)).mpr reach

end FuryNode
