import FuryNode.Clp.DistributionEffects

/-!
What the end of a block keeps, whatever its outcome. The pools that the distributions write
are copies read before, so a property of the copies is carried along the loops next to the
invariant of the state. In particular the provider records, the removal requests and the
units of every pool are left alone.
-/
namespace FuryNode
open StatefulProgram StatefulProgram.Prog KeyedTable KeyedTable.Table ClpKeeper
variable {β : Type} (env : Env β)

/-- An invariant of the state, and a property of the copies of pools that may be written. -/
structure BlockInvariant (I : World β → Prop) (P : Pool → Prop) : Prop where
  rows : ∀ w, I w → ∀ pool ∈ w.pools.rows, P pool
  written : ∀ w pool, P pool → I w → I { w with pools := w.pools.put pool }
  settled : ∀ w b events start accu, I w → I { w with
    bank := b, events := events, rewardPeriodStartTime := start, blockDistributionAccu := accu }
  rewarded : ∀ pool native distributed, pool.nativeAssetBalance ≤ native → P pool →
    P { pool with nativeAssetBalance := native, rewardPeriodNativeDistributed := distributed }

/-- An invariant that may need the coins of the accounts, that of the module apart, not to drop. -/
structure CreditInvariant (env : Env β) (I : World β → Prop) (P : Pool → Prop) : Prop where
  rows : ∀ w, I w → ∀ pool ∈ w.pools.rows, P pool
  written : ∀ w pool, P pool → I w → I { w with pools := w.pools.put pool }
  settled : ∀ w b events start accu, Credits env w.bank b → I w → I { w with
    bank := b, events := events, rewardPeriodStartTime := start, blockDistributionAccu := accu }
  rewarded : ∀ pool native distributed, pool.nativeAssetBalance ≤ native → P pool →
    P { pool with nativeAssetBalance := native, rewardPeriodNativeDistributed := distributed }

theorem BlockInvariant.credits {I : World β → Prop} {P : Pool → Prop} (inv : BlockInvariant I P) :
    CreditInvariant env I P :=
  ⟨inv.rows, inv.written, fun w b events start accu _ => inv.settled w b events start accu, inv.rewarded⟩

/-- The entries of a map have a property and the state keeps its invariant. -/
def Tracks (I : World β → Prop) (R : PoolFury → Prop) (poolFury : PoolFuryMap) (w : World β) :
    Prop :=
  I w ∧ ∀ e ∈ poolFury.rows, R e

def Debits (P : Pool → Prop) (e : PoolFury) : Prop :=
  ∀ paid ≤ e.fury, P { e.pool with nativeAssetBalance := e.pool.nativeAssetBalance - paid }

variable {R : PoolFury → Prop} {pool : Pool} {state : PoolFuryMap × Collected} {r : World β}

theorem tracks_put {I : World β → Prop} {poolFury : PoolFuryMap} {entry : PoolFury} {w : World β}
    (now : I w) (tracked : ∀ e ∈ poolFury.rows, R e) (new : R entry) :
    Tracks I R (poolFury.put entry) w := by
  refine ⟨now, ?_⟩
  intro e member
  rcases (mem_put poolFury entry e).mp member with rfl | ⟨old, _⟩
  · exact new
  · exact tracked e old

theorem arranged_tracks (order : MapOrder) {poolFury : PoolFuryMap}
    (tracked : ∀ e ∈ poolFury.rows, R e) : ∀ e ∈ order.arrange poolFury.rows, R e :=
  fun e member => tracked e ((order.perm _).mem_iff.mp member)

section Failures

def NotByZero (f : Failure) : Prop := f ≠ .panic .divisionByZero

@[simp] theorem notByZero_iff (f : Failure) : NotByZero f ↔ f ≠ .panic .divisionByZero := Iff.rfl

theorem notByZero_covers : CoversRange NotByZero := ⟨by simp, by simp, by simp⟩

@[simp] theorem newCoin_spares (denom : String) (amount : ℕ) :
    FailsOnly (newCoin env denom amount) NotByZero := by
  simp [newCoin]

@[simp] theorem newCoins_spares (coins : Coins) : FailsOnly (newCoins coins) NotByZero := by
  simp [newCoins]

/-- A failure that leaves the invariant, and divides by zero only if `Z` allows it. -/
def Stops (I : World β → Prop) (Z : Prop) (f : Failure) (t : World β) : Prop := I t ∧ (NotByZero f ∨ Z)

variable {I : World β → Prop} {Z : Prop} {t : World β}

theorem stops {α : Type} {x : Fallible α} (only : FailsOnly x NotByZero) (now : I t) :
    ∀ f, x = .error f → Stops I Z f t := fun f failed => ⟨now, Or.inl (only f failed)⟩

theorem ignored_keeps {p : Action β Unit} (inner : Meets p t (fun _ => I) (Stops I Z)) :
    Meets (Action.ignoreError p) t (fun _ => I) (Stops I Z) :=
  Action.meets_ignoreError (meets_mono _ inner (fun _ _ kept => kept)
    (fun f _ kept => by cases f with | err _ => exact kept.1 | panic _ => exact kept))

end Failures

section Steps
variable {env} {I : World β → Prop} {P : Pool → Prop} {Z : Prop} {r : World β}
  (inv : CreditInvariant env I P)
  (divides : ∀ t pool, I t → P pool → partition t pool.externalAsset ≠ [] → 0 < pool.poolUnits ∨ Z)
include inv

theorem setPool_keeps (good : P pool) (now : I r) :
    Meets (setPool env pool) r (fun _ => I) (Stops I Z) := by
  unfold setPool
  refine meets_ofExcept_then (fun _ _ => ?_) (stops (by simp [assetValidate]) now)
  exact meets_require_then (fun _ => meets_modify (inv.written r pool good now)) (fun _ => ⟨now, by simp⟩)

theorem pays_keeps {t : World β} (pays : Pays env r t) (now : I r) : I t := by
  obtain ⟨b, events, credits, rfl⟩ := pays
  exact inv.settled r b events r.rewardPeriodStartTime r.blockDistributionAccu credits now

theorem emit_keeps {event : Event} (now : I r) : Meets (emit event) r (fun _ => I) (Stops I Z) :=
  meets_modify (pays_keeps inv (pays_emit env r _) now)

theorem bankCall_keeps {call : β → Except BankFailure β}
    (credits : ∀ b, call r.bank = .ok b → Credits env r.bank b) (now : I r) :
    Meets (bankCall call) r (fun _ => I) (Stops I Z) := by
  unfold bankCall
  refine meets_read_then ?_
  cases called : call r.bank with
  | ok b => exact meets_modify (pays_keeps inv ⟨b, r.events, credits b called, rfl⟩ now)
  | error f => exact meets_fail ⟨now, by cases f <;> simp [BankFailure.toFailure]⟩

theorem collectShares_keeps {depth : ℕ} {blockRate : Dec}
    (entered : ∀ lps maps collected, collectProviderDistribution env pool.externalAsset
      (Dec.ofInt depth) blockRate pool.poolUnits lps maps = .ok collected → R ⟨pool, collected.1⟩)
    (units : 0 < pool.poolUnits ∨ Z) (now : Tracks I R state.1 r) :
    Meets (collectShares env pool depth blockRate state) r (fun result => Tracks I R result.1)
      (Stops I Z) := by
  refine meets_mono _ (collectShares_effect env) ?_ ?_
  · rintro result t ⟨reports, computed⟩
    obtain ⟨collected, shared, pools⟩ := sharesOf_entry env computed
    rw [pools]
    exact tracks_put (pays_keeps inv (reports_pays env reports) now.1) now.2 (entered _ _ _ shared)
  · rintro f t ⟨reports, failed⟩
    refine ⟨pays_keeps inv (reports_pays env reports) now.1, units.imp_left ?_⟩
    intro positive
    exact sharesOf_within env notByZero_covers (Or.inl positive) f failed

include divides in
theorem collectPool_keeps {blockRate : Dec}
    (entered : partition r pool.externalAsset ≠ [] → ∀ lps maps collected,
      collectProviderDistribution env pool.externalAsset (Dec.ofInt pool.nativeAssetBalance)
        blockRate pool.poolUnits lps maps = .ok collected → R ⟨pool, collected.1⟩) (good : P pool)
    (now : Tracks I R state.1 r) :
    Meets (collectPool env blockRate state pool) r (fun result => Tracks I R result.1)
      (Stops I Z) := by
  unfold collectPool
  refine meets_read_then (meets_ite ?_ ?_)
  · intro _
    exact meets_pure now
  · intro present
    exact collectShares_keeps inv (entered present) (divides r pool now.1 good present) now

theorem transferGeneric_keeps {order : MapOrder} {poolFury : PoolFuryMap} {maps : Collected}
    {errorKind successKind : String}
    (lower : ∀ pool fury less, less ≤ fury → R ⟨pool, fury⟩ → R ⟨pool, less⟩)
    (now : Tracks I R poolFury r) :
    Meets (transferProviderDistributionGeneric env order poolFury maps errorKind successKind) r
      (Tracks I R) (Stops I Z) := by
  refine meets_mono _ (transferGeneric_effect env notByZero_covers (by simp) (by simp) ) ?_
    (fun _ t failed => ⟨pays_keeps inv failed.1 now.1, Or.inl failed.2⟩)
  rintro paid t ⟨pays, lowers⟩
  refine ⟨pays_keeps inv pays now.1, ?_⟩
  rintro ⟨pool, fury⟩ member
  obtain ⟨old, present, same, less⟩ := lowers _ member
  obtain rfl : pool = old.pool := same
  exact lower _ _ _ less (now.2 old present)

theorem removeFuryFromPool_keeps (e : PoolFury) (debits : Debits P e) (now : I r) :
    Meets (removeFuryFromPool env e.pool e.fury) r (fun _ => I) (Stops I Z) := by
  unfold removeFuryFromPool
  refine meets_require_then (fun _ => ?_) (fun _ => ⟨now, by simp⟩)
  refine meets_ofExcept_then (fun native subtracted => ?_) (stops (by simp) now)
  obtain ⟨_, rfl⟩ := (Uint.sub_succeeds _ _ _).mp subtracted
  exact setPool_keeps inv (debits e.fury le_rfl) now

end Steps

section Runs
variable {env} {I : World β → Prop} {P : Pool → Prop} {Z : Prop} (inv : CreditInvariant env I P)
  (divides : ∀ t pool, I t → P pool → partition t pool.externalAsset ≠ [] → 0 < pool.poolUnits ∨ Z)

/-- What the provider distribution of a block attributes to a pool, the pool may pay. -/
def Spends (env : Env β) (I : World β → Prop) (P : Pool → Prop) (r : World β) : Prop :=
  ∀ period, findProviderDistributionPeriod r.height r.clp.distributionPeriods = some period →
    ∀ pool ∈ r.pools.rows, ∀ t, I t → partition t pool.externalAsset ≠ [] →
      ∀ lps maps collected, collectProviderDistribution env pool.externalAsset
          (Dec.ofInt pool.nativeAssetBalance) period.distributionPeriodBlockRate pool.poolUnits lps
          maps = .ok collected →
        Debits P ⟨pool, collected.1⟩

include inv

include divides in
theorem policyRun_keeps (order : MapOrder) (spends : Spends env I P r) (now : I r) :
    Meets (providerDistributionPolicyRun env order) r (fun _ => I) (Stops I Z) := by
  unfold providerDistributionPolicyRun
  refine meets_bind (P := fun result => Tracks I (Debits P) result.1) ?_ ?_
  · unfold doProviderDistribution
    refine meets_read_then ?_
    split
    · exact meets_pure ⟨now, by simp [Table.empty]⟩
    · rename_i period active
      refine meets_mono _ (meets_accumulate (I := fun rest state t =>
        (∀ p ∈ rest, p ∈ r.pools.rows) ∧ Tracks I (Debits P) state.1 t) _ _ _ ?_
        ⟨fun _ member => member, now, by simp [Table.empty]⟩) (fun _ _ done => done.2)
        (fun _ _ kept => kept)
      rintro pool rest state t ⟨left, tracks⟩
      have entered := spends period active pool (left pool (by simp)) t tracks.1
      exact meets_mono _ (collectPool_keeps inv divides entered
          (inv.rows r now pool (left pool (by simp))) tracks)
        (fun _ _ still => ⟨fun p member => left p (by simp [member]), still⟩) (fun _ _ kept => kept)
  · rintro ⟨poolFury, maps⟩ t still
    unfold transferProviderDistribution
    refine meets_bind (transferGeneric_keeps inv
      (fun _ _ _ less debits paid within => debits paid (within.trans less)) still) ?_
    intro paid u after
    refine meets_forEach _ ?_ after.1
    intro e member v later
    have debits := arranged_tracks order after.2 e member
    exact ignored_keeps (removeFuryFromPool_keeps inv e debits later)

theorem resetDistributed_keeps (period : RewardPeriod) (height : ℕ) (good : P pool) :
    P (resetDistributed period height pool) := by
  unfold resetDistributed
  split
  · exact inv.rewarded pool pool.nativeAssetBalance 0 le_rfl good
  · exact good

theorem addDepth_keeps {period : RewardPeriod} {height : ℕ} {state : Dec × List Pool}
    (good : P pool) (made : ∀ p ∈ state.2, P p) (now : I r) :
    Meets (addDepth env period height state pool) r
      (fun result t => I t ∧ ∀ p ∈ result.2, P p) (Stops I Z) := by
  have copy := resetDistributed_keeps inv period height good
  unfold addDepth
  refine meets_ofExcept_then (fun weighted _ => ?_) (stops (by simp) now)
  refine meets_ofExcept_then (fun total _ => ?_) (stops (by simp) now)
  refine meets_bind (P := fun _ => I)
    (meets_when (fun _ => setPool_keeps inv copy now) (fun _ => now)) ?_
  intro _ u still
  refine meets_pure ⟨still, ?_⟩
  intro p member
  rcases List.mem_append.mp member with old | new
  · exact made p old
  · obtain rfl := List.mem_singleton.mp new
    exact copy

theorem calcTotalDepth_keeps {pools : List Pool} (period : RewardPeriod) {height : ℕ}
    (copies : ∀ p ∈ pools, P p) (now : I r) : Meets (calcTotalDepth env pools period height) r
      (fun result t => I t ∧ ∀ p ∈ result.2, P p) (Stops I Z) := by
  refine meets_mono _ (meets_accumulate (I := fun rest state t =>
    (∀ p ∈ rest, P p) ∧ I t ∧ ∀ p ∈ state.2, P p) _ pools _ ?_
    ⟨copies, now, by simp⟩) (fun _ _ done => done.2) (fun _ _ kept => kept)
  rintro pool rest state t ⟨left, still, made⟩
  exact meets_mono _ (addDepth_keeps inv (left pool (by simp)) made
    still) (fun _ _ last => ⟨fun p member => left p (by simp [member]), last⟩) (fun _ _ kept => kept)

theorem addRewardsToPool_keeps (reward : ℕ) (good : P pool) (now : I r) :
    Meets (addRewardsToPool env pool reward) r (fun _ => I) (Stops I Z) := by
  unfold addRewardsToPool
  refine meets_ofExcept_then (fun native added => ?_) (stops (by simp) now)
  refine meets_ofExcept_then (fun distributed _ => ?_) (stops (by simp) now)
  obtain ⟨_, rfl⟩ := (Uint.add_succeeds _ _ _).mp added
  exact ignored_keeps (setPool_keeps inv
    (inv.rewarded pool _ distributed (Nat.le_add_right _ _) good) now)

include divides in
theorem collectReward_keeps {e : PoolReward} (good : P e.pool)
    (now : Tracks I (fun e => P e.pool) state.1 r) :
    Meets (collectReward env state e) r (fun result => Tracks I (fun e => P e.pool) result.1)
      (Stops I Z) := by
  unfold collectReward
  refine meets_read_then (meets_ite ?_ ?_)
  · intro _
    refine meets_bind (addRewardsToPool_keeps inv e.reward good now.1) ?_
    intro _ t still
    exact meets_pure ⟨still, now.2⟩
  · intro present
    exact collectShares_keeps inv (fun _ _ _ _ => good)
      (divides r e.pool now.1 good present) now

include divides in
theorem collectRewards_keeps {tuples : List PoolReward} (copies : ∀ e ∈ tuples, P e.pool)
    (now : I r) :
    Meets (accumulate (collectReward env) (.empty, .empty) tuples) r
      (fun result => Tracks I (fun e => P e.pool) result.1) (Stops I Z) := by
  refine meets_mono _ (meets_accumulate (I := fun rest state t =>
    (∀ e ∈ rest, P e.pool) ∧ Tracks I (fun e => P e.pool) state.1 t) _ tuples _ ?_
    ⟨copies, now, by simp [Table.empty]⟩) (fun _ _ done => done.2) (fun _ _ kept => kept)
  rintro e rest state t ⟨left, tracks⟩
  exact meets_mono _ (collectReward_keeps inv divides (left e (by simp)) tracks)
    (fun _ _ still => ⟨fun e member => left e (by simp [member]), still⟩) (fun _ _ kept => kept)

theorem countDistributed_keeps {e : PoolFury} (good : P e.pool) (now : I r) :
    Meets (countDistributed env e) r (fun _ => I) (Stops I Z) := by
  unfold countDistributed
  refine meets_when ?_ (fun _ => now)
  intro _
  refine meets_ofExcept_then (fun distributed _ => ?_) (stops (by simp) now)
  exact ignored_keeps (setPool_keeps inv
    (inv.rewarded e.pool e.pool.nativeAssetBalance distributed le_rfl good) now)

theorem burnUnpaid_keeps (before : ℕ) (r : World β) (now : I r) :
    Meets (burnUnpaid env before) r (fun _ => I) (Stops I Z) := by
  unfold burnUnpaid burnFury
  refine meets_read_then (meets_require_then ?_ (fun _ => ⟨now, by simp⟩))
  intro _
  refine meets_bind (P := fun _ => I) (meets_when ?_ (fun _ => now))
    (fun _ _ last => meets_pure last)
  intro _
  refine ignored_keeps ?_
  refine meets_ofExcept_then (fun _ _ => ?_) (stops (by simp) now)
  refine meets_ofExcept_then (fun _ _ => ?_) (stops (by simp) now)
  refine bankCall_keeps inv (fun b burned a d outside => ?_) now
  rw [← env.bank.burn_removes _ b _ _ burned, ← moduleAddress, if_neg outside, Nat.add_zero]

theorem mintRewards_keeps (coins : ℕ) (r : World β) (now : I r) :
    Meets (mintRewards env coins) r (fun _ => I) (Stops I Z) := by
  unfold mintRewards
  refine meets_ofExcept_then (fun _ _ => ?_) (stops (by simp) now)
  refine meets_ofExcept_then (fun _ _ => ?_) (stops (by simp) now)
  refine bankCall_keeps inv (fun b minted a d _ => ?_) now
  rw [env.bank.mint_adds _ b _ _ minted]
  exact Nat.le_add_right _ _

include divides in
theorem payRewards_keeps (order : MapOrder) {tuples : List PoolReward} (coins before : ℕ)
    (copies : ∀ e ∈ tuples, P e.pool) (now : I r) :
    Meets (payRewards env order tuples coins before) r (fun _ => I) (Stops I Z) := by
  unfold payRewards
  refine meets_bind (collectRewards_keeps inv divides copies now) ?_
  rintro ⟨poolFury, maps⟩ t tracks
  refine meets_ofExcept_then (fun _ _ => ?_) (stops (furySum_within notByZero_covers) tracks.1)
  refine meets_bind (transferGeneric_keeps inv (fun _ _ _ _ good => good) tracks) ?_
  intro paid u after
  refine meets_bind (meets_forEach (I := I) _ ?_ after.1) ?_
  · intro e member v still
    exact countDistributed_keeps inv (arranged_tracks order after.2 e member) still
  · intro _ v still
    exact meets_bind (burnUnpaid_keeps inv before v still)
      (fun _ _ last => emit_keeps inv last)

include divides in
theorem distributeDepthRewards_keeps (order : MapOrder) (blockDistribution : ℕ)
    (period : RewardPeriod) {pools : List Pool} (copies : ∀ p ∈ pools, P p) (now : I r) :
    Meets (distributeDepthRewards env order blockDistribution period pools) r
      (fun _ => I) (Stops I Z) := by
  unfold distributeDepthRewards
  refine meets_read_then (meets_bind (P := fun _ => I)
    (meets_when (fun _ => meets_modify (inv.settled r r.bank r.events _ r.blockDistributionAccu
      (fun _ _ _ => le_rfl) now))
      (fun _ => now)) ?_)
  intro _ t still
  refine meets_when ?_ (fun _ => still)
  intro _
  refine meets_bind (calcTotalDepth_keeps inv period copies still) ?_
  rintro ⟨depth, made⟩ u ⟨later, tracked⟩
  refine meets_when ?_ (fun _ => later)
  intro deep
  have nonzero : depth.raw ≠ 0 := by
    have above : (0 : ℤ) < depth.raw := deep
    omega
  refine meets_ofExcept_then ?_
    (stops (collectTuples_within notByZero_covers (Or.inl nonzero)) later)
  rintro ⟨tuples, coins⟩ computed
  have rewarded : ∀ e ∈ tuples, P e.pool := by
    intro e member
    exact tracked _ ((collectTuples_pools _ _ _ _ _ _ _ _ computed).subset
      (List.mem_map_of_mem member))
  refine meets_read_then (meets_bind (mintRewards_keeps inv coins u later) ?_)
  intro _ v after
  refine meets_ite ?_ ?_
  · intro _
    exact payRewards_keeps inv divides order coins _ rewarded after
  · intro _
    refine meets_bind (meets_forEach (I := I) _ ?_ after) (fun _ _ last => emit_keeps inv last)
    intro e member x last
    exact addRewardsToPool_keeps inv e.reward (rewarded e member) last

/-- However the end of a block goes, the invariant holds after it. -/
theorem endBlocker_keeps (order : MapOrder) {w : World β}
    (spends : isDistributionBlock w = .ok true → Spends env I P w) (now : I w) :
    Meets (endBlocker env order) w (fun _ => I) (fun _ => I) := by
  have divides : ∀ t pool, I t → P pool → partition t pool.externalAsset ≠ [] →
      0 < pool.poolUnits ∨ True := fun _ _ _ _ _ => Or.inr trivial
  unfold endBlocker
  refine meets_read_then (meets_ofExcept_then (fun distributes decided => ?_) (fun _ _ => now))
  refine meets_bind (P := fun _ => I) (meets_when (fun yes => meets_mono _
    (policyRun_keeps inv divides order (spends (yes ▸ decided)) now)
    (fun _ _ kept => kept) (fun _ _ stops => stops.1)) (fun _ => now)) ?_
  intro _ t still
  unfold rewardDepth
  refine meets_read_then ?_
  split
  · exact meets_pure still
  · rename_i period _
    refine meets_ofExcept_then (fun _ _ => meets_when ?_ (fun _ => still)) (fun _ _ => still)
    intro _
    refine meets_ofExcept_then (fun _ _ => ?_) (fun _ _ => still)
    refine meets_ofExcept_then (fun _ _ => ?_) (fun _ _ => still)
    refine meets_ofExcept_then (fun total _ => ?_) (fun _ _ => still)
    have counted : ∀ u accu, I u → I { u with blockDistributionAccu := accu } :=
      fun u accu kept => inv.settled u u.bank u.events u.rewardPeriodStartTime accu
        (fun _ _ _ => le_rfl) kept
    refine meets_ite ?_ ?_
    · intro _
      refine meets_bind (meets_mono _ (ignored_keeps (distributeDepthRewards_keeps inv divides order
        total period (inv.rows t still) still)) (fun _ _ kept => kept)
        (fun _ _ stops => stops.1)) ?_
      intro _ u after
      exact meets_modify (counted u 0 after)
    · intro _
      exact meets_modify (counted t total still)

end Runs

theorem providerDistribution_keeps {I : World β → Prop} {P : Pool → Prop} {Z : Prop}
    (inv : BlockInvariant I P) (divides : ∀ t pool, I t → P pool →
      partition t pool.externalAsset ≠ [] → 0 < pool.poolUnits ∨ Z) (env : Env β) (order : MapOrder)
    (spends : Spends env I P r) (now : I r) :
    Meets (providerDistributionPolicyRun env order) r (fun _ => I) (Stops I Z) :=
  policyRun_keeps (inv.credits env) divides order spends now

section Units
variable {w : World β}

/-- Providers, requests and pool units are those of `w`. -/
structure KeepsUnits (w w' : World β) : Prop where
  providers : w'.providers = w.providers
  requests : w'.requests = w.requests
  units : ∀ k, (w'.pools.get k).map Pool.poolUnits = (w.pools.get k).map Pool.poolUnits

def TracksUnits (w : World β) (pool : Pool) : Prop :=
  (w.pools.get pool.key).map Pool.poolUnits = some pool.poolUnits

theorem keepsUnits_refl (w : World β) : KeepsUnits w w := ⟨rfl, rfl, fun _ => rfl⟩

theorem tracksUnits_rows (w : World β) (pool : Pool) (member : pool ∈ w.pools.rows) :
    TracksUnits w pool := by
  have found : w.pools.get pool.key = some pool := get_row member
  simp [TracksUnits, found]

/-- The units of `w` are kept by writing copies of its pools. -/
theorem keepsUnits_block (w : World β) : BlockInvariant (KeepsUnits w) (TracksUnits w) where
  rows := fun r kept pool member => (kept.units _).symm.trans (tracksUnits_rows r pool member)
  written := by
    intro r pool tracks kept
    refine ⟨kept.providers, kept.requests, ?_⟩
    intro k
    rw [get_put]
    split
    · rename_i same
      exact same ▸ tracks.symm
    · exact kept.units k
  settled := fun r _ _ _ _ kept => ⟨kept.providers, kept.requests, kept.units⟩
  rewarded := fun _ _ _ _ tracks => tracks

theorem keepsUnits_spends (kept : KeepsUnits w r) : Spends env (KeepsUnits w) (TracksUnits w) r :=
  fun _ _ pool member _ _ _ _ _ _ _ _ _ => (keepsUnits_block w).rows r kept pool member

theorem endBlocker_units (order : MapOrder) (w : World β) :
    Meets (endBlocker env order) w (fun _ => KeepsUnits w) (fun _ => KeepsUnits w) :=
  endBlocker_keeps ((keepsUnits_block w).credits env) order
    (fun _ => keepsUnits_spends env (keepsUnits_refl w)) (keepsUnits_refl w)

end Units
end FuryNode
