import FuryNode.Library.GroupedSums
import FuryNode.Clp.DistributionEffects
import FuryNode.Clp.DepthRewards

/-!
A provider distribution pays out what it takes from the pools. The collection attributes
shares, and its three maps are views of the list of shares: fury by recipient, pools by
recipient, fury by pool. Whoever is not paid has their shares taken back from the view by
pool, so that in the end both sides sum up the shares of the recipients that were paid.
-/
namespace FuryNode
open StatefulProgram StatefulProgram.Prog KeyedTable KeyedTable.Table GroupedSums HalfEven ClpKeeper
variable {β : Type} (env : Env β)

structure Share where
  recipient : String
  pool : String
  amount : ℕ

def Share.poolAmount (x : Share) : PoolAmount := ⟨x.pool, x.amount⟩

structure MapsView (shares : List Share) (maps : Collected) : Prop where
  fury : ∀ a, valueAt LpFury.fury maps.lpFury a = sumFor Share.recipient Share.amount shares a
  pools : ∀ a, attributedTo maps.lpPools a =
    (shares.filter (fun x => x.recipient = a)).map Share.poolAmount
  recipients : ∀ x ∈ shares, maps.lpFury.get x.recipient ≠ none

structure PoolsView (shares : List Share) (poolFury : PoolFuryMap) : Prop where
  fury : ∀ s, valueAt PoolFury.fury poolFury s = sumFor Share.pool Share.amount shares s
  present : ∀ x ∈ shares, poolFury.get x.pool ≠ none

theorem emptyMaps_view : MapsView [] .empty := by
  refine ⟨fun _ => rfl, fun _ => rfl, ?_⟩
  intro x member
  simp at member

theorem emptyPools_view : PoolsView [] .empty := by
  refine ⟨fun _ => rfl, ?_⟩
  intro x member
  simp at member

theorem poolsView_perm {xs ys : List Share} {poolFury : PoolFuryMap} (same : xs.Perm ys)
    (view : PoolsView xs poolFury) : PoolsView ys poolFury :=
  ⟨fun s => (view.fury s).trans (sumFor_perm _ _ same s),
    fun x member => view.present x (same.mem_iff.mpr member)⟩

theorem chop_nonneg {i : ℤ} (nonneg : 0 ≤ i) : 0 ≤ Dec.chopPrecisionAndRound i := by
  unfold Dec.chopPrecisionAndRound
  exact mul_nonneg (Int.sign_nonneg_iff.mpr nonneg) (Int.natCast_nonneg _)

theorem decRoundToUint_succeeds {d : Dec} {n : ℕ} (computed : decRoundToUint d = .ok n) :
    Dec.chopPrecisionAndRound d.raw = n := by
  simp only [decRoundToUint, Dec.roundInt, except_bind_succeeds, Dec.toInt_succeeds,
    Uint.ofBigInt_succeeds] at computed
  obtain ⟨_, ⟨_, rfl⟩, whole, _⟩ := computed
  exact whole

theorem decRoundToUint_overflow {d : Dec} (nonneg : 0 ≤ d.raw) :
    FailsOnly (decRoundToUint d) (· = .panic .overflow) := by
  have rounded := chop_nonneg nonneg
  unfold decRoundToUint Dec.roundInt
  refine failsOnly_bind Dec.toInt_fails ?_
  intro i computed
  obtain ⟨_, rfl⟩ := Dec.toInt_succeeds.mp computed
  refine failsOnly_mono (Uint.ofBigInt_fails _) ?_
  intro f fails
  rcases fails with overflow | ⟨_, negative⟩
  · exact overflow
  · omega

theorem mul_nonneg_result {a b c : Dec} (computed : a.mul b = .ok c) (left : 0 ≤ a.raw)
    (right : 0 ≤ b.raw) : 0 ≤ c.raw := by
  obtain ⟨_, rfl⟩ := Dec.checked_succeeds.mp computed
  exact chop_nonneg (mul_nonneg left right)

theorem quo_nonneg_result {a b c : Dec} (computed : a.quo b = .ok c) (left : 0 ≤ a.raw)
    (right : 0 ≤ b.raw) : 0 ≤ c.raw := by
  unfold Dec.quo at computed
  split at computed
  · cases computed
  · obtain ⟨_, rfl⟩ := Dec.checked_succeeds.mp computed
    have scaled : 0 ≤ a.raw * Dec.precision * Dec.precision := by positivity
    exact chop_nonneg (Int.tdiv_nonneg scaled right)

def rateOf (blockRate : Dec) (depth : ℕ) : ℤ := Dec.chopPrecisionAndRound (blockRate.raw * depth)

variable {blockRate : Dec} {shares : List Share} {maps : Collected} {pools : Table Pool.key}
  {paid all : List LpFury} {r t : World β} {now before : PoolFuryMap} {kind : String}

/-- The product with a whole number is exact, so only the last rounding counts. -/
theorem mul_whole {furyPd : Dec} {depth : ℕ}
    (computed : blockRate.mul (Dec.ofInt depth) = .ok furyPd) :
    furyPd.raw = blockRate.raw * depth := by
  obtain ⟨_, rfl⟩ := Dec.checked_succeeds.mp computed
  have whole : blockRate.raw * (Dec.ofInt depth).raw =
      blockRate.raw * depth * Dec.precision := by
    simp only [Dec.ofInt]
    ring
  rw [whole]
  exact Dec.chop_whole _

theorem rateOf_le (depth : ℕ) (nonneg : 0 ≤ blockRate.raw)
    (atMostOne : blockRate.raw ≤ Dec.precision) : rateOf blockRate depth ≤ depth := by
  obtain ⟨rate, same⟩ := Int.eq_ofNat_of_zero_le nonneg
  have bound : rate * depth ≤ depth * Dec.precision := by
    rw [Nat.mul_comm]
    exact Nat.mul_le_mul_left depth (by omega)
  have rounded := halfEven_le_of_le_mul Dec.precision_pos bound
  rw [rateOf, same, ← Nat.cast_mul, Dec.chop_natCast]
  omega

def Overflows (f : Failure) : Prop := f = .panic .overflow

@[simp] theorem overflows_iff (f : Failure) : Overflows f ↔ f = .panic .overflow := Iff.rfl

theorem calcProviderDistributionAmount_overflow {fury : Dec} {poolUnits units : ℕ}
    (positive : 0 < poolUnits) (nonneg : 0 ≤ fury.raw) :
    FailsOnly (calcProviderDistributionAmount fury poolUnits units) Overflows := by
  have whole := Dec.precision_pos
  have nonzero : (Dec.ofInt poolUnits).raw ≠ 0 := by
    simp only [Dec.ofInt]
    positivity
  refine failsOnly_bind (Dec.quo_fails nonzero) (fun percentage divided => ?_)
  refine failsOnly_bind Dec.checked_fails (fun product multiplied => ?_)
  have share := quo_nonneg_result divided (Dec.ofInt_nonneg units) (Dec.ofInt_nonneg poolUnits)
  exact decRoundToUint_overflow (mul_nonneg_result multiplied share nonneg)

theorem clipShare_spec {furyPdUint total providerFury : ℕ} (within : total ≤ furyPdUint) :
    FailsOnly (clipShare furyPdUint total providerFury) Overflows ∧
      ∀ share next, clipShare furyPdUint total providerFury = .ok (share, next) →
        next = total + share ∧ next ≤ furyPdUint := by
  unfold clipShare
  constructor
  · refine failsOnly_bind Uint.add_fails (fun sum added => ?_)
    obtain ⟨_, rfl⟩ := (Uint.add_succeeds _ _ _).mp added
    refine failsOnly_ite (fun _ => ?_) (fun _ => failsOnly_pure _)
    -- the first subtraction gives the old total, which is below the limit of the second
    have back : Uint.sub (total + providerFury) providerFury = .ok total := by
      simp [Uint.sub]
    have rest : Uint.sub furyPdUint total = .ok (furyPdUint - total) := by
      simp [Uint.sub, within]
    simp [back, rest]
  · intro share next computed
    obtain ⟨sum, added, computed⟩ := except_bind_succeeds.mp computed
    obtain ⟨_, rfl⟩ := (Uint.add_succeeds _ _ _).mp added
    split at computed
    · obtain ⟨before, first, computed⟩ := except_bind_succeeds.mp computed
      obtain ⟨rest, second, computed⟩ := except_bind_succeeds.mp computed
      obtain ⟨_, rfl⟩ := (Uint.sub_succeeds _ _ _).mp first
      obtain ⟨_, rfl⟩ := (Uint.sub_succeeds _ _ _).mp second
      cases except_pure_succeeds.mp computed
      omega
    · cases except_pure_succeeds.mp computed
      omega

theorem recordShare_view {result : Collected} {addr symbol : String} {amount : ℕ}
    (view : MapsView shares maps) (computed : recordShare maps addr symbol amount = .ok result) :
    MapsView (shares ++ [⟨addr, symbol, amount⟩]) result := by
  obtain ⟨fury, added, made⟩ := except_bind_succeeds.mp computed
  obtain ⟨_, rfl⟩ := (Uint.add_succeeds _ _ _).mp added
  cases except_pure_succeeds.mp made
  have old : (maps.lpFury.get addr).elim 0 LpFury.fury =
      sumFor Share.recipient Share.amount shares addr := by
    rw [← view.fury addr, valueAt]
    cases maps.lpFury.get addr <;> rfl
  constructor
  · intro a
    rw [valueAt_put, sumFor_append, sumFor_cons, sumFor_nil]
    by_cases same : addr = a
    · subst same
      simp [old]
    · simp [same, view.fury a]
  · intro a
    rw [attributedTo, get_put, List.filter_append, List.map_append]
    by_cases same : addr = a
    · subst same
      have attributed := view.pools addr
      rw [attributedTo] at attributed
      simp [Share.poolAmount, attributed]
    · have attributed := view.pools a
      rw [attributedTo] at attributed
      simp [same, attributed]
  · intro x member
    rw [get_put]
    split
    · simp
    · rename_i other
      rcases List.mem_append.mp member with before | new
      · exact view.recipients x before
      · obtain rfl := List.mem_singleton.mp new
        exact absurd rfl other

/-- Along the providers of one pool: the shares of the pool so far sum up to the running total,
    which stays below what the pool gives. -/
structure Sharing (symbol : String) (furyPdUint : ℕ) (shares : List Share)
    (state : ℕ × Collected) : Prop where
  within : state.1 ≤ furyPdUint
  recorded : ∃ new, MapsView (shares ++ new) state.2 ∧ (∀ x ∈ new, x.pool = symbol) ∧
    (new.map Share.amount).sum = state.1

theorem collectShare_spec {symbol : String} {furyPd : Dec} {furyPdUint poolUnits : ℕ}
    {state : ℕ × Collected} {provider : ValidLiquidityProvider}
    (now : Sharing symbol furyPdUint shares state) :
    (0 < poolUnits → 0 ≤ furyPd.raw →
      FailsOnly (collectShare env symbol furyPd furyPdUint poolUnits state provider) Overflows) ∧
      ∀ next, collectShare env symbol furyPd furyPdUint poolUnits state provider = .ok next →
        Sharing symbol furyPdUint shares next := by
  unfold collectShare
  constructor
  · intro positive nonneg
    refine failsOnly_bind (calcProviderDistributionAmount_overflow positive nonneg) ?_
    intro providerFury _
    refine failsOnly_bind (clipShare_spec now.within).1 ?_
    rintro ⟨share, total⟩ _
    simp [recordShare]
  · intro next computed
    obtain ⟨providerFury, _, computed⟩ := except_bind_succeeds.mp computed
    obtain ⟨⟨share, total⟩, clipped, computed⟩ := except_bind_succeeds.mp computed
    obtain ⟨maps, recorded, computed⟩ := except_bind_succeeds.mp computed
    cases except_pure_succeeds.mp computed
    obtain ⟨sum, within⟩ := (clipShare_spec now.within).2 share total clipped
    obtain ⟨new, view, pools, amounts⟩ := now.recorded
    refine ⟨within, new ++ [⟨env.addressString provider.address, symbol, share⟩], ?_, ?_, ?_⟩
    · rw [← List.append_assoc]
      exact recordShare_view view recorded
    · intro x member
      rcases List.mem_append.mp member with before | last
      · exact pools x before
      · obtain rfl := List.mem_singleton.mp last
        rfl
    · simp [amounts, sum]

theorem collectProviderDistribution_spec (symbol : String) (depth : ℕ) (blockRate : Dec)
    (poolUnits : ℕ) (lps : List ValidLiquidityProvider) (view : MapsView shares maps) :
    (0 < poolUnits → 0 ≤ blockRate.raw → FailsOnly
      (collectProviderDistribution env symbol (Dec.ofInt depth) blockRate poolUnits lps maps)
        Overflows) ∧
      ∀ result, collectProviderDistribution env symbol (Dec.ofInt depth) blockRate poolUnits lps
          maps = .ok result →
        (result.1 : ℤ) ≤ rateOf blockRate depth ∧ ∃ limit, Sharing symbol limit shares result := by
  have start : ∀ limit, Sharing symbol limit shares (0, maps) := by
    intro limit
    exact ⟨Nat.zero_le _, [], by simpa using view, by simp, rfl⟩
  unfold collectProviderDistribution
  constructor
  · intro positive nonneg
    refine failsOnly_bind Dec.checked_fails (fun furyPd multiplied => ?_)
    have share := mul_nonneg_result multiplied nonneg (Dec.ofInt_nonneg depth)
    refine failsOnly_bind (decRoundToUint_overflow share) (fun furyPdUint _ => ?_)
    exact failsOnly_foldlM (I := fun _ => Sharing symbol furyPdUint shares) lps _
      (fun provider _ _ now => (collectShare_spec env now).imp_left
        (fun only => only positive share)) (start furyPdUint)
  · intro result computed
    obtain ⟨furyPd, multiplied, computed⟩ := except_bind_succeeds.mp computed
    obtain ⟨furyPdUint, rounded, computed⟩ := except_bind_succeeds.mp computed
    have limit := decRoundToUint_succeeds rounded
    rw [mul_whole multiplied] at limit
    have sharing := foldlM_preserves (I := fun _ => Sharing symbol furyPdUint shares) lps _ result
      (fun provider _ _ next now collected => (collectShare_spec env now).2 next collected)
      (start furyPdUint) computed
    refine ⟨?_, furyPdUint, sharing⟩
    have within := sharing.within
    rw [rateOf, limit]
    omega

/-- The three maps show one list of shares. -/
structure SharesShown (shares : List Share) (state : PoolFuryMap × Collected) : Prop where
  maps : MapsView shares state.2
  poolFury : PoolsView shares state.1

/-- Each entry is moreover for a pool of the list and within its rate. -/
structure Attributes (blockRate : Dec) (pools : List Pool) (shares : List Share)
    (state : PoolFuryMap × Collected) : Prop extends SharesShown shares state where
  listed : ∀ e ∈ state.1.rows, e.pool ∈ pools
  bounded : ∀ e ∈ state.1.rows, (e.fury : ℤ) ≤ rateOf blockRate e.pool.nativeAssetBalance

theorem nothing_attributes (blockRate : Dec) {pools : List Pool} :
    Attributes blockRate pools [] (.empty, .empty) :=
  ⟨⟨emptyMaps_view, emptyPools_view⟩, by simp [Table.empty], by simp [Table.empty]⟩

theorem sharesOf_spec {pool : Pool} (depth : ℕ) (blockRate : Dec) (lps : List LiquidityProvider)
    {state : PoolFuryMap × Collected} (absent : state.1.get pool.externalAsset = none)
    (now : SharesShown shares state) :
    (0 < pool.poolUnits → 0 ≤ blockRate.raw →
      FailsOnly (sharesOf env pool depth blockRate lps state) Overflows) ∧
      ∀ next, sharesOf env pool depth blockRate lps state = .ok next →
        ∃ more fury, SharesShown more next ∧ next.1 = state.1.put ⟨pool, fury⟩ ∧
          (fury : ℤ) ≤ rateOf blockRate depth := by
  have spec := collectProviderDistribution_spec env pool.externalAsset depth blockRate
    pool.poolUnits (validProviders env lps) now.maps
  refine ⟨fun positive nonneg => failsOnly_bind (spec.1 positive nonneg)
    (fun _ _ => failsOnly_pure _), ?_⟩
  intro next computed
  obtain ⟨⟨total, maps⟩, collected, made⟩ := except_bind_succeeds.mp computed
  cases except_pure_succeeds.mp made
  obtain ⟨bound, _, sharing⟩ := spec.2 _ collected
  obtain ⟨new, view, symbols, sum⟩ := sharing.recorded
  have own : sumFor Share.pool Share.amount new pool.externalAsset = total := by
    have all : new.filter (fun x => x.pool = pool.externalAsset) = new :=
      List.filter_eq_self.mpr (by simpa using symbols)
    rw [sumFor, all]
    exact sum
  have foreign : ∀ s, pool.externalAsset ≠ s → sumFor Share.pool Share.amount new s = 0 := by
    intro s other
    have none : new.filter (fun x => x.pool = s) = [] := by
      refine List.filter_eq_nil_iff.mpr ?_
      intro x inside
      simpa [symbols x inside] using other
    simp [sumFor, none]
  have nothing : sumFor Share.pool Share.amount shares pool.externalAsset = 0 := by
    rw [← now.poolFury.fury, valueAt, absent]
    rfl
  refine ⟨shares ++ new, total, ⟨view, ?_, ?_⟩, rfl, bound⟩
  · intro s
    rw [valueAt_put, sumFor_append]
    by_cases same : pool.externalAsset = s
    · subst same
      rw [own, nothing, Nat.zero_add]
      exact if_pos rfl
    · rw [foreign s same, Nat.add_zero, ← now.poolFury.fury s]
      exact if_neg same
  · intro x inside
    rw [get_put]
    split
    · simp
    · rename_i other
      rcases List.mem_append.mp inside with before | last
      · exact now.poolFury.present x before
      · exact absurd (symbols x last).symm other

/-- The pools that are left have different keys, none of which is in the map yet. -/
structure Fresh (rest : List Pool) (poolFury : PoolFuryMap) : Prop where
  distinct : (rest.map Pool.key).Nodup
  apart : ∀ e ∈ poolFury.rows, ∀ p ∈ rest, e.pool.key ≠ p.key

section Fresh
variable {pool : Pool} {rest : List Pool} {poolFury : PoolFuryMap}

theorem Fresh.absent (fresh : Fresh (pool :: rest) poolFury) :
    poolFury.get pool.externalAsset = none := by
  refine (get_none_iff _ _).mpr ?_
  intro e entry same
  exact fresh.apart e entry pool (by simp) (congrArg PoolKey.mk same)

theorem Fresh.tail (fresh : Fresh (pool :: rest) poolFury) : Fresh rest poolFury :=
  ⟨(List.nodup_cons.mp fresh.distinct).2,
    fun e entry p member => fresh.apart e entry p (by simp [member])⟩

theorem Fresh.put (fresh : Fresh (pool :: rest) poolFury) (fury : ℕ) :
    Fresh rest (poolFury.put ⟨pool, fury⟩) := by
  refine ⟨fresh.tail.distinct, ?_⟩
  intro e entry p member
  rcases (mem_put _ _ e).mp entry with rfl | ⟨old, _⟩
  · intro same
    exact (List.nodup_cons.mp fresh.distinct).1 (same ▸ List.mem_map_of_mem member)
  · exact fresh.tail.apart e old p member

end Fresh

theorem collectProviderDistributions_effect (blockRate : Dec) (w : World β) :
    Meets (collectProviderDistributions env w.pools.rows blockRate) w
      (fun state t => Reports w t ∧ ∃ shares, Attributes blockRate w.pools.rows shares state)
      (fun f _ => (∀ pool ∈ w.pools.rows, 0 < pool.poolUnits) → 0 ≤ blockRate.raw → Overflows f) := by
  refine meets_mono _ (meets_accumulate (I := fun rest state t =>
      Fresh rest state.1 ∧ (∀ p ∈ rest, p ∈ w.pools.rows) ∧ Reports w t ∧
      ∃ shares, Attributes blockRate w.pools.rows shares state) _ w.pools.rows _ ?_
    ⟨⟨w.pools.distinct, by simp [Table.empty]⟩, fun _ member => member, reports_refl w, [],
      nothing_attributes blockRate⟩) (fun _ _ done => done.2.2) (fun _ _ failed => failed)
  rintro pool rest state t ⟨fresh, inside, reports, shares, now⟩
  have member := inside pool (by simp)
  have later : ∀ p ∈ rest, p ∈ w.pools.rows := fun p member => inside p (by simp [member])
  unfold collectPool
  refine meets_read_then (meets_ite (fun _ => meets_pure ⟨fresh.tail, later, reports, shares, now⟩)
    (fun _ => ?_))
  have spec := sharesOf_spec env pool.nativeAssetBalance blockRate
    (partition t pool.externalAsset) fresh.absent now.toSharesShown
  refine meets_mono _ (collectShares_effect env) ?_
    (fun f _ failed positive nonneg => spec.1 (positive pool member) nonneg f failed.2)
  rintro next u ⟨report, computed⟩
  obtain ⟨more, fury, shown, put, bound⟩ := spec.2 next computed
  refine ⟨put ▸ fresh.put fury, later, reports_trans reports report, more, shown, ?_, ?_⟩
  · rw [put]
    intro e entry
    rcases (mem_put _ _ e).mp entry with rfl | ⟨old, _⟩
    · exact member
    · exact now.listed e old
  · rw [put]
    intro e entry
    rcases (mem_put _ _ e).mp entry with rfl | ⟨old, _⟩
    · exact bound
    · exact now.bounded e old

def SameEntries (before after : PoolFuryMap) : Prop :=
  ∀ k, (after.get k).map PoolFury.pool = (before.get k).map PoolFury.pool

theorem takeBack_view (x : Share) (kept : List Share) (now : PoolFuryMap)
    (view : PoolsView (x :: kept) now) :
    ∃ result, takeBack now x.poolAmount = .ok result ∧ PoolsView kept result ∧
      SameEntries now result := by
  cases found : now.get x.pool with
  | none => exact absurd found (view.present x (by simp))
  | some entry =>
    have key : entry.key = x.pool := now.get_key _ _ found
    have fury : entry.fury = x.amount + sumFor Share.pool Share.amount kept x.pool := by
      have value := view.fury x.pool
      rw [valueAt, found, sumFor_cons] at value
      simpa using value
    have taken : Uint.sub entry.fury x.amount = .ok (entry.fury - x.amount) := by
      rw [Uint.sub, if_pos (by omega)]
    refine ⟨now.put { entry with fury := entry.fury - x.amount }, ?_, ⟨?_, ?_⟩, ?_⟩
    · simp [takeBack, Share.poolAmount, found, taken, bind, Except.bind, pure, Except.pure]
    · intro s
      have value := view.fury s
      rw [sumFor_cons] at value
      rw [valueAt_put]
      have unchanged : PoolFury.key { entry with fury := entry.fury - x.amount } = x.pool := key
      rw [unchanged]
      by_cases same : x.pool = s
      · subst same
        simp only [↓reduceIte]
        omega
      · simp only [same, ↓reduceIte, Nat.zero_add] at value ⊢
        exact value
    · intro y member
      rw [get_put]
      split
      · simp
      · exact view.present y (by simp [member])
    · intro k
      rw [get_put]
      split
      · rename_i same
        have here : now.get k = some entry := by
          rw [← found]
          exact congrArg now.get (same.symm.trans key)
        rw [here]
        rfl
      · rfl

theorem takeBackAll_view (back kept : List Share) (now : PoolFuryMap)
    (view : PoolsView (back ++ kept) now) :
    ∃ result, (back.map Share.poolAmount).foldlM takeBack now = .ok result ∧
      PoolsView kept result ∧ SameEntries now result := by
  induction back generalizing now with
  | nil => exact ⟨now, rfl, view, fun _ => rfl⟩
  | cons x rest ih =>
    obtain ⟨next, taken, first, same⟩ := takeBack_view x (rest ++ kept) now view
    obtain ⟨result, later, last, still⟩ := ih next first
    refine ⟨result, ?_, last, fun k => (still k).trans (same k)⟩
    rw [List.map_cons, List.foldlM_cons, taken]
    exact later

def sharesFor (shares : List Share) (recipients : List LpFury) : List Share :=
  shares.filter (fun x => x.recipient ∈ recipients.map LpFury.address)

theorem sharesFor_drop (shares : List Share) (before rest : List LpFury) (r : LpFury)
    (distinct : ((before ++ r :: rest).map LpFury.address).Nodup) :
    (sharesFor shares (before ++ r :: rest)).Perm
      (shares.filter (fun x => x.recipient = r.address) ++ sharesFor shares (before ++ rest)) := by
  have absent : r.address ∉ (before ++ rest).map LpFury.address := by
    have moved : (before ++ r :: rest).Perm (r :: (before ++ rest)) := List.perm_middle
    have middle := moved.map LpFury.address
    exact (List.nodup_cons.mp (middle.nodup_iff.mp distinct)).1
  have split := List.filter_append_perm (fun x : Share => decide (x.recipient = r.address))
    (sharesFor shares (before ++ r :: rest))
  have own : (sharesFor shares (before ++ r :: rest)).filter
      (fun x => decide (x.recipient = r.address)) =
      shares.filter (fun x => x.recipient = r.address) := by
    rw [sharesFor, List.filter_filter]
    refine List.filter_congr ?_
    intro x _
    by_cases same : x.recipient = r.address <;> simp [same]
  have others : (sharesFor shares (before ++ r :: rest)).filter
      (fun x => !decide (x.recipient = r.address)) = sharesFor shares (before ++ rest) := by
    rw [sharesFor, sharesFor, List.filter_filter]
    refine List.filter_congr ?_
    intro x _
    by_cases same : x.recipient = r.address
    · have out : x.recipient ∉ (before ++ rest).map LpFury.address := same ▸ absent
      rw [decide_eq_false out]
      simp [same]
    · simp [same]
  rw [own, others] at split
  exact split.symm

def payoutsOf (events : List Event) : List Event :=
  events.filter (fun e => match e with | .payout _ _ _ _ => true | _ => false)

def payoutEvent (kind : String) (lpPools : LpPoolMap) (r : LpFury) : Event :=
  .payout kind r.address r.fury (attributedTo lpPools r.address)

def furyFor (recipients : List LpFury) : ℕ := (recipients.map LpFury.fury).sum

theorem furyFor_cons (x : LpFury) (rest : List LpFury) :
    furyFor (x :: rest) = x.fury + furyFor rest := by
  simp [furyFor]

/-- What is sent leaves the module account, since no module account receives it. -/
theorem payouts_balance {b c : β} (sent : paid.foldlM (payout env) b = .ok c) (a : AccAddress)
    (d : String) :
    env.bank.getBalance c a d +
        (if a = moduleAddress env ∧ nativeSymbol = d then furyFor paid else 0) =
      env.bank.getBalance b a d + (if a ≠ moduleAddress env ∧ nativeSymbol = d
        then sumFor (payee env) LpFury.fury paid a else 0) := by
  induction paid generalizing b with
  | nil =>
    cases except_pure_succeeds.mp sent
    simp [furyFor, sumFor_nil]
  | cons x rest ih =>
    obtain ⟨next, first, later⟩ := except_bind_succeeds.mp sent
    have moved := env.bank.fromModule_moves _ _ _ _ _ first a d
    have other : moduleAddress env ≠ payee env x := by
      intro same
      rw [payout, ← same] at first
      exact env.bank.fromModule_blocked _ _ _ clpModuleName _ first
    have tail := ih later
    rw [(furyCoins_made env x.fury).2.2] at moved
    rw [furyFor_cons, sumFor_cons]
    simp only [moduleAddress] at other tail ⊢
    grind

theorem payouts_leave (sent : paid.foldlM (payout env) r.bank = .ok t.bank) :
    getModuleFury env t + furyFor paid = getModuleFury env r := by
  simpa [getModuleFury] using payouts_balance env sent (moduleAddress env) nativeSymbol

/-- `x` was turned away while the account held what the payouts to all leave for `x`. -/
def TurnedAway (env : Env β) (all : List LpFury) (r : World β) (x : LpFury) (why : BankFailure) : Prop :=
  ∃ t : World β, payout env t.bank x = .error why ∧
    getModuleFury env r + x.fury ≤ getModuleFury env t + furyFor all

/-- Along the recipients: those paid so far, and the view by pool without the shares of those
    that were refused. -/
structure Settling (env : Env β) (kind : String) (shares : List Share) (lpPools : LpPoolMap)
    (all paid rest : List LpFury) (before now : PoolFuryMap) (r t : World β) : Prop where
  part : (paid ++ rest).Sublist all
  view : PoolsView (sharesFor shares (paid ++ rest)) now
  entries : SameEntries before now
  written : ∃ b new, t = { r with bank := b, events := r.events ++ new } ∧
    payoutsOf new = paid.map (payoutEvent kind lpPools)
  sent : paid.foldlM (payout env) r.bank = .ok t.bank
  refused : ∀ x ∈ all, x ∈ paid ++ rest ∨ TurnedAway env all r x .refused

theorem refused_view {rest : List LpFury} {recipient : LpFury} (view : MapsView shares maps)
    (distinct : (all.map LpFury.address).Nodup) (part : (paid ++ recipient :: rest).Sublist all)
    (shown : PoolsView (sharesFor shares (paid ++ recipient :: rest)) now) :
    ∃ result, (attributedTo maps.lpPools recipient.address).foldlM takeBack now = .ok result ∧
      PoolsView (sharesFor shares (paid ++ rest)) result ∧ SameEntries now result := by
  have drop := sharesFor_drop shares paid rest recipient
    (distinct.sublist (part.map LpFury.address))
  rw [view.pools recipient.address]
  exact takeBackAll_view _ _ now (poolsView_perm drop shown)

theorem Settling.turnedAway {lpPools : LpPoolMap} {rest : List LpFury} {recipient : LpFury}
    (settling : Settling env kind shares lpPools all paid (recipient :: rest) before now r t)
    {why : BankFailure} (failed : payout env t.bank recipient = .error why) :
    TurnedAway env all r recipient why := by
  have left := payouts_leave env settling.sent
  have total : furyFor (paid ++ recipient :: rest) ≤ furyFor all :=
    (settling.part.map LpFury.fury).sum_le_sum (fun _ _ => Nat.zero_le _)
  simp only [furyFor, List.map_append, List.sum_append, List.map_cons, List.sum_cons] at left total
  refine ⟨t, failed, ?_⟩
  rw [furyFor]
  omega

theorem payRecipient_settles {errorKind : String} {rest : List LpFury} {recipient : LpFury}
    (view : MapsView shares maps) (distinct : (all.map LpFury.address).Nodup)
    (settling : Settling env kind shares maps.lpPools all paid (recipient :: rest) before now r t) :
    Meets (payRecipient env errorKind kind maps.lpPools now recipient) t
      (fun after u => ∃ paid', Settling env kind shares maps.lpPools all paid' rest before after r u)
      (fun f _ => f = .panic .bankPanicked ∧ ∃ x, TurnedAway env all r x .panicked) := by
  obtain ⟨b, new, rfl, payouts⟩ := settling.written
  obtain ⟨result, taken, shown, same⟩ := refused_view view distinct settling.part settling.view
  refine meets_mono _ (payRecipient_effect env) ?_ ?_
  · intro after u effect
    rcases effect with ⟨rfl, c, sent, rfl⟩ | ⟨refused, back, errKind, addr, rfl⟩
    · have moved : paid ++ [recipient] ++ rest = paid ++ recipient :: rest := by simp
      refine ⟨paid ++ [recipient], moved ▸ settling.part, moved ▸ settling.view, settling.entries,
        ⟨c, new ++ [payoutEvent kind maps.lpPools recipient], ?_, ?_⟩, ?_, moved ▸ settling.refused⟩
      · simp [payoutEvent]
      · simp only [payoutsOf, List.filter_append, List.map_append] at payouts ⊢
        rw [payouts]
        rfl
      · rw [List.foldlM_append, settling.sent]
        simp [bind, Except.bind, pure, Except.pure, show payout env b recipient = .ok c from sent]
    · obtain rfl : result = after := by simpa [taken] using back
      refine ⟨paid, ?_, shown, fun k => (same k).trans (settling.entries k),
        ⟨b, new ++ [.payoutError errKind addr], ?_, ?_⟩, settling.sent, ?_⟩
      · exact (List.Sublist.append_left (List.sublist_cons_self _ _) _).trans settling.part
      · simp
      · simp only [payoutsOf, List.filter_append] at payouts ⊢
        rw [payouts]
        simp
      · intro x member
        have before := settling.refused x member
        have here := settling.turnedAway env refused
        grind
  · rintro f u ⟨_, ⟨panicked, failed⟩ | stuck⟩
    · exact ⟨panicked, recipient, settling.turnedAway env failed⟩
    · rw [taken] at stuck
      cases stuck

theorem transferGeneric_settles (order : MapOrder) {errorKind : String} {poolFury : PoolFuryMap}
    (r : World β) (view : MapsView shares maps) (shown : PoolsView shares poolFury) :
    Meets (transferProviderDistributionGeneric env order poolFury maps errorKind kind) r
      (fun now t => ∃ paid, Settling env kind shares maps.lpPools (order.arrange maps.lpFury.rows)
        paid [] poolFury now r t)
      (fun f _ => f = .panic .bankPanicked ∧
        ∃ x, TurnedAway env (order.arrange maps.lpFury.rows) r x .panicked) := by
  have arranged := order.perm maps.lpFury.rows
  have distinct : ((order.arrange maps.lpFury.rows).map LpFury.address).Nodup :=
    (arranged.map _).nodup_iff.mpr maps.lpFury.distinct
  have everyone : sharesFor shares (order.arrange maps.lpFury.rows) = shares := by
    refine List.filter_eq_self.mpr ?_
    intro x member
    obtain ⟨row, found⟩ := Option.ne_none_iff_exists'.mp (view.recipients x member)
    obtain ⟨listed, address⟩ := get_mem found
    simp only [decide_eq_true_eq]
    exact List.mem_map.mpr ⟨row, arranged.mem_iff.mpr listed, address⟩
  refine meets_accumulate (I := fun rest now t => ∃ paid, Settling env kind shares maps.lpPools
      (order.arrange maps.lpFury.rows) paid rest poolFury now r t) _ _ poolFury ?_ ⟨[], ?_⟩
  · rintro recipient rest now t ⟨paid, settling⟩
    exact payRecipient_settles env view distinct settling
  · refine ⟨List.Sublist.refl _, ?_, fun _ => rfl, ⟨r.bank, [], by simp, rfl⟩, rfl,
      fun _ member => Or.inl member⟩
    rw [List.nil_append, everyone]
    exact shown

def Pool.debited (pool : Pool) (amount : ℕ) : Pool :=
  { pool with nativeAssetBalance := pool.nativeAssetBalance - amount }

theorem removeFuryFromPool_effect {pool : Pool} {amount : ℕ} (r : World β)
    (valid : assetValidate env pool.externalAsset = .ok true)
    (enough : amount ≤ pool.nativeAssetBalance) : Meets (removeFuryFromPool env pool amount) r
      (fun _ t => t = { r with pools := r.pools.put (pool.debited amount) }) (fun _ _ => False) := by
  have subtracted : Uint.sub pool.nativeAssetBalance amount =
      .ok (pool.nativeAssetBalance - amount) := by
    rw [Uint.sub, if_pos enough]
  unfold removeFuryFromPool
  refine meets_require_then (fun _ => ?_) (fun refused => refused enough)
  rw [subtracted, ofExcept_ok_then]
  exact setPool_valid env (pool.debited amount) r valid

/-- What the removal of an entry writes, which the entry alone decides. -/
def furyRemoval (env : Env β) (e : PoolFury) : Fallible (Option Pool) :=
  if e.fury ≤ e.pool.nativeAssetBalance then do
    let valid ← assetValidate env e.pool.externalAsset
    pure (if valid then some (e.pool.debited e.fury) else none)
  else .ok none

theorem furyRemoval_effect (e : PoolFury) (r : World β) :
    Meets (Action.ignoreError (removeFuryFromPool env e.pool e.fury)) r
      (fun _ t => ∃ p, furyRemoval env e = .ok p ∧ t = { r with pools := p.elim r.pools r.pools.put })
      (fun f _ => furyRemoval env e = .error f) := by
  refine Action.meets_ignoreError ?_
  unfold removeFuryFromPool
  refine meets_require_then (fun enough => ?_) (fun short => ⟨none, if_neg short, rfl⟩)
  rw [Uint.sub, if_pos enough, ofExcept_ok_then]
  unfold setPool
  refine meets_ofExcept_then ?_ ?_
  · intro valid validated
    have wrote : furyRemoval env e = .ok (if valid then some (e.pool.debited e.fury) else none) := by
      rw [furyRemoval, if_pos enough, validated]
      rfl
    refine meets_require_then ?_ ?_
    · rintro rfl
      exact meets_modify ⟨_, wrote, rfl⟩
    · intro invalid
      exact ⟨_, wrote, by simp [invalid]⟩
  · intro f failed
    have panics : FailsOnly (assetValidate env e.pool.externalAsset) IsPanic := by
      simp [assetValidate, newCoin]
    obtain ⟨_, rfl⟩ := panics f failed
    rw [furyRemoval, if_pos enough, failed]
    rfl

theorem furyRemoval_stores {e : PoolFury} {p : Option Pool} (pools : Table Pool.key)
    (wrote : furyRemoval env e = .ok p) (k : PoolKey) :
    (p.elim pools pools.put).get k = if e.pool.key = k then p.or (pools.get k) else pools.get k := by
  cases p with
  | none => simp
  | some pool =>
    have key : pool.key = e.pool.key := by
      unfold furyRemoval at wrote
      split at wrote
      · obtain ⟨valid, _, made⟩ := except_bind_succeeds.mp wrote
        have written := except_pure_succeeds.mp made
        cases valid with
        | false => cases written
        | true =>
          cases written
          rfl
      · cases wrote
    rw [← key]
    exact get_put

theorem removals_effect (entries : List PoolFury) (r : World β)
    (distinct : (entries.map PoolFury.key).Nodup) :
    Meets (forEach (fun e => Action.ignoreError (removeFuryFromPool env e.pool e.fury)) entries) r
      (fun _ t => ∃ pools, t = { r with pools := pools } ∧
        (∀ e ∈ entries, ∃ p, furyRemoval env e = .ok p ∧
          pools.get e.pool.key = p.or (r.pools.get e.pool.key)) ∧
        ∀ k, (∀ e ∈ entries, e.pool.key ≠ k) → pools.get k = r.pools.get k)
      (fun f _ => ∃ e ∈ entries, furyRemoval env e = .error f) := by
  induction entries generalizing r with
  | nil => exact meets_pure ⟨r.pools, rfl, by simp, fun _ _ => rfl⟩
  | cons e rest ih =>
    obtain ⟨fresh, others⟩ := List.nodup_cons.mp distinct
    have apart : ∀ later ∈ rest, later.pool.key ≠ e.pool.key := by
      intro later member same
      exact fresh (List.mem_map.mpr ⟨later, member, congrArg PoolKey.symbol same⟩)
    refine meets_bind (meets_mono _ (furyRemoval_effect env e r) (fun _ _ done => done)
      (fun f _ failed => ⟨e, by simp, failed⟩)) ?_
    rintro _ t ⟨p, wrote, rfl⟩
    refine meets_mono _ (ih _ others) ?_ ?_
    · rintro _ u ⟨pools, rfl, written, kept⟩
      have first := furyRemoval_stores env r.pools wrote
      refine ⟨pools, rfl, ?_, ?_⟩
      · intro entry member
        rcases List.mem_cons.mp member with rfl | later
        · refine ⟨p, wrote, ?_⟩
          rw [kept _ apart, first, if_pos rfl]
        · obtain ⟨q, wrote, stored⟩ := written entry later
          refine ⟨q, wrote, ?_⟩
          rw [stored, first, if_neg (apart entry later).symm]
      · intro k away
        rw [kept k (fun later member => away later (by simp [member])), first,
          if_neg (away e (by simp))]
    · rintro f _ ⟨later, member, failed⟩
      exact ⟨later, by simp [member], failed⟩

/-- The pools after the removals, in whatever order they run. -/
theorem removals_store (order : MapOrder) (poolFury : PoolFuryMap) (r : World β) :
    Meets (forEach (fun e => Action.ignoreError (removeFuryFromPool env e.pool e.fury))
        (order.arrange poolFury.rows)) r
      (fun _ t => (∀ e ∈ poolFury.rows, ∃ p, furyRemoval env e = .ok p) ∧
        ∃ pools, t = { r with pools := pools } ∧ ∀ k, pools.get k =
          ((poolFury.get k.symbol).bind fun e => (furyRemoval env e).toOption.join).or (r.pools.get k))
      (fun f _ => ∃ e ∈ poolFury.rows, furyRemoval env e = .error f) := by
  have arranged := order.perm poolFury.rows
  refine meets_mono _ (removals_effect env _ r ((arranged.map _).nodup_iff.mpr poolFury.distinct))
    ?_ ?_
  · rintro _ t ⟨pools, rfl, written, kept⟩
    refine ⟨?_, pools, rfl, ?_⟩
    · intro e member
      obtain ⟨p, wrote, _⟩ := written e (arranged.mem_iff.mpr member)
      exact ⟨p, wrote⟩
    · intro k
      cases found : poolFury.get k.symbol with
      | some e =>
        obtain ⟨member, key⟩ := get_mem found
        have here : e.pool.key = k := congrArg PoolKey.mk key
        obtain ⟨p, wrote, stored⟩ := written e (arranged.mem_iff.mpr member)
        rw [here] at stored
        simp [stored, wrote, Except.toOption]
      | none =>
        refine kept k ?_
        intro e member here
        exact (get_none_iff _ _).mp found e (arranged.mem_iff.mp member)
          (congrArg PoolKey.symbol here)
  · rintro f _ ⟨e, member, failed⟩
    exact ⟨e, arranged.mem_iff.mp member, failed⟩

theorem removals_debit (order : MapOrder) (poolFury : PoolFuryMap) {w : World β}
    (same : r.pools = w.pools) (listed : ∀ e ∈ poolFury.rows, e.pool ∈ w.pools.rows)
    (valid : PoolsValid env w.pools.rows)
    (covered : ∀ e ∈ poolFury.rows, e.fury ≤ e.pool.nativeAssetBalance) :
    Meets (forEach (fun e => Action.ignoreError (removeFuryFromPool env e.pool e.fury))
        (order.arrange poolFury.rows)) r
      (fun _ t => ∃ pools, t = { r with pools := pools } ∧ ∀ k, pools.get k =
        (w.pools.get k).map (fun pool => pool.debited (valueAt PoolFury.fury poolFury k.symbol)))
      (fun _ _ => False) := by
  have debits : ∀ e ∈ poolFury.rows, furyRemoval env e = .ok (some (e.pool.debited e.fury)) := by
    intro e member
    rw [furyRemoval, if_pos (covered e member), valid e.pool (listed e member)]
    rfl
  refine meets_mono _ (removals_store env order poolFury r) ?_ ?_
  · rintro _ t ⟨_, pools, rfl, stored⟩
    refine ⟨pools, rfl, ?_⟩
    intro k
    rw [stored k, same, valueAt]
    cases found : poolFury.get k.symbol with
    | some e =>
      obtain ⟨member, key⟩ := get_mem found
      have here : e.pool.key = k := congrArg PoolKey.mk key
      have held : w.pools.get k = some e.pool := (get_some_iff _ _ _).mpr ⟨listed e member, here⟩
      simp [debits e member, held, Except.toOption]
    | none => cases w.pools.get k <;> rfl
  · rintro f _ ⟨e, member, failed⟩
    rw [debits e member] at failed
    cases failed

theorem sharesFor_perm (shares : List Share) {recipients : List LpFury}
    (distinct : (recipients.map LpFury.address).Nodup) :
    (sharesFor shares recipients).Perm
      (recipients.flatMap (fun r => shares.filter (fun x => x.recipient = r.address))) := by
  induction recipients with
  | nil => simp [sharesFor]
  | cons r rest ih =>
    have drop := sharesFor_drop shares [] rest r distinct
    rw [List.flatMap_cons]
    exact drop.trans ((ih (List.nodup_cons.mp distinct).2).append_left _)

theorem furyFor_shares (view : MapsView shares maps) {recipients : List LpFury}
    (distinct : (recipients.map LpFury.address).Nodup)
    (rows : ∀ r ∈ recipients, r ∈ maps.lpFury.rows) :
    furyFor recipients = ((sharesFor shares recipients).map Share.amount).sum := by
  rw [((sharesFor_perm shares distinct).map Share.amount).sum_eq, furyFor,
    List.map_flatMap, List.flatMap_def, List.sum_flatten, List.map_map]
  congr 1
  refine List.map_congr_left ?_
  intro r member
  have found : maps.lpFury.get r.address = some r := get_row (rows r member)
  have value := view.fury r.address
  rw [valueAt, found] at value
  simpa [sumFor] using value

def paidAmounts (events : List Event) : List PoolAmount :=
  (payoutsOf events).flatMap (fun e => match e with | .payout _ _ _ amounts => amounts | _ => [])

def paidFury (events : List Event) : ℕ :=
  ((payoutsOf events).map (fun e => match e with | .payout _ _ amount _ => amount | _ => 0)).sum

theorem paidFury_recipients {lpPools : LpPoolMap} {new : List Event}
    (payouts : payoutsOf new = paid.map (payoutEvent kind lpPools)) :
    paidFury new = furyFor paid := by
  simp [paidFury, payouts, furyFor, payoutEvent, Function.comp_def]

theorem paidAmounts_shares (view : MapsView shares maps) {new : List Event}
    (distinct : (paid.map LpFury.address).Nodup)
    (payouts : payoutsOf new = paid.map (payoutEvent kind maps.lpPools)) (s : String) :
    sumFor PoolAmount.pool PoolAmount.amount (paidAmounts new) s =
      sumFor Share.pool Share.amount (sharesFor shares paid) s := by
  have amounts : paidAmounts new = (paid.flatMap (fun r =>
      shares.filter (fun x => x.recipient = r.address))).map Share.poolAmount := by
    rw [paidAmounts, payouts, List.flatMap_map, List.map_flatMap]
    simp only [payoutEvent, view.pools]
  rw [amounts, sumFor_map, sumFor_perm _ _ (sharesFor_perm shares distinct) s]
  rfl

/-- What a provider distribution did: `new` are its events. -/
structure DistributionEffect (env : Env β) (blockRate : Dec) (w w' : World β) (new : List Event) :
    Prop where
  events : w'.events = w.events ++ new
  sent : getModuleFury env w' + paidFury new = getModuleFury env w
  removed : total Pool.nativeAssetBalance w'.pools + paidFury new =
    total Pool.nativeAssetBalance w.pools
  debited : ∀ k, w'.pools.get k = (w.pools.get k).map (fun pool =>
    pool.debited (sumFor PoolAmount.pool PoolAmount.amount (paidAmounts new) k.symbol))
  bounded : ∀ pool ∈ w.pools.rows,
    sumFor PoolAmount.pool PoolAmount.amount (paidAmounts new) pool.externalAsset ≤
        pool.nativeAssetBalance ∧
      (sumFor PoolAmount.pool PoolAmount.amount (paidAmounts new) pool.externalAsset : ℤ) ≤
        rateOf blockRate pool.nativeAssetBalance

theorem sameEntries_pools (before after : PoolFuryMap) (same : SameEntries before after)
    (e : PoolFury) (member : e ∈ after.rows) : ∃ old ∈ before.rows, e.pool = old.pool := by
  have found : after.get e.key = some e := get_row member
  have pools := same e.key
  rw [found] at pools
  cases here : before.get e.key with
  | none => simp [here] at pools
  | some old =>
    refine ⟨old, (get_mem here).1, ?_⟩
    simpa [here] using pools

theorem settled_bounded {pools : List Pool}
    (collected : Attributes blockRate pools shares (before, maps))
    (settled : Settling env kind shares maps.lpPools all paid [] before now r t) :
    ∀ e ∈ now.rows, e.pool ∈ pools ∧ (e.fury : ℤ) ≤ rateOf blockRate e.pool.nativeAssetBalance := by
  intro e member
  obtain ⟨old, present, equal⟩ := sameEntries_pools before now settled.entries e member
  have value := settled.view.fury e.key
  have earlier := collected.poolFury.fury e.key
  have found : now.get e.key = some e := get_row member
  have there : before.get e.key = some old :=
    (get_some_iff _ _ _).mpr ⟨present, by rw [PoolFury.key, PoolFury.key, equal]⟩
  have fewer := sumFor_sublist Share.pool Share.amount
    (sharesFor shares (paid ++ [])) shares List.filter_sublist e.key
  rw [valueAt, found] at value
  rw [valueAt, there] at earlier
  have bound := collected.bounded old present
  simp only [Option.map_some, Option.getD_some] at value earlier
  rw [equal]
  exact ⟨collected.listed old present, by omega⟩

theorem payoutsOf_reports {addresses : List String} {new : List Event} :
    payoutsOf (addresses.map Event.addressError ++ new) = payoutsOf new := by
  have none : payoutsOf (addresses.map Event.addressError) = [] := by
    refine List.filter_eq_nil_iff.mpr ?_
    intro e member
    obtain ⟨address, _, rfl⟩ := List.mem_map.mp member
    simp
  have split := List.filter_append (p := fun e => match e with | .payout _ _ _ _ => true | _ => false)
    (addresses.map Event.addressError) new
  rw [payoutsOf, split]
  rw [payoutsOf] at none
  rw [none]
  rfl

theorem debited_total {w : World β} {debit : String → ℕ}
    (amounts : ∀ s, debit s = sumFor Share.pool Share.amount shares s)
    (reached : ∀ x ∈ shares, ∃ pool ∈ w.pools.rows, pool.externalAsset = x.pool)
    (enough : ∀ pool ∈ w.pools.rows, debit pool.externalAsset ≤ pool.nativeAssetBalance)
    (debited : ∀ k, pools.get k = (w.pools.get k).map (fun pool => pool.debited (debit k.symbol))) :
    total Pool.nativeAssetBalance pools + (shares.map Share.amount).sum =
      total Pool.nativeAssetBalance w.pools := by
  have left : total Pool.nativeAssetBalance pools =
      total (fun p => p.nativeAssetBalance - debit p.externalAsset) w.pools := by
    refine total_congr _ _ pools w.pools ?_
    intro k
    rw [debited k]
    cases found : w.pools.get k with
    | none => rfl
    | some pool =>
      have key : pool.externalAsset = k.symbol := congrArg PoolKey.symbol (w.pools.get_key _ _ found)
      simp [Pool.debited, key]
  have distinct : (w.pools.rows.map Pool.externalAsset).Nodup := by
    have keys := w.pools.distinct
    have same : w.pools.rows.map Pool.key = (w.pools.rows.map Pool.externalAsset).map PoolKey.mk := by
      simp [Pool.key, Function.comp_def]
    rw [same] at keys
    exact List.Nodup.of_map _ keys
  have split := sum_sumFor Share.pool Share.amount distinct shares (by
      intro x member
      obtain ⟨pool, inside, asset⟩ := reached x member
      exact asset ▸ List.mem_map_of_mem inside)
  have debits : (w.pools.rows.map (fun p => debit p.externalAsset)).sum =
      (shares.map Share.amount).sum := by
    rw [← split, List.map_map]
    congr 1
    exact List.map_congr_left (fun p _ => amounts p.externalAsset)
  rw [left, ← debits, total, total, ← List.sum_map_add]
  congr 1
  refine List.map_congr_left ?_
  intro p member
  have bound := enough p member
  omega

theorem value_bounded
    (entries : ∀ e ∈ now.rows, e.pool ∈ pools.rows ∧ (e.fury : ℤ) ≤ rateOf blockRate e.pool.nativeAssetBalance)
    (nonneg : ∀ pool ∈ pools.rows, 0 ≤ rateOf blockRate pool.nativeAssetBalance) :
    ∀ pool ∈ pools.rows, ((valueAt PoolFury.fury now pool.externalAsset : ℕ) : ℤ) ≤
      rateOf blockRate pool.nativeAssetBalance := by
  intro pool member
  rw [valueAt]
  cases found : now.get pool.externalAsset with
  | none => simpa using nonneg pool member
  | some e =>
    obtain ⟨inside, key⟩ := get_mem found
    obtain ⟨listed, bound⟩ := entries e inside
    have same : e.pool = pool :=
      List.inj_on_of_nodup_map pools.distinct listed member (congrArg PoolKey.mk key)
    simpa [same] using bound

theorem settled_distributes {order : MapOrder} {w u : World β} (reports : Reports w t)
    (atMostDepth : ∀ pool ∈ w.pools.rows, rateOf blockRate pool.nativeAssetBalance ≤
      pool.nativeAssetBalance)
    (nonneg : ∀ pool ∈ w.pools.rows, 0 ≤ rateOf blockRate pool.nativeAssetBalance)
    (collected : Attributes blockRate w.pools.rows shares (before, maps))
    (settled : Settling env kind shares maps.lpPools (order.arrange maps.lpFury.rows) paid [] before
      now t u)
    (debited : ∀ k, pools.get k = (w.pools.get k).map (fun pool =>
      pool.debited (valueAt PoolFury.fury now k.symbol))) :
    ∃ new, DistributionEffect env blockRate w { u with pools := pools } new := by
  obtain ⟨addresses, rfl⟩ := reports
  obtain ⟨b, new, rfl, payouts⟩ := settled.written
  have part := settled.part
  have view := settled.view
  rw [List.append_nil] at part view
  have arranged := order.perm maps.lpFury.rows
  have distinct : (paid.map LpFury.address).Nodup :=
    ((arranged.map _).nodup_iff.mpr maps.lpFury.distinct).sublist (part.map LpFury.address)
  have rows : ∀ r ∈ paid, r ∈ maps.lpFury.rows :=
    fun r member => arranged.mem_iff.mp (part.subset member)
  have all : payoutsOf (addresses.map Event.addressError ++ new) =
      paid.map (payoutEvent kind maps.lpPools) := payoutsOf_reports.trans payouts
  have fury := paidFury_recipients all
  have shared := furyFor_shares collected.maps distinct rows
  have amounts := paidAmounts_shares collected.maps distinct all
  have values : ∀ s, valueAt PoolFury.fury now s = sumFor PoolAmount.pool PoolAmount.amount
      (paidAmounts (addresses.map Event.addressError ++ new)) s :=
    fun s => (view.fury s).trans (amounts s).symm
  have entries := settled_bounded env collected settled
  have bounded := value_bounded entries nonneg
  have covered : ∀ pool ∈ w.pools.rows,
      valueAt PoolFury.fury now pool.externalAsset ≤ pool.nativeAssetBalance := by
    intro pool member
    have first := bounded pool member
    have second := atMostDepth pool member
    omega
  refine ⟨addresses.map Event.addressError ++ new, ?_, ?_, ?_, ?_, ?_⟩
  · simp [List.append_assoc]
  · rw [fury]
    exact payouts_leave env settled.sent
  · rw [fury, shared]
    refine debited_total view.fury ?_ covered debited
    intro x member
    obtain ⟨e, found⟩ := Option.ne_none_iff_exists'.mp (view.present x member)
    obtain ⟨inside, key⟩ := get_mem found
    exact ⟨e.pool, (entries e inside).1, key⟩
  · intro k
    rw [← values]
    exact debited k
  · intro pool member
    rw [← values]
    exact ⟨covered pool member, bounded pool member⟩

def activeRate (w : World β) : Dec :=
  (findProviderDistributionPeriod w.height w.clp.distributionPeriods).elim Dec.zero
    ProviderDistributionPeriod.distributionPeriodBlockRate

theorem doProviderDistribution_effect (w : World β)
    (positive : ∀ pool ∈ w.pools.rows, 0 < pool.poolUnits) (nonneg : 0 ≤ (activeRate w).raw) :
    Meets (doProviderDistribution env) w
      (fun state t => Reports w t ∧ ∃ shares, Attributes (activeRate w) w.pools.rows shares state)
      (fun f _ => Overflows f) := by
  unfold doProviderDistribution
  refine meets_read_then ?_
  cases found : findProviderDistributionPeriod w.height w.clp.distributionPeriods with
  | none =>
    exact meets_pure ⟨reports_refl w, [], nothing_attributes _⟩
  | some period =>
    have rate : activeRate w = period.distributionPeriodBlockRate := by simp [activeRate, found]
    rw [rate] at nonneg ⊢
    exact meets_mono _ (collectProviderDistributions_effect env _ w) (fun _ _ done => done)
      (fun _ _ overflow => overflow positive nonneg)

def payProviders (env : Env β) (order : MapOrder) (state : PoolFuryMap × Collected) :
    Action β PoolFuryMap :=
  transferProviderDistributionGeneric env order state.1 state.2
    "lppd/liquidity_provider_payout_error" "lppd/distribution"

/-- A run pays out exactly what it removes from the pools, each pool within its rate, and stops
    only for an overflow or a panic of the bank. -/
theorem providerDistribution_conserves {env : Env β} (order : MapOrder) {w : World β}
    (valid : PoolsValid env w.pools.rows) (positive : ∀ pool ∈ w.pools.rows, 0 < pool.poolUnits)
    (nonneg : 0 ≤ (activeRate w).raw) (atMostOne : (activeRate w).raw ≤ Dec.precision) :
    Meets (providerDistributionPolicyRun env order) w
      (fun _ w' => ∃ new, DistributionEffect env (activeRate w) w w' new)
      (fun f _ => f = .panic .overflow ∨ f = .panic .bankPanicked) ∧
    ∀ state t, (doProviderDistribution env).run w = (.ok state, t) →
      ∀ paid u, (payProviders env order state).run t = (.ok paid, u) →
        ∀ e ∈ paid.rows, ∀ v, ((removeFuryFromPool env e.pool e.fury).run v).1 = .ok () := by
  have atMostDepth : ∀ pool ∈ w.pools.rows, rateOf (activeRate w) pool.nativeAssetBalance ≤
      pool.nativeAssetBalance := fun pool _ => rateOf_le _ nonneg atMostOne
  have rates : ∀ pool ∈ w.pools.rows, 0 ≤ rateOf (activeRate w) pool.nativeAssetBalance :=
    fun pool _ => chop_nonneg (mul_nonneg nonneg (Int.natCast_nonneg _))
  have collection := doProviderDistribution_effect env w positive nonneg
  have covers : ∀ shares maps all paid before now r t,
      Attributes (activeRate w) w.pools.rows shares (before, maps) →
      Settling env "lppd/distribution" shares maps.lpPools all paid [] before now r t →
      ∀ e ∈ now.rows, e.pool ∈ w.pools.rows ∧ e.fury ≤ e.pool.nativeAssetBalance := by
    intro shares maps all paid before now r t collected settled e member
    obtain ⟨listed, bound⟩ := settled_bounded env  collected settled e member
    have depth := atMostDepth e.pool listed
    exact ⟨listed, by omega⟩
  constructor
  · unfold providerDistributionPolicyRun
    refine meets_bind (meets_mono _ collection (fun _ _ done => done)
      (fun _ _ overflow => Or.inl overflow)) ?_
    rintro ⟨before, maps⟩ t ⟨reports, shares, collected⟩
    unfold transferProviderDistribution
    refine meets_bind (meets_mono _ (transferGeneric_settles env order t
      collected.maps collected.poolFury) (fun _ _ done => done)
      (fun _ _ panicked => Or.inr panicked.1)) ?_
    rintro now u ⟨paid, settled⟩
    have entries := covers shares maps _ paid before now t u collected settled
    have stores : u.pools = w.pools := by
      obtain ⟨_, rfl⟩ := reports
      obtain ⟨_, _, rfl, _⟩ := settled.written
      rfl
    refine meets_mono _ (removals_debit env order now stores (fun e member => (entries e member).1)
      valid (fun e member => (entries e member).2)) ?_ (fun _ _ never => never.elim)
    rintro _ v ⟨pools, rfl, debited⟩
    exact settled_distributes env reports atMostDepth rates collected settled debited
  · rintro ⟨before, maps⟩ t run now u transferred e member v
    obtain ⟨_, shares, collected⟩ := collection.ok _ t run
    obtain ⟨paid, settled⟩ := (transferGeneric_settles env order t
      collected.maps collected.poolFury).ok now u transferred
    obtain ⟨listed, enough⟩ := covers shares maps _ paid before now t u collected settled e member
    have removal := removeFuryFromPool_effect env v (valid e.pool listed) enough
    rcases outcome : (removeFuryFromPool env e.pool e.fury).run v with ⟨failed | _, after⟩
    · exact (removal.error failed after outcome).elim
    · rfl

/-- Two pools that share a provider, in a period with a rate of one in a thousand. -/
def sharedPools : World LedgerBank.Balances :=
  (deliverAll LedgerBank.env [(LedgerBank.block 2, .createPool ⟨"alice", "ceth", 10 ^ 18, 10 ^ 18⟩),
    (LedgerBank.block 2, .createPool ⟨"alice", "cusd", 3 * 10 ^ 18, 10 ^ 18⟩),
    (LedgerBank.block 2, .addLiquidity ⟨"bob", "ceth", 10 ^ 17, 10 ^ 17⟩)]
    LedgerBank.genesis).within { LedgerBank.block 3 with
      clp := { LedgerBank.clpParams with distributionPeriods := [⟨⟨10 ^ 15⟩, 1, 10, 1⟩] } }

theorem shared_pools_conserve : ∃ new,
    DistributionEffect LedgerBank.env ⟨10 ^ 15⟩ sharedPools
      ((providerDistributionPolicyRun LedgerBank.env .asWritten).run sharedPools).2 new := by
  have valid : PoolsValid LedgerBank.env sharedPools.pools.rows := by
    unfold PoolsValid
    decide +kernel
  have returns : ((providerDistributionPolicyRun LedgerBank.env .asWritten).run sharedPools).1 =
      .ok () := by decide +kernel
  have rate : activeRate sharedPools = ⟨10 ^ 15⟩ := by decide +kernel
  rw [← rate]
  exact (providerDistribution_conserves .asWritten valid
    (by decide +kernel) (by decide +kernel) (by decide +kernel)).1.ok () _ (Prod.ext returns rfl)

end FuryNode
