import FuryNode.Clp.ProviderDistribution

/-!
The payouts of a block do not depend on the order in which its maps are visited. Whoever comes
first, the recipients that are paid are those that accept, and what stays in the map of pools
are their shares. Nodes that iterate in different orders end the block with the same coins.
-/
namespace FuryNode
open StatefulProgram StatefulProgram.Prog KeyedTable KeyedTable.Table GroupedSums ClpKeeper
variable {β : Type} (env : Env β)

/-- The bank refuses these accounts, and no payout to another that the module account covers. -/
structure RefusesExactly (env : Env β) (refuses : AccAddress → Prop) : Prop where
  refused : ∀ b a coins, refuses a →
    env.bank.sendCoinsFromModuleToAccount b clpModuleName a coins = .error .refused
  accepted : ∀ (w : World β) a amount, ¬refuses a → amount ≤ getModuleFury env w →
    ∃ b, env.bank.sendCoinsFromModuleToAccount w.bank clpModuleName a (furyCoins amount) = .ok b

/-- The maps of a block, from its provider distribution or from the tuples of its rewards. -/
inductive CollectedMaps (env : Env β) (state : PoolFuryMap × Collected) : Prop
  | distribution (w t : World β) (blockRate : Dec)
      (run : (collectProviderDistributions env w.pools.rows blockRate).run w = (.ok state, t))
  | rewards (w r t : World β) (period : RewardPeriod) (height blockDistribution coins : ℕ)
      (totalDepth : Dec) (tuples : List PoolReward)
      (computed : collectPoolRewardTuples (w.pools.rows.map (resetDistributed period height))
        blockDistribution totalDepth period = .ok (tuples, coins))
      (run : (accumulate (collectReward env) (.empty, .empty) tuples).run r = (.ok state, t))

theorem collectRewards_shown (tuples : List PoolReward) (r : World β)
    (distinct : ((tuples.map PoolReward.pool).map Pool.key).Nodup) :
    Meets (accumulate (collectReward env) (.empty, .empty) tuples) r
      (fun state _ => ∃ shares, SharesShown shares state) (fun _ _ => True) := by
  refine meets_mono _ (meets_accumulate (I := fun rest state _ =>
      Fresh (rest.map PoolReward.pool) state.1 ∧ ∃ shares, SharesShown shares state) _ tuples _ ?_
    ⟨⟨distinct, by simp [Table.empty]⟩, [], emptyMaps_view, emptyPools_view⟩)
    (fun _ _ done => done.2) (fun _ _ failed => failed)
  rintro e rest state t ⟨fresh, shares, now⟩
  unfold collectReward
  refine meets_read_then (meets_ite (fun _ => ?_) (fun _ => ?_))
  · exact meets_bind (P := fun _ _ => True) ⟨fun _ _ _ => trivial, fun _ _ _ => trivial⟩
      (fun _ _ _ => meets_pure ⟨fresh.tail, shares, now⟩)
  · refine meets_mono _ (collectShares_effect env) ?_ (fun _ _ _ => trivial)
    rintro next u ⟨_, computed⟩
    obtain ⟨more, fury, shown, put, _⟩ :=
      (sharesOf_spec env e.reward Dec.one _ fresh.absent now).2 next computed
    exact ⟨put ▸ fresh.put fury, more, shown⟩

theorem collectedMaps_shown {state : PoolFuryMap × Collected} (collected : CollectedMaps env state) :
    ∃ shares, SharesShown shares state := by
  cases collected with
  | distribution w t blockRate run =>
    obtain ⟨_, shares, attributes⟩ :=
      (collectProviderDistributions_effect env blockRate w).ok state t run
    exact ⟨shares, attributes.toSharesShown⟩
  | rewards w r t period height blockDistribution coins totalDepth tuples computed run =>
    refine (collectRewards_shown env tuples r ?_).ok state t run
    refine List.Nodup.sublist ((collectTuples_pools _ _ _ _ _ _ _ _ computed).map Pool.key) ?_
    simp only [List.map_map, Function.comp_def, Pool.key, resetDistributed_asset]
    exact w.pools.distinct

section Recipients
variable {refuses : AccAddress → Prop} (bank : RefusesExactly env refuses)
  {all paid : List LpFury} {r : World β}
include bank

theorem turnedAway_refuses {x : LpFury} {why : BankFailure}
    (funded : furyFor all ≤ getModuleFury env r) (turned : TurnedAway env all r x why) :
    why = .refused ∧ refuses (payee env x) := by
  obtain ⟨t, failed, enough⟩ := turned
  by_cases refusing : refuses (payee env x)
  · rw [payout, bank.refused _ _ _ refusing] at failed
    cases failed
    exact ⟨rfl, refusing⟩
  · obtain ⟨b, sent⟩ := bank.accepted t _ x.fury refusing (by omega)
    rw [payout, sent] at failed
    cases failed

theorem paid_accept {b c : β} (sent : paid.foldlM (payout env) b = .ok c) :
    ∀ x ∈ paid, ¬refuses (payee env x) := by
  induction paid generalizing b with
  | nil => simp
  | cons x rest ih =>
    obtain ⟨next, first, later⟩ := except_bind_succeeds.mp sent
    intro y member
    rcases List.mem_cons.mp member with rfl | inside
    · intro refusing
      rw [payout, bank.refused _ _ _ refusing] at first
      cases first
    · exact ih later y inside

/-- A payout returns, and has paid those that accept. -/
theorem transferGeneric_pays (order : MapOrder) (errorKind kind : String) {shares : List Share}
    {state : PoolFuryMap × Collected} (shown : SharesShown shares state)
    (funded : furyFor state.2.lpFury.rows ≤ getModuleFury env r) :
    ∃ now t paid, (transferProviderDistributionGeneric env order state.1 state.2 errorKind kind).run r
        = (.ok now, t) ∧ Settling env kind shares state.2.lpPools
        (order.arrange state.2.lpFury.rows) paid [] state.1 now r t ∧ paid.Nodup ∧
      ∀ x, x ∈ paid ↔ x ∈ state.2.lpFury.rows ∧ ¬refuses (payee env x) := by
  have arranged := order.perm state.2.lpFury.rows
  have total : furyFor (order.arrange state.2.lpFury.rows) ≤ getModuleFury env r :=
    (arranged.map LpFury.fury).sum_eq.trans_le funded
  rcases run : (transferProviderDistributionGeneric env order state.1 state.2 errorKind kind).run r
    with ⟨f | now, t⟩
  · obtain ⟨_, x, turned⟩ := (transferGeneric_settles env order r shown.maps
      shown.poolFury).error f t run
    cases (turnedAway_refuses env bank total turned).1
  · obtain ⟨paid, settled⟩ := (transferGeneric_settles env order r shown.maps
      shown.poolFury).ok now t run
    have part := settled.part
    rw [List.append_nil] at part
    refine ⟨now, t, paid, rfl, settled, ?_, ?_⟩
    · exact (List.Nodup.of_map _ ((arranged.map _).nodup_iff.mpr state.2.lpFury.distinct)).sublist part
    · intro x
      constructor
      · intro member
        exact ⟨arranged.mem_iff.mp (part.subset member), paid_accept env bank settled.sent x member⟩
      · rintro ⟨listed, accepts⟩
        rcases settled.refused x (arranged.mem_iff.mpr listed) with member | turned
        · simpa using member
        · exact absurd (turnedAway_refuses env bank total turned).2 accepts

end Recipients

/-- Two ends of a payout that no balance and no pool tells apart. -/
structure LedgersAgree (env : Env β) (t u : World β) : Prop where
  balances : ∀ a d, env.bank.getBalance t.bank a d = env.bank.getBalance u.bank a d
  pools : ∀ k, t.pools.get k = u.pools.get k

theorem sameBalances {paid paid' : List LpFury} {b c c' : β} (same : paid.Perm paid')
    (first : paid.foldlM (payout env) b = .ok c) (second : paid'.foldlM (payout env) b = .ok c')
    (a : AccAddress) (d : String) : env.bank.getBalance c a d = env.bank.getBalance c' a d := by
  have left := payouts_balance env first a d
  have right := payouts_balance env second a d
  have fury : furyFor paid = furyFor paid' := (same.map LpFury.fury).sum_eq
  rw [fury, sumFor_perm _ _ same] at left
  omega

theorem sameShares {shares : List Share} {paid paid' : List LpFury} (same : paid.Perm paid') :
    sharesFor shares paid = sharesFor shares paid' := by
  refine List.filter_congr ?_
  intro x _
  simp only [(same.map LpFury.address).mem_iff]

theorem sameEntries_get {shares : List Share} {before now now' : PoolFuryMap}
    (first : SameEntries before now) (second : SameEntries before now')
    (left : PoolsView shares now) (right : PoolsView shares now') (k : String) :
    now.get k = now'.get k := by
  have pools := (first k).trans (second k).symm
  have fury := (left.fury k).trans (right.fury k).symm
  rw [valueAt, valueAt] at fury
  rcases here : now.get k with _ | ⟨pool, amount⟩ <;>
    rcases there : now'.get k with _ | ⟨pool', amount'⟩ <;> simp_all

def PayoutsAgree (env : Env β) (first second : MapOrder) (state : PoolFuryMap × Collected)
    (w : World β) (errorKind kind : String) : Prop := ∃ now t now' t',
  (transferProviderDistributionGeneric env first state.1 state.2 errorKind kind).run w
    = (.ok now, t) ∧
  (transferProviderDistributionGeneric env second state.1 state.2 errorKind kind).run w
    = (.ok now', t') ∧ (∀ k, now.get k = now'.get k) ∧ LedgersAgree env t t'

section Orders
variable {refuses : AccAddress → Prop} (bank : RefusesExactly env refuses)
  {shares : List Share} {state : PoolFuryMap × Collected} (shown : SharesShown shares state)
  {w : World β} (funded : furyFor state.2.lpFury.rows ≤ getModuleFury env w)
  (first second : MapOrder)
include bank shown funded

theorem transferGeneric_agrees (errorKind kind : String) :
    PayoutsAgree env first second state w errorKind kind := by
  obtain ⟨now, t, paid, run, left, distinct, members⟩ :=
    transferGeneric_pays env bank first errorKind kind shown funded
  obtain ⟨now', t', paid', run', right, distinct', members'⟩ :=
    transferGeneric_pays env bank second errorKind kind shown funded
  have same : paid.Perm paid' := (List.perm_ext_iff_of_nodup distinct distinct').mpr
    (fun x => (members x).trans (members' x).symm)
  have view := left.view
  rw [List.append_nil, sameShares same, ← List.append_nil paid'] at view
  refine ⟨now, t, now', t', run, run', sameEntries_get left.entries right.entries view right.view,
    sameBalances env same left.sent right.sent, ?_⟩
  obtain ⟨_, _, rfl, _⟩ := left.written
  obtain ⟨_, _, rfl, _⟩ := right.written
  exact fun _ => rfl

theorem transferProviderDistribution_agrees {u : World β}
    (run : (transferProviderDistribution env first state.1 state.2).run w = (.ok (), u)) :
    ∃ u', (transferProviderDistribution env second state.1 state.2).run w = (.ok (), u') ∧
      LedgersAgree env u u' := by
  obtain ⟨now, t, now', t', paid, paid', maps, same⟩ := transferGeneric_agrees env bank shown funded
    first second "lppd/liquidity_provider_payout_error" "lppd/distribution"
  obtain ⟨_, _, ran, removed⟩ := bind_ok run
  cases paid.symm.trans ran
  obtain ⟨wrote, pools, rfl, stored⟩ := (removals_store env first now t).ok () u removed
  have entries : ∀ e ∈ now'.rows, e ∈ now.rows := by
    intro e member
    have found : now'.get e.key = some e := get_row member
    rw [← maps] at found
    exact (get_mem found).1
  rcases other : (forEach (fun e => Action.ignoreError (removeFuryFromPool env e.pool e.fury))
    (second.arrange now'.rows)).run t' with ⟨f | _, u'⟩
  · obtain ⟨e, member, failed⟩ := (removals_store env second now' t').error f u' other
    obtain ⟨_, written⟩ := wrote e (entries e member)
    rw [written] at failed
    cases failed
  · refine ⟨u', (bind_succeeds _ _ _ _ _).mpr ⟨now', t', paid', other⟩, ?_⟩
    obtain ⟨_, pools', rfl, stored'⟩ := (removals_store env second now' t').ok () u' other
    refine ⟨same.balances, ?_⟩
    intro k
    rw [stored k, stored' k, maps, same.pools]

end Orders

/-- Whatever accounts refuse, two orders of the maps pay out the same: both payouts return, with
    the same balances, the same map of pools and, after the removals, the same pools. -/
theorem payouts_ignore_map_order (env : Env β) (refuses : AccAddress → Prop)
    (bank : RefusesExactly env refuses) (state : PoolFuryMap × Collected)
    (collected : CollectedMaps env state) (w : World β)
    (funded : furyFor state.2.lpFury.rows ≤ getModuleFury env w) (first second : MapOrder) :
    (∀ errorKind kind, PayoutsAgree env first second state w errorKind kind) ∧
    ∀ u, (transferProviderDistribution env first state.1 state.2).run w = (.ok (), u) →
      ∃ u', (transferProviderDistribution env second state.1 state.2).run w = (.ok (), u') ∧
        LedgersAgree env u u' := by
  obtain ⟨shares, shown⟩ := collectedMaps_shown env collected
  exact ⟨transferGeneric_agrees env bank shown funded first second,
    fun _ run => transferProviderDistribution_agrees env bank shown funded first second run⟩

def MapOrder.reversed : MapOrder := ⟨List.reverse, List.reverse_perm⟩

theorem ledgerBank_refuses :
    RefusesExactly LedgerBank.env (fun a => LedgerBank.isModule a = true) := by
  constructor
  · intro b a coins refusing
    exact if_pos refusing
  · intro w a amount accepts enough
    have covered : LedgerBank.covers w.bank (LedgerBank.moduleAddress clpModuleName)
        (furyCoins amount) := by
      intro c _
      rw [(furyCoins_made LedgerBank.env amount).2.2]
      split
      · rename_i native
        exact native ▸ enough
      · exact Nat.zero_le _
    exact ⟨_, (if_neg accepts).trans (if_pos covered)⟩

theorem shared_pools_pay_in_any_order : ∃ state t,
    (collectProviderDistributions LedgerBank.env sharedPools.pools.rows ⟨10 ^ 15⟩).run sharedPools
      = (.ok state, t) ∧ 0 < furyFor state.2.lpFury.rows ∧
    ∀ errorKind kind, PayoutsAgree LedgerBank.env .asWritten .reversed state t errorKind kind := by
  have pays : (let r := (collectProviderDistributions LedgerBank.env sharedPools.pools.rows
      ⟨10 ^ 15⟩).run sharedPools
      r.1.toOption.any fun state => 0 < furyFor state.2.lpFury.rows ∧
        furyFor state.2.lpFury.rows ≤ getModuleFury LedgerBank.env r.2) = true := by decide +kernel
  rcases run : (collectProviderDistributions LedgerBank.env sharedPools.pools.rows
    ⟨10 ^ 15⟩).run sharedPools with ⟨f | state, t⟩
  · simp only [run, Except.toOption, Option.any_none, Bool.false_eq_true] at pays
  · obtain ⟨some, enough⟩ : _ ∧ _ := by
      simpa only [run, Except.toOption, Option.any_some, decide_eq_true_eq] using pays
    exact ⟨state, t, rfl, some, (payouts_ignore_map_order LedgerBank.env _ ledgerBank_refuses state
      (.distribution _ t _ run) t enough .asWritten .reversed).1⟩

end FuryNode
