import FuryNode.Clp.Distribution

/-!
What the two phases of a distribution do to the state. The collection writes nothing but
reports of malformed addresses, so it is a computation over the providers that are left.
The payment moves coins and writes events, and a payment that is refused is taken back
from the pools it was attributed to.
-/
namespace FuryNode
open StatefulProgram StatefulProgram.Prog KeyedTable KeyedTable.Table ClpKeeper
variable {β : Type} (env : Env β)
variable {blockRate : Dec} {state : PoolFuryMap × Collected} {r : World β} {poolFury : PoolFuryMap}

section Failures

/-- The failures that arithmetic out of range may cause are among those of `E`. -/
structure CoversRange (E : Failure → Prop) : Prop where
  overflow : E (.panic .overflow)
  underflow : E (.panic .underflow)
  negative : E (.panic .negative)

/-- A failure that no caller can turn into a value. -/
def IsPanic (f : Failure) : Prop := ∃ p, f = .panic p

@[simp] theorem isPanic_panic (p : Panic) : IsPanic (.panic p) := ⟨p, rfl⟩

theorem isPanic_covers : CoversRange IsPanic := ⟨⟨_, rfl⟩, ⟨_, rfl⟩, ⟨_, rfl⟩⟩

variable {E : Failure → Prop} (covers : CoversRange E) (env : Env β)
include covers

theorem calcProviderDistributionAmount_within {fury : Dec} {totalPoolUnits units : ℕ}
    (divides : 0 < totalPoolUnits ∨ E (.panic .divisionByZero)) :
    FailsOnly (calcProviderDistributionAmount fury totalPoolUnits units) E := by
  have whole := Dec.precision_pos
  have units_divide : (Dec.ofInt totalPoolUnits).raw ≠ 0 ∨ E (.panic .divisionByZero) := by
    refine divides.imp_left ?_
    intro positive
    simp only [Dec.ofInt]
    positivity
  simp [calcProviderDistributionAmount, covers.overflow, covers.negative, units_divide]

theorem collectShare_within {symbol : String} {furyPd : Dec} {furyPdUint poolUnits : ℕ}
    (state : ℕ × Collected) (provider : ValidLiquidityProvider)
    (divides : 0 < poolUnits ∨ E (.panic .divisionByZero)) :
    FailsOnly (collectShare env symbol furyPd furyPdUint poolUnits state provider) E := by
  simp [collectShare, clipShare, recordShare, covers.overflow, covers.underflow,
    calcProviderDistributionAmount_within covers divides]

theorem collectProviderDistribution_within {symbol : String} {poolDepthFury : Dec} {poolUnits : ℕ}
    {lps : List ValidLiquidityProvider} {maps : Collected}
    (divides : 0 < poolUnits ∨ E (.panic .divisionByZero)) :
    FailsOnly (collectProviderDistribution env symbol poolDepthFury blockRate poolUnits lps maps)
      E := by
  have shares : ∀ furyPd furyPdUint, FailsOnly
      (lps.foldlM (collectShare env symbol furyPd furyPdUint poolUnits) (0, maps)) E :=
    fun _ _ => failsOnly_foldlM (I := fun _ _ => True) lps _
      (fun provider _ now _ => ⟨collectShare_within covers env now provider divides,
        fun _ _ => trivial⟩) trivial
  simp [collectProviderDistribution, covers.overflow, covers.negative, shares]

theorem collectTuples_within {blockDistribution : ℕ} {totalDepth : Dec} {period : RewardPeriod}
    {pools : List Pool} {remaining coins : ℕ}
    (divides : totalDepth.raw ≠ 0 ∨ E (.panic .divisionByZero)) :
    FailsOnly (collectTuples blockDistribution totalDepth period pools remaining coins) E := by
  induction pools generalizing remaining coins with
  | nil => exact failsOnly_pure _
  | cons pool rest ih =>
    simp [collectTuples, calcPoolDistribution, covers.overflow, covers.underflow, covers.negative,
      divides, ih]

theorem takeBackAll_within (amounts : List PoolAmount) (poolFury : PoolFuryMap)
    (missing : E (.panic .nilDereference)) : FailsOnly (amounts.foldlM takeBack poolFury) E := by
  refine failsOnly_foldlM (I := fun _ _ => True) _ _ ?_ trivial
  intro lpPool _ now _
  refine ⟨?_, fun _ _ => trivial⟩
  unfold takeBack
  split <;> simp [missing, covers.underflow]

theorem furySum_within {entries : List PoolFury} :
    FailsOnly (entries.foldlM (fun sum e => Uint.add sum e.fury) 0) E :=
  failsOnly_foldlM (I := fun _ _ => True) _ _
    (fun _ _ _ _ => ⟨by simp [covers.overflow], fun _ _ => trivial⟩) trivial

end Failures

def validProviders (env : Env β) (lps : List LiquidityProvider) : List ValidLiquidityProvider :=
  lps.filterMap (fun lp => (env.accAddressFromBech32 lp.liquidityProviderAddress).map
    (fun address => ⟨address, lp⟩))

def Reports (w t : World β) : Prop :=
  ∃ addresses : List String, t = { w with events := w.events ++ addresses.map Event.addressError }

theorem reports_refl (w : World β) : Reports w w := ⟨[], by simp⟩

theorem reports_trans {u v w : World β} (first : Reports u v) (second : Reports v w) :
    Reports u w := by
  obtain ⟨early, rfl⟩ := first
  obtain ⟨late, rfl⟩ := second
  exact ⟨early ++ late, by simp [List.map_append, List.append_assoc]⟩

theorem filterValid_effect (lps : List LiquidityProvider) (r : World β) :
    Meets (filterValidLiquidityProviders env lps) r
      (fun valid t => valid = validProviders env lps ∧ Reports r t) (fun _ _ => False) := by
  induction lps generalizing r with
  | nil => exact meets_pure ⟨rfl, reports_refl r⟩
  | cons lp rest ih =>
    unfold filterValidLiquidityProviders
    split
    · rename_i malformed
      refine meets_modify_then (meets_mono _ (ih _) ?_ (fun _ _ never => never))
      intro valid t done
      refine ⟨by simp [validProviders, malformed, done.1], reports_trans ?_ done.2⟩
      exact ⟨[lp.liquidityProviderAddress], rfl⟩
    · rename_i address decoded
      refine meets_bind (ih r) ?_
      intro valid t done
      exact meets_pure ⟨by simp [validProviders, decoded, done.1], done.2⟩

def sharesOf (env : Env β) (pool : Pool) (poolDepthFury : ℕ) (blockRate : Dec)
    (lps : List LiquidityProvider) (state : PoolFuryMap × Collected) :
    Fallible (PoolFuryMap × Collected) := do
  let (fury, maps) ← collectProviderDistribution env pool.externalAsset (Dec.ofInt poolDepthFury)
    blockRate pool.poolUnits (validProviders env lps) state.2
  pure (state.1.put ⟨pool, fury⟩, maps)

theorem collectShares_effect {pool : Pool} {poolDepthFury : ℕ} :
    Meets (collectShares env pool poolDepthFury blockRate state) r
      (fun result t => Reports r t ∧ sharesOf env pool poolDepthFury blockRate
        (partition r pool.externalAsset) state = .ok result)
      (fun f t => Reports r t ∧ sharesOf env pool poolDepthFury blockRate
        (partition r pool.externalAsset) state = .error f) := by
  unfold collectShares sharesOf
  refine meets_read_then (meets_bind (meets_mono _ (filterValid_effect env _ r)
    (fun _ _ done => done) (fun _ _ never => never.elim)) ?_)
  rintro valid t ⟨rfl, reports⟩
  refine meets_ofExcept_then ?_ ?_
  · intro collected computed
    exact meets_pure ⟨reports, by simp [computed, bind, Except.bind, pure, Except.pure]⟩
  · intro f failed
    exact ⟨reports, by simp [failed, bind, Except.bind]⟩

theorem sharesOf_entry {pool : Pool} {poolDepthFury : ℕ} {lps : List LiquidityProvider}
    {result : PoolFuryMap × Collected}
    (computed : sharesOf env pool poolDepthFury blockRate lps state = .ok result) :
    ∃ collected, collectProviderDistribution env pool.externalAsset (Dec.ofInt poolDepthFury)
        blockRate pool.poolUnits (validProviders env lps) state.2 = .ok collected ∧
      result.1 = state.1.put ⟨pool, collected.1⟩ := by
  obtain ⟨collected, shared, made⟩ := except_bind_succeeds.mp computed
  cases except_pure_succeeds.mp made
  exact ⟨collected, shared, rfl⟩

theorem sharesOf_within {E : Failure → Prop} (covers : CoversRange E) {pool : Pool}
    {poolDepthFury : ℕ} {lps : List LiquidityProvider}
    (divides : 0 < pool.poolUnits ∨ E (.panic .divisionByZero)) :
    FailsOnly (sharesOf env pool poolDepthFury blockRate lps state) E :=
  failsOnly_bind (collectProviderDistribution_within covers env divides)
    (fun _ _ => failsOnly_pure _)

theorem collectTuples_pools (blockDistribution : ℕ) (totalDepth : Dec) (period : RewardPeriod)
    (pools : List Pool) (remaining coins total : ℕ) (tuples : List PoolReward)
    (computed : collectTuples blockDistribution totalDepth period pools remaining coins =
      .ok (tuples, total)) : (tuples.map PoolReward.pool).Sublist pools := by
  induction pools generalizing remaining coins tuples with
  | nil =>
    cases except_pure_succeeds.mp computed
    exact List.Sublist.slnil
  | cons pool rest ih =>
    unfold collectTuples at computed
    split at computed
    · cases except_pure_succeeds.mp computed
      exact List.nil_sublist _
    · obtain ⟨share, _, computed⟩ := except_bind_succeeds.mp computed
      split at computed
      · exact (ih _ _ _ computed).cons _
      · obtain ⟨minted, _, computed⟩ := except_bind_succeeds.mp computed
        obtain ⟨left, _, computed⟩ := except_bind_succeeds.mp computed
        obtain ⟨⟨later, sum⟩, folded, computed⟩ := except_bind_succeeds.mp computed
        cases except_pure_succeeds.mp computed
        exact (ih _ _ _ folded).cons_cons _

/-- No account but that of the module loses coins. -/
def Credits (env : Env β) (b b' : β) : Prop :=
  ∀ a d, a ≠ moduleAddress env → env.bank.getBalance b a d ≤ env.bank.getBalance b' a d

def Pays (env : Env β) (w t : World β) : Prop :=
  ∃ b events, Credits env w.bank b ∧ t = { w with bank := b, events := events }

theorem pays_emit (w : World β) (events : List Event) : Pays env w { w with events := events } :=
  ⟨w.bank, events, fun _ _ _ => le_rfl, rfl⟩

theorem pays_trans {u v w : World β} (first : Pays env u v) (second : Pays env v w) : Pays env u w := by
  obtain ⟨_, _, earlier, rfl⟩ := first
  obtain ⟨b, events, later, rfl⟩ := second
  exact ⟨b, events, fun a d outside => (earlier a d outside).trans (later a d outside), rfl⟩

theorem reports_pays {w t : World β} (reports : Reports w t) : Pays env w t := by
  obtain ⟨addresses, rfl⟩ := reports
  exact pays_emit env w _

/-- Every pool of the second map is one of the first, with no more fury than there. -/
def LowersFury (before after : PoolFuryMap) : Prop :=
  ∀ e ∈ after.rows, ∃ old ∈ before.rows, e.pool = old.pool ∧ e.fury ≤ old.fury

theorem lowersFury_refl (poolFury : PoolFuryMap) : LowersFury poolFury poolFury :=
  fun e member => ⟨e, member, rfl, le_rfl⟩

theorem lowersFury_trans {u v w : PoolFuryMap} (first : LowersFury u v) (second : LowersFury v w) :
    LowersFury u w := by
  intro e member
  obtain ⟨middle, inside, same, less⟩ := second e member
  obtain ⟨old, present, equal, lower⟩ := first middle inside
  exact ⟨old, present, same.trans equal, less.trans lower⟩

theorem takeBack_succeeds {result : PoolFuryMap} {lpPool : PoolAmount}
    (computed : takeBack poolFury lpPool = .ok result) :
    ∃ entry, poolFury.get lpPool.pool = some entry ∧ lpPool.amount ≤ entry.fury ∧
      result = poolFury.put { entry with fury := entry.fury - lpPool.amount } := by
  unfold takeBack at computed
  split at computed
  · cases computed
  · rename_i entry found
    obtain ⟨fury, subtracted, made⟩ := except_bind_succeeds.mp computed
    obtain ⟨enough, rfl⟩ := (Uint.sub_succeeds _ _ _).mp subtracted
    cases except_pure_succeeds.mp made
    exact ⟨entry, found, enough, rfl⟩

theorem takeBack_lowers {result : PoolFuryMap} {lpPool : PoolAmount}
    (computed : takeBack poolFury lpPool = .ok result) : LowersFury poolFury result := by
  obtain ⟨entry, found, _, rfl⟩ := takeBack_succeeds computed
  intro e member
  rcases (mem_put _ _ e).mp member with rfl | ⟨old, _⟩
  · exact ⟨entry, (get_mem found).1, rfl, Nat.sub_le _ _⟩
  · exact ⟨e, old, rfl, le_rfl⟩

theorem takeBackAll_lowers {amounts : List PoolAmount} {result : PoolFuryMap}
    (computed : amounts.foldlM takeBack poolFury = .ok result) : LowersFury poolFury result :=
  foldlM_preserves (I := fun _ now => LowersFury poolFury now) amounts poolFury result
    (fun _ _ _ _ kept taken =>
      lowersFury_trans kept (takeBack_lowers taken))
    (lowersFury_refl poolFury) computed

def attributedTo (lpPools : LpPoolMap) (address : String) : List PoolAmount :=
  (lpPools.get address).elim [] LpPools.pools

def furyCoins (amount : ℕ) : Coins := sanitizeCoins [⟨nativeSymbol, amount⟩]

theorem furyCoins_made (amount : ℕ) :
    newCoin env nativeSymbol amount = .ok ⟨nativeSymbol, amount⟩ ∧
      newCoins [⟨nativeSymbol, amount⟩] = .ok (furyCoins amount) ∧
      ∀ d, amountOf (furyCoins amount) d = if nativeSymbol = d then amount else 0 := by
  have single : (furyCoins amount).map Coin.denom |>.Nodup := by
    by_cases zero : amount = 0
    · simp [furyCoins, sanitizeCoins, zero]
    · simp [furyCoins, sanitizeCoins, zero]
  refine ⟨by simp [newCoin, env.native_denom], if_pos single, ?_⟩
  intro d
  rw [newCoins_amounts _ (furyCoins amount) (if_pos single), amountOf_cons, amountOf_nil]
  simp

def payee (env : Env β) (recipient : LpFury) : AccAddress :=
  (env.accAddressFromBech32 recipient.address).getD ⟨[]⟩

def payout (env : Env β) (b : β) (recipient : LpFury) : Except BankFailure β :=
  env.bank.sendCoinsFromModuleToAccount b clpModuleName (payee env recipient)
    (furyCoins recipient.fury)

/-- A recipient is paid in full from the module account, or its share is taken back. -/
def PaymentEffect (env : Env β) (successKind : String) (lpPools : LpPoolMap) (recipient : LpFury)
    (before after : PoolFuryMap) (r t : World β) : Prop :=
  (after = before ∧ ∃ b, payout env r.bank recipient = .ok b ∧
    t = { r with bank := b, events := r.events ++
      [.payout successKind recipient.address recipient.fury
        (attributedTo lpPools recipient.address)] }) ∨
  (payout env r.bank recipient = .error .refused ∧
    (attributedTo lpPools recipient.address).foldlM takeBack before = .ok after ∧
    ∃ kind addr, t = { r with events := r.events ++ [.payoutError kind addr] })

theorem bankCall_meets (call : β → Except BankFailure β) (r : World β) :
    Meets (bankCall call) r (fun _ t => ∃ b, call r.bank = .ok b ∧ t = { r with bank := b })
      (fun f t => t = r ∧ ∃ why, call r.bank = .error why ∧ f = why.toFailure) := by
  unfold bankCall
  refine meets_read_then ?_
  cases called : call r.bank with
  | ok b => exact meets_modify ⟨b, rfl, rfl⟩
  | error why => exact meets_fail ⟨rfl, why, rfl, rfl⟩

theorem payRecipient_effect {errorKind successKind : String} {lpPools : LpPoolMap}
    {recipient : LpFury} :
    Meets (payRecipient env errorKind successKind lpPools poolFury recipient) r
      (fun after t => PaymentEffect env successKind lpPools recipient poolFury after r t)
      (fun f t => Pays env r t ∧
        ((f = .panic .bankPanicked ∧ payout env r.bank recipient = .error .panicked) ∨
          (attributedTo lpPools recipient.address).foldlM takeBack poolFury = .error f)) := by
  obtain ⟨made, listed, _⟩ := furyCoins_made env recipient.fury
  unfold payRecipient
  rw [made, ofExcept_ok_then, listed, ofExcept_ok_then]
  refine meets_bind (P := fun outcome t => match outcome with
      | .ok _ => ∃ b, payout env r.bank recipient = .ok b ∧ t = { r with bank := b }
      | .error _ => t = r ∧ payout env r.bank recipient = .error .refused) (Action.meets_result ?_) ?_
  · refine meets_mono _ (bankCall_meets _ r) (fun _ _ sent => sent) ?_
    rintro f t ⟨rfl, why, called, rfl⟩
    cases why with
    | refused => exact ⟨rfl, called⟩
    | panicked => exact ⟨pays_emit env t _, Or.inl ⟨rfl, called⟩⟩
  · intro outcome t sent
    cases outcome with
    | error e =>
      obtain ⟨rfl, refused⟩ := sent
      refine meets_modify_then (meets_ofExcept ?_ ?_)
      · intro after taken
        exact Or.inr ⟨refused, taken, _, _, rfl⟩
      · intro f failed
        exact ⟨pays_emit env t _, Or.inr failed⟩
    | ok _ =>
      obtain ⟨b, paid, rfl⟩ := sent
      exact meets_modify_then (meets_pure (Or.inl ⟨rfl, b, paid, rfl⟩))

theorem moves_credits {b b' : β} {recipient : AccAddress} {amt : String → ℕ} (moves : Moves
      (env.bank.getBalance b) (env.bank.getBalance b') (moduleAddress env) recipient amt) :
    Credits env b b' := by
  intro a d outside
  have moved := moves a d
  rw [if_neg outside] at moved
  omega

theorem paymentEffect_pays {successKind : String} {lpPools : LpPoolMap} {recipient : LpFury}
    {before after : PoolFuryMap} {t : World β}
    (effect : PaymentEffect env successKind lpPools recipient before after r t) :
    Pays env r t ∧ LowersFury before after := by
  rcases effect with ⟨rfl, b, paid, rfl⟩ | ⟨_, taken, kind, addr, rfl⟩
  · exact ⟨⟨b, _, moves_credits env (env.bank.fromModule_moves _ _ _ _ _ paid), rfl⟩,
      lowersFury_refl after⟩
  · exact ⟨pays_emit env r _, takeBackAll_lowers taken⟩

theorem transferGeneric_effect {E : Failure → Prop} (covers : CoversRange E)
    (missing : E (.panic .nilDereference)) (panicked : E (.panic .bankPanicked)) {order : MapOrder}
    {maps : Collected} {errorKind successKind : String} :
    Meets (transferProviderDistributionGeneric env order poolFury maps errorKind successKind) r
      (fun paid t => Pays env r t ∧ LowersFury poolFury paid) (fun f t => Pays env r t ∧ E f) := by
  refine meets_accumulate (I := fun _ now t => Pays env r t ∧ LowersFury poolFury now) _ _ poolFury ?_
    ⟨pays_emit env r _, lowersFury_refl poolFury⟩
  rintro recipient _ now t ⟨pays, kept⟩
  refine meets_mono _ (payRecipient_effect env) ?_ ?_
  · intro after u effect
    obtain ⟨more, still⟩ := paymentEffect_pays env effect
    exact ⟨pays_trans env pays more, lowersFury_trans kept still⟩
  · rintro f u ⟨more, cause⟩
    refine ⟨pays_trans env pays more, ?_⟩
    rcases cause with ⟨rfl, _⟩ | failed
    · exact panicked
    · exact takeBackAll_within covers _ now missing f failed
end FuryNode
