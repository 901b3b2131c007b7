import FuryNode.Clp.RemovalQueue
import FuryNode.Clp.DistributionEffects
import FuryNode.Clp.Delivery

/-!
A removal that would leave its pool unhealthy is put on the queue, and the handler then returns
an error, with which the delivery of the message discards the request again. Nothing is ever
queued by a message, so an answer "queued" is always wrong.
-/
namespace FuryNode
open StatefulProgram StatefulProgram.Prog KeyedTable KeyedTable.Table ClpKeeper
variable {β : Type}

section Refusals

def NotQueued (f : Failure) : Prop := f ≠ .err .errQueued

@[simp] theorem notQueued_panic (p : Panic) : NotQueued (.panic p) := nofun

@[simp] theorem notQueued_err (e : Err) : NotQueued (.err e) ↔ e ≠ .errQueued := by
  simp [NotQueued]

@[simp] theorem extractDebt_unqueued {pool : Pool} {X Y : ℕ} {toFury : Bool} :
    FailsOnly (pool.extractDebt X Y toFury) NotQueued := by
  simp [Pool.extractDebt]

theorem calculateWithdrawal_unqueued {poolUnits nativeAssetDepth externalAssetDepth lpUnits : ℕ}
    {wBasisPoints asymmetry : ℤ} :
    FailsOnly (calculateWithdrawal poolUnits nativeAssetDepth externalAssetDepth lpUnits
      wBasisPoints asymmetry) NotQueued := by
  simp [calculateWithdrawal, shareOfDepth]

theorem calculateWithdrawalFromUnits_unqueued {poolUnits nativeAssetDepth externalAssetDepth lpUnits
    withdrawUnits : ℕ} :
    FailsOnly (calculateWithdrawalFromUnits poolUnits nativeAssetDepth externalAssetDepth lpUnits
      withdrawUnits) NotQueued := by
  simp [calculateWithdrawalFromUnits, shareOfDepth]

@[simp] theorem convWBasisPointsToUnits_unqueued {total : ℕ} {wbasis : ℤ} :
    FailsOnly (convWBasisPointsToUnits total wbasis) NotQueued := by
  simp [convWBasisPointsToUnits]

@[simp] theorem assetValidate_unqueued (env : Env β) (symbol : String) :
    FailsOnly (assetValidate env symbol) NotQueued := by
  simp [assetValidate, newCoin]

theorem withdrawalCoins_unqueued (env : Env β) {externalAsset : String} {external native : ℕ} :
    FailsOnly (withdrawalCoins env externalAsset external native) NotQueued := by
  simp [withdrawalCoins, parseToInt, newCoin]

theorem adjustAsymmetry_symmetric (externalAsset : String) (swapAmount : ℕ) (pool : Pool)
    (externalAssetCoin nativeAssetCoin : Coin)
    (pmtpCurrentRunningRate nativeSwapFeeRate externalSwapFeeRate : Dec) :
    adjustAsymmetry externalAsset 0 swapAmount pool externalAssetCoin nativeAssetCoin
      pmtpCurrentRunningRate nativeSwapFeeRate externalSwapFeeRate =
      .ok (externalAssetCoin, nativeAssetCoin, pool) := by
  unfold adjustAsymmetry
  simp [check, pure, Except.pure, bind, Except.bind]

@[simp] theorem queuedUnits_unqueued (w : World β) (lp : LiquidityProvider) :
    FailsOnly (getRemovalQueueUnitsForLP w lp) NotQueued := by
  unfold getRemovalQueueUnitsForLP
  refine failsOnly_foldlM (I := fun _ _ => True) _ _ ?_ trivial
  intro r rest units _
  simp

theorem wrapped_unqueued {α : Type} {outer : Err} {p : Action β α} {w : World β}
    (other : outer ≠ .errQueued) : Fails (Action.wrapped outer p) w NotQueued := by
  intro e t run
  unfold Action.wrapped Action.result attempt at run
  cases inner : p.run w with
  | mk outcome v =>
    cases outcome with
    | ok a => simp [bind, inner, pure] at run
    | error f =>
      cases f with
      | err d =>
        simp only [bind, inner, pure, fail, Prod.mk.injEq, Except.error.injEq] at run
        rw [← run.1]
        simpa using other
      | panic q =>
        simp only [bind, inner, Action.panic, fail, Prod.mk.injEq, Except.error.injEq] at run
        rw [← run.1]
        simp

variable {w : World β}

@[simp] theorem setLiquidityProvider_unqueued (env : Env β) (lp : LiquidityProvider) :
    Fails (setLiquidityProvider env lp) w NotQueued := by
  simp [setLiquidityProvider]

theorem pruneUnlockRecords_unqueued (env : Env β) (lp : LiquidityProvider) :
    Fails (pruneUnlockRecords env lp) w NotQueued := by
  simp [pruneUnlockRecords]

theorem drawUnits_unqueued (env : Env β) {lp : LiquidityProvider} {lpUnitsLeft : ℕ} :
    Fails (ClpMsgServer.drawUnits env lp lpUnitsLeft) w NotQueued := by
  simp [ClpMsgServer.drawUnits, useUnlockedLiquidity]

theorem lookupRemoval_unqueued {externalAsset signer : String} :
    Fails (ClpMsgServer.lookupRemoval externalAsset signer) w NotQueued := by
  unfold ClpMsgServer.lookupRemoval ClpMsgServer.requirePermission getPool getLiquidityProvider
  refine fails_read_then (fails_ofExcept_then ?_ fun eAsset _ => fails_require_then (by simp) fun _ =>
    fails_bind ?_ fun pool r _ => fails_bind ?_ fun lp _ _ => fails_pure)
  · unfold getEntry
    split <;> simp
  · apply fails_read_then
    split <;> simp
  · apply fails_read_then
    split <;> simp

theorem requireUnqueued_unqueued {lp : LiquidityProvider} {units : Fallible ℕ}
    (only : FailsOnly units NotQueued) :
    Fails (ClpMsgServer.requireUnqueued lp units) w NotQueued := by
  simp [ClpMsgServer.requireUnqueued, only]

end Refusals

def World.policy (w : World β) : ClpParams × MarginParams := (w.clp, w.margin)

theorem policy_blind : BlindToLiquidity (World.policy (β := β)) where
  bank _ _ := rfl
  pools _ _ := rfl
  positions _ _ _ _ := rfl
  shortfall _ _ := rfl
  providers _ _ := rfl

def StaysHealthy (w : World β) (pool : Pool) (native external : ℕ) : Prop :=
  isPoolEnabled w.margin pool.externalAsset = true → w.clp.enableRemovalQueue = true →
    native ≤ pool.nativeAssetBalance → external ≤ pool.externalAssetBalance →
    ∀ health ∈ (calculatePoolHealth { pool with
        nativeAssetBalance := pool.nativeAssetBalance - native
        externalAssetBalance := pool.externalAssetBalance - external }).toOption,
      ¬health.lt w.margin.removalQueueThreshold

instance (w : World β) (pool : Pool) (native external : ℕ) :
    Decidable (StaysHealthy w pool native external) :=
  inferInstanceAs (Decidable (_ → _ → _ → _ → ∀ _ ∈ _, _))

theorem toOption_ok {ε α : Type} {x : Except ε α} {a : α} (computed : x = .ok a) : a ∈ x.toOption := by
  rw [computed]
  rfl

theorem guardPoolHealth_unqueued {eAsset : RegistryEntry} {pool : Pool} {native external : ℕ}
    {swapFeeRate : Dec} {request : ℕ → Fallible (MsgRemoveLiquidity × ℕ)} {w v : World β}
    (same : v.policy = w.policy) (asset : eAsset.denom = pool.externalAsset)
    (healthy : StaysHealthy w pool native external) :
    Fails (ClpMsgServer.guardPoolHealth eAsset pool native external swapFeeRate request) v NotQueued := by
  obtain ⟨clp, margin⟩ := Prod.mk.inj same
  unfold ClpMsgServer.guardPoolHealth
  apply fails_read_then
  apply fails_when
  intro enabled
  refine fails_ofExcept_then (by simp [calculateWithdrawalFuryValue, calcSwapResult, calcAdjusted, ratQuo]) ?_
  intro extFuryValue _
  refine fails_ofExcept_then (by simp) ?_
  intro futureNative lessNative
  refine fails_ofExcept_then (by simp) ?_
  intro futureExternal lessExternal
  refine fails_ofExcept_then (by simp [calculatePoolHealth]) ?_
  intro health computed
  obtain ⟨nativeFits, rfl⟩ := (Uint.sub_succeeds _ _ _).mp lessNative
  obtain ⟨externalFits, rfl⟩ := (Uint.sub_succeeds _ _ _).mp lessExternal
  apply fails_when
  intro low
  rw [asset, margin] at enabled
  rw [margin] at low
  split
  · rename_i queueing
    rw [clp] at queueing
    exact absurd low (healthy enabled queueing nativeFits externalFits health (toOption_ok computed))
  · exact fails_fail (by simp)

def MsgRemoveLiquidity.amounts (m : MsgRemoveLiquidity) (pool : Pool) (lp : LiquidityProvider) :
    Fallible (ℕ × ℕ) := do
  let (nativeAssetDepth, externalAssetDepth) ←
    pool.extractDebt pool.nativeAssetBalance pool.externalAssetBalance false
  let (native, external, _, _) ← calculateWithdrawal pool.poolUnits nativeAssetDepth
    externalAssetDepth lp.liquidityProviderUnits m.wBasisPoints m.asymmetry
  pure (native, external)

def MsgRemoveLiquidityUnits.amounts (m : MsgRemoveLiquidityUnits) (pool : Pool)
    (lp : LiquidityProvider) : Fallible (ℕ × ℕ) := do
  let (nativeAssetDepth, externalAssetDepth) ←
    pool.extractDebt pool.nativeAssetBalance pool.externalAssetBalance false
  let (native, external, _) ← calculateWithdrawalFromUnits pool.poolUnits nativeAssetDepth
    externalAssetDepth lp.liquidityProviderUnits m.withdrawUnits
  pure (native, external)

/-- The stored pool stays healthy when the stored provider takes these amounts. -/
def RemovalKeepsHealth (w : World β) (externalAsset signer : String)
    (amounts : Pool → LiquidityProvider → Fallible (ℕ × ℕ)) : Prop :=
  ∀ pool ∈ w.pools.get ⟨externalAsset⟩, ∀ lp ∈ w.providers.get ⟨externalAsset, signer⟩,
    ∀ taken ∈ (amounts pool lp).toOption, StaysHealthy w pool taken.1 taken.2

instance (w : World β) (externalAsset signer : String)
    (amounts : Pool → LiquidityProvider → Fallible (ℕ × ℕ)) :
    Decidable (RemovalKeepsHealth w externalAsset signer amounts) :=
  inferInstanceAs (Decidable (∀ _ ∈ _, ∀ _ ∈ _, ∀ _ ∈ _, StaysHealthy w _ _ _))

def KeepsHealth (w : World β) : ClpMsg → Prop
  | .removeLiquidity m => RemovalKeepsHealth w m.externalAsset m.signer m.amounts
  | .removeLiquidityUnits m => RemovalKeepsHealth w m.externalAsset m.signer m.amounts
  | _ => True

instance KeepsHealth.decide (w : World β) : (msg : ClpMsg) → Decidable (KeepsHealth w msg)
  | .removeLiquidity m => inferInstanceAs (Decidable (RemovalKeepsHealth w _ _ m.amounts))
  | .removeLiquidityUnits m => inferInstanceAs (Decidable (RemovalKeepsHealth w _ _ m.amounts))
  | .createPool _ | .addLiquidity _ | .swap _ | .decommissionPool _ => inferInstanceAs (Decidable True)

section Handlers
variable (env : Env β) (w : World β)

theorem policy_kept {α : Type} {p : Action β α} {v r : World β} {a : α}
    (scope : Preserves World.policy p) (ran : p.run v = (.ok a, r)) : r.policy = v.policy := by
  have kept := scope v
  rwa [ran] at kept

theorem removeLiquidity_unqueued (m : MsgRemoveLiquidity)
    (keeps : KeepsHealth w (.removeLiquidity m)) :
    Fails (ClpMsgServer.removeLiquidity env m) w NotQueued := by
  unfold ClpMsgServer.removeLiquidity
  apply fails_bind lookupRemoval_unqueued
  rintro ⟨eAsset, pool, lp⟩ _ looked
  obtain ⟨pool_found, provider_found, asset, rfl⟩ := lookupRemoval_effect w _ _ looked
  apply fails_read_then
  apply fails_bind (pruneUnlockRecords_unqueued env lp)
  intro pruned v pruning
  obtain ⟨unlocks, rfl⟩ := pruneUnlockRecords_record env lp w pruned v pruning
  refine fails_require_then (by simp) ?_
  intro symmetric
  apply fails_bind (requireUnqueued_unqueued convWBasisPointsToUnits_unqueued)
  intro _ _ checked
  obtain ⟨_, rfl⟩ := requireUnqueued_effect v _ _ checked
  apply fails_ofExcept_then extractDebt_unqueued
  rintro ⟨nativeAssetDepth, externalAssetDepth⟩ debt
  apply fails_ofExcept_then calculateWithdrawal_unqueued
  rintro ⟨native, external, lpUnitsLeft, swapAmount⟩ computed
  have taken : m.amounts pool lp = .ok (native, external) :=
    except_bind_succeeds.mpr ⟨_, debt, except_bind_succeeds.mpr ⟨_, computed, rfl⟩⟩
  have healthy := keeps pool pool_found lp provider_found _ (toOption_ok taken)
  apply fails_bind (drawUnits_unqueued env)
  intro drawn r drawing
  have same : r.policy = w.policy :=
    (policy_kept (drawUnits_scope policy_blind env) drawing).trans
      (policy_kept (pruneUnlockRecords_scope policy_blind env) pruning)
  apply fails_bind (guardPoolHealth_unqueued same asset healthy)
  intro _ _ _
  apply fails_ofExcept_then (withdrawalCoins_unqueued env)
  rintro ⟨externalAssetCoin, nativeAssetCoin⟩ _
  refine fails_ofExcept_then (by simp [subtractFromPool]) ?_
  intro reduced _
  apply fails_ofExcept_then
  · rw [symmetric, adjustAsymmetry_symmetric]
    exact failsOnly_ok
  rintro ⟨externalPaid, nativePaid, swapped⟩ _
  exact wrapped_unqueued (by decide)

theorem removeLiquidityUnits_unqueued (m : MsgRemoveLiquidityUnits)
    (keeps : KeepsHealth w (.removeLiquidityUnits m)) :
    Fails (ClpMsgServer.removeLiquidityUnits env m) w NotQueued := by
  unfold ClpMsgServer.removeLiquidityUnits
  apply fails_bind lookupRemoval_unqueued
  rintro ⟨eAsset, pool, lp⟩ _ looked
  obtain ⟨pool_found, provider_found, asset, rfl⟩ := lookupRemoval_effect w _ _ looked
  apply fails_bind (requireUnqueued_unqueued failsOnly_ok)
  intro _ _ checked
  obtain ⟨_, rfl⟩ := requireUnqueued_effect w _ _ checked
  apply fails_read_then
  apply fails_bind (pruneUnlockRecords_unqueued env lp)
  intro pruned v pruning
  obtain ⟨unlocks, rfl⟩ := pruneUnlockRecords_record env lp w pruned v pruning
  apply fails_ofExcept_then extractDebt_unqueued
  rintro ⟨nativeAssetDepth, externalAssetDepth⟩ debt
  apply fails_ofExcept_then calculateWithdrawalFromUnits_unqueued
  rintro ⟨native, external, lpUnitsLeft⟩ computed
  have taken : m.amounts pool lp = .ok (native, external) :=
    except_bind_succeeds.mpr ⟨_, debt, except_bind_succeeds.mpr ⟨_, computed, rfl⟩⟩
  have healthy := keeps pool pool_found lp provider_found _ (toOption_ok taken)
  apply fails_bind (drawUnits_unqueued env)
  intro drawn r drawing
  have same : r.policy = w.policy :=
    (policy_kept (drawUnits_scope policy_blind env) drawing).trans
      (policy_kept (pruneUnlockRecords_scope policy_blind env) pruning)
  apply fails_bind (guardPoolHealth_unqueued same asset healthy)
  intro _ _ _
  apply fails_ofExcept_then (withdrawalCoins_unqueued env)
  rintro ⟨externalAssetCoin, nativeAssetCoin⟩ _
  refine fails_ofExcept_then (by simp [subtractFromPool]) ?_
  intro reduced _
  exact wrapped_unqueued (by decide)

end Handlers

section Messages
variable (env : Env β)

theorem runMsg_unqueued {signer : String} {validateBasic : Fallible Unit} {handler : Action β Unit}
    {w : World β} (valid : FailsOnly validateBasic NotQueued) (handled : Fails handler w NotQueued) :
    Fails (runMsg env signer validateBasic handler) w NotQueued := by
  simp only [runMsg, getSigner, fails_ofExcept_bind, fails_require_bind]
  refine ⟨valid, fun _ _ => ⟨?_, fun _ _ => ⟨by simp, fun _ => handled⟩⟩⟩
  split <;> simp

def ClpMsg.removal : ClpMsg → Option (String × String)
  | .removeLiquidity m => some (m.signer, m.externalAsset)
  | .removeLiquidityUnits m => some (m.signer, m.externalAsset)
  | _ => none

/-- The message removes liquidity and is answered with `ErrQueued`. -/
def AnsweredQueued (w : World β) (msg : ClpMsg) : Prop :=
  msg.removal.isSome = true ∧ ∃ w', (msg.action env).run w = (.error (.err .errQueued), w')

theorem healthy_unanswered {w : World β} {msg : ClpMsg} (keeps : KeepsHealth w msg) :
    ¬AnsweredQueued env w msg := by
  rintro ⟨removes, w', answered⟩
  cases msg with
  | removeLiquidity m =>
    refine runMsg_unqueued env ?_ (removeLiquidity_unqueued env w m keeps) _ _ answered rfl
    simp [MsgRemoveLiquidity.validateBasic, requireSigner, requireAsset]
  | removeLiquidityUnits m =>
    refine runMsg_unqueued env ?_ (removeLiquidityUnits_unqueued env w m keeps) _ _ answered rfl
    simp [MsgRemoveLiquidityUnits.validateBasic, requireSigner, requireAsset]
  | createPool _ | addLiquidity _ | swap _ | decommissionPool _ => cases removes

end Messages

section Runs

/-- The messages of x/clp, and whatever else happens to the rest of the state. -/
inductive QueueEvent (β : Type) where
  | message (c : BlockContext) (msg : ClpMsg)
  | elsewhere (change : World β → World β)

namespace QueueEvent

def step (env : Env β) : QueueEvent β → World β → World β
  | .message c msg, w => msg.deliver env (w.within c)
  | .elsewhere change, w => { change w with requests := w.requests, queues := w.queues }

def KeepsHealth (w : World β) : QueueEvent β → Prop
  | .message c msg => FuryNode.KeepsHealth (w.within c) msg
  | .elsewhere _ => True

instance (w : World β) : (e : QueueEvent β) → Decidable (e.KeepsHealth w)
  | .message c msg => KeepsHealth.decide (w.within c) msg
  | .elsewhere _ => inferInstanceAs (Decidable True)

def Answered (env : Env β) (w : World β) : QueueEvent β → Prop
  | .message c msg => AnsweredQueued env (w.within c) msg
  | .elsewhere _ => False

/-- An addition to the pool of the asset, the only event that serves its queue. -/
def ServesQueue (asset : String) : QueueEvent β → Prop
  | .message _ (.addLiquidity m) => m.externalAsset = asset
  | _ => False

end QueueEvent

/-- A request of the signer is stored that was not there before, and the count and the total of
    its asset have grown by it. -/
def PendingSince (w t : World β) (signer asset : String) : Prop :=
  ∃ r ∈ t.requests.rows, r ∉ w.requests.rows ∧ r.msg.signer = signer ∧ r.msg.externalAsset = asset ∧
    (getRemovalQueue w asset).count + 1 ≤ (getRemovalQueue t asset).count ∧
    (getRemovalQueue w asset).totalValue + r.value ≤ (getRemovalQueue t asset).totalValue

/-- Every removal of the run that is answered with `ErrQueued` is pending from then on, as long as
    no addition to its pool serves the queue. -/
def QueuedStayPending (env : Env β) (events : List (QueueEvent β)) (w : World β) : Prop :=
  ∀ past c msg later rest signer asset, events = past ++ .message c msg :: (later ++ rest) →
    msg.removal = some (signer, asset) →
    AnsweredQueued env ((EventRuns.run (QueueEvent.step env) past w).within c) msg →
    (∀ e ∈ later, ¬e.ServesQueue asset) →
    PendingSince (EventRuns.run (QueueEvent.step env) past w)
      (EventRuns.run (QueueEvent.step env) (past ++ .message c msg :: later) w) signer asset

variable (env : Env β)

theorem answered_not_pending {c : BlockContext} {msg : ClpMsg} {w : World β} {signer asset : String}
    (answered : AnsweredQueued env (w.within c) msg) :
    ¬PendingSince w (QueueEvent.step env (.message c msg) w) signer asset := by
  obtain ⟨_, w', failed⟩ := answered
  rw [QueueEvent.step, ClpMsg.deliver, transact_error failed]
  rintro ⟨r, stored, new, _⟩
  exact new stored

theorem pending_iff_unanswered (events : List (QueueEvent β)) (w : World β) :
    QueuedStayPending env events w ↔
      EventRuns.Guarded (QueueEvent.step env) (fun v e => ¬e.Answered env v) events w := by
  constructor
  · intro pending
    -- the induction is on the events to come; those before them are carried along
    have suffix : ∀ rest past, events = past ++ rest →
        EventRuns.Guarded (QueueEvent.step env) (fun v e => ¬e.Answered env v) rest
          (EventRuns.run (QueueEvent.step env) past w) := by
      intro rest
      induction rest with
      | nil =>
        intro past _
        trivial
      | cons e rest ih =>
        intro past split
        have next := ih (past ++ [e]) (by simpa using split)
        rw [EventRuns.run_snoc] at next
        refine ⟨?_, next⟩
        intro answered
        cases e with
        | elsewhere _ => exact answered
        | message c msg =>
          obtain ⟨⟨signer, asset⟩, removes⟩ := Option.isSome_iff_exists.mp answered.1
          have stays := pending past c msg [] rest signer asset split removes answered (by simp)
          rw [EventRuns.run_snoc] at stays
          exact answered_not_pending env answered stays
    exact suffix events [] rfl
  · intro unanswered past c msg later rest signer asset split removes answered _
    rw [split, EventRuns.guarded_append] at unanswered
    exact absurd answered unanswered.2.1

end Runs

/-- In every run whose removals all leave their pools healthy, each removal that is answered with
    `ErrQueued` stays pending. There is none: a run keeps the queued removals pending exactly if
    it answers no removal in that way. -/
theorem queued_removals_pending (env : Env β) (events : List (QueueEvent β)) (w : World β) :
    (EventRuns.Guarded (QueueEvent.step env) (fun v e => e.KeepsHealth v) events w →
      QueuedStayPending env events w) ∧
    (QueuedStayPending env events w ↔
      EventRuns.Guarded (QueueEvent.step env) (fun v e => ¬e.Answered env v) events w) := by
  have exact_condition := pending_iff_unanswered env events w
  refine ⟨?_, exact_condition⟩
  intro healthy
  apply exact_condition.mpr
  refine EventRuns.guarded_mono _ _ _ ?_ events w healthy
  intro v e keeps
  cases e with
  | elsewhere _ => exact id
  | message c msg => exact healthy_unanswered env keeps

def queueBlock (height : ℤ) : BlockContext :=
  { LedgerBank.block height with clp := { LedgerBank.clpParams with enableRemovalQueue := true } }

def owingCeth : World LedgerBank.Balances :=
  { soleProvider with
    pools := ⟨[{ LedgerBank.cethPool with externalLiabilities := 5 * 10 ^ 18 }], by simp⟩ }

def queuedTenth : ClpMsg := .removeLiquidity (tenth "alice" "ceth")

def queuedUnits : ClpMsg := .removeLiquidityUnits ⟨"alice", "ceth", 10 ^ 17⟩

/-- Both kinds of removal are answered with `ErrQueued` and leave nothing on the queue. -/
theorem queued_answer_discarded :
    (∀ msg ∈ [queuedTenth, queuedUnits],
      AnsweredQueued LedgerBank.env (owingCeth.within (queueBlock 2)) msg ∧
      (QueueEvent.step LedgerBank.env (.message (queueBlock 2) msg) owingCeth).requests.rows = [] ∧
      (getRemovalQueue (QueueEvent.step LedgerBank.env (.message (queueBlock 2) msg) owingCeth)
        "ceth").count = 0) ∧
    ¬QueuedStayPending LedgerBank.env [.message (queueBlock 2) queuedTenth] owingCeth := by
  have failed : ∀ msg ∈ [queuedTenth, queuedUnits], msg.removal.isSome = true ∧
      ((msg.action LedgerBank.env).run (owingCeth.within (queueBlock 2))).1 =
        .error (.err .errQueued) := by
    decide +kernel
  have answered : ∀ msg ∈ [queuedTenth, queuedUnits],
      AnsweredQueued LedgerBank.env (owingCeth.within (queueBlock 2)) msg :=
    fun msg member => ⟨(failed msg member).1, _, Prod.ext (failed msg member).2 rfl⟩
  constructor
  · intro msg member
    obtain ⟨_, w', failure⟩ := answered msg member
    rw [QueueEvent.step, ClpMsg.deliver, transact_error failure]
    exact ⟨answered msg member, rfl, rfl⟩
  · intro pending
    have unanswered := (pending_iff_unanswered _ _ _).mp pending
    exact unanswered.1 (answered queuedTenth (by simp))

/-- With the queue enabled, a removal from a healthy pool goes through and is not queued. -/
theorem healthy_removal_unqueued :
    QueuedStayPending LedgerBank.env
        [.message (queueBlock 2) queuedTenth, .message (queueBlock 3) queuedUnits] soleProvider ∧
      (EventRuns.run (QueueEvent.step LedgerBank.env)
        [.message (queueBlock 2) queuedTenth, .message (queueBlock 3) queuedUnits]
        soleProvider).providers.rows = [⟨"ceth", 8 * 10 ^ 17, "alice", []⟩] :=
  ⟨(queued_removals_pending LedgerBank.env _ _).1 (by decide +kernel), by decide +kernel⟩

end FuryNode
