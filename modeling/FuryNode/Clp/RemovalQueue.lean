import FuryNode.Clp.QueuedRemovals
import FuryNode.Clp.TradeScope
import FuryNode.Library.EventRuns

/-!
The bookkeeping of the removal queue: one queue record an asset, with a count and a total
value, and the requests of all assets in one store under the signer and a number. The numbers
are counted an asset at a time and the key does not name the asset, so a new request may find
its key taken.
-/
namespace FuryNode
open StatefulProgram StatefulProgram.Prog KeyedTable KeyedTable.Table ClpKeeper
variable {β : Type}

def World.storedRequests (w : World β) (asset : String) : ℕ :=
  w.requests.rows.countP (fun r => r.msg.externalAsset = asset)

def World.removals (w : World β) : Table RemovalRequest.key × Table RemovalQueue.key :=
  (w.requests, w.queues)

theorem removals_blind : BlindToLiquidity (World.removals (β := β)) where
  bank _ _ := rfl
  pools _ _ := rfl
  positions _ _ _ _ := rfl
  shortfall _ _ := rfl
  providers _ _ := rfl

theorem getRemovalQueue_symbol (w : World β) (asset : String) :
    (getRemovalQueue w asset).symbol = asset := by
  unfold getRemovalQueue
  cases found : w.queues.get ⟨asset⟩ with
  | none => rfl
  | some queue =>
    have key := w.queues.get_key _ _ found
    simpa [RemovalQueue.key] using key

theorem getRemovalQueue_put (w : World β) (queue : RemovalQueue) (asset : String) :
    getRemovalQueue { w with queues := w.queues.put queue } asset =
      if queue.symbol = asset then queue else getRemovalQueue w asset := by
  unfold getRemovalQueue
  rw [get_put]
  by_cases same : queue.symbol = asset
  · simp [RemovalQueue.key, same]
  · simp [RemovalQueue.key, same]

variable {w v w' : World β} {m : MsgRemoveLiquidity} {r : RemovalRequest}

theorem getRemovalQueue_congr (same : v.removals = w.removals) (asset : String) :
    getRemovalQueue v asset = getRemovalQueue w asset := by
  have queues := (Prod.mk.inj same).2
  rw [getRemovalQueue, getRemovalQueue, queues]

def RemovalRequest.served (r : RemovalRequest) (points : ℤ) : RemovalRequest :=
  { r with msg := { r.msg with wBasisPoints := r.msg.wBasisPoints - points } }

/-- What an operation makes of the store of requests and of the queue of one asset. -/
structure QueueWrites (asset : String) (requests : Table RemovalRequest.key) (count : ℤ) (total : ℕ)
    (w w' : World β) : Prop where
  requests_are : w'.requests = requests
  count_is : (getRemovalQueue w' asset).count = count
  total_is : (getRemovalQueue w' asset).totalValue = total
  others : ∀ b, b ≠ asset → getRemovalQueue w' b = getRemovalQueue w b

theorem queueWrites_put (w : World β) (requests : Table RemovalRequest.key) (queue : RemovalQueue)
    (asset : String) (symbol : queue.symbol = asset) :
    QueueWrites asset requests queue.count queue.totalValue w
      { w with requests := requests, queues := w.queues.put queue } := by
  have read : ∀ b, getRemovalQueue { w with requests := requests, queues := w.queues.put queue } b =
      if queue.symbol = b then queue else getRemovalQueue w b :=
    getRemovalQueue_put { w with requests := requests } queue
  refine ⟨rfl, ?_, ?_, ?_⟩
  · rw [read, if_pos symbol]
  · rw [read, if_pos symbol]
  · intro b other
    rw [read, if_neg (symbol ▸ other.symm)]

theorem queueRemoval_writes (msg : MsgRemoveLiquidity) (furyValue : ℕ) (w : World β) :
    Ensures (queueRemoval msg furyValue) w (fun _ w' =>
      QueueWrites msg.externalAsset
        (w.requests.put ⟨wrapInt64 ((getRemovalQueue w msg.externalAsset).id + 1), msg, furyValue⟩)
        (wrapInt64 ((getRemovalQueue w msg.externalAsset).count + 1))
        ((getRemovalQueue w msg.externalAsset).totalValue + furyValue) w w') := by
  unfold queueRemoval
  intro u w' run
  rw [read_then, modify_then, ofExcept_then] at run
  obtain ⟨total, added, written⟩ := run
  obtain ⟨_, rfl⟩ := (Uint.add_succeeds _ _ _).mp added
  cases written
  exact queueWrites_put w _ { getRemovalQueue w msg.externalAsset with
    count := _, id := _, totalValue := _, startHeight := _ } _ (getRemovalQueue_symbol w msg.externalAsset)

theorem dequeueRemovalRequest_writes (request : RemovalRequest) (w : World β) :
    ∃ w', (dequeueRemovalRequest request).run w = (.ok (), w') ∧
      QueueWrites request.msg.externalAsset (w.requests.delete request.key)
        (wrapInt64 ((getRemovalQueue w request.msg.externalAsset).count - 1))
        (getRemovalQueue w request.msg.externalAsset).totalValue w w' := by
  exact ⟨_, rfl, queueWrites_put w _ { getRemovalQueue w request.msg.externalAsset with
    count := _ } _ (getRemovalQueue_symbol w request.msg.externalAsset)⟩

theorem setProcessedRemovalRequest_writes {request : RemovalRequest} (points : ℤ) {furyRemoved : ℕ}
    (covered : furyRemoved ≤ (getRemovalQueue w request.msg.externalAsset).totalValue) :
    ∃ w', (setProcessedRemovalRequest request points furyRemoved).run w = (.ok (), w') ∧
      QueueWrites request.msg.externalAsset
        (if request.msg.wBasisPoints - points ≤ 0 then
          (w.requests.put (request.served points)).delete request.key
          else w.requests.put (request.served points))
        (if request.msg.wBasisPoints - points ≤ 0 then
          wrapInt64 ((getRemovalQueue w request.msg.externalAsset).count - 1)
          else (getRemovalQueue w request.msg.externalAsset).count)
        ((getRemovalQueue w request.msg.externalAsset).totalValue - furyRemoved) w w' := by
  have first := queueWrites_put w (w.requests.put (request.served points)) {
    getRemovalQueue w request.msg.externalAsset with
      totalValue := (getRemovalQueue w request.msg.externalAsset).totalValue - furyRemoved }
    request.msg.externalAsset (getRemovalQueue_symbol w request.msg.externalAsset)
  have subtracted : Uint.sub (getRemovalQueue w request.msg.externalAsset).totalValue furyRemoved =
      .ok ((getRemovalQueue w request.msg.externalAsset).totalValue - furyRemoved) :=
    (Uint.sub_succeeds _ _ _).mpr ⟨covered, rfl⟩
  have run : ∀ t, (setProcessedRemovalRequest request points furyRemoved).run w = (.ok (), t) ↔
      (when (request.msg.wBasisPoints - points ≤ 0) (dequeueRemovalRequest (request.served points))).run
        { w with
          requests := w.requests.put (request.served points)
          queues := w.queues.put { getRemovalQueue w request.msg.externalAsset with
            totalValue := (getRemovalQueue w request.msg.externalAsset).totalValue - furyRemoved } } =
        (.ok (), t) := by
    intro t
    unfold setProcessedRemovalRequest
    rw [modify_then, read_then]
    change (ofExcept (Uint.sub (getRemovalQueue w request.msg.externalAsset).totalValue furyRemoved) >>=
      _).run _ = _ ↔ _
    rw [subtracted]
    rfl
  by_cases done : request.msg.wBasisPoints - points ≤ 0
  · rw [if_pos done, if_pos done]
    obtain ⟨w', ran, second⟩ := dequeueRemovalRequest_writes (request.served points) { w with
      requests := w.requests.put (request.served points)
      queues := w.queues.put { getRemovalQueue w request.msg.externalAsset with
        totalValue := (getRemovalQueue w request.msg.externalAsset).totalValue - furyRemoved } }
    refine ⟨w', (run w').mpr (by rw [when, if_pos done]; exact ran), second.requests_are, ?_, ?_, ?_⟩
    · exact second.count_is.trans (by rw [← first.count_is]; rfl)
    · exact second.total_is.trans first.total_is
    · intro b other
      exact (second.others b other).trans (first.others b other)
  · rw [if_neg done, if_neg done]
    exact ⟨_, (run _).mpr (by rw [when, if_neg done]; rfl), first⟩

section Visits
variable (env : Env β) (asset : String) (perRequestUnits : ℕ) (r : RemovalRequest)

/-- The points of the units that a visit withdraws: what is requested, or the share of a request. -/
def withdrawnPoints (lpUnits requestUnits : ℕ) : Fallible ℤ :=
  convUnitsToWBasisPoints lpUnits (min requestUnits perRequestUnits)

def servedPoints (lpUnits : ℕ) : Fallible ℤ :=
  convWBasisPointsToUnits lpUnits r.msg.wBasisPoints >>= withdrawnPoints perRequestUnits lpUnits

/-- The removal a visit asks for: none if the request is of another asset, if its provider is gone
    or if the points cannot be computed. -/
def servedRemoval (w : World β) : Option MsgRemoveLiquidity :=
  if r.msg.externalAsset = asset then
    match w.providers.get ⟨r.msg.externalAsset, r.msg.signer⟩ with
    | none => none
    | some lp =>
        match servedPoints perRequestUnits r lp.liquidityProviderUnits with
        | .error _ => none
        | .ok points => some ⟨r.msg.signer, asset, points, r.msg.asymmetry⟩
  else none

def reportedValue (w : World β) : ℕ :=
  match servedRemoval asset perRequestUnits r w with
  | none => 0
  | some m =>
      match ((processRemoveLiquidityMsg env m).run w).1 with
      | .ok value => value
      | .error _ => 0

def serveRemoval (m : MsgRemoveLiquidity) : Action β Unit := do
  match ← Action.result (processRemoveLiquidityMsg env m) with
  | .error _ => pure ()
  | .ok totalFuryValue => setProcessedRemovalRequest r m.wBasisPoints totalFuryValue

theorem getLiquidityProvider_found {symbol address : String} {lp : LiquidityProvider}
    (found : w.providers.get ⟨symbol, address⟩ = some lp) :
    (Action.result (getLiquidityProvider symbol address)).run w = (.ok (.ok lp), w) := by
  rw [Action.result_succeeds]
  exact Or.inl ⟨lp, rfl, getLiquidityProvider_succeeds.mpr ⟨found, rfl⟩⟩

theorem getLiquidityProvider_missing {symbol address : String}
    (missing : w.providers.get ⟨symbol, address⟩ = none) :
    (Action.result (getLiquidityProvider symbol address)).run w =
      (.ok (.error .errLiquidityProviderDoesNotExist), w) := by
  rw [Action.result_succeeds]
  refine Or.inr ⟨_, rfl, ?_⟩
  simp [getLiquidityProvider, bind, Prog.read, missing, Prog.fail]

theorem processRemovalRequest_found {lp : LiquidityProvider} (same : r.msg.externalAsset = asset)
    (found : w.providers.get ⟨r.msg.externalAsset, r.msg.signer⟩ = some lp) :
    (processRemovalRequest env asset perRequestUnits r).run w =
      (ofExcept (servedPoints perRequestUnits r lp.liquidityProviderUnits) >>= fun points =>
        serveRemoval env r ⟨r.msg.signer, asset, points, r.msg.asymmetry⟩).run w := by
  rw [processRemovalRequest, when, if_pos same]
  refine run_then (getLiquidityProvider_found found) ?_
  dsimp only
  rw [servedPoints, ofExcept_bind]
  refine bind_congr fun requestUnits => ?_
  rw [withdrawnPoints]
  refine bind_congr fun points => ?_
  unfold serveRemoval
  refine bind_congr fun outcome => ?_
  cases outcome <;> rfl

theorem processRemovalRequest_served (asked : servedRemoval asset perRequestUnits r w = some m) :
    (processRemovalRequest env asset perRequestUnits r).run w = (serveRemoval env r m).run w := by
  unfold servedRemoval at asked
  split at asked
  · rename_i same
    split at asked
    · cases asked
    · rename_i lp found
      rw [processRemovalRequest_found env asset perRequestUnits r same found]
      split at asked
      · cases asked
      · rename_i points computed
        cases asked
        rw [computed, ofExcept_ok_then]
  · cases asked

theorem processRemovalRequest_unserved (w : World β)
    (none : servedRemoval asset perRequestUnits r w = none) :
    (processRemovalRequest env asset perRequestUnits r).run w = (.ok (), w) ∨
      ∃ lp f, r.msg.externalAsset = asset ∧
        w.providers.get ⟨r.msg.externalAsset, r.msg.signer⟩ = some lp ∧
        servedPoints perRequestUnits r lp.liquidityProviderUnits = .error f ∧
        (processRemovalRequest env asset perRequestUnits r).run w = (.error f, w) := by
  unfold servedRemoval at none
  split at none
  · rename_i same
    split at none
    · rename_i missing
      left
      rw [processRemovalRequest, when, if_pos same]
      exact run_then (getLiquidityProvider_missing missing) rfl
    · rename_i lp found
      split at none
      · rename_i f failed
        right
        refine ⟨lp, f, same, found, failed, ?_⟩
        rw [processRemovalRequest_found env asset perRequestUnits r same found, failed]
        exact stop_then rfl
      · cases none
  · rename_i other
    left
    rw [processRemovalRequest, when, if_neg other]
    rfl

/-- A removal that errs leaves the request as it is, and only one that returns is recorded. -/
theorem serveRemoval_cases (m : MsgRemoveLiquidity) (w : World β) :
    (∃ e w', (processRemoveLiquidityMsg env m).run w = (.error (.err e), w') ∧
      (serveRemoval env r m).run w = (.ok (), w')) ∨
    (∃ q w', (processRemoveLiquidityMsg env m).run w = (.error (.panic q), w') ∧
      (serveRemoval env r m).run w = (.error (.panic q), w')) ∨
    ∃ value v, (processRemoveLiquidityMsg env m).run w = (.ok value, v) ∧
      (serveRemoval env r m).run w = (setProcessedRemovalRequest r m.wBasisPoints value).run v := by
  unfold serveRemoval
  rcases outcome : (processRemoveLiquidityMsg env m).run w with ⟨(e | q) | value, v⟩
  · have ran : (Action.result (processRemoveLiquidityMsg env m)).run w = (.ok (.error e), v) :=
      Action.result_succeeds.mpr (Or.inr ⟨e, rfl, outcome⟩)
    exact Or.inl ⟨e, v, rfl, run_then ran rfl⟩
  · have ran : (Action.result (processRemoveLiquidityMsg env m)).run w = (.error (.panic q), v) := by
      unfold Action.result
      exact run_then (attempt_succeeds.mpr outcome) rfl
    exact Or.inr (Or.inl ⟨q, v, rfl, stop_then ran⟩)
  · have ran : (Action.result (processRemoveLiquidityMsg env m)).run w = (.ok (.ok value), v) :=
      Action.result_succeeds.mpr (Or.inl ⟨value, rfl, outcome⟩)
    exact Or.inr (Or.inr ⟨value, v, rfl, run_then ran rfl⟩)

theorem processRemoveLiquidityMsg_removals {outcome : Except Failure ℕ}
    (ran : (processRemoveLiquidityMsg env m).run w = (outcome, v)) : v.removals = w.removals := by
  have scope := processRemoveLiquidityMsg_scope removals_blind env m w
  rw [ran] at scope
  exact scope

end Visits

def World.CountsStored (w : World β) : Prop :=
  ∀ asset, (getRemovalQueue w asset).count = w.storedRequests asset ∧
    (getRemovalQueue w asset).count < 2 ^ 63

def KeepsOtherRequests (r : RemovalRequest) (w w' : World β) : Prop :=
  ∀ q ∈ w.requests.rows, q ≠ r → q ∈ w'.requests.rows

theorem countsStored_congr (w v : World β) (same : v.removals = w.removals) (counts : w.CountsStored) :
    v.CountsStored := by
  intro asset
  rw [getRemovalQueue_congr same, World.storedRequests, (Prod.mk.inj same).1]
  exact counts asset

theorem stored_key (w : World β) (r q : RemovalRequest) (stored : w.requests.get r.key = some r)
    (member : q ∈ w.requests.rows) (other : q ≠ r) : q.key ≠ r.key := by
  intro same
  have found := (w.requests.get_some_iff r.key q).mpr ⟨member, same⟩
  rw [stored] at found
  exact other (Option.some.inj found).symm

theorem queueRemoval_counts {msg : MsgRemoveLiquidity} {furyValue : ℕ} (counts : w.CountsStored)
    (fresh : w.requests.get
      ⟨msg.signer, wrapInt64 ((getRemovalQueue w msg.externalAsset).id + 1)⟩ = none)
    (room : (getRemovalQueue w msg.externalAsset).count + 1 < 2 ^ 63)
    (writes : QueueWrites msg.externalAsset
      (w.requests.put ⟨wrapInt64 ((getRemovalQueue w msg.externalAsset).id + 1), msg, furyValue⟩)
      (wrapInt64 ((getRemovalQueue w msg.externalAsset).count + 1))
      ((getRemovalQueue w msg.externalAsset).totalValue + furyValue) w w') : w'.CountsStored := by
  intro b
  have stored : w'.storedRequests b =
      w.storedRequests b + (if msg.externalAsset = b then 1 else 0) := by
    rw [World.storedRequests, writes.requests_are, countP_put_new _ fresh]
    simp only [decide_eq_true_eq]
    rfl
  by_cases same : b = msg.externalAsset
  · subst same
    have now := counts msg.externalAsset
    rw [writes.count_is, stored, if_pos rfl, wrapInt64_of_range _ (by omega) room]
    push_cast
    omega
  · have now := counts b
    rw [writes.others b same, stored, if_neg (fun equal => same equal.symm)]
    exact now

theorem counts_of_fewer {asset : String} (counts : w.CountsStored)
    (fewer : ∀ b, w'.storedRequests b + (if asset = b then 1 else 0) = w.storedRequests b)
    (count_is : (getRemovalQueue w' asset).count = wrapInt64 ((getRemovalQueue w asset).count - 1))
    (others : ∀ b, b ≠ asset → getRemovalQueue w' b = getRemovalQueue w b) : w'.CountsStored := by
  intro b
  have now := counts b
  have less := fewer b
  by_cases same : b = asset
  · subst same
    rw [if_pos rfl] at less
    rw [count_is, wrapInt64_of_range _ (by omega) (by omega)]
    omega
  · rw [if_neg (fun equal => same equal.symm)] at less
    rw [others b same]
    omega

theorem deleted_counts {total : ℕ} (counts : w.CountsStored)
    (stored : w.requests.get r.key = some r)
    (writes : QueueWrites r.msg.externalAsset (w.requests.delete r.key)
      (wrapInt64 ((getRemovalQueue w r.msg.externalAsset).count - 1)) total w w') :
    w'.CountsStored := by
  refine counts_of_fewer counts ?_ writes.count_is writes.others
  intro b
  have counted := countP_delete (fun q => decide (q.msg.externalAsset = b)) w.requests r.key r stored
  simp only [decide_eq_true_eq] at counted
  rw [World.storedRequests, writes.requests_are]
  exact counted

theorem deleted_keeps (stored : w.requests.get r.key = some r)
    (writes : w'.requests = w.requests.delete r.key) : KeepsOtherRequests r w w' := by
  intro q member other
  rw [writes, mem_delete]
  exact ⟨member, stored_key w r q stored member other⟩

theorem processed_counts {points : ℤ} {total : ℕ} (counts : w.CountsStored)
    (stored : w.requests.get r.key = some r)
    (writes : QueueWrites r.msg.externalAsset
      (if r.msg.wBasisPoints - points ≤ 0 then (w.requests.put (r.served points)).delete r.key
        else w.requests.put (r.served points))
      (if r.msg.wBasisPoints - points ≤ 0 then
        wrapInt64 ((getRemovalQueue w r.msg.externalAsset).count - 1)
        else (getRemovalQueue w r.msg.externalAsset).count) total w w') :
    w'.CountsStored ∧ KeepsOtherRequests r w w' := by
  have replaced : ∀ b, (w.requests.put (r.served points)).rows.countP
      (fun q => decide (q.msg.externalAsset = b)) = w.storedRequests b := by
    intro b
    exact countP_replace _ stored rfl
  have rest : ∀ q ∈ w.requests.rows, q ≠ r → q ∈ (w.requests.put (r.served points)).rows := by
    intro q member other
    rw [mem_put]
    exact Or.inr ⟨member, stored_key w r q stored member other⟩
  by_cases done : r.msg.wBasisPoints - points ≤ 0
  · rw [if_pos done, if_pos done] at writes
    constructor
    · refine counts_of_fewer counts ?_ writes.count_is writes.others
      intro b
      have counted := countP_delete (fun q => decide (q.msg.externalAsset = b))
        (w.requests.put (r.served points)) r.key (r.served points) (get_put_same _ _)
      simp only [replaced b, decide_eq_true_eq] at counted
      rw [World.storedRequests, writes.requests_are]
      exact counted
    · intro q member other
      rw [writes.requests_are, mem_delete]
      exact ⟨rest q member other, stored_key w r q stored member other⟩
  · rw [if_neg done, if_neg done] at writes
    constructor
    · intro b
      have equal : w'.storedRequests b = w.storedRequests b := by
        rw [World.storedRequests, writes.requests_are]
        exact replaced b
      rw [equal]
      by_cases same : b = r.msg.externalAsset
      · subst same
        rw [writes.count_is]
        exact counts r.msg.externalAsset
      · rw [writes.others b same]
        exact counts b
    · intro q member other
      rw [writes.requests_are]
      exact rest q member other

section Loop
variable (env : Env β) (asset : String) (perRequestUnits : ℕ)

/-- The value of the removal that a visit asks for is covered by the total of the queue. -/
def VisitCovered (r : RemovalRequest) (w : World β) : Prop :=
  ∀ m ∈ servedRemoval asset perRequestUnits r w, ∀ value ∈ (removalValue w m).toOption,
    value ≤ (getRemovalQueue w asset).totalValue

instance (r : RemovalRequest) (w : World β) : Decidable (VisitCovered asset perRequestUnits r w) :=
  inferInstanceAs (Decidable (∀ m ∈ servedRemoval asset perRequestUnits r w,
    ∀ value ∈ (removalValue w m).toOption, value ≤ (getRemovalQueue w asset).totalValue))

/-- A visit touches no other request, and what it takes off the total is there. -/
def VisitSound (r : RemovalRequest) (w : World β) : Prop :=
  KeepsOtherRequests r w ((processRemovalRequest env asset perRequestUnits r).run w).2 ∧
  ∀ m ∈ servedRemoval asset perRequestUnits r w, ∀ value v,
    (processRemoveLiquidityMsg env m).run w = (.ok value, v) →
      value ≤ (getRemovalQueue v asset).totalValue

theorem servedRemoval_asset (asked : servedRemoval asset perRequestUnits r w = some m) :
    r.msg.externalAsset = asset := by
  unfold servedRemoval at asked
  split at asked
  · assumption
  · cases asked

theorem keepsOthers_congr (same : v.removals = w.removals) : KeepsOtherRequests r w v := by
  intro q member _
  rw [(Prod.mk.inj same).1]
  exact member

theorem processed_sound (points : ℤ) {value : ℕ} (same : v.removals = w.removals)
    (of_asset : r.msg.externalAsset = asset) (counts : w.CountsStored)
    (stored : w.requests.get r.key = some r)
    (covered : value ≤ (getRemovalQueue w asset).totalValue) :
    ∃ u, (setProcessedRemovalRequest r points value).run v = (.ok (), u) ∧ u.CountsStored ∧
      KeepsOtherRequests r w u ∧ ∀ b, (getRemovalQueue u b).totalValue +
        (if b = asset then value else 0) = (getRemovalQueue w b).totalValue := by
  subst of_asset
  have requests := (Prod.mk.inj same).1
  have enough : value ≤ (getRemovalQueue v r.msg.externalAsset).totalValue := by
    rw [getRemovalQueue_congr same]
    exact covered
  obtain ⟨u, ran, writes⟩ := setProcessedRemovalRequest_writes points enough
  obtain ⟨counted, kept⟩ := processed_counts (countsStored_congr w v same counts)
    (by rw [requests]; exact stored) writes
  refine ⟨u, ran, counted, ?_, ?_⟩
  · intro q member other
    exact kept q (by rw [requests]; exact member) other
  · intro b
    by_cases this : b = r.msg.externalAsset
    · subst this
      rw [if_pos rfl, writes.total_is, getRemovalQueue_congr same]
      omega
    · rw [if_neg this, writes.others b this, getRemovalQueue_congr same, Nat.add_zero]

theorem visit_sound (covered : VisitCovered asset perRequestUnits r w) (counts : w.CountsStored)
    (stored : w.requests.get r.key = some r) :
    VisitSound env asset perRequestUnits r w ∧
      ∀ u, (processRemovalRequest env asset perRequestUnits r).run w = (.ok (), u) →
        u.CountsStored ∧ KeepsOtherRequests r w u ∧ ∀ b, (getRemovalQueue u b).totalValue +
          (if b = asset then reportedValue env asset perRequestUnits r w else 0) =
            (getRemovalQueue w b).totalValue := by
  cases asked : servedRemoval asset perRequestUnits r w with
  | none =>
    have unreported : reportedValue env asset perRequestUnits r w = 0 := by
      simp only [reportedValue, asked]
    have same : ((processRemovalRequest env asset perRequestUnits r).run w).2 = w := by
      rcases processRemovalRequest_unserved env asset perRequestUnits r w asked with ran | ⟨_, _, _, _, _, ran⟩
      · rw [ran]
      · rw [ran]
    refine ⟨⟨?_, ?_⟩, ?_⟩
    · rw [same]
      exact keepsOthers_congr rfl
    · intro m member
      rw [asked] at member
      cases member
    · intro u ran
      rw [ran] at same
      subst same
      refine ⟨counts, keepsOthers_congr rfl, ?_⟩
      intro b
      rw [unreported, ite_self, Nat.add_zero]
  | some m =>
    have of_asset := servedRemoval_asset asset perRequestUnits asked
    have visit := processRemovalRequest_served env asset perRequestUnits r asked
    have within : ∀ value v, (processRemoveLiquidityMsg env m).run w = (.ok value, v) →
        value ≤ (getRemovalQueue w asset).totalValue := by
      intro value v removed
      refine covered m asked value ?_
      rw [(processRemoveLiquidityMsg_effect env m w value v removed).2]
      rfl
    have taken : ∀ m' ∈ some m, ∀ value v, (processRemoveLiquidityMsg env m').run w = (.ok value, v) →
        value ≤ (getRemovalQueue v asset).totalValue := by
      intro m' member value v removed
      cases member
      rw [getRemovalQueue_congr (processRemoveLiquidityMsg_removals env removed)]
      exact within value v removed
    rcases serveRemoval_cases env r m w with
      ⟨e, w', failed, served⟩ | ⟨q, w', failed, served⟩ | ⟨value, v, removed, served⟩
    · have same := processRemoveLiquidityMsg_removals env failed
      have unreported : reportedValue env asset perRequestUnits r w = 0 := by
        simp only [reportedValue, asked, failed]
      rw [served] at visit
      refine ⟨⟨?_, asked ▸ taken⟩, ?_⟩
      · rw [visit]
        exact keepsOthers_congr same
      · intro u ran
        rw [visit] at ran
        cases ran
        refine ⟨countsStored_congr w w' same counts, keepsOthers_congr same, ?_⟩
        intro b
        rw [unreported, ite_self, Nat.add_zero, getRemovalQueue_congr same]
    · rw [served] at visit
      refine ⟨⟨?_, asked ▸ taken⟩, ?_⟩
      · rw [visit]
        exact keepsOthers_congr (processRemoveLiquidityMsg_removals env failed)
      · intro u ran
        rw [visit] at ran
        cases ran
    · have reported : reportedValue env asset perRequestUnits r w = value := by
        simp only [reportedValue, asked, removed]
      obtain ⟨u, written, counted, kept, totals⟩ := processed_sound asset m.wBasisPoints
        (processRemoveLiquidityMsg_removals env removed) of_asset counts stored
        (within value v removed)
      rw [served, written] at visit
      refine ⟨⟨?_, asked ▸ taken⟩, ?_⟩
      · rw [visit]
        exact kept
      · intro u' ran
        rw [visit] at ran
        cases ran
        rw [reported]
        exact ⟨counted, kept, totals⟩

theorem visits_sound (w : World β) (counts : w.CountsStored)
    (covered : EachRound (processRemovalRequest env asset perRequestUnits)
      (VisitCovered asset perRequestUnits) w.requests.rows w) :
    EachRound (processRemovalRequest env asset perRequestUnits)
        (VisitSound env asset perRequestUnits) w.requests.rows w ∧
      ∀ u, (forEach (processRemovalRequest env asset perRequestUnits) w.requests.rows).run w = (.ok (), u) →
        u.CountsStored ∧ ∀ b, (getRemovalQueue u b).totalValue +
          (if b = asset then roundSum (processRemovalRequest env asset perRequestUnits)
            (reportedValue env asset perRequestUnits) w.requests.rows w else 0) =
            (getRemovalQueue w b).totalValue := by
  -- the requests still to be visited are stored as they were when the call began
  have loop := eachRound_invariant (processRemovalRequest env asset perRequestUnits)
    (C := VisitCovered asset perRequestUnits) (P := VisitSound env asset perRequestUnits)
    (I := fun rest c t => t.CountsStored ∧ (rest.map RemovalRequest.key).Nodup ∧
      (∀ q ∈ rest, q ∈ t.requests.rows) ∧ ∀ b, (getRemovalQueue t b).totalValue +
        (if b = asset then c else 0) = (getRemovalQueue w b).totalValue)
    (reportedValue env asset perRequestUnits) ?_ w.requests.rows 0 w covered
    ⟨counts, w.requests.distinct, fun q member => member, fun b => by rw [ite_self, Nat.add_zero]⟩
  · refine ⟨loop.1, ?_⟩
    intro u ran
    obtain ⟨counted, _, _, totals⟩ := loop.2 u ran
    rw [Nat.zero_add] at totals
    exact ⟨counted, totals⟩
  · rintro r rest c t met ⟨counted, distinct, members, totals⟩
    have stored : t.requests.get r.key = some r :=
      get_row (members r (by simp))
    obtain ⟨sound, next⟩ := visit_sound env asset perRequestUnits met counted stored
    refine ⟨sound, ?_⟩
    intro u ran
    obtain ⟨after, kept, less⟩ := next u ran
    rw [List.map_cons, List.nodup_cons] at distinct
    refine ⟨after, distinct.2, ?_, ?_⟩
    · intro q member
      refine kept q (members q (by simp [member])) ?_
      rintro rfl
      exact distinct.1 (List.mem_map_of_mem member)
    · intro b
      have now := totals b
      have step := less b
      by_cases this : b = asset
      · rw [if_pos this] at now step ⊢
        omega
      · rw [if_neg this] at now step ⊢
        omega

end Loop

section Runs

/-- The keeper calls around the queue, and whatever else happens to the rest of the state. -/
inductive QueueCall (β : Type) where
  | queueRemoval (msg : MsgRemoveLiquidity) (furyValue : ℕ)
  | processRemovalQueue (externalAsset : String) (unitsToDistribute : ℕ)
  | dequeueRemovalRequest (request : RemovalRequest)
  | elsewhere (change : World β → World β)

namespace QueueCall
variable (env : Env β)

def action : QueueCall β → Action β Unit
  | .queueRemoval msg furyValue => ClpKeeper.queueRemoval msg furyValue
  | .processRemovalQueue externalAsset unitsToDistribute =>
      ClpKeeper.processRemovalQueue env externalAsset unitsToDistribute
  | .dequeueRemovalRequest request => ClpKeeper.dequeueRemovalRequest request
  | .elsewhere change => modify (fun w => { change w with requests := w.requests, queues := w.queues })

/-- The units that one call of `ProcessRemovalQueue` has for each request. -/
def perRequestUnits (w : World β) (externalAsset : String) (unitsToDistribute : ℕ) : ℕ :=
  unitsToDistribute / uint64OfInt (getRemovalQueue w externalAsset).count

def recorded (asset : String) : QueueCall β → ℕ
  | .queueRemoval msg furyValue => if asset = msg.externalAsset then furyValue else 0
  | _ => 0

def reported (w : World β) (asset : String) : QueueCall β → ℕ
  | .processRemovalQueue externalAsset unitsToDistribute =>
      if asset = externalAsset then
        roundSum (processRemovalRequest env externalAsset (perRequestUnits w externalAsset unitsToDistribute))
          (reportedValue env externalAsset (perRequestUnits w externalAsset unitsToDistribute))
          w.requests.rows w
      else 0
  | _ => 0

/-- A new request finds its key free and room in the count, a request that is dequeued is the
    stored one, and each value reported as removed is covered. -/
def Covered (w : World β) : QueueCall β → Prop
  | .queueRemoval msg _ =>
      w.requests.get ⟨msg.signer, wrapInt64 ((getRemovalQueue w msg.externalAsset).id + 1)⟩ = none ∧
        (getRemovalQueue w msg.externalAsset).count + 1 < 2 ^ 63
  | .processRemovalQueue externalAsset unitsToDistribute =>
      EachRound (processRemovalRequest env externalAsset (perRequestUnits w externalAsset unitsToDistribute))
        (VisitCovered externalAsset (perRequestUnits w externalAsset unitsToDistribute))
        w.requests.rows w
  | .dequeueRemovalRequest request => w.requests.get request.key = some request
  | .elsewhere _ => True

instance Covered.decide (w : World β) : (call : QueueCall β) → Decidable (call.Covered env w)
  | .queueRemoval _ _ => inferInstanceAs (Decidable (_ = none ∧ _ < _))
  | .processRemovalQueue externalAsset unitsToDistribute =>
      EachRound.decide _ (VisitCovered externalAsset (perRequestUnits w externalAsset unitsToDistribute))
        w.requests.rows w
  | .dequeueRemovalRequest request => inferInstanceAs (Decidable (_ = some request))
  | .elsewhere _ => inferInstanceAs (Decidable True)

/-- A call leaves the requests it is not about as they are, and no total underflows. -/
def Sound (w : World β) : QueueCall β → Prop
  | .queueRemoval msg furyValue =>
      ∀ q ∈ w.requests.rows, q ∈ (transact (ClpKeeper.queueRemoval msg furyValue) w).requests.rows
  | .processRemovalQueue externalAsset unitsToDistribute =>
      EachRound (processRemovalRequest env externalAsset (perRequestUnits w externalAsset unitsToDistribute))
        (VisitSound env externalAsset (perRequestUnits w externalAsset unitsToDistribute))
        w.requests.rows w
  | .dequeueRemovalRequest request =>
      KeepsOtherRequests request w (transact (ClpKeeper.dequeueRemovalRequest request) w)
  | .elsewhere change =>
      (transact ((QueueCall.elsewhere change).action env) w).requests = w.requests

end QueueCall

structure QueueAccounts (β : Type) where
  world : World β
  recorded : String → ℕ
  reported : String → ℕ

def QueueAccounts.step (env : Env β) (call : QueueCall β) (s : QueueAccounts β) : QueueAccounts β :=
  if ((call.action env).run s.world).1.isOk then
    { world := ((call.action env).run s.world).2
      recorded := fun asset => s.recorded asset + call.recorded asset
      reported := fun asset => s.reported asset + call.reported env s.world asset }
  else s

/-- Counts are the numbers of stored requests, and totals are what was recorded less what was
    reported as removed. -/
def QueueAccounts.Balanced (s : QueueAccounts β) : Prop :=
  s.world.CountsStored ∧ ∀ asset,
    (getRemovalQueue s.world asset).totalValue + s.reported asset = s.recorded asset

def QueueCall.Accounted (env : Env β) (w w' : World β) (call : QueueCall β) : Prop :=
  w'.CountsStored ∧ ∀ asset, (getRemovalQueue w' asset).totalValue + call.reported env w asset =
    (getRemovalQueue w asset).totalValue + call.recorded asset

variable (env : Env β) (w : World β) (counts : w.CountsStored)
include counts

theorem queueRemoval_accounted {msg : MsgRemoveLiquidity} {furyValue : ℕ}
    (met : (QueueCall.queueRemoval msg furyValue).Covered env w) :
    (QueueCall.queueRemoval msg furyValue).Sound env w ∧
      ∀ w', (queueRemoval msg furyValue).run w = (.ok (), w') →
        (QueueCall.queueRemoval msg furyValue).Accounted env w w' := by
  obtain ⟨fresh, room⟩ := met
  have writes := queueRemoval_writes msg furyValue w
  constructor
  · intro q member
    rcases transact_cases (queueRemoval msg furyValue) w with same | ⟨u, ran⟩
    · rw [same]
      exact member
    · rw [(writes u _ ran).requests_are, mem_put]
      exact Or.inr ⟨member, (w.requests.get_none_iff _).mp fresh q member⟩
  · intro w' ran
    have written := writes () w' ran
    refine ⟨queueRemoval_counts counts fresh room written, ?_⟩
    intro asset
    by_cases this : asset = msg.externalAsset
    · subst this
      simp only [QueueCall.reported, QueueCall.recorded, if_true, written.total_is, Nat.add_zero]
    · simp only [QueueCall.reported, QueueCall.recorded, this, if_false, written.others asset this]

theorem dequeueRemovalRequest_accounted {request : RemovalRequest}
    (met : (QueueCall.dequeueRemovalRequest request).Covered env w) :
    (QueueCall.dequeueRemovalRequest request).Sound env w ∧
      ∀ w', (dequeueRemovalRequest request).run w = (.ok (), w') →
        (QueueCall.dequeueRemovalRequest request).Accounted env w w' := by
  obtain ⟨after, ran, writes⟩ := dequeueRemovalRequest_writes request w
  constructor
  · rw [QueueCall.Sound, transact_ok ran]
    exact deleted_keeps met writes.requests_are
  · intro w' again
    rw [ran] at again
    cases again
    refine ⟨deleted_counts counts met writes, ?_⟩
    intro asset
    by_cases this : asset = request.msg.externalAsset
    · subst this
      simp only [QueueCall.reported, QueueCall.recorded, writes.total_is]
    · simp only [QueueCall.reported, QueueCall.recorded, writes.others asset this]

theorem processRemovalQueue_accounted {externalAsset : String} {unitsToDistribute : ℕ}
    (met : (QueueCall.processRemovalQueue externalAsset unitsToDistribute).Covered env w) :
    (QueueCall.processRemovalQueue externalAsset unitsToDistribute).Sound env w ∧
      ∀ w', (processRemovalQueue env externalAsset unitsToDistribute).run w = (.ok (), w') →
        (QueueCall.processRemovalQueue externalAsset unitsToDistribute).Accounted env w w' := by
  obtain ⟨sound, after⟩ := visits_sound env externalAsset _ w counts met
  refine ⟨sound, ?_⟩
  intro w' ran
  unfold processRemovalQueue at ran
  rw [read_then, ofExcept_then] at ran
  obtain ⟨units, divided, looped⟩ := ran
  obtain ⟨_, rfl⟩ := Uint.quo_succeeds.mp divided
  obtain ⟨counted, totals⟩ := after w' looped
  refine ⟨counted, ?_⟩
  intro asset
  exact (totals asset).trans (Nat.add_zero _).symm

theorem call_accounted (call : QueueCall β) (met : call.Covered env w) :
    call.Sound env w ∧
      ∀ w', (call.action env).run w = (.ok (), w') → call.Accounted env w w' := by
  cases call with
  | queueRemoval msg furyValue => exact queueRemoval_accounted env w counts met
  | processRemovalQueue externalAsset unitsToDistribute =>
    exact processRemovalQueue_accounted env w counts met
  | dequeueRemovalRequest request => exact dequeueRemovalRequest_accounted env w counts met
  | elsewhere change =>
    refine ⟨rfl, ?_⟩
    intro w' ran
    cases ran
    exact ⟨countsStored_congr w _ rfl counts, fun asset => rfl⟩

omit counts in
theorem step_balanced {call : QueueCall β} {s : QueueAccounts β} (met : call.Covered env s.world)
    (balanced : s.Balanced) :
    call.Sound env s.world ∧ (QueueAccounts.step env call s).Balanced := by
  obtain ⟨sound, after⟩ := call_accounted env s.world balanced.1 call met
  refine ⟨sound, ?_⟩
  unfold QueueAccounts.step
  split
  · rename_i ok
    rcases outcome : (call.action env).run s.world with ⟨_ | _, w'⟩
    · simp [outcome, Except.isOk, Except.toBool] at ok
    · obtain ⟨counted, totals⟩ := after w' outcome
      refine ⟨counted, ?_⟩
      intro asset
      have now := totals asset
      have before := balanced.2 asset
      dsimp only
      omega
  · exact balanced

end Runs

/-- In every run whose calls meet the condition, the count of every asset is the number of its
    stored requests, no call touches a request that it is not about, and the total is what was
    recorded less what was reported as removed, with no underflow. -/
theorem queue_bookkeeping (env : Env β) (calls : List (QueueCall β)) (s : QueueAccounts β)
    (start : s.Balanced)
    (met : EventRuns.Guarded (QueueAccounts.step env) (fun t call => call.Covered env t.world) calls s) :
    EventRuns.Guarded (QueueAccounts.step env)
        (fun t call => t.Balanced ∧ call.Sound env t.world) calls s ∧
      (EventRuns.run (QueueAccounts.step env) calls s).Balanced :=
  EventRuns.guarded_invariant (QueueAccounts.step env) (fun t call => call.Covered env t.world)
    (fun t call => call.Sound env t.world) QueueAccounts.Balanced
    (fun t call covered balanced => step_balanced env covered balanced) calls s met start

/-- The pool with its only provider, and an empty queue. -/
def emptyQueue : QueueAccounts LedgerBank.Balances := ⟨soleProvider, fun _ => 0, fun _ => 0⟩

theorem emptyQueue_balanced : emptyQueue.Balanced :=
  ⟨fun _ => ⟨rfl, show (0 : ℤ) < 2 ^ 63 by decide⟩, fun _ => rfl⟩

def tenth (signer asset : String) : MsgRemoveLiquidity := ⟨signer, asset, 1000, 0⟩

def oneQueued : World LedgerBank.Balances :=
  (EventRuns.run (QueueAccounts.step LedgerBank.env) [.queueRemoval (tenth "alice" "ceth") 100] emptyQueue).world

/-- Alice queues for two assets, and the second request takes the key of the first. Apart from that, a
    request whose recorded value was too small makes the total underflow when it is served. -/
theorem second_asset_overwrites :
    emptyQueue.Balanced ∧
      ¬(EventRuns.run (QueueAccounts.step LedgerBank.env)
        [.queueRemoval (tenth "alice" "ceth") 100, .queueRemoval (tenth "alice" "cusd") 200]
        emptyQueue).Balanced ∧
      ¬(QueueCall.queueRemoval (tenth "alice" "cusd") 200).Sound LedgerBank.env oneQueued ∧
      ¬(QueueCall.processRemovalQueue "ceth" (10 ^ 17)).Sound LedgerBank.env oneQueued := by
  refine ⟨emptyQueue_balanced, ?_, ?_, ?_⟩
  · intro balanced
    have lost : (getRemovalQueue (EventRuns.run (QueueAccounts.step LedgerBank.env)
        [.queueRemoval (tenth "alice" "ceth") 100, .queueRemoval (tenth "alice" "cusd") 200]
        emptyQueue).world "ceth").count ≠ ((EventRuns.run (QueueAccounts.step LedgerBank.env)
        [.queueRemoval (tenth "alice" "ceth") 100, .queueRemoval (tenth "alice" "cusd") 200]
        emptyQueue).world.storedRequests "ceth" : ℕ) := by
      decide +kernel
    exact lost (balanced.1 "ceth").1
  · unfold QueueCall.Sound
    decide +kernel
  · intro sound
    have rounds : EachRound (processRemovalRequest LedgerBank.env "ceth" (10 ^ 17))
        (VisitSound LedgerBank.env "ceth" (10 ^ 17)) [⟨1, tenth "alice" "ceth", 100⟩] oneQueued := sound
    have removed : ∃ value, ((processRemoveLiquidityMsg LedgerBank.env (tenth "alice" "ceth")).run
        oneQueued).1 = .ok value ∧ 100 < value := by
      decide +kernel
    have total : (getRemovalQueue ((processRemoveLiquidityMsg LedgerBank.env (tenth "alice" "ceth")).run
        oneQueued).2 "ceth").totalValue = 100 := by
      decide +kernel
    obtain ⟨value, returned, more⟩ := removed
    have asked : servedRemoval "ceth" (10 ^ 17) ⟨1, tenth "alice" "ceth", 100⟩ oneQueued =
        some (tenth "alice" "ceth") := by
      decide +kernel
    have bound := rounds.1.2 (tenth "alice" "ceth") asked value _ (run_of_returned returned)
    rw [total] at bound
    omega

def servedRun : List (QueueCall LedgerBank.Balances) :=
  [.queueRemoval (tenth "alice" "ceth") (2 * 10 ^ 17), .queueRemoval (tenth "bob" "ceth") 5,
    .dequeueRemovalRequest ⟨2, tenth "bob" "ceth", 5⟩, .processRemovalQueue "ceth" (10 ^ 17)]

theorem served_queue_balanced :
    (EventRuns.run (QueueAccounts.step LedgerBank.env) servedRun emptyQueue).Balanced ∧
      (EventRuns.run (QueueAccounts.step LedgerBank.env) servedRun emptyQueue).world.requests.rows = [] ∧
      0 < (EventRuns.run (QueueAccounts.step LedgerBank.env) servedRun emptyQueue).reported "ceth" :=
  ⟨(queue_bookkeeping LedgerBank.env servedRun emptyQueue emptyQueue_balanced (by decide +kernel)).2,
    by decide +kernel, by decide +kernel⟩

end FuryNode
