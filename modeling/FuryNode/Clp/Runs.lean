import FuryNode.Clp.Delivery
import FuryNode.Clp.EndBlock

/-!
Runs of x/clp: messages and ends of blocks in any order, each in a block with its own
height and parameters. A property is carried along a run under a condition on the
state before each event.
-/
namespace FuryNode
open StatefulProgram StatefulProgram.Prog KeyedTable KeyedTable.Table ClpKeeper
variable {β : Type} (env : Env β)

inductive ClpEvent where
  | message (c : BlockContext) (msg : ClpMsg)
  | endBlock (c : BlockContext) (order : MapOrder)

/-- A message or an end of block that fails adds no state to a run. -/
def ClpEvent.step (env : Env β) : ClpEvent → World β → World β
  | .message c msg, w => msg.deliver env (w.within c)
  | .endBlock c order, w => transact (endBlocker env order) (w.within c)

def runEvents (env : Env β) (events : List ClpEvent) (w : World β) : World β :=
  events.foldl (fun w e => e.step env w) w

def Guarded (env : Env β) (condition : World β → ClpEvent → Prop) : List ClpEvent → World β → Prop
  | [], _ => True
  | e :: rest, w => condition w e ∧ Guarded env condition rest (e.step env w)

instance Guarded.decide (env : Env β) (condition : World β → ClpEvent → Prop)
    [∀ w e, Decidable (condition w e)] :
    (events : List ClpEvent) → (w : World β) → Decidable (Guarded env condition events w)
  | [], _ => inferInstanceAs (Decidable True)
  | e :: rest, w =>
      have := Guarded.decide env condition rest (e.step env w)
      inferInstanceAs (Decidable (_ ∧ _))

theorem runEvents_preserves (condition : World β → ClpEvent → Prop) (I : World β → Prop)
    (step : ∀ w e, condition w e → I w → I (e.step env w)) (events : List ClpEvent) (w : World β)
    (guarded : Guarded env condition events w) (start : I w) : I (runEvents env events w) := by
  induction events generalizing w with
  | nil => exact start
  | cons e rest ih => exact ih _ guarded.2 (step w e guarded.1 start)

structure EmptyClp (w : World β) : Prop where
  pools : w.pools = .empty
  providers : w.providers = .empty
  requests : w.requests = .empty

theorem emptyClp_settled {w : World β} (empty : EmptyClp w) : Settled w := by
  constructor
  · rw [empty.requests]
    rfl
  · rw [empty.pools]
    rfl

theorem endBlock_step {c : BlockContext} {order : MapOrder} {w : World β} :
    KeepsUnits w ((ClpEvent.endBlock c order).step env w) := by
  have ended := endBlocker_units env order (w.within c)
  rcases transact_cases (endBlocker env order) (w.within c) with same | ⟨u, run⟩
  · rw [ClpEvent.step, same]
    exact ⟨rfl, rfl, fun _ => rfl⟩
  · obtain ⟨providers, requests, units⟩ := ended.ok u _ run
    exact ⟨providers, requests, units⟩

theorem keepsUnits_settled {w w' : World β} (kept : KeepsUnits w w') (settled : Settled w) :
    Settled w' := by
  constructor
  · rw [kept.requests]
    exact settled.no_requests
  · have none := kept.units ⟨nativeSymbol⟩
    rw [settled.external_pools] at none
    simpa using none

theorem step_settled (e : ClpEvent) {w : World β} (settled : Settled w) :
    Settled (e.step env w) := by
  cases e with
  | message c msg => exact deliver_settled env ⟨settled.1, settled.2⟩
  | endBlock c order => exact keepsUnits_settled (endBlock_step env) settled

theorem put_keepsUnits {pools : Table Pool.key} {k : PoolKey} {pool updated : Pool}
    (found : pools.get k = some pool) (key : updated.key = pool.key)
    (units : updated.poolUnits = pool.poolUnits) (l : PoolKey) :
    ((pools.put updated).get l).map Pool.poolUnits = (pools.get l).map Pool.poolUnits := by
  rw [get_put]
  split
  · rename_i same
    have stored : pools.get l = some pool := by
      rw [← same, key, pools.get_key k pool found]
      exact found
    simp [stored, units]
  · rfl

/-- A swap changes balances only. -/
theorem swap_keepsUnits {m : MsgSwap} {w w' : World β} (different : m.sentAsset ≠ m.receivedAsset)
    (effect : SwapEffect env m w w') : KeepsUnits w w' := by
  obtain ⟨_, _, _, _, _, _, _, _, _, swapping, rfl⟩ := effect
  refine ⟨rfl, rfl, ?_⟩
  intro k
  cases swapping with
  | one symbol pool _ found _ =>
    exact put_keepsUnits found (swapped_key _ _ _ _) swapped_units k
  | two inPool outPool through _ _ inFound outFound _ _ =>
    have second : (w.pools.put (inPool.swapped nativeSymbol m.sentAmount through)).get
        ⟨m.receivedAsset⟩ = some outPool := by
      rw [get_put_other, outFound]
      rw [swapped_key, w.pools.get_key _ _ inFound]
      simpa using different
    exact (put_keepsUnits second (swapped_key _ _ _ _) swapped_units
      k).trans (put_keepsUnits inFound (swapped_key _ _ _ _) swapped_units k)

end FuryNode
