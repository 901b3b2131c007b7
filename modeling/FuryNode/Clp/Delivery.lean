import FuryNode.Clp.SwapEffects

/-!
The delivery of x/clp messages. What a delivered message can do is said once, by
`MsgEffect`; the invariants of runs are derived from it and never look into a
handler.
-/
namespace FuryNode
open StatefulProgram StatefulProgram.Prog KeyedTable KeyedTable.Table ClpKeeper
variable {β : Type} (env : Env β)

/-- No key signs for the module account, so it is never the signer. -/
def Signed (env : Env β) (signer : String) : Prop :=
  ∀ addr, env.accAddressFromBech32 signer = some addr → addr ≠ moduleAddress env

variable {u : Unit} {w : World β}

theorem requireAsset_succeeds {symbol : String} (validated : requireAsset env symbol = .ok u) :
    assetValidate env symbol = .ok true := by
  simp only [requireAsset, except_bind_succeeds, check_succeeds] at validated
  obtain ⟨_, valid, rfl⟩ := validated
  exact valid

theorem createPool_validated {m : MsgCreatePool} (validated : m.validateBasic env = .ok u) :
    assetValidate env m.externalAsset = .ok true ∧ m.externalAsset ≠ nativeSymbol ∧
      0 < m.nativeAssetAmount ∧ 0 < m.externalAssetAmount := by
  simp only [MsgCreatePool.validateBasic, except_bind_succeeds, check_succeeds] at validated
  obtain ⟨_, _, _, asset, _, external, _, native, amount⟩ := validated
  exact ⟨requireAsset_succeeds env asset, external, native, amount⟩

theorem addLiquidity_validated {m : MsgAddLiquidity} (validated : m.validateBasic env = .ok u) :
    assetValidate env m.externalAsset = .ok true ∧
      (0 < m.nativeAssetAmount ∨ 0 < m.externalAssetAmount) := by
  simp only [MsgAddLiquidity.validateBasic, except_bind_succeeds, check_succeeds] at validated
  obtain ⟨_, _, _, asset, _, _, amount⟩ := validated
  exact ⟨requireAsset_succeeds env asset, amount⟩

theorem removeLiquidity_validated {m : MsgRemoveLiquidity} (validated : m.validateBasic env = .ok u) :
    assetValidate env m.externalAsset = .ok true ∧
      0 < m.wBasisPoints ∧ m.wBasisPoints ≤ maxWbasis := by
  simp only [MsgRemoveLiquidity.validateBasic, except_bind_succeeds, check_succeeds] at validated
  obtain ⟨_, _, _, asset, _, points, _⟩ := validated
  exact ⟨requireAsset_succeeds env asset, points⟩

theorem removeLiquidityUnits_validated {m : MsgRemoveLiquidityUnits}
    (validated : m.validateBasic env = .ok u) :
    assetValidate env m.externalAsset = .ok true ∧ 0 < m.withdrawUnits := by
  simp only [MsgRemoveLiquidityUnits.validateBasic, except_bind_succeeds, check_succeeds]
    at validated
  obtain ⟨_, _, _, asset, units⟩ := validated
  exact ⟨requireAsset_succeeds env asset, units⟩

theorem swap_validated {m : MsgSwap} (validated : m.validateBasic env = .ok u) :
    m.sentAsset ≠ m.receivedAsset := by
  simp only [MsgSwap.validateBasic, except_bind_succeeds, check_succeeds] at validated
  obtain ⟨_, _, _, _, _, _, _, different, _⟩ := validated
  exact different

theorem runMsg_effect {signer : String} {validateBasic : Fallible Unit} {handler : Action β Unit}
    {Q : World β → Prop}
    (handled : ∀ u, validateBasic = .ok u → Signed env signer → Ensures handler w (fun _ => Q)) :
    Ensures (runMsg env signer validateBasic handler) w (fun _ => Q) := by
  unfold runMsg
  refine ensures_ofExcept_then fun u validated => ensures_ofExcept_then fun address decoded =>
    ensures_require_then fun signs => handled u validated ?_
  intro addr found same
  rw [(getSigner_succeeds _).mp decoded] at found
  cases found
  rw [same, moduleAddress, env.module_cannot_sign] at signs
  cases signs

inductive MsgEffect (env : Env β) : ClpMsg → World β → World β → Prop
  | createPool (m : MsgCreatePool) (w w' : World β) (poolUnits lpUnits : ℕ)
      (signed : Signed env m.signer)
      (external : m.externalAsset ≠ nativeSymbol)
      (native_amount : 0 < m.nativeAssetAmount) (external_amount : 0 < m.externalAssetAmount)
      (effect : CreationEffect env m poolUnits lpUnits w w') :
      MsgEffect env (.createPool m) w w'
  | addLiquidity (m : MsgAddLiquidity) (w w' : World β) (pool : Pool) (newPoolUnits lpUnits : ℕ)
      (signed : Signed env m.signer)
      (amount : 0 < m.nativeAssetAmount ∨ 0 < m.externalAssetAmount)
      (effect : AdditionEffect env m pool newPoolUnits lpUnits w w') :
      MsgEffect env (.addLiquidity m) w w'
  | removeLiquidity (m : MsgRemoveLiquidity) (w w' : World β) (pool : Pool)
      (lp : LiquidityProvider) (native external lpUnitsLeft swapAmount : ℕ)
      (signed : Signed env m.signer)
      (points : 0 < m.wBasisPoints ∧ m.wBasisPoints ≤ maxWbasis)
      (computed : calculateWithdrawal pool.poolUnits
        (pool.nativeAssetBalance + pool.nativeLiabilities)
        (pool.externalAssetBalance + pool.externalLiabilities) lp.liquidityProviderUnits
        m.wBasisPoints 0 = .ok (native, external, lpUnitsLeft, swapAmount))
      (effect : RemovalEffect env m.externalAsset m.signer pool lp native external lpUnitsLeft
        w w') :
      MsgEffect env (.removeLiquidity m) w w'
  | removeLiquidityUnits (m : MsgRemoveLiquidityUnits) (w w' : World β) (pool : Pool)
      (lp : LiquidityProvider) (native external lpUnitsLeft : ℕ)
      (signed : Signed env m.signer)
      (units : 0 < m.withdrawUnits ∧ m.withdrawUnits ≤ lp.liquidityProviderUnits)
      (computed : calculateWithdrawalFromUnits pool.poolUnits
        (pool.nativeAssetBalance + pool.nativeLiabilities)
        (pool.externalAssetBalance + pool.externalLiabilities) lp.liquidityProviderUnits
        m.withdrawUnits = .ok (native, external, lpUnitsLeft))
      (effect : RemovalEffect env m.externalAsset m.signer pool lp native external lpUnitsLeft
        w w') :
      MsgEffect env (.removeLiquidityUnits m) w w'
  | swap (m : MsgSwap) (w w' : World β)
      (signed : Signed env m.signer) (different : m.sentAsset ≠ m.receivedAsset)
      (effect : SwapEffect env m w w') :
      MsgEffect env (.swap m) w w'
  | decommissionPool (m : MsgDecommissionPool) (w w' : World β)
      (effect : DecommissionEffect env m w w') :
      MsgEffect env (.decommissionPool m) w w'

theorem action_effect (msg : ClpMsg) (empty : w.requests.rows = []) :
    Ensures (msg.action env) w (fun _ w' => MsgEffect env msg w w') := by
  cases msg with
  | createPool m =>
    refine runMsg_effect env fun u validated signed => ?_
    obtain ⟨valid, external, native, amount⟩ := createPool_validated env validated
    refine ensures_mono (createPool_effect env m w valid) ?_
    rintro _ w' ⟨poolUnits, lpUnits, effect⟩
    exact .createPool m w w' poolUnits lpUnits signed external native amount effect
  | addLiquidity m =>
    refine runMsg_effect env fun u validated signed => ?_
    obtain ⟨valid, amount⟩ := addLiquidity_validated env validated
    refine ensures_mono (addLiquidity_effect env valid empty) ?_
    rintro _ w' ⟨pool, newPoolUnits, lpUnits, effect⟩
    exact .addLiquidity m w w' pool newPoolUnits lpUnits signed amount effect
  | removeLiquidity m =>
    refine runMsg_effect env fun u validated signed => ?_
    obtain ⟨valid, points⟩ := removeLiquidity_validated env validated
    refine ensures_mono (removeLiquidity_runs env m w) ?_
    rintro _ w' ⟨pool, lp, native, external, lpUnitsLeft, swapAmount, removal, computed⟩
    exact .removeLiquidity m w w' pool lp native external lpUnitsLeft swapAmount signed points
      computed (removalRun_effect env valid removal)
  | removeLiquidityUnits m =>
    refine runMsg_effect env fun u validated signed => ?_
    obtain ⟨valid, units⟩ := removeLiquidityUnits_validated env validated
    refine ensures_mono (removeLiquidityUnits_runs env m w) ?_
    rintro _ w' ⟨pool, lp, native, external, lpUnitsLeft, removal, bound, computed⟩
    exact .removeLiquidityUnits m w w' pool lp native external lpUnitsLeft signed ⟨units, bound⟩
      computed (removalRun_effect env valid removal)
  | swap m =>
    refine runMsg_effect env fun u validated signed => ?_
    have different := swap_validated env validated
    exact ensures_mono (swap_effect env m w different)
      (fun _ w' effect => .swap m w w' signed different effect)
  | decommissionPool m =>
    refine runMsg_effect env fun _ _ _ => ?_
    exact ensures_mono (decommissionPool_effect env m w)
      (fun _ w' effect => .decommissionPool m w w' effect)

theorem deliver_cases (msg : ClpMsg) (w : World β) (empty : w.requests.rows = []) :
    msg.deliver env w = w ∨ MsgEffect env msg w (msg.deliver env w) := by
  rcases transact_cases (msg.action env) w with same | ⟨u, run⟩
  · exact Or.inl same
  · exact Or.inr (action_effect env msg empty u _ run)

def deliverAll (env : Env β) (msgs : List (BlockContext × ClpMsg)) (w : World β) : World β :=
  msgs.foldl (fun w (c, msg) => msg.deliver env (w.within c)) w

theorem deliverAll_preserves (I : World β → Prop) (context : ∀ w c, I w → I (w.within c))
    (step : ∀ (msg : ClpMsg) w, I w → I (msg.deliver env w)) (msgs : List (BlockContext × ClpMsg))
    (w : World β) (start : I w) : I (deliverAll env msgs w) := by
  induction msgs generalizing w with
  | nil => exact start
  | cons entry rest ih => exact ih _ (step entry.2 _ (context w entry.1 start))

theorem effect_requests (msg : ClpMsg) (w w' : World β) (effect : MsgEffect env msg w w') :
    w'.requests = w.requests := by
  cases effect with
  | createPool m _ _ _ _ _ _ _ _ effect =>
    obtain ⟨_, _, _, _, _, rfl, _⟩ := effect.written
    rfl
  | addLiquidity m _ _ _ _ _ _ _ effect =>
    obtain ⟨_, _, _, _, _, _, rfl, _⟩ := effect.written
    rfl
  | removeLiquidity m _ _ _ _ _ _ _ _ _ _ _ effect =>
    obtain ⟨_, _, _, _, _, rfl, _⟩ := effect.written
    rfl
  | removeLiquidityUnits m _ _ _ _ _ _ _ _ _ _ effect =>
    obtain ⟨_, _, _, _, _, rfl, _⟩ := effect.written
    rfl
  | swap m _ _ _ _ effect =>
    obtain ⟨_, _, _, _, _, _, _, _, _, _, rfl⟩ := effect
    rfl
  | decommissionPool m _ _ effect =>
    obtain ⟨_, _, _, _, _, _, _, _, _, rfl⟩ := effect
    rfl

/-- No pool trades fury against itself: `CreatePool` refuses it and nothing else makes pools. -/
theorem effect_external {msg : ClpMsg} {w' : World β} (external : w.pools.get ⟨nativeSymbol⟩ = none)
    (effect : MsgEffect env msg w w') : w'.pools.get ⟨nativeSymbol⟩ = none := by
  have rewritten : ∀ symbol pool updated, w.pools.get symbol = some pool → updated.key = pool.key →
      (w.pools.put updated).get ⟨nativeSymbol⟩ = none := by
    intro symbol pool updated found same
    rw [get_put_other, external]
    rw [same, w.pools.get_key _ _ found]
    rintro rfl
    simp [external] at found
  cases effect with
  | createPool m _ _ _ _ _ foreign _ _ effect =>
    obtain ⟨_, _, _, _, _, rfl, _⟩ := effect.written
    rw [get_put_other, external]
    simpa [Pool.key] using foreign
  | addLiquidity m _ _ _ _ _ _ _ effect =>
    obtain ⟨_, _, _, _, _, _, rfl, _⟩ := effect.written
    exact rewritten _ _ _ effect.pool_found rfl
  | removeLiquidity m _ _ _ _ _ _ _ _ _ _ _ effect =>
    obtain ⟨_, _, _, _, _, rfl, _⟩ := effect.written
    exact rewritten _ _ _ effect.pool_found rfl
  | removeLiquidityUnits m _ _ _ _ _ _ _ _ _ _ effect =>
    obtain ⟨_, _, _, _, _, rfl, _⟩ := effect.written
    exact rewritten _ _ _ effect.pool_found rfl
  | swap m _ _ _ _ effect =>
    obtain ⟨_, _, _, _, _, _, _, _, _, swapping, rfl⟩ := effect
    cases swapping with
    | one symbol pool _ found _ => exact rewritten _ _ _ found (swapped_key _ _ _ _)
    | two inPool outPool _ _ receivedExternal inFound outFound _ _ =>
      dsimp only
      rw [get_put_other _ _ _ (by
        rw [swapped_key, w.pools.get_key _ _ outFound]
        simpa using receivedExternal)]
      exact rewritten _ _ _ inFound (swapped_key _ _ _ _)
  | decommissionPool m _ _ effect =>
    obtain ⟨_, _, _, _, _, _, _, _, _, rfl⟩ := effect
    dsimp only
    rw [get_delete]
    split
    · rfl
    · exact external

/-- The states that runs of messages are about: no removal is queued and no pool trades
    fury against itself. -/
structure Settled (w : World β) : Prop where
  no_requests : w.requests.rows = []
  external_pools : w.pools.get ⟨nativeSymbol⟩ = none

theorem deliver_settled {msg : ClpMsg} (settled : Settled w) : Settled (msg.deliver env w) := by
  rcases deliver_cases env msg w settled.no_requests with same | effect
  · exact same.symm ▸ settled
  · exact ⟨(effect_requests env msg w _ effect) ▸ settled.no_requests,
      effect_external env settled.external_pools effect⟩

theorem deliverAll_settled (msgs : List (BlockContext × ClpMsg)) (w : World β)
    (settled : Settled w) : Settled (deliverAll env msgs w) :=
  deliverAll_preserves env Settled (fun _ _ before => ⟨before.1, before.2⟩)
    (fun _ _ before => deliver_settled env before) msgs w settled

end FuryNode
