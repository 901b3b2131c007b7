import FuryNode.Clp.Delivery

/-!
The messages that ask for units to be unlocked and that take such a request back. Both
write the unlock records of one provider and leave every ledger entry as it was.
-/
namespace FuryNode
open StatefulProgram StatefulProgram.Prog KeyedTable ClpKeeper
variable {β : Type}

structure MsgUnlockLiquidityRequest where
  signer : String
  externalAsset : String
  units : ℕ
  deriving DecidableEq, Repr

structure MsgCancelUnlock where
  signer : String
  externalAsset : String
  units : ℕ
  deriving DecidableEq, Repr

/-- `ValidateBasic` of both messages. -/
def validateUnlock (env : Env β) (signer externalAsset : String) : Fallible Unit := do
  requireSigner signer
  requireAsset env externalAsset

namespace ClpMsgServer

def unlockLiquidity (env : Env β) (request : MsgUnlockLiquidityRequest) : Action β Unit := do
  let lp ← getLiquidityProvider request.externalAsset request.signer
  let lp ← pruneUnlockRecords env lp
  let totalUnlocks ← ofExcept (lp.unlocks.foldlM (fun sum record => Uint.add sum record.units) 0)
  let requested ← ofExcept (Uint.add totalUnlocks request.units)
  require (requested ≤ lp.liquidityProviderUnits) (.err .errBalanceNotAvailable)
  let w ← read
  setLiquidityProvider env { lp with unlocks := lp.unlocks ++ [⟨w.height, request.units⟩] }

def cancelUnlockLiquidity (env : Env β) (request : MsgCancelUnlock) : Action β Unit := do
  let lp ← getLiquidityProvider request.externalAsset request.signer
  let lp ← pruneUnlockRecords env lp
  let _ ← useUnlockedLiquidity env lp request.units true
  pure ()

end ClpMsgServer

inductive UnlockMsg where
  | unlock (m : MsgUnlockLiquidityRequest)
  | cancel (m : MsgCancelUnlock)
  deriving DecidableEq, Repr

namespace UnlockMsg

def action (env : Env β) : UnlockMsg → Action β Unit
  | .unlock m => runMsg env m.signer (validateUnlock env m.signer m.externalAsset)
      (ClpMsgServer.unlockLiquidity env m)
  | .cancel m => runMsg env m.signer (validateUnlock env m.signer m.externalAsset)
      (ClpMsgServer.cancelUnlockLiquidity env m)

end UnlockMsg

/-- Only provider records were written, and no key gained or lost units. -/
def SameLedger (w w' : World β) : Prop :=
  ∃ providers, w' = { w with providers := providers } ∧
    ∀ k, ledger providers k = ledger w.providers k

theorem unlocksOnly_ledger {w w' : World β} {lp lp' : LiquidityProvider}
    (unlocked : UnlocksOnly w w' lp lp') : SameLedger w w' := by
  obtain ⟨providers, _, same, _, kept⟩ := unlocked
  exact ⟨providers, same, kept⟩

/-- The provider of a message is found, and pruning it writes unlock records only. -/
theorem prunedProvider_effect {env : Env β} {externalAsset signer : String} {w w' : World β}
    (valid : assetValidate env externalAsset = .ok true) {rest : LiquidityProvider → Action β Unit}
    {u : Unit}
    (later : ∀ lp pruned v, UnlocksOnly w v lp pruned → assetValidate env pruned.asset = .ok true →
      ledger v.providers pruned.key = some pruned.liquidityProviderUnits →
      Ensures (rest pruned) v (fun _ => SameLedger w))
    (run : (getLiquidityProvider externalAsset signer >>= fun lp =>
      pruneUnlockRecords env lp >>= rest).run w = (.ok u, w')) : SameLedger w w' := by
  obtain ⟨lp, _, looked, run⟩ := bind_ok run
  obtain ⟨found, rfl⟩ := getLiquidityProvider_succeeds.mp looked
  obtain ⟨pruned, v, pruning, run⟩ := bind_ok run
  obtain ⟨only, asset, stored⟩ := prune_found env valid found pruned v pruning
  exact later lp pruned v only asset stored u w' run

theorem unlock_effect (env : Env β) (msg : UnlockMsg) (w : World β) :
    Ensures (msg.action env) w (fun _ => SameLedger w) := by
  have asset : ∀ signer externalAsset u, validateUnlock env signer externalAsset = .ok u →
      assetValidate env externalAsset = .ok true := by
    intro signer externalAsset u validated
    obtain ⟨_, _, required⟩ := except_bind_succeeds.mp validated
    exact requireAsset_succeeds env required
  cases msg with
  | unlock m =>
    refine runMsg_effect env fun u validated _ u' w' run => ?_
    refine prunedProvider_effect (asset _ _ u validated) ?_ run
    intro lp pruned v only valid stored
    refine ensures_ofExcept_then fun _ _ => ensures_ofExcept_then fun _ _ =>
      ensures_require_then fun _ => ensures_read_then ?_
    intro _ r written
    obtain ⟨providers, rfl, kept⟩ := unlocks_written env valid stored written
    obtain ⟨_, rfl, before⟩ := unlocksOnly_ledger only
    exact ⟨providers, rfl, fun k => (kept k).trans (before k)⟩
  | cancel m =>
    refine runMsg_effect env fun u validated _ u' w' run => ?_
    refine prunedProvider_effect (asset _ _ u validated) ?_ run
    intro lp pruned v only valid stored
    refine ensures_bind (useUnlockedLiquidity_effect env valid stored) ?_
    intro drawn r drawing
    exact ensures_pure (unlocksOnly_ledger (unlocksOnly_trans only drawing))

end FuryNode
