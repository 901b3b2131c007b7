import FuryNode.Clp.Delivery
import FuryNode.Sdk.LedgerBank

/-!
Solvency of x/clp. The pools are claims on the module account: fury against the sum
over all pools, every external denomination against its own pool. The surplus over
the claims never shrinks, in no run of messages.
-/
namespace FuryNode
open StatefulProgram StatefulProgram.Prog KeyedTable KeyedTable.Table ClpKeeper
variable {β : Type} (env : Env β)

def nativeClaim (pool : Pool) : ℤ := pool.nativeAssetBalance + pool.nativeCustody

def externalClaim (pool : Pool) : ℤ := pool.externalAssetBalance + pool.externalCustody

def moduleBalance (env : Env β) (b : β) (d : String) : ℤ :=
  env.bank.getBalance b (moduleAddress env) d

def nativeSurplus (env : Env β) (b : β) (pools : Table Pool.key) : ℤ :=
  moduleBalance env b nativeSymbol - total nativeClaim pools

def externalSurplus (env : Env β) (b : β) (pools : Table Pool.key) (d : String) : ℤ :=
  moduleBalance env b d - valueAt externalClaim pools ⟨d⟩

def KeepsSurplus (env : Env β) (w w' : World β) : Prop :=
  nativeSurplus env w.bank w.pools ≤ nativeSurplus env w'.bank w'.pools ∧
    ∀ d, d ≠ nativeSymbol →
      externalSurplus env w.bank w.pools d ≤ externalSurplus env w'.bank w'.pools d

variable {pool : Pool} {w w' : World β} {emitAmount : ℕ}

theorem valueAt_found (f : Pool → ℤ) {pools : Table Pool.key} {k : PoolKey}
    (found : pools.get k = some pool) : valueAt f pools k = f pool := by
  simp [valueAt, found]

theorem nativeSurplus_put (b b' : β) (pools : Table Pool.key) (pool : Pool) :
    nativeSurplus env b' (pools.put pool) = nativeSurplus env b pools +
      (moduleBalance env b' nativeSymbol - moduleBalance env b nativeSymbol) -
      (nativeClaim pool - valueAt nativeClaim pools pool.key) := by
  have sum := total_put nativeClaim pools pool
  unfold nativeSurplus
  omega

theorem nativeSurplus_delete (b b' : β) (pools : Table Pool.key) (k : PoolKey) :
    nativeSurplus env b' (pools.delete k) = nativeSurplus env b pools +
      (moduleBalance env b' nativeSymbol - moduleBalance env b nativeSymbol) +
      valueAt nativeClaim pools k := by
  have sum := total_delete nativeClaim pools k
  unfold nativeSurplus
  omega

theorem externalSurplus_put (b b' : β) (pools : Table Pool.key) (pool : Pool) (d : String) :
    externalSurplus env b' (pools.put pool) d = externalSurplus env b pools d +
      (moduleBalance env b' d - moduleBalance env b d) -
      (if pool.externalAsset = d then externalClaim pool - valueAt externalClaim pools pool.key
        else 0) := by
  have key : pool.key = ⟨d⟩ ↔ pool.externalAsset = d := by simp [Pool.key]
  simp only [externalSurplus, valueAt, get_put, key]
  split
  · rename_i same
    simp [Pool.key, same]
  · ring

theorem externalSurplus_delete (b b' : β) (pools : Table Pool.key) (symbol d : String) :
    externalSurplus env b' (pools.delete ⟨symbol⟩) d = externalSurplus env b pools d +
      (moduleBalance env b' d - moduleBalance env b d) +
      (if symbol = d then valueAt externalClaim pools ⟨symbol⟩ else 0) := by
  simp only [externalSurplus, valueAt, get_delete, PoolKey.mk.injEq]
  split
  · rename_i same
    simp [same]
  · ring

theorem moves_in {b b' : β} {addr : AccAddress} {amt : String → ℕ}
    (other : addr ≠ moduleAddress env)
    (moved : Moves (env.bank.getBalance b) (env.bank.getBalance b') addr (moduleAddress env) amt)
    (d : String) : moduleBalance env b' d = moduleBalance env b d + amt d := by
  have balance := moved (moduleAddress env) d
  simp only [other.symm, ↓reduceIte, Nat.add_zero] at balance
  unfold moduleBalance
  omega

theorem moves_out {b b' : β} {addr : AccAddress} {amt : String → ℕ}
    (other : addr ≠ moduleAddress env)
    (moved : Moves (env.bank.getBalance b) (env.bank.getBalance b') (moduleAddress env) addr amt)
    (d : String) : moduleBalance env b' d = moduleBalance env b d - amt d := by
  have balance := moved (moduleAddress env) d
  simp only [other.symm, ↓reduceIte, Nat.add_zero] at balance
  unfold moduleBalance
  omega

theorem keeps_put (written : w'.pools = w.pools.put pool)
    (native : nativeClaim pool - valueAt nativeClaim w.pools pool.key ≤
      moduleBalance env w'.bank nativeSymbol - moduleBalance env w.bank nativeSymbol)
    (external : externalClaim pool - valueAt externalClaim w.pools pool.key ≤
      moduleBalance env w'.bank pool.externalAsset - moduleBalance env w.bank pool.externalAsset)
    (others : ∀ d, d ≠ nativeSymbol → d ≠ pool.externalAsset →
      moduleBalance env w.bank d ≤ moduleBalance env w'.bank d) : KeepsSurplus env w w' := by
  rw [KeepsSurplus, written]
  constructor
  · rw [nativeSurplus_put env w.bank]
    omega
  · intro d foreign
    rw [externalSurplus_put env w.bank]
    by_cases same : pool.externalAsset = d
    · subst same
      simp only [↓reduceIte]
      omega
    · have more := others d foreign (Ne.symm same)
      simp only [same, ↓reduceIte]
      omega

section Amounts
variable (externalAsset : String) (x y : ℕ)

theorem pairAmount_native (external : externalAsset ≠ nativeSymbol) :
    pairAmount externalAsset x y nativeSymbol = y := by
  simp [pairAmount, external]

theorem pairAmount_external (external : externalAsset ≠ nativeSymbol) :
    pairAmount externalAsset x y externalAsset = x := by
  simp [pairAmount, external.symm]

theorem pairAmount_other {d : String} (foreign : d ≠ nativeSymbol) (other : d ≠ externalAsset) :
    pairAmount externalAsset x y d = 0 := by
  simp [pairAmount, foreign.symm, other.symm]

end Amounts

theorem create_keeps {m : MsgCreatePool} {poolUnits lpUnits : ℕ} (signed : Signed env m.signer)
    (external : m.externalAsset ≠ nativeSymbol)
    (effect : CreationEffect env m poolUnits lpUnits w w') : KeepsSurplus env w w' := by
  obtain ⟨addr, b, providers, decoded, moved, rfl, _⟩ := effect.written
  have balance := moves_in env (signed addr decoded) moved
  refine keeps_put env rfl ?_ ?_ ?_
  · simp only [valueAt, Pool.key, effect.pool_missing, nativeClaim]
    simp [balance, pairAmount_native _ _ _ external]
  · simp only [valueAt, Pool.key, effect.pool_missing, externalClaim]
    simp [balance, pairAmount_external _ _ _ external]
  · intro d foreign other
    simp [balance, pairAmount_other _ _ _ foreign other]

theorem add_keeps {m : MsgAddLiquidity} {newPoolUnits lpUnits : ℕ} (signed : Signed env m.signer)
    (external : m.externalAsset ≠ nativeSymbol)
    (effect : AdditionEffect env m pool newPoolUnits lpUnits w w') : KeepsSurplus env w w' := by
  obtain ⟨addr, b, providers, threshold, decoded, moved, rfl, _⟩ := effect.written
  have balance := moves_in env (signed addr decoded) moved
  have asset : pool.externalAsset = m.externalAsset :=
    congrArg PoolKey.symbol (w.pools.get_key _ _ effect.pool_found)
  refine keeps_put env rfl ?_ ?_ ?_
  · simp only [Pool.key, asset, valueAt_found _ effect.pool_found, nativeClaim, balance,
      pairAmount_native _ _ _ external]
    omega
  · simp only [Pool.key, asset, valueAt_found _ effect.pool_found, externalClaim, balance,
      pairAmount_external _ _ _ external]
    omega
  · intro d foreign other
    simp only [asset] at other
    simp [balance, pairAmount_other _ _ _ foreign other]

theorem remove_keeps {externalAsset signer : String} {lp : LiquidityProvider}
    {native external lpUnitsLeft : ℕ} (signed : Signed env signer)
    (foreign : externalAsset ≠ nativeSymbol)
    (effect : RemovalEffect env externalAsset signer pool lp native external lpUnitsLeft w w') :
    KeepsSurplus env w w' := by
  obtain ⟨addr, b, providers, decoded, moved, rfl, _⟩ := effect.written
  have balance := moves_out env (signed addr decoded) moved
  have asset : pool.externalAsset = externalAsset :=
    congrArg PoolKey.symbol (w.pools.get_key _ _ effect.pool_found)
  have nativeBound := effect.native_bound
  have externalBound := effect.external_bound
  refine keeps_put env rfl ?_ ?_ ?_
  · simp only [Pool.key, asset, valueAt_found _ effect.pool_found, nativeClaim, balance,
      pairAmount_native _ _ _ foreign]
    omega
  · simp only [Pool.key, asset, valueAt_found _ effect.pool_found, externalClaim, balance,
      pairAmount_external _ _ _ foreign]
    omega
  · intro d outside other
    simp only [asset] at other
    simp [balance, pairAmount_other _ _ _ outside other]

theorem decommission_keeps {m : MsgDecommissionPool} (foreign : m.symbol ≠ nativeSymbol)
    (effect : DecommissionEffect env m w w') : KeepsSurplus env w w' := by
  obtain ⟨pool, b, providers, native, external, found, nativeBound, externalBound, paid, rfl⟩ :=
    effect
  have balance : ∀ d, moduleBalance env b d + pairAmount m.symbol external native d =
      moduleBalance env w.bank d := by
    intro d
    unfold moduleBalance
    exact_mod_cast paid d
  constructor
  · have fury := balance nativeSymbol
    rw [pairAmount_native _ _ _ foreign] at fury
    rw [nativeSurplus_delete env w.bank, valueAt_found _ found, nativeClaim]
    dsimp only
    omega
  · intro d outside
    have change := balance d
    rw [externalSurplus_delete env w.bank]
    by_cases same : m.symbol = d
    · subst same
      rw [pairAmount_external _ _ _ foreign] at change
      simp only [↓reduceIte, valueAt_found _ found, externalClaim]
      omega
    · rw [pairAmount_other _ _ _ outside (Ne.symm same)] at change
      simp only [same, ↓reduceIte]
      omega

theorem swapped_to_native (sentAmount : ℕ) (bound : emitAmount < pool.stock nativeSymbol) :
    nativeClaim (pool.swapped nativeSymbol sentAmount emitAmount) =
        nativeClaim pool - emitAmount ∧
      externalClaim (pool.swapped nativeSymbol sentAmount emitAmount) =
        externalClaim pool + sentAmount := by
  simp only [Pool.stock, ↓reduceIte] at bound
  simp only [Pool.swapped, ↓reduceIte, nativeClaim, externalClaim]
  omega

theorem swapped_to_external {toAsset : String} (sentAmount : ℕ) (foreign : toAsset ≠ nativeSymbol)
    (bound : emitAmount < pool.stock toAsset) :
    nativeClaim (pool.swapped toAsset sentAmount emitAmount) = nativeClaim pool + sentAmount ∧
      externalClaim (pool.swapped toAsset sentAmount emitAmount) =
        externalClaim pool - emitAmount := by
  simp only [Pool.stock, foreign, ↓reduceIte] at bound
  simp only [Pool.swapped, foreign, ↓reduceIte, nativeClaim, externalClaim]
  omega

theorem swapped_asset (toAsset symbol : String) (sentAmount emitAmount : ℕ) {pools : Table Pool.key}
    (found : pools.get ⟨symbol⟩ = some pool) :
    (pool.swapped toAsset sentAmount emitAmount).externalAsset = symbol :=
  congrArg PoolKey.symbol
    ((swapped_key pool toAsset sentAmount emitAmount).trans (pools.get_key _ _ found))

theorem swap_one_keeps {m : MsgSwap} {symbol : String} (foreign : symbol ≠ nativeSymbol)
    (side : (m.receivedAsset = nativeSymbol ∧ symbol = m.sentAsset) ∨
      (m.sentAsset = nativeSymbol ∧ symbol = m.receivedAsset))
    (found : w.pools.get ⟨symbol⟩ = some pool) (bound : emitAmount < pool.stock m.receivedAsset)
    (balance : ∀ d, moduleBalance env w'.bank d = moduleBalance env w.bank d +
      oneAmount m.sentAsset m.sentAmount d - oneAmount m.receivedAsset emitAmount d)
    (written : w'.pools = w.pools.put (pool.swapped m.receivedAsset m.sentAmount emitAmount)) :
    KeepsSurplus env w w' := by
  have asset := swapped_asset m.receivedAsset symbol m.sentAmount emitAmount found
  have before := fun f => valueAt_found f found
  rcases side with ⟨received, rfl⟩ | ⟨sent, rfl⟩
  · rw [received] at bound balance written asset
    obtain ⟨native, external⟩ := swapped_to_native m.sentAmount bound
    refine keeps_put env written ?_ ?_ ?_
    · simp only [Pool.key, asset, before, native, balance, oneAmount, foreign, ↓reduceIte]
      omega
    · simp only [Pool.key, asset, before, external, balance, oneAmount, foreign.symm, ↓reduceIte]
      omega
    · intro d outside other
      simp only [asset] at other
      simp [balance, oneAmount, outside.symm, other.symm]
  · rw [sent] at balance
    obtain ⟨native, external⟩ := swapped_to_external m.sentAmount foreign bound
    refine keeps_put env written ?_ ?_ ?_
    · simp only [Pool.key, asset, before, native, balance, oneAmount, foreign, ↓reduceIte]
      omega
    · simp only [Pool.key, asset, before, external, balance, oneAmount, foreign.symm, ↓reduceIte]
      omega
    · intro d outside other
      simp only [asset] at other
      simp [balance, oneAmount, outside.symm, other.symm]

theorem swap_two_keeps {m : MsgSwap} {through : ℕ} {inPool outPool : Pool}
    (different : m.sentAsset ≠ m.receivedAsset) (sent_external : m.sentAsset ≠ nativeSymbol)
    (received_external : m.receivedAsset ≠ nativeSymbol)
    (in_found : w.pools.get ⟨m.sentAsset⟩ = some inPool)
    (out_found : w.pools.get ⟨m.receivedAsset⟩ = some outPool)
    (in_bound : through < inPool.stock nativeSymbol)
    (out_bound : emitAmount < outPool.stock m.receivedAsset)
    (balance : ∀ d, moduleBalance env w'.bank d = moduleBalance env w.bank d +
      oneAmount m.sentAsset m.sentAmount d - oneAmount m.receivedAsset emitAmount d)
    (written : w'.pools = (w.pools.put (inPool.swapped nativeSymbol m.sentAmount through)).put
      (outPool.swapped m.receivedAsset through emitAmount)) : KeepsSurplus env w w' := by
  have inAsset := swapped_asset nativeSymbol _ m.sentAmount through in_found
  have outAsset := swapped_asset m.receivedAsset _ through emitAmount out_found
  have inBefore := fun f => valueAt_found f in_found
  obtain ⟨inNative, inExternal⟩ := swapped_to_native m.sentAmount in_bound
  obtain ⟨outNative, outExternal⟩ :=
    swapped_to_external through received_external out_bound
  -- the first write leaves the second pool as it was
  have outBefore : ∀ f : Pool → ℤ,
      valueAt f (w.pools.put (inPool.swapped nativeSymbol m.sentAmount through))
        ⟨m.receivedAsset⟩ = f outPool := by
    intro f
    refine valueAt_found f ((get_put_other _ _ _ ?_).trans out_found)
    simpa [Pool.key, inAsset] using different
  rw [KeepsSurplus, written]
  constructor
  · rw [nativeSurplus_put env w.bank, nativeSurplus_put env w.bank]
    simp only [Pool.key, inAsset, outAsset, inBefore, outBefore, inNative, outNative, balance,
      oneAmount, sent_external, received_external, ↓reduceIte]
    omega
  · intro d outside
    rw [externalSurplus_put env w.bank, externalSurplus_put env w.bank]
    simp only [Pool.key, inAsset, outAsset, inBefore, outBefore, inExternal, outExternal, balance,
      oneAmount]
    by_cases sent : m.sentAsset = d
    · have received : m.receivedAsset ≠ d := fun same => different (sent.trans same.symm)
      simp only [sent, received, ↓reduceIte]
      omega
    · by_cases received : m.receivedAsset = d
      · simp only [sent, received, ↓reduceIte]
        omega
      · simp only [sent, received, ↓reduceIte]
        omega

theorem swap_keeps {m : MsgSwap} (signed : Signed env m.signer)
    (different : m.sentAsset ≠ m.receivedAsset) (external : w.pools.get ⟨nativeSymbol⟩ = none)
    (effect : SwapEffect env m w w') : KeepsSurplus env w w' := by
  obtain ⟨addr, received, paid, pools, threshold, emitAmount, decoded, taken, sent, swapping, rfl⟩ :=
    effect
  have balance : ∀ d, moduleBalance env paid d = moduleBalance env w.bank d +
      oneAmount m.sentAsset m.sentAmount d - oneAmount m.receivedAsset emitAmount d := by
    intro d
    rw [moves_out env (signed addr decoded) sent, moves_in env (signed addr decoded) taken]
  cases swapping with
  | one symbol pool side found bound =>
    have foreign : symbol ≠ nativeSymbol := by
      rintro rfl
      simp [external] at found
    exact swap_one_keeps env foreign side found bound balance rfl
  | two inPool outPool through sentExternal receivedExternal inFound outFound inBound outBound =>
    exact swap_two_keeps env different sentExternal
      receivedExternal inFound outFound inBound outBound balance rfl

theorem effect_keeps {msg : ClpMsg} (external : w.pools.get ⟨nativeSymbol⟩ = none)
    (effect : MsgEffect env msg w w') : KeepsSurplus env w w' := by
  have foreign : ∀ symbol pool, w.pools.get ⟨symbol⟩ = some pool → symbol ≠ nativeSymbol := by
    rintro symbol pool found rfl
    simp [external] at found
  cases effect with
  | createPool m _ _ _ _ signed external _ _ effect =>
    exact create_keeps env signed external effect
  | addLiquidity m _ _ _ _ _ signed _ effect =>
    exact add_keeps env signed (foreign _ _ effect.pool_found) effect
  | removeLiquidity m _ _ _ _ _ _ _ _ signed _ _ effect =>
    exact remove_keeps env signed (foreign _ _ effect.pool_found) effect
  | removeLiquidityUnits m _ _ _ _ _ _ _ signed _ _ effect =>
    exact remove_keeps env signed (foreign _ _ effect.pool_found) effect
  | swap m _ _ signed different effect =>
    exact swap_keeps env signed different external effect
  | decommissionPool m _ _ effect =>
    have found := effect
    obtain ⟨pool, _, _, _, _, found, _⟩ := found
    exact decommission_keeps env (foreign _ pool found) effect

theorem deliver_keeps (msg : ClpMsg) (w : World β) (settled : Settled w) :
    KeepsSurplus env w (msg.deliver env w) := by
  rcases deliver_cases env msg w settled.no_requests with same | effect
  · rw [same]
    exact ⟨le_refl _, fun _ _ => le_refl _⟩
  · exact effect_keeps env settled.external_pools effect

/-- After any run, one more message of any kind, in a block with any parameters, leaves the
    module account with at least the surplus it had. -/
theorem message_keeps_surplus (env : Env β) (w : World β) (settled : Settled w)
    (earlier : List (BlockContext × ClpMsg)) (c : BlockContext) (msg : ClpMsg) :
    KeepsSurplus env (deliverAll env earlier w)
      (msg.deliver env ((deliverAll env earlier w).within c)) := by
  have before := deliverAll_settled env earlier w settled
  exact deliver_keeps env msg ((deliverAll env earlier w).within c) ⟨before.1, before.2⟩

def twoPools : List (BlockContext × ClpMsg) :=
  [(LedgerBank.block 2, .createPool ⟨"alice", "ceth", 10 ^ 18, 10 ^ 18⟩),
    (LedgerBank.block 2, .createPool ⟨"bob", "cusd", 10 ^ 18, 10 ^ 18⟩)]

def throughBoth : ClpMsg := .swap ⟨"alice", "ceth", "cusd", 10 ^ 17, 1⟩

theorem swap_through_two_pools_keeps_surplus :
    Settled LedgerBank.genesis ∧
      (throughBoth.deliver LedgerBank.env ((deliverAll LedgerBank.env twoPools
        LedgerBank.genesis).within (LedgerBank.block 3))).pools.rows.map Pool.externalAssetBalance =
          [11 * 10 ^ 17, 917145202967408518] ∧
      KeepsSurplus LedgerBank.env (deliverAll LedgerBank.env twoPools LedgerBank.genesis)
        (throughBoth.deliver LedgerBank.env ((deliverAll LedgerBank.env twoPools
          LedgerBank.genesis).within (LedgerBank.block 3))) :=
  ⟨⟨rfl, rfl⟩, by decide +kernel,
    message_keeps_surplus LedgerBank.env LedgerBank.genesis ⟨rfl, rfl⟩ twoPools
      (LedgerBank.block 3) throughBoth⟩

end FuryNode
