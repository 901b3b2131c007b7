import FuryNode.Margin.Drift
import FuryNode.Margin.Pricing
import FuryNode.Margin.WellFormed

/-!
Opening a position and closing it at once. The collateral with its leverage is swapped for
custody and the custody back, on a pool whose depth of collateral has grown by what was
sent; interest may take custody in between. What is returned is never more than the collateral.
-/
namespace FuryNode
open StatefulProgram StatefulProgram.Prog KeyedTable KeyedTable.Table ConstantProduct ClpKeeper
  MarginKeeper MarginMsgServer
variable {β : Type} {env : Env β}

theorem whole_product {n k : ℕ} {a d : Dec} (multiplied : (Dec.ofInt n).mul a = .ok d)
    (truncated : decToUint d = .ok k) : (k : ℤ) = (n * a.raw).tdiv Dec.precision := by
  obtain ⟨_, rfl⟩ := Dec.checked_succeeds.mp multiplied
  simp only [decToUint, Dec.truncateInt, except_bind_succeeds, Dec.toInt_succeeds,
    Uint.ofBigInt_succeeds] at truncated
  obtain ⟨_, ⟨_, rfl⟩, value, _⟩ := truncated
  have product : (Dec.ofInt n).raw * a.raw = n * a.raw * Dec.precision := by
    simp only [Dec.ofInt]
    ring
  rw [product, Dec.chop_whole] at value
  exact value.symm

theorem leveraged_le {m : MsgOpen} {w : World β} {t : OpenTerms} {b : β}
    (opened : Opened env m w t b) : t.leveraged ≤ m.collateralAmount + t.liabilities := by
  obtain ⟨d, multiplied, truncated⟩ := opened.leveraged
  obtain ⟨e, multipliedEta, truncatedEta⟩ := opened.liabilities
  have lev := whole_product multiplied truncated
  have liab := whole_product multipliedEta truncatedEta
  obtain ⟨_, etaIs⟩ := Dec.checked_succeeds.mp opened.eta
  have eta : t.eta.raw = t.leverage.raw - Dec.precision := by
    rw [etaIs]
    simp [Dec.one, Dec.ofInt]
  generalize m.collateralAmount = c at *
  have split : (c : ℤ) * t.leverage.raw = c * t.eta.raw + c * (Dec.precision : ℤ) := by
    rw [eta]
    ring
  have positive : (0 : ℤ) < Dec.precision := by decide
  rcases le_total 0 (c * t.eta.raw) with nonneg | nonpos
  · rw [Int.tdiv_eq_ediv_of_nonneg (by rw [split]; positivity), split,
      Int.add_mul_ediv_right _ _ positive.ne'] at lev
    rw [Int.tdiv_eq_ediv_of_nonneg nonneg] at liab
    omega
  · have below : ((c : ℤ) * t.leverage.raw).tdiv Dec.precision ≤
        ((c : ℤ) * (Dec.precision : ℤ)).tdiv Dec.precision :=
      Int.tdiv_le_tdiv positive (by omega)
    rw [Int.mul_tdiv_cancel _ positive.ne'] at below
    omega

/-- The custody that is left when a position is closed is no larger a share of its side than
    the custody that was bought. -/
theorem share_shrinks (Y q y Z : ℚ) (kept : 0 ≤ y) (less : y ≤ q) (within : q ≤ Y)
    (depth : Y - q + y ≤ Z) : y * Y ≤ q * (Z + y) := by
  have first : 0 ≤ (q - y) * (Y - q) := mul_nonneg (by linarith) (by linarith)
  have second : 0 ≤ q * y := mul_nonneg (by linarith) kept
  have third : q * (Y - q + y) ≤ q * Z := mul_le_mul_of_nonneg_left depth (by linarith)
  nlinarith

/-- The depths a close finds: that of the collateral has grown by the collateral and the
    liabilities, that of the custody has lost no more than the custody. -/
theorem close_depths {m : MsgOpen} {t : OpenTerms} (one : OneFurySide m.collateralAsset m.borrowAsset)
    {f g : Frame β} (mtp : f.mtp.custodyAsset = m.borrowAsset ∧ f.mtp.custodyAmount = t.custody)
    (pool : f.pool = t.poolAfter m) (inBalance : t.custody ≤ t.pool.amount (sideOf m.borrowAsset) .balance)
    (drift : Drift env f 0 g) :
    g.released.pool.depth (sideOf m.collateralAsset) =
        t.pool.depth (sideOf m.collateralAsset) + (m.collateralAmount + t.liabilities) ∧
      t.pool.depth (sideOf m.borrowAsset) + g.mtp.custodyAmount ≤
        g.released.pool.depth (sideOf m.borrowAsset) + t.custody := by
  obtain ⟨asset, amount⟩ := mtp
  have sides := sides_differ one
  have differ : sideOf m.borrowAsset ≠ sideOf m.collateralAsset := by
    rw [sides]
    cases sideOf m.collateralAsset <;> decide
  have back : (sideOf m.borrowAsset).other = sideOf m.collateralAsset := by
    rw [sides]
    cases sideOf m.collateralAsset <;> rfl
  have balance := drift.balance
  have other := drift.other
  have liabilities := drift.liabilities
  rw [asset, pool] at balance
  rw [asset, back, pool] at other
  rw [pool] at liabilities
  have custodySide : sideOf g.mtp.custodyAsset = sideOf m.borrowAsset := by
    rw [drift.custodyAsset, asset]
  simp only [OpenTerms.poolAfter, OpenTerms.borrowedPool, Pool.takenIn, Pool.borrowed, amount_set,
    amount_withHealth, reduceCtorEq, and_false, and_true, ↓reduceIte, differ, differ.symm]
    at balance other liabilities
  simp only [Pool.depth, Frame.released, Frame.stored, Pool.released, custodySide, amount_set,
    reduceCtorEq, and_false, and_true, ↓reduceIte, differ, differ.symm, other, liabilities]
  constructor
  · omega
  · omega

theorem repay_le {m : MsgOpen} {w : World β} {t : OpenTerms} {b : β} (opened : Opened env m w t b)
    (one : OneFurySide m.collateralAsset m.borrowAsset) (f g : Frame β) (repayAmount : ℕ)
    (mtp : f.mtp.custodyAsset = m.borrowAsset ∧ f.mtp.custodyAmount = t.custody)
    (pool : f.pool = t.poolAfter m) (params : f.world.clp = w.clp) (drift : Drift env f 0 g)
    (sold : clpSwap g.world g.mtp.custodyAmount m.collateralAsset g.released.pool = .ok repayAmount) :
    repayAmount ≤ m.collateralAmount + t.liabilities := by
  have sides := sides_differ one
  have back : (sideOf m.borrowAsset).other = sideOf m.collateralAsset := by
    rw [sides]
    cases sideOf m.collateralAsset <;> rfl
  have there := clpSwap_priced opened.swapped
  have again := clpSwap_priced sold
  have inBalance := (clpSwap_bounds opened.swapped).2
  have less : g.mtp.custodyAmount ≤ t.custody := mtp.2 ▸ drift.custody
  obtain ⟨grown, depth⟩ := close_depths one mtp pool inBalance.le drift
  have quotedThere := there.quoted
  have quotedBack := again.quoted
  have depthX := there.sold
  rw [back] at quotedThere depthX
  rw [← sides, grown, drift.params.1, params] at quotedBack
  obtain ⟨positive, inverse⟩ := priceFactor_inverse there.factor
  rw [back] at positive inverse
  have share := share_shrinks (t.pool.depth (sideOf m.borrowAsset)) t.custody g.mtp.custodyAmount
    (g.released.pool.depth (sideOf m.borrowAsset)) (by positivity) (by exact_mod_cast less)
    (by exact_mod_cast inBalance.le.trans (Nat.le_add_right _ _)) ?_
  · have sent := again.sent
    have lev := leveraged_le opened
    push_cast at quotedBack
    exact_mod_cast round_trip_loses inverse positive (by exact_mod_cast depthX) (by positivity)
      (by exact_mod_cast lev) (by exact_mod_cast there.bought) (by positivity) quotedThere quotedBack share
  · have cast : (t.pool.depth (sideOf m.borrowAsset) : ℚ) + g.mtp.custodyAmount ≤
        g.released.pool.depth (sideOf m.borrowAsset) + t.custody := by exact_mod_cast depth
    linarith

section Coins
variable {b b' : β}

theorem payout_account {address denom : String} {n : ℕ} {takeFund : Bool}
    (payout : Payout env address denom n takeFund b b') {a : AccAddress}
    (outside : a ≠ moduleAddress env) (d : String) :
    env.bank.getBalance b' a d ≤ env.bank.getBalance b a d + n := by
  obtain ⟨fund, owner, take, mid, within, _, first, second, _⟩ := payout
  have part := paid_account first outside d
  have rest := paid_account second outside d
  split at part <;> split at rest <;> omega

theorem received_account {sender : AccAddress} {denom : String} {n : ℕ}
    (received : Received env b b' sender denom n) (outside : sender ≠ moduleAddress env) :
    env.bank.getBalance b' sender denom + n = env.bank.getBalance b sender denom := by
  have moved := received sender denom
  simp only [outside, ↓reduceIte, Nat.add_zero] at moved
  exact moved

end Coins

/-- Opening a position with one fury side takes the collateral from its owner, and closing the
    position at once returns at most that. -/
theorem open_close_never_profitable (env : Env β) (m : MsgOpen) (w opened closed : World β)
    (dropped dropped' : List Failure) (owner : AccAddress)
    (one : OneFurySide m.collateralAsset m.borrowAsset)
    (decoded : env.accAddressFromBech32 m.signer = some owner)
    (openRun : ((MarginMsg.open' m).action env).run w = (.ok dropped, opened))
    (closeRun : ((MarginMsg.close ⟨m.signer, opened.mtpCount⟩).action env).run opened =
      (.ok dropped', closed)) :
    env.bank.getBalance opened.bank owner m.collateralAsset + m.collateralAmount =
        env.bank.getBalance w.bank owner m.collateralAsset ∧
      env.bank.getBalance closed.bank owner m.collateralAsset ≤
        env.bank.getBalance opened.bank owner m.collateralAsset + m.collateralAmount := by
  obtain ⟨_, ⟨signer, signed, canSign⟩, openRun⟩ := action_succeeds _ _ _ _ openRun
  obtain ⟨_, _, closeRun⟩ := action_succeeds _ _ _ _ closeRun
  obtain rfl : signer = owner := Option.some.inj (signed.symm.trans decoded)
  have outside : signer ≠ moduleAddress env := by
    rintro rfl
    rw [moduleAddress, env.module_cannot_sign] at canSign
    cases canSign
  obtain ⟨t, b, terms, _, rfl⟩ := open_succeeds openRun
  obtain rfl : t.sender = signer := Option.some.inj (terms.decoded.symm.trans decoded)
  refine ⟨received_account terms.coins outside, ?_⟩
  -- the close finds the position and the pool that the open wrote
  obtain ⟨mtp, pool, repayAmount, h, found, inPools, ran, _, rfl⟩ :=
    withPosition_succeeds closeRun
  obtain rfl : mtp = t.mtp m ((w.mtpCount + 1) % 2 ^ 64) :=
    (Option.some.inj ((get_put_same _ _).symm.trans found)).symm
  have poolKey : (t.poolAfter m).key = ⟨externalAssetOf m.collateralAsset m.borrowAsset⟩ :=
    (poolAfter_key t m).trans (get_key _ _ _ terms.found)
  obtain rfl : pool = t.poolAfter m := by
    have stored := get_put_same w.pools (t.poolAfter m)
    rw [poolKey] at stored
    exact (Option.some.inj (stored.symm.trans inPools)).symm
  obtain ⟨_, g, charged, closed⟩ := (bind_succeeds _ _ _ _ _).mp ran
  have drift := (chargeWithinEpoch_drift (by exact terms.numbered)).ok _ _ charged
  obtain ⟨_, b', _, sold, _, payout, rfl⟩ := closePosition_succeeds closed
  rw [drift.collateralAsset] at sold
  have bound := repay_le terms one _ g repayAmount ⟨rfl, rfl⟩ rfl rfl drift sold
  have gained := payout_account payout outside m.collateralAsset
  have debt : g.mtp.liabilities = t.liabilities := drift.debt
  have distinct : m.collateralAsset ≠ m.borrowAsset := by
    rintro same
    rw [same] at one
    rcases one with ⟨fury, other⟩ | ⟨other, fury⟩ <;> exact other fury
  have coins := drift.coins t.sender m.collateralAsset distinct
  dsimp only [repaidFrame, Frame.released, Frame.stored, World.opened] at gained coins ⊢
  omega

def midEpoch : World LedgerBank.Balances :=
  { LedgerBank.pooled with
    height := 3
    margin := { LedgerBank.marginParams with epochLength := 10 }
    pools := ⟨[{ LedgerBank.cethPool with interestRate := ⟨10 ^ 16⟩ }], by simp⟩ }

def bobOpens : MsgOpen := ⟨"bob", "fury", 10 ^ 16, "ceth", .long, ⟨2 * 10 ^ 18⟩⟩

def bobOpened : World LedgerBank.Balances :=
  (((MarginMsg.open' bobOpens).action LedgerBank.env).run midEpoch).2

def bobClosed : World LedgerBank.Balances :=
  (((MarginMsg.close ⟨bobOpens.signer, bobOpened.mtpCount⟩).action LedgerBank.env).run bobOpened).2

theorem bob_opens_and_closes :
    bobOpened.bank ⟨[2]⟩ "fury" + 10 ^ 16 = midEpoch.bank ⟨[2]⟩ "fury" ∧
      bobClosed.bank ⟨[2]⟩ "fury" ≤ bobOpened.bank ⟨[2]⟩ "fury" + 10 ^ 16 :=
  open_close_never_profitable LedgerBank.env bobOpens midEpoch bobOpened bobClosed [] [] ⟨[2]⟩
    (by decide) (by decide) (Prod.ext (by decide +kernel) rfl) (Prod.ext (by decide +kernel) rfl)

end FuryNode
