import FuryNode.Margin.Atomicity
import FuryNode.Margin.Drift

/-!
Closing a position after an interest payment. A position is closed by selling all its
custody, and a swap that gives nothing is an error; a payment may take the last of the
custody, and then no close succeeds any more.
-/
namespace FuryNode
open StatefulProgram StatefulProgram.Prog KeyedTable KeyedTable.Table ClpKeeper MarginKeeper
variable {β : Type} {env : Env β} {f g : Frame β} {takeFund : Bool} {repayAmount : ℕ}

def MTP.owed (m : MTP) : ℕ := m.liabilities + m.interestUnpaidCollateral

/-- What a repayment needs, where the position is stored and the pool knows its liabilities. -/
structure Settles (env : Env β) (takeFund : Bool) (f : Frame β) (repayAmount : ℕ) : Prop where
  health : ∃ h, updateMTPHealth f.world f.mtp f.pool = .ok h
  owed : f.mtp.owed < 2 ^ 256
  unsettled : f.pool.amount (sideOf f.mtp.collateralAsset) .unsettled + (f.mtp.owed - repayAmount) <
    2 ^ 256
  payout : ∃ w, (payReturn env f.mtp (repayAmount - f.mtp.owed) takeFund).run f.world = (.ok (), w)

theorem assignHealth_succeeds {u : Unit} :
    assignHealth.run f = (.ok u, g) ↔ ∃ h, updateMTPHealth f.world f.mtp f.pool = .ok h ∧
      g = { f with mtp := { f.mtp with mtpHealth := h } } := by
  unfold assignHealth
  rw [read_then]
  cases computed : updateMTPHealth f.world f.mtp f.pool with
  | ok h => simp [setMtp, Prog.modify, eq_comm]
  | error e => cases e <;> simp [setMtp, Prog.modify, bind, Prog.fail]

theorem settleDebt_total (repayAmount : ℕ) {liabilities unpaid : ℕ} (owed : liabilities + unpaid < 2 ^ 256) :
    ∃ debtP debtI, settleDebt repayAmount liabilities unpaid =
      .ok (repayAmount - (liabilities + unpaid), debtP, debtI) := by
  have added : Uint.add liabilities unpaid = .ok (liabilities + unpaid) :=
    (Uint.add_succeeds _ _ _).mpr ⟨owed, rfl⟩
  have taken : ∀ a b, b ≤ a → Uint.sub a b = .ok (a - b) :=
    fun a b enough => (Uint.sub_succeeds _ _ _).mpr ⟨enough, rfl⟩
  simp only [settleDebt, except_bind_succeeds]
  by_cases principal : repayAmount < liabilities
  · have none : repayAmount - (liabilities + unpaid) = 0 := by omega
    refine ⟨liabilities - repayAmount, unpaid, _, added, ?_⟩
    rw [if_pos principal, taken _ _ principal.le, none]
    rfl
  · by_cases interest : repayAmount < liabilities + unpaid
    · have none : repayAmount - (liabilities + unpaid) = 0 := by omega
      refine ⟨0, liabilities + unpaid - repayAmount, _, added, ?_⟩
      rw [if_neg principal, if_pos interest, taken _ _ interest.le, none]
      rfl
    · refine ⟨0, 0, _, added, ?_⟩
      rw [if_neg principal, if_neg interest, taken repayAmount liabilities (by omega)]
      show (Uint.sub (repayAmount - liabilities) unpaid >>= _) = _
      rw [taken (repayAmount - liabilities) unpaid (by omega), Nat.sub_sub]
      rfl

theorem repay_settles (valid : assetValidate env f.pool.externalAsset = .ok true)
    (repayable : Repayable f repayAmount) :
    (∃ g, (repay env repayAmount takeFund).run f = (.ok (), g)) ↔
      Settles env takeFund f repayAmount := by
  constructor
  · rintro ⟨g, run⟩
    unfold repay at run
    obtain ⟨_, h, assigned, run⟩ := bind_ok run
    obtain ⟨health, computed, rfl⟩ := assignHealth_succeeds.mp assigned
    rw [read_then] at run
    obtain ⟨⟨returnAmount, debtP, debtI⟩, settled, run⟩ := ofExcept_then.mp run
    obtain ⟨returned, debt⟩ := settleDebt_succeeds settled
    obtain ⟨_, added, _⟩ := except_bind_succeeds.mp settled
    obtain ⟨_, w, paid, run⟩ := onWorld_then.mp run
    simp only [subField_then, ofExcept_then, Uint.add_succeeds] at run
    obtain ⟨_, _, _, ⟨_, rfl⟩, _, ⟨small, rfl⟩, _⟩ := run
    dsimp only at returned debt small
    refine ⟨⟨health, computed⟩, ((Uint.add_succeeds _ _ _).mp added).1, ?_, w, ?_⟩
    · unfold MTP.owed
      omega
    · rw [MTP.owed, ← returned]
      exact paid
  · rintro ⟨⟨health, computed⟩, owed, unsettled, w, paid⟩
    obtain ⟨debtP, debtI, settled⟩ := settleDebt_total repayAmount owed
    have debt := (settleDebt_succeeds settled).2
    obtain ⟨b, rfl⟩ := (payReturn_onlyBank env).ok _ _ paid
    obtain ⟨m, found⟩ := repayable.stored
    have present : (getMTP f.mtp.address f.mtp.id).run { f.world with bank := b } =
        (.ok m, { f.world with bank := b }) := by
      unfold getMTP
      rw [read_then]
      simp only [show f.world.mtps.get ⟨f.mtp.address, f.mtp.id⟩ = some m from found]
      rfl
    unfold MTP.owed at unsettled
    have sum : ∀ n, n + debtI + debtP = n +
        (f.mtp.liabilities + f.mtp.interestUnpaidCollateral - repayAmount) := by omega
    refine ⟨repaidFrame f repayAmount health b, (bind_succeeds _ _ _ _ _).mpr ⟨(), _,
      assignHealth_succeeds.mpr ⟨health, computed, rfl⟩, (read_then _ _ _ _).mpr
      (ofExcept_then.mpr ⟨_, settled, onWorld_then.mpr ⟨(), _, paid, ?_⟩⟩)⟩⟩
    simp only [subField_then, ofExcept_then, Uint.add_succeeds, setField_then, amount_set,
      reduceCtorEq, and_false, ↓reduceIte]
    refine ⟨repayable.returned, repayable.liabilities, _, ⟨by omega, rfl⟩, _, ⟨by omega, rfl⟩, ?_⟩
    refine onWorld_then.mpr ⟨(), _, (bind_succeeds _ _ _ _ _).mpr ⟨m, _, present, rfl⟩, ?_⟩
    refine storePool_succeeds.mpr ⟨by simpa using valid, ?_⟩
    simp only [repaidFrame, Pool.repaid, sum]
    rfl

/-- The custody of the position can be sold and what it brings settles the debt. -/
structure Sellable (env : Env β) (takeFund : Bool) (f : Frame β) (repayAmount : ℕ) : Prop where
  enough : f.mtp.custodyAmount ≤ f.pool.amount (sideOf f.mtp.custodyAsset) .custody
  small : f.pool.amount (sideOf f.mtp.custodyAsset) .balance + f.mtp.custodyAmount < 2 ^ 256
  sold : clpSwap f.world f.mtp.custodyAmount f.mtp.collateralAsset f.released.pool = .ok repayAmount
  settles : Settles env takeFund f.released repayAmount

structure Known (env : Env β) (f : Frame β) : Prop where
  valid : assetValidate env f.pool.externalAsset = .ok true
  liabilities : f.mtp.liabilities ≤ f.pool.amount (sideOf f.mtp.collateralAsset) .liabilities
  stored : (f.world.mtps.get f.mtp.key).isSome

theorem takeOutCustody_releases {u : Unit} :
    (takeOutCustody env).run f = (.ok u, g) ↔
      f.mtp.custodyAmount ≤ f.pool.amount (sideOf f.mtp.custodyAsset) .custody ∧
      f.pool.amount (sideOf f.mtp.custodyAsset) .balance + f.mtp.custodyAmount < 2 ^ 256 ∧
      assetValidate env f.pool.externalAsset = .ok true ∧ g = f.released := by
  simp only [takeOutCustody, read_then, subField_then, addField_then, storePool_succeeds, amount_set,
    reduceCtorEq, and_false, ↓reduceIte, set_asset]
  rfl

theorem released_repayable (known : Known env f)
    (sold : clpSwap f.world f.mtp.custodyAmount f.mtp.collateralAsset f.released.pool = .ok repayAmount) :
    Repayable f.released repayAmount := by
  have below := (clpSwap_bounds sold).2
  obtain ⟨m, found⟩ := Option.isSome_iff_exists.mp known.stored
  refine ⟨(Nat.sub_le _ _).trans below.le, ?_, m, found⟩
  have liabilities := known.liabilities
  simpa [Frame.released, Frame.stored, Pool.released, amount_set] using liabilities

theorem closePosition_sellable (known : Known env f) :
    (∃ g, (closePosition env takeFund).run f = (.ok repayAmount, g)) ↔
      Sellable env takeFund f repayAmount := by
  have valid : assetValidate env f.released.pool.externalAsset = .ok true := by
    simpa [Frame.released, Frame.stored, Pool.released] using known.valid
  constructor
  · rintro ⟨g, run⟩
    unfold closePosition at run
    obtain ⟨_, h, taken, run⟩ := bind_ok run
    obtain ⟨enough, small, _, rfl⟩ := takeOutCustody_releases.mp taken
    rw [read_then] at run
    obtain ⟨r, sold, run⟩ := ofExcept_then.mp run
    obtain ⟨_, h, repaid, done⟩ := bind_ok run
    obtain ⟨rfl, rfl⟩ := pure_succeeds.mp done
    exact ⟨enough, small, sold, (repay_settles valid (released_repayable known sold)).mp ⟨_, repaid⟩⟩
  · rintro ⟨enough, small, sold, settles⟩
    obtain ⟨g, repaid⟩ := (repay_settles valid (released_repayable known sold)).mpr settles
    refine ⟨g, (bind_succeeds _ _ _ _ _).mpr ⟨(), f.released,
      takeOutCustody_releases.mpr ⟨enough, small, known.valid, rfl⟩, ?_⟩⟩
    refine (read_then _ _ _ _).mpr (ofExcept_then.mpr ⟨repayAmount, sold, ?_⟩)
    exact (bind_succeeds _ _ _ _ _).mpr ⟨(), g, repaid, rfl⟩

theorem closePosition_known (run : (closePosition env takeFund).run f = (.ok repayAmount, g)) :
    Known env f := by
  obtain ⟨_, _, _, _, repayable, _, _⟩ := closePosition_succeeds run
  obtain ⟨_, h, taken, _⟩ := bind_ok run
  obtain ⟨_, _, valid, _⟩ := takeOutCustody_releases.mp taken
  obtain ⟨m, found⟩ := repayable.stored
  have liabilities := repayable.liabilities
  refine ⟨valid, ?_, Option.isSome_iff_exists.mpr ⟨m, found⟩⟩
  simpa [Frame.released, Frame.stored, Pool.released, amount_set] using liabilities

theorem drift_known (drift : Drift env f 0 g) (stored : (f.world.mtps.get f.mtp.key).isSome) :
    Known env f ↔ Known env g := by
  constructor
  · intro known
    refine ⟨drift.asset ▸ known.valid, ?_, drift.key ▸ drift.stored stored⟩
    rw [drift.debt, drift.collateralAsset, drift.liabilities]
    exact known.liabilities
  · intro known
    refine ⟨drift.asset ▸ known.valid, ?_, stored⟩
    rw [← drift.debt, ← drift.collateralAsset, ← drift.liabilities]
    exact known.liabilities

theorem forceCloseLong_admin {env : Env β} {takeFund : Bool} {f g : Frame β} {repayAmount : ℕ} :
    (forceCloseLong env true takeFund).run f = (.ok repayAmount, g) ↔
      ∃ h, (chargeWithinEpoch env).run f = (.ok (), h) ∧
        (closePosition env takeFund).run h = (.ok repayAmount, g) := by
  simp only [forceCloseLong, bind_succeeds (chargeWithinEpoch env), read_then, require_then, true_or,
    true_and]
  constructor
  · rintro ⟨_, h, charged, closed⟩
    exact ⟨h, charged, closed⟩
  · rintro ⟨h, charged, closed⟩
    exact ⟨(), h, charged, closed⟩

/-- An administrator's force close succeeds and removes the position and its liabilities. -/
def Closes (env : Env β) (takeFund : Bool) (g : Frame β) : Prop :=
  ∃ repayAmount h, (forceCloseLong env true takeFund).run g = (.ok repayAmount, h) ∧
    h.world.mtps.get g.mtp.key = none ∧
    h.pool.amount (sideOf g.mtp.collateralAsset) .liabilities + g.mtp.liabilities =
      g.pool.amount (sideOf g.mtp.collateralAsset) .liabilities

theorem closePosition_removes (run : (closePosition env takeFund).run f = (.ok repayAmount, g)) :
    g.world.mtps.get f.mtp.key = none ∧
      g.pool.amount (sideOf f.mtp.collateralAsset) .liabilities + f.mtp.liabilities =
        f.pool.amount (sideOf f.mtp.collateralAsset) .liabilities := by
  have within := (closePosition_known run).liabilities
  obtain ⟨health, b, _, _, _, _, rfl⟩ := closePosition_succeeds run
  constructor
  · simp [repaidFrame, Frame.released, Frame.stored, get_delete]
  · simp only [repaidFrame, Frame.released, Frame.stored, Pool.repaid, Pool.released, amount_set,
      reduceCtorEq, and_false, and_self, ↓reduceIte]
    omega

def thinPosition : Frame LedgerBank.Balances := bobFrame LedgerBank.pooled.bank (10 ^ 10)

def thinPaid (interestPayment : ℕ) : Frame LedgerBank.Balances :=
  ((incrementalInterestPayment LedgerBank.env interestPayment).run thinPosition).2

end FuryNode
