import FuryNode.Margin.Effects
import FuryNode.Sdk.LedgerBank

/-!
Failing steps of margin. The interest payment and the force close of a block write to the
position and the pool before they are done, and whoever calls them drops their failure.
For each of the two the states in which a failure leaves no trace are given exactly.
-/
namespace FuryNode
open StatefulProgram StatefulProgram.Prog KeyedTable KeyedTable.Table ClpKeeper MarginKeeper
variable {β : Type}

/-- The position and the pool, in memory and stored, and the coins of the module are as before. -/
structure Untouched (env : Env β) (f g : Frame β) : Prop where
  mtp : g.mtp = f.mtp
  pool : g.pool = f.pool
  storedMtp : g.world.mtps.get f.mtp.key = f.world.mtps.get f.mtp.key
  storedPool : g.world.pools.get f.pool.key = f.world.pools.get f.pool.key
  coins : ∀ d, env.bank.getBalance g.world.bank (moduleAddress env) d =
    env.bank.getBalance f.world.bank (moduleAddress env) d

theorem untouched_refl (env : Env β) (f : Frame β) : Untouched env f f :=
  ⟨rfl, rfl, rfl, rfl, fun _ => rfl⟩

/-- A failing payment leaves no trace: it cannot be priced; or the custody, which does not cover
    it, cannot be priced and nothing was unpaid; or the total of paid collateral overflows and
    the unpaid interest stays what it was. -/
def PaymentAtomic (f : Frame β) (interestPayment : ℕ) : Prop :=
  match (if 0 < f.mtp.interestUnpaidCollateral then
      Uint.add interestPayment f.mtp.interestUnpaidCollateral else .ok interestPayment) with
  | .error _ => True
  | .ok payment =>
    match clpSwap f.world payment f.mtp.custodyAsset f.pool with
    | .error _ => True
    | .ok custody =>
      if custody ≤ f.mtp.custodyAmount then
        2 ^ 256 ≤ f.mtp.interestPaidCollateral + payment ∧ f.mtp.interestUnpaidCollateral = 0
      else match clpSwap f.world f.mtp.custodyAmount f.mtp.collateralAsset f.pool with
        | .error _ => f.mtp.interestUnpaidCollateral = 0
        | .ok worth =>
          if worth ≤ payment then 2 ^ 256 ≤ f.mtp.interestPaidCollateral + worth ∧
            f.mtp.interestUnpaidCollateral = payment - worth
          else f.mtp.interestUnpaidCollateral = 0

/-- A failing force close leaves no trace: the pool has less custody than the position; or the
    position has none, and the pool is stored as it is in memory or cannot be stored. -/
def CloseAtomic (env : Env β) (f : Frame β) : Prop :=
  f.pool.amount (sideOf f.mtp.custodyAsset) .custody < f.mtp.custodyAmount ∨
    (f.mtp.custodyAmount = 0 ∧
      (2 ^ 256 ≤ f.pool.amount (sideOf f.mtp.custodyAsset) .balance ∨
        assetValidate env f.pool.externalAsset ≠ .ok true ∨
        f.world.pools.get f.pool.key = some f.pool))

section Payment
variable {env : Env β} {f : Frame β}

theorem clpSwap_sent {w : World β} {n : ℕ} {toAsset : String} {pool : Pool} {result : ℕ}
    (swapped : clpSwap w n toAsset pool = .ok result) : n ≠ 0 := by
  rintro rfl
  simp only [clpSwap, clpCalcSwap, except_bind_succeeds, check_succeeds, except_pure_succeeds]
    at swapped
  obtain ⟨r, ⟨depths, _, ⟨amount, fee⟩, priced, _, _, rfl⟩, _, nonzero, rfl⟩ := swapped
  simp only [calcSwapResult, true_or, or_true, ↓reduceIte, Except.ok.injEq, Prod.mk.injEq] at priced
  exact nonzero priced.1.symm

theorem coverPayment_collateral {payment custody : ℕ} {split : PaymentSplit} (some : payment ≠ 0)
    (covered : coverPayment f payment custody = .ok split) : 0 < split.collateral := by
  rcases coverPayment_succeeds covered with ⟨_, _, swapped, _⟩ | ⟨_, rfl⟩
  · exact (clpSwap_bounds swapped).1
  · exact Nat.pos_of_ne_zero some

/-- The collateral that counts as paid and the interest that counts as unpaid. -/
def Counted (paid unpaid : ℕ) (g : Frame β) : Prop :=
  g.mtp.interestPaidCollateral = paid ∧ g.mtp.interestUnpaidCollateral = unpaid

theorem setMTP_counted {paid unpaid : ℕ} (counted : Counted paid unpaid f) :
    Meets setMTP f (fun _ => Counted paid unpaid) (fun _ => Counted paid unpaid) := by
  unfold setMTP
  refine meets_read_then (meets_bind (P := fun _ => Counted paid unpaid)
    (meets_when (fun _ => meets_modify counted) (fun _ => counted)) (fun _ g counted => ?_))
  refine meets_read_then (meets_ofExcept_then (fun _ _ => ?_) (fun _ _ => counted))
  exact meets_modify counted

theorem payFromCustody_counted {split : PaymentSplit} :
    Meets (payFromCustody env split) f
      (fun _ => Counted (f.mtp.interestPaidCollateral + split.collateral) f.mtp.interestUnpaidCollateral)
      (fun e g => (e = .panic .overflow ∧
          2 ^ 256 ≤ f.mtp.interestPaidCollateral + split.collateral ∧ g = f) ∨
        (f.mtp.interestPaidCollateral + split.collateral < 2 ^ 256 ∧
          Counted (f.mtp.interestPaidCollateral + split.collateral) f.mtp.interestUnpaidCollateral g)) := by
  generalize total : f.mtp.interestPaidCollateral + split.collateral = paid
  unfold payFromCustody
  refine meets_read_then (meets_ofExcept_then ?_ ?_)
  · intro paidCollateral added
    obtain ⟨small, rfl⟩ := (Uint.add_succeeds _ _ _).mp added
    refine meets_mono (P := fun _ => Counted paid f.mtp.interestUnpaidCollateral)
      (E := fun _ => Counted paid f.mtp.interestUnpaidCollateral) _ ?_
      (fun _ _ counted => counted) (fun _ _ counted => Or.inr ⟨total ▸ small, counted⟩)
    rw [total]
    refine meets_modify_then (meets_ofExcept_then (fun _ _ => ?_) (fun _ _ => ⟨rfl, rfl⟩))
    refine meets_modify_then (meets_ofExcept_then (fun _ _ => ?_) (fun _ _ => ⟨rfl, rfl⟩))
    refine meets_modify_then (meets_ofExcept_then (fun _ _ => ?_) (fun _ _ => ⟨rfl, rfl⟩))
    refine meets_bind (P := fun _ => Counted paid f.mtp.interestUnpaidCollateral)
      (meets_onWorld ⟨fun _ _ _ => ⟨rfl, rfl⟩, fun _ _ _ => ⟨rfl, rfl⟩⟩) (fun _ g counted => ?_)
    refine meets_ofExcept_then (fun _ _ => ?_) (fun _ _ => counted)
    refine meets_bind (P := fun _ => Counted paid f.mtp.interestUnpaidCollateral)
      (meets_subField (fun _ => counted) (fun _ => counted)) (fun _ h counted => ?_)
    refine meets_bind (P := fun _ => Counted paid f.mtp.interestUnpaidCollateral)
      (meets_addField (fun _ => counted) (fun _ => counted)) (fun _ i counted => ?_)
    refine meets_bind (setMTP_counted counted) (fun _ j counted => ?_)
    exact meets_bind (P := fun _ => Counted paid f.mtp.interestUnpaidCollateral)
      (meets_read_then (meets_onWorld ⟨fun _ _ _ => counted, fun _ _ _ => counted⟩))
      (fun _ _ counted => meets_pure counted)
  · intro e failed
    obtain ⟨rfl, large⟩ := Uint.add_overflows _ _ e failed
    exact Or.inl ⟨rfl, total ▸ large, rfl⟩

theorem untouched_unpaid {n : ℕ} :
    Untouched env f { f with mtp := { f.mtp with interestUnpaidCollateral := n } } ↔
      n = f.mtp.interestUnpaidCollateral := by
  constructor
  · intro untouched
    exact congrArg MTP.interestUnpaidCollateral untouched.mtp
  · rintro rfl
    exact untouched_refl env f

theorem paymentAtomic_unpriced (interestPayment payment : ℕ) (e : Failure)
    (added : (if 0 < f.mtp.interestUnpaidCollateral then
      Uint.add interestPayment f.mtp.interestUnpaidCollateral else .ok interestPayment) = .ok payment)
    (failed : clpSwap f.world payment f.mtp.custodyAsset f.pool = .error e) :
    PaymentAtomic f interestPayment := by
  simp only [PaymentAtomic, added, failed]

theorem paymentAtomic_priced {interestPayment payment custody : ℕ}
    (added : (if 0 < f.mtp.interestUnpaidCollateral then
      Uint.add interestPayment f.mtp.interestUnpaidCollateral else .ok interestPayment) = .ok payment)
    (swapped : clpSwap f.world payment f.mtp.custodyAsset f.pool = .ok custody) :
    PaymentAtomic f interestPayment ↔
      match coverPayment f payment custody with
      | .error _ => f.mtp.interestUnpaidCollateral = 0
      | .ok split => 2 ^ 256 ≤ f.mtp.interestPaidCollateral + split.collateral ∧
          f.mtp.interestUnpaidCollateral = split.unpaid := by
  simp only [PaymentAtomic, added, swapped, coverPayment]
  by_cases covers : custody ≤ f.mtp.custodyAmount
  · rw [if_pos covers, if_neg (by omega)]
    rfl
  · rw [if_neg covers, if_pos (by omega)]
    cases priced : clpSwap f.world f.mtp.custodyAmount f.mtp.collateralAsset f.pool with
    | error e => rfl
    | ok worth =>
      simp only [bind, Except.bind, Uint.sub]
      split <;> rfl

/-- A failing payment leaves no trace exactly in the states of `PaymentAtomic`. -/
theorem incrementalInterestPayment_atomic (interestPayment : ℕ) :
    Meets (incrementalInterestPayment env interestPayment) f (fun _ _ => True)
      (fun _ g => Untouched env f g ↔ PaymentAtomic f interestPayment) := by
  have atOnce : PaymentAtomic f interestPayment →
      (Untouched env f f ↔ PaymentAtomic f interestPayment) :=
    fun holds => iff_of_true (untouched_refl env f) holds
  unfold incrementalInterestPayment
  refine meets_read_then (meets_ofExcept_then ?_ ?_)
  · intro payment added
    refine meets_ofExcept_then ?_ ?_
    · intro custody swapped
      have condition := paymentAtomic_priced added swapped
      refine meets_modify_then (meets_ofExcept_then ?_ ?_)
      · intro split covered
        have some := coverPayment_collateral (clpSwap_sent swapped) covered
        refine meets_modify_then (meets_mono _ payFromCustody_counted (fun _ _ _ => trivial) ?_)
        rintro e g (⟨_, large, rfl⟩ | ⟨small, counted, _⟩)
        · have overflow : 2 ^ 256 ≤ f.mtp.interestPaidCollateral + split.collateral := large
          simp only [covered, overflow, true_and] at condition
          exact untouched_unpaid.trans (eq_comm.trans condition.symm)
        · have traced : ¬Untouched env f g := by
            intro untouched
            rw [untouched.mtp] at counted
            dsimp only at counted
            omega
          have inRange : ¬2 ^ 256 ≤ f.mtp.interestPaidCollateral + split.collateral := by
            dsimp only at small
            omega
          simp only [covered, inRange, false_and] at condition
          exact iff_of_false traced condition.mp
      · intro e failed
        simp only [failed] at condition
        exact untouched_unpaid.trans (eq_comm.trans condition.symm)
    · intro e failed
      exact atOnce (paymentAtomic_unpriced interestPayment payment e added failed)
  · intro e failed
    exact atOnce (by simp only [PaymentAtomic, failed])

end Payment

section ForceClose
variable {env : Env β} {f : Frame β}

theorem set_amount_self (p : Pool) (s : Side) (field : PoolField) :
    p.setAmount s field (p.amount s field) = p := by
  cases s <;> cases field <;> rfl

theorem released_nothing (p : Pool) (s : Side) : p.released s 0 0 = p := by
  simp [Pool.released, set_amount_self]

theorem setPool_refused {p : Pool} {w : World β} :
    Meets (setPool env p) w
      (fun _ t => assetValidate env p.externalAsset = .ok true ∧ t = { w with pools := w.pools.put p })
      (fun _ t => assetValidate env p.externalAsset ≠ .ok true ∧ t = w) := by
  unfold setPool
  refine meets_ofExcept_then (fun valid validated => ?_) (fun e failed => ⟨by simp [failed], rfl⟩)
  refine meets_require_then (fun accepted => ?_) (fun refused => ⟨?_, rfl⟩)
  · exact meets_modify ⟨accepted ▸ validated, rfl⟩
  · intro same
    exact refused (Except.ok.inj (validated.symm.trans same))

theorem repay_custody (repayAmount : ℕ) (takeFund : Bool) (s : Side) :
    Meets (repay env repayAmount takeFund) f (fun _ _ => True)
      (fun _ g => g.pool.amount s .custody = f.pool.amount s .custody) := by
  unfold repay
  refine meets_bind (P := fun _ g => g.pool = f.pool) (meets_mono _ (assignHealth_only f) ?_ ?_) ?_
  · rintro _ g ⟨_, rfl⟩
    rfl
  · rintro _ g ⟨_, rfl⟩
    rfl
  · intro _ g same
    have kept : g.pool.amount s .custody = f.pool.amount s .custody := by rw [same]
    refine meets_read_then (meets_ofExcept_then (fun settled _ => ?_) (fun _ _ => kept))
    refine meets_bind (P := fun _ h => h.pool.amount s .custody = f.pool.amount s .custody)
      (meets_onWorld ⟨fun _ _ _ => kept, fun _ _ _ => kept⟩) (fun _ h kept => ?_)
    refine meets_bind (P := fun _ h => h.pool.amount s .custody = f.pool.amount s .custody)
      (meets_subField (fun _ => ?_) (fun _ => kept)) (fun _ i kept => ?_)
    · simpa [amount_set] using kept
    refine meets_bind (P := fun _ h => h.pool.amount s .custody = f.pool.amount s .custody)
      (meets_subField (fun _ => ?_) (fun _ => kept)) (fun _ j kept => ?_)
    · simpa [amount_set] using kept
    refine meets_ofExcept_then (fun _ _ => ?_) (fun _ _ => kept)
    refine meets_ofExcept_then (fun _ _ => ?_) (fun _ _ => kept)
    refine meets_bind (P := fun _ h => h.pool.amount s .custody = f.pool.amount s .custody)
      (meets_modify ?_) (fun _ k kept => ?_)
    · simpa [amount_set] using kept
    refine meets_bind (P := fun _ h => h.pool.amount s .custody = f.pool.amount s .custody)
      (meets_onWorld ⟨fun _ _ _ => kept, fun _ _ _ => kept⟩) (fun _ l kept => ?_)
    exact meets_read_then (meets_onWorld ⟨fun _ _ _ => trivial, fun _ _ _ => kept⟩)

theorem custody_traced {g : Frame β} (some : f.mtp.custodyAmount ≠ 0)
    (enough : f.mtp.custodyAmount ≤ f.pool.amount (sideOf f.mtp.custodyAsset) .custody)
    (left : g.pool.amount (sideOf f.mtp.custodyAsset) .custody =
      f.pool.amount (sideOf f.mtp.custodyAsset) .custody - f.mtp.custodyAmount) :
    Untouched env f g ↔ CloseAtomic env f := by
  refine iff_of_false ?_ ?_
  · intro untouched
    rw [untouched.pool] at left
    omega
  · rintro (short | ⟨none, _⟩)
    · omega
    · exact some none

/-- Once the custody is released, a failure is traced unless there was none to release. -/
theorem released_atomic (takeFund : Bool)
    (enough : f.mtp.custodyAmount ≤ f.pool.amount (sideOf f.mtp.custodyAsset) .custody)
    (small : f.pool.amount (sideOf f.mtp.custodyAsset) .balance + f.mtp.custodyAmount < 2 ^ 256)
    (valid : assetValidate env f.pool.externalAsset = .ok true) :
    Meets (do
      let g ← read
      let repayAmount ← ofExcept (clpSwap g.world g.mtp.custodyAmount g.mtp.collateralAsset g.pool)
      repay env repayAmount takeFund
      pure repayAmount : Step β ℕ) f.released (fun _ _ => True)
      (fun _ g => Untouched env f g ↔ CloseAtomic env f) := by
  have custody : f.released.pool.amount (sideOf f.mtp.custodyAsset) .custody =
      f.pool.amount (sideOf f.mtp.custodyAsset) .custody - f.mtp.custodyAmount := by
    simp [Frame.released, Frame.stored, Pool.released, amount_set]
  refine meets_read_then (meets_ofExcept_then ?_ ?_)
  · intro repayAmount swapped
    have some : f.mtp.custodyAmount ≠ 0 := clpSwap_sent swapped
    refine meets_bind (P := fun _ _ => True) (meets_mono _ (repay_custody repayAmount takeFund
      (sideOf f.mtp.custodyAsset)) (fun _ _ done => done) ?_) (fun _ _ _ => meets_pure trivial)
    intro _ g kept
    exact custody_traced some enough (kept.trans custody)
  · intro e failed
    by_cases none : f.mtp.custodyAmount = 0
    · have same : f.released = { f with world := { f.world with pools := f.world.pools.put f.pool } } := by
        simp only [Frame.released, Frame.stored, none, released_nothing]
      rw [same]
      constructor
      · intro untouched
        have stored := untouched.storedPool
        rw [get_put_same] at stored
        exact Or.inr ⟨none, Or.inr (Or.inr stored.symm)⟩
      · rintro (short | ⟨_, large | invalid | stored⟩)
        · omega
        · omega
        · exact absurd valid invalid
        · exact ⟨rfl, rfl, rfl, (get_put_same _ _).trans stored.symm, fun _ => rfl⟩
    · exact custody_traced none enough custody

theorem releasing_atomic {p : Pool}
    (enough : f.mtp.custodyAmount ≤ f.pool.amount (sideOf f.mtp.custodyAsset) .custody)
    (left : p.amount (sideOf f.mtp.custodyAsset) .custody =
      f.pool.amount (sideOf f.mtp.custodyAsset) .custody - f.mtp.custodyAmount)
    (same : f.mtp.custodyAmount = 0 → p = f.pool)
    (refused : f.mtp.custodyAmount = 0 →
      2 ^ 256 ≤ f.pool.amount (sideOf f.mtp.custodyAsset) .balance ∨
        assetValidate env f.pool.externalAsset ≠ .ok true) :
    Untouched env f { f with pool := p } ↔ CloseAtomic env f := by
  by_cases none : f.mtp.custodyAmount = 0
  · rw [same none]
    refine iff_of_true (untouched_refl env f) (Or.inr ⟨none, ?_⟩)
    exact (refused none).imp_right Or.inl
  · exact custody_traced none enough left

structure Released (env : Env β) (f g : Frame β) : Prop where
  enough : f.mtp.custodyAmount ≤ f.pool.amount (sideOf f.mtp.custodyAsset) .custody
  small : f.pool.amount (sideOf f.mtp.custodyAsset) .balance + f.mtp.custodyAmount < 2 ^ 256
  valid : assetValidate env f.pool.externalAsset = .ok true
  frame : g = f.released

theorem takeOutCustody_atomic :
    Meets (takeOutCustody env) f (fun _ g => Released env f g)
      (fun _ g => Untouched env f g ↔ CloseAtomic env f) := by
  unfold takeOutCustody
  refine meets_read_then (meets_bind (P := fun _ g =>
    f.mtp.custodyAmount ≤ f.pool.amount (sideOf f.mtp.custodyAsset) .custody ∧
    g = { f with pool := (f.pool.setAmount (sideOf f.mtp.custodyAsset) .custody
      (f.pool.amount (sideOf f.mtp.custodyAsset) .custody - f.mtp.custodyAmount)) })
    (meets_subField (fun enough => ⟨enough, rfl⟩) ?_) ?_)
  · intro short
    exact iff_of_true (untouched_refl env f) (Or.inl short)
  · rintro _ g ⟨enough, rfl⟩
    refine meets_bind (P := fun _ g =>
      f.pool.amount (sideOf f.mtp.custodyAsset) .balance + f.mtp.custodyAmount < 2 ^ 256 ∧
      g = { f with pool := f.released.pool }) (meets_addField ?_ ?_) ?_
    · intro small
      simp only [amount_set, reduceCtorEq, and_false, ↓reduceIte] at small
      exact ⟨small, by simp [Frame.released, Frame.stored, Pool.released, amount_set]⟩
    · intro large
      simp only [amount_set, reduceCtorEq, and_false, ↓reduceIte] at large
      refine releasing_atomic enough (by simp [amount_set]) ?_ (fun none => Or.inl (by omega))
      intro none
      rw [none, Nat.sub_zero, set_amount_self]
    · rintro _ g ⟨small, rfl⟩
      have asset : f.released.pool.externalAsset = f.pool.externalAsset := by
        simp [Frame.released, Frame.stored, Pool.released, set_asset]
      refine meets_read_then (meets_onWorld (meets_mono _ setPool_refused ?_ ?_))
      · rintro _ w ⟨valid, rfl⟩
        exact ⟨enough, small, asset ▸ valid, rfl⟩
      · rintro _ w ⟨invalid, rfl⟩
        refine releasing_atomic enough ?_ ?_ (fun _ => Or.inr (asset ▸ invalid))
        · simp [Frame.released, Frame.stored, Pool.released, amount_set]
        · intro none
          simp only [Frame.released, Frame.stored, none, released_nothing]

theorem closePosition_atomic (takeFund : Bool) :
    Meets (closePosition env takeFund) f (fun _ _ => True)
      (fun _ g => Untouched env f g ↔ CloseAtomic env f) := by
  unfold closePosition
  refine meets_bind takeOutCustody_atomic ?_
  rintro _ g ⟨enough, small, valid, rfl⟩
  exact released_atomic takeFund enough small valid

/-- A failing force close of a block leaves no trace exactly in the states of `CloseAtomic`; a
    refusal to close a healthy position is not a failure. -/
theorem forceCloseLong_atomic (start : getEpochPosition f.world.height f.world.margin.epochLength ≤ 0) :
    Meets (forceCloseLong env false true) f (fun _ _ => True)
      (fun e g => e ≠ .err .errMTPHealthy → (Untouched env f g ↔ CloseAtomic env f)) := by
  have closing : Meets (require (false = true ∨ f.mtp.mtpHealth.le f.world.margin.safetyFactor)
      (.err .errMTPHealthy) >>= fun _ => closePosition env true) f (fun _ _ => True)
      (fun e g => e ≠ .err .errMTPHealthy → (Untouched env f g ↔ CloseAtomic env f)) := by
    refine meets_require_then (fun _ => ?_) (fun _ healthy => absurd rfl healthy)
    exact meets_mono _ (closePosition_atomic true) (fun _ _ done => done) (fun _ _ atomic _ => atomic)
  constructor
  · intro a g run
    trivial
  · intro e g run
    exact closing.error e g (forceCloseLong_start env start ▸ run)

end ForceClose

/-- For every state, position and pool: a failing interest payment leaves no trace exactly when
    `PaymentAtomic` holds before it, and a failing force close of a block exactly when
    `CloseAtomic` does. -/
theorem failing_steps_atomic {env : Env β} {f : Frame β} :
    (∀ interestPayment e g, (incrementalInterestPayment env interestPayment).run f = (.error e, g) →
      (Untouched env f g ↔ PaymentAtomic f interestPayment)) ∧
    (getEpochPosition f.world.height f.world.margin.epochLength ≤ 0 →
      ∀ e g, (forceCloseLong env false true).run f = (.error e, g) → e ≠ .err .errMTPHealthy →
        (Untouched env f g ↔ CloseAtomic env f)) := by
  constructor
  · intro interestPayment e g run
    exact (incrementalInterestPayment_atomic interestPayment).error e g run
  · intro start e g run
    exact (forceCloseLong_atomic start).error e g run

def bobFrame (bank : LedgerBank.Balances) (custody : ℕ) : Frame LedgerBank.Balances :=
  let mtp : MTP :=
    { address := "bob", collateralAsset := "fury", collateralAmount := 10 ^ 16, custodyAsset := "ceth",
      custodyAmount := custody, liabilities := 10 ^ 16, leverage := ⟨2 * 10 ^ 18⟩, position := .long,
      id := 1 }
  let pool : Pool :=
    { LedgerBank.cethPool with externalCustody := custody, nativeLiabilities := 10 ^ 16 }
  ⟨{ LedgerBank.pooled with
      bank := bank, mtps := ⟨[mtp], by simp⟩, pools := ⟨[pool], by simp⟩, mtpCount := 1
      openMtpCount := 1 }, mtp, pool, []⟩

/-- A transfer to the fund that is refused leaves a position with less custody than the pool
    holds for it, and a pool with none of the custody that the position still has. -/
theorem refused_transfers_traced :
    (∃ g, (incrementalInterestPayment LedgerBank.env (10 ^ 14)).run (bobFrame (fun _ _ => 0) (10 ^ 15)) =
        (.error (.err .errBankRefused), g) ∧
      g.mtp.custodyAmount < 10 ^ 15 ∧ g.pool.externalCustody = 10 ^ 15) ∧
    (∃ g, (forceCloseLong LedgerBank.env false true).run (bobFrame (fun _ _ => 0) (3 * 10 ^ 16)) =
        (.error (.err .errBankRefused), g) ∧
      g.mtp.custodyAmount = 3 * 10 ^ 16 ∧ g.pool.externalCustody = 0 ∧
      g.world.mtps.rows.map MTP.custodyAmount = [3 * 10 ^ 16] ∧
      g.world.pools.rows.map Pool.externalCustody = [0]) :=
  ⟨⟨_, Prod.ext (by decide +kernel) rfl, by decide +kernel, by decide +kernel⟩,
    ⟨_, Prod.ext (by decide +kernel) rfl, by decide +kernel, by decide +kernel, by decide +kernel,
      by decide +kernel⟩⟩

/-- Nothing to pay and nothing to sell. -/
theorem empty_steps_atomic :
    Untouched LedgerBank.env (bobFrame (fun _ _ => 0) 0)
      ((incrementalInterestPayment LedgerBank.env 0).run (bobFrame (fun _ _ => 0) 0)).2 ∧
    Untouched LedgerBank.env (bobFrame (fun _ _ => 0) 0)
      ((forceCloseLong LedgerBank.env false true).run (bobFrame (fun _ _ => 0) 0)).2 := by
  have payment : PaymentAtomic (bobFrame (fun _ _ => 0) 0) 0 :=
    paymentAtomic_unpriced 0 0 (.err .errAmountTooLow) rfl (by decide +kernel)
  have close : CloseAtomic LedgerBank.env (bobFrame (fun _ _ => 0) 0) :=
    Or.inr ⟨rfl, Or.inr (Or.inr (by decide +kernel))⟩
  exact ⟨(failing_steps_atomic.1 0 (.err .errAmountTooLow) _
      (Prod.ext (by decide +kernel) rfl)).mpr payment,
    (failing_steps_atomic.2 (by decide) (.err .errAmountTooLow) _
      (Prod.ext (by decide +kernel) rfl) (by decide)).mpr close⟩

end FuryNode
