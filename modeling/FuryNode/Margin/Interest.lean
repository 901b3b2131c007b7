import FuryNode.Margin.Atomicity

/-!
What one charge of interest adds to the interest of a position. The payment that
`CalcMTPInterestLiabilities` computes contains the unpaid interest already, and
`IncrementalInterestPayment` adds the unpaid interest once more.
-/
namespace FuryNode
open StatefulProgram StatefulProgram.Prog ClpKeeper MarginKeeper
variable {β : Type} {f : Frame β}

/-- The interest of a position so far, paid or not. -/
def MTP.interestTotal (m : MTP) : ℕ := m.interestPaidCollateral + m.interestUnpaidCollateral

def newlyAccrued (env : Env β) (mtp : MTP) (interestRate : Dec) (epochPosition epochLength : ℤ) :
    Fallible ℤ := do
  let due ← calcMTPInterestLiabilities env mtp interestRate epochPosition epochLength
  pure (due - mtp.interestUnpaidCollateral)

/-- The swaps of a payment succeed: the one that prices it and, where the custody does not
    cover it, the one that prices the custody. -/
def SwapsSucceed (f : Frame β) (interestPayment : ℕ) : Prop :=
  ∃ custody,
    clpSwap f.world (interestPayment + f.mtp.interestUnpaidCollateral) f.mtp.custodyAsset f.pool =
      .ok custody ∧
    (f.mtp.custodyAmount < custody →
      ∃ worth, clpSwap f.world f.mtp.custodyAmount f.mtp.collateralAsset f.pool = .ok worth)

theorem coverPayment_priced {payment custody : ℕ}
    (priced : f.mtp.custodyAmount < custody →
      ∃ worth, clpSwap f.world f.mtp.custodyAmount f.mtp.collateralAsset f.pool = .ok worth) :
    FailsOnly (coverPayment f payment custody) (· = .panic .underflow) := by
  unfold coverPayment
  refine failsOnly_ite (fun short => ?_) (fun _ => failsOnly_pure _)
  obtain ⟨worth, swapped⟩ := priced short
  rw [swapped]
  refine failsOnly_bind failsOnly_ok (fun _ _ => failsOnly_bind ?_ (fun _ _ => failsOnly_pure _))
  exact failsOnly_mono Uint.sub_fails (fun _ failed => failed.1)

/-- A payment whose swaps succeed counts all of it, paid or unpaid, also when a transfer or a
    write fails afterwards. -/
theorem incrementalInterestPayment_counted (env : Env β) {interestPayment : ℕ} (swaps : SwapsSucceed f interestPayment) :
    Meets (incrementalInterestPayment env interestPayment) f
      (fun _ g => g.mtp.interestTotal =
        f.mtp.interestPaidCollateral + (interestPayment + f.mtp.interestUnpaidCollateral))
      (fun e g => ∀ d, e = .err d → g.mtp.interestTotal =
        f.mtp.interestPaidCollateral + (interestPayment + f.mtp.interestUnpaidCollateral)) := by
  obtain ⟨custody, swapped, priced⟩ := swaps
  unfold incrementalInterestPayment
  refine meets_read_then (meets_ofExcept_then ?_ ?_)
  · intro payment added
    have sum : payment = interestPayment + f.mtp.interestUnpaidCollateral := payment_sum added
    subst sum
    refine meets_ofExcept_then ?_ (fun e failed => by cases swapped.symm.trans failed)
    intro custody' swapped'
    obtain rfl := Except.ok.inj (swapped.symm.trans swapped')
    refine meets_modify_then (meets_ofExcept_then ?_ ?_)
    · intro split covered
      have all := (coverPayment_within covered).2
      refine meets_modify_then (meets_mono _ payFromCustody_counted ?_ ?_)
      · rintro _ g ⟨paid, unpaid⟩
        simp only [MTP.interestTotal, paid, unpaid]
        omega
      · rintro e g (⟨rfl, _⟩ | ⟨_, paid, unpaid⟩) d same
        · cases same
        · simp only [MTP.interestTotal, paid, unpaid]
          omega
    · intro e failed d same
      cases same ▸ coverPayment_priced priced e failed
  · intro e failed d same
    subst same
    split at failed
    · cases Uint.add_fails _ failed
    · cases failed

/-- Interest is charged once exactly when it is not paid at once or none was unpaid. -/
theorem interest_charged_once (env : Env β) (f g : Frame β) (interestRate : Dec)
    (epochPosition epochLength n : ℤ) (interestPayment actual : ℕ)
    (accrued : newlyAccrued env f.mtp interestRate epochPosition epochLength = .ok n)
    (computed : calcMTPInterestLiabilities env f.mtp interestRate epochPosition epochLength =
      .ok interestPayment)
    (swaps : f.world.margin.incrementalInterestPaymentEnabled = true → SwapsSucceed f interestPayment)
    (run : (handleInterestPayment env interestPayment).run f = (.ok actual, g)) :
    (g.mtp.interestTotal : ℤ) = f.mtp.interestTotal + n ↔
      f.world.margin.incrementalInterestPaymentEnabled = false ∨
        f.mtp.interestUnpaidCollateral = 0 := by
  have due : n = interestPayment - f.mtp.interestUnpaidCollateral := by
    simp only [newlyAccrued, except_bind_succeeds, except_pure_succeeds] at accrued
    obtain ⟨payment, again, rfl⟩ := accrued
    rw [Except.ok.inj (again.symm.trans computed)]
  have counted : f.world.margin.incrementalInterestPaymentEnabled = true →
      g.mtp.interestTotal =
        f.mtp.interestPaidCollateral + (interestPayment + f.mtp.interestUnpaidCollateral) := by
    intro enabled
    have payment := incrementalInterestPayment_counted env (swaps enabled)
    cases handleInterestPayment_succeeds run with
    | deferred disabled => simp [disabled] at enabled
    | paid _ actual g ran => exact payment.ok _ _ ran
    | dropped _ e g ran => exact payment.error _ g ran e rfl
  cases handled : f.world.margin.incrementalInterestPaymentEnabled with
  | true =>
    have total := counted handled
    simp only [MTP.interestTotal] at total ⊢
    simp only [Bool.true_eq_false, false_or]
    omega
  | false =>
    cases handleInterestPayment_succeeds run with
    | deferred _ =>
      simp only [MTP.interestTotal, due, true_or, iff_true]
      push_cast
      ring
    | paid enabled => simp [handled] at enabled
    | dropped enabled => simp [handled] at enabled

def indebted (unpaid : ℕ) : Frame LedgerBank.Balances :=
  let f := bobFrame LedgerBank.pooled.bank (10 ^ 16)
  { f with mtp := { f.mtp with interestUnpaidCollateral := unpaid } }

/-- With 10^14 unpaid and 101 * 10^12 newly accrued, 201 * 10^12 more is paid. -/
theorem unpaid_interest_charged_twice :
    newlyAccrued LedgerBank.env (indebted (10 ^ 14)).mtp ⟨10 ^ 16⟩ 0 0 = .ok (101 * 10 ^ 12) ∧
    ∃ actual g, (handleInterestPayment LedgerBank.env (201 * 10 ^ 12)).run (indebted (10 ^ 14)) =
        (.ok actual, g) ∧ g.dropped = [] ∧
      g.mtp.interestTotal = (indebted (10 ^ 14)).mtp.interestTotal + 201 * 10 ^ 12 :=
  ⟨by decide +kernel, 193074192740580, _, Prod.ext (by decide +kernel) rfl, by decide +kernel,
    by decide +kernel⟩

theorem paid_interest_charged_once :
    (((handleInterestPayment LedgerBank.env (10 ^ 14)).run (indebted 0)).2.mtp.interestTotal : ℤ) =
      (indebted 0).mtp.interestTotal + (10 ^ 14 : ℤ) := by
  have swaps : SwapsSucceed (indebted 0) (10 ^ 14) :=
    ⟨98703098703099, by decide +kernel, fun short => absurd short (by decide +kernel)⟩
  exact (interest_charged_once LedgerBank.env (indebted 0) _ ⟨10 ^ 16⟩ 0 0 (10 ^ 14) (10 ^ 14)
    64157014157015 (by decide +kernel) (by decide +kernel) (fun _ => swaps)
    (Prod.ext (by decide +kernel) rfl)).mpr (Or.inr rfl)

end FuryNode
