import FuryNode.Margin.Effects

/-!
The failures of the margin keeper. Apart from the refusal of a healthy position and from
subtractions below zero, every failure is of no interest here; a subtraction is either in
range or its panic is admitted.
-/
namespace FuryNode
open StatefulProgram StatefulProgram.Prog KeyedTable KeyedTable.Table ClpKeeper MarginKeeper
variable {β α : Type}

/-- Everything but the refusal of a healthy position and an underflow is admitted. -/
structure Admits (E : Failure → Prop) : Prop where
  err : ∀ e, e ≠ .errMTPHealthy → E (.err e)
  panic : ∀ p, p ≠ .underflow → E (.panic p)

def InRange (E : Failure → Prop) (c : Prop) : Prop := c ∨ E (.panic .underflow)

section Pure
variable {E : Failure → Prop} (admits : Admits E)
include admits

theorem add_admitted {a b : ℕ} : FailsOnly (Uint.add a b) E := by
  simp [admits.panic]

omit admits in
theorem sub_admitted {a b : ℕ} (within : InRange E (b ≤ a)) : FailsOnly (Uint.sub a b) E := by
  refine failsOnly_mono Uint.sub_fails ?_
  rintro f ⟨rfl, short⟩
  exact within.resolve_left (by omega)

theorem newCoins_admitted (coins : List Coin) : FailsOnly (newCoins coins) E := by
  simp [newCoins, admits.panic]

theorem coinsAdd_admitted (coins : Coins) (c : Coin) : FailsOnly (Coins.add coins c) E := by
  unfold Coins.add
  split
  · simp
  · split <;> simp [admits.panic]

theorem decodeAddress_admitted (env : Env β) (s : String) : FailsOnly (decodeAddress env s) E := by
  unfold decodeAddress
  split <;> simp [admits.err]

theorem getSigner_admitted {env : Env β} {s : String} : FailsOnly (getSigner env s) E := by
  unfold getSigner
  split <;> simp [admits.panic]

theorem assetValidate_admitted (env : Env β) (symbol : String) :
    FailsOnly (assetValidate env symbol) E := by
  simp [assetValidate, newCoin, admits.panic]

def FeeInRange (rate : Dec) : Prop := 0 ≤ rate.raw ∧ rate.raw ≤ Dec.one.raw

omit admits in
theorem fee_within {A : ℚ} {rate : Dec} {fee result : ℕ} (inRange : FeeInRange rate)
    (feeIs : ratIntQuo (A * decToRat rate) = fee) (resultIs : ratIntQuo A = result) :
    fee ≤ result := by
  have lower : 0 ≤ decToRat rate := div_nonneg (by exact_mod_cast inRange.1) (by norm_num)
  have upper : decToRat rate ≤ 1 := by
    have bound : rate.raw ≤ 10 ^ 18 := inRange.2
    unfold decToRat
    rw [div_le_one (by norm_num)]
    exact_mod_cast bound
  rcases le_total A 0 with nonpos | nonneg
  · have zero := ratIntQuo_nonpos (mul_nonpos_of_nonpos_of_nonneg nonpos lower)
    omega
  · rw [ratIntQuo_floor _ (mul_nonneg nonneg lower)] at feeIs
    rw [ratIntQuo_floor _ nonneg] at resultIs
    have mono : ⌊A * decToRat rate⌋ ≤ ⌊A⌋ := Int.floor_le_floor (by nlinarith)
    omega

theorem calcSwapResult_admitted {toFury : Bool} {X x Y : ℕ} {pmtp rate : Dec}
    (inRange : InRange E (FeeInRange rate)) : FailsOnly (calcSwapResult toFury X x Y pmtp rate) E := by
  unfold calcSwapResult
  refine failsOnly_ite (fun _ => failsOnly_ok) (fun _ => ?_)
  refine failsOnly_bind (by simp [calcAdjusted, ratQuo, admits.panic]) (fun A _ => ?_)
  refine failsOnly_bind (by simp [admits.panic]) (fun fee feeIs => ?_)
  refine failsOnly_bind (by simp [admits.panic]) (fun result resultIs => ?_)
  refine failsOnly_bind (sub_admitted (inRange.imp_left ?_)) (fun _ _ => failsOnly_pure _)
  exact fun rateInRange => fee_within rateInRange
    (Uint.ofBigInt_succeeds.mp feeIs).1 (Uint.ofBigInt_succeeds.mp resultIs).1

end Pure

/-- The swap fee rates of a parameter set, as `MsgUpdateSwapFeeParamsRequest` admits them. -/
structure FeesInRange (params : ClpParams) : Prop where
  default : FeeInRange params.defaultSwapFeeRate
  tokens : ∀ p ∈ params.tokenParams, FeeInRange p.swapFeeRate

theorem getSwapFeeRate_inRange {params : ClpParams} (fees : FeesInRange params) {asset : String}
    {marginEnabled : Bool} : FeeInRange (getSwapFeeRate params asset marginEnabled) := by
  unfold getSwapFeeRate
  split
  · exact fees.default
  · split
    · rename_i p found
      exact fees.tokens p (List.mem_of_find?_eq_some found)
    · exact fees.default

variable {w : World β} {takeFund : Bool}

section Programs
variable {E : Failure → Prop} {env : Env β} {f : Frame β} (admits : Admits E)
include admits

theorem clpSwap_admitted {n : ℕ} {toAsset : String} {pool : Pool}
    (fees : InRange E (FeesInRange w.clp)) : FailsOnly (clpSwap w n toAsset pool) E := by
  have swapped : ∀ toFury X x Y pmtp asset enabled, FailsOnly (calcSwapResult toFury X x Y pmtp
      (getSwapFeeRate w.clp asset enabled)) E := fun _ _ _ _ _ _ _ =>
    calcSwapResult_admitted admits (fees.imp_left (fun inRange => getSwapFeeRate_inRange inRange))
  simp [clpSwap, clpCalcSwap, Pool.extractDebt, swapped, admits.err, admits.panic]

theorem updateMTPHealth_admitted (mtp : MTP) (pool : Pool) (fees : InRange E (FeesInRange w.clp)) :
    FailsOnly (updateMTPHealth w mtp pool) E := by
  simp [updateMTPHealth, clpSwap_admitted admits fees, admits.panic]

theorem assignHealth_fails (fees : InRange E (FeesInRange f.world.clp)) : Fails assignHealth f E := by
  have only := updateMTPHealth_admitted admits f.mtp f.pool fees
  unfold assignHealth
  refine fails_read_then ?_
  split
  · exact fails_modify
  · rename_i e failed
    exact fails_modify_then (fails_fail (only _ failed))
  · rename_i p failed
    exact fails_fail (only _ failed)

theorem bankCall_fails (call : β → Except BankFailure β) (w : World β) :
    Fails (bankCall call) w E := by
  unfold bankCall
  refine fails_read_then ?_
  split
  · exact fails_modify
  · rename_i failure _
    cases failure with
    | refused => exact fails_fail (admits.err _ (by decide))
    | panicked => exact fails_fail (admits.panic _ (by decide))

theorem takeFundPayment_fails {returnAmount : ℕ} {returnAsset : String} {takePercentage : Dec}
    {fundAddr : AccAddress} (w : World β) :
    Fails (takeFundPayment env returnAmount returnAsset takePercentage fundAddr) w E := by
  simp [takeFundPayment, newCoin, newCoins, bankCall_fails admits, admits.panic,
    sendCoinsFromModuleToAccount]

theorem ownerPart_fails {returnAmount : ℕ} {collateralAsset : String}
    (percentage : InRange E (w.margin.forceCloseFundPercentage.raw ≤ Dec.one.raw)) :
    Fails (ownerPart env returnAmount collateralAsset takeFund) w E := by
  unfold ownerPart
  split
  · refine fails_read_then (fails_ofExcept_then (getSigner_admitted admits) (fun _ _ => ?_))
    refine fails_bind (takeFundPayment_fails admits w) (fun take r taken => ?_)
    obtain ⟨⟨share, multiplied, truncated⟩, _⟩ := takeFundPayment_succeeds taken
    exact fails_ofExcept (sub_admitted (percentage.imp_left
      (fun whole => share_le whole multiplied truncated)))
  · exact fails_pure

theorem payReturn_fails {mtp : MTP} {returnAmount : ℕ}
    (percentage : InRange E (w.margin.forceCloseFundPercentage.raw ≤ Dec.one.raw)) :
    Fails (payReturn env mtp returnAmount takeFund) w E := by
  simp [payReturn, ownerPart_fails admits percentage, newCoin, coinsAdd_admitted admits,
    decodeAddress_admitted admits, bankCall_fails admits, admits.panic, sendCoinsFromModuleToAccount]

theorem addField_fails {s : Side} {field : PoolField} {n : ℕ} : Fails (addField s field n) f E :=
  fails_read_then (fails_ofExcept_then (add_admitted admits) (fun _ _ => fails_modify))

omit admits in
theorem subField_fails {s : Side} {field : PoolField} {n : ℕ}
    (within : InRange E (n ≤ f.pool.amount s field)) : Fails (subField s field n) f E :=
  fails_read_then (fails_ofExcept_then (sub_admitted within) (fun _ _ => fails_modify))

theorem setPool_fails {pool : Pool} : Fails (setPool env pool) w E := by
  simp [setPool, assetValidate_admitted admits, admits.err]

theorem storePool_fails : Fails (storePool env) f E :=
  fails_read_then (fails_zoom (setPool_fails admits))

theorem getMTP_fails {address : String} {id : ℕ} : Fails (getMTP address id) w E := by
  unfold getMTP
  refine fails_read_then ?_
  split <;> simp [admits.err]

theorem takeOutCustody_fails
    (custody : InRange E (f.mtp.custodyAmount ≤ f.pool.amount (sideOf f.mtp.custodyAsset) .custody)) :
    Fails (takeOutCustody env) f E := by
  unfold takeOutCustody
  refine fails_read_then (fails_bind (subField_fails custody) (fun _ _ _ => ?_))
  exact fails_bind (addField_fails admits) (fun _ _ _ => storePool_fails admits)

theorem settleDebt_admitted {repayAmount liabilities unpaid : ℕ} :
    FailsOnly (settleDebt repayAmount liabilities unpaid) E := by
  unfold settleDebt
  refine failsOnly_bind (add_admitted admits) (fun owe added => ?_)
  obtain ⟨_, rfl⟩ := (Uint.add_succeeds _ _ _).mp added
  refine failsOnly_ite (fun short => ?_) (fun enough => failsOnly_ite (fun short => ?_) (fun more => ?_))
  · simpa using sub_admitted (Or.inl (by omega))
  · simpa using sub_admitted (Or.inl (by omega))
  · refine failsOnly_bind (sub_admitted (Or.inl (by omega))) (fun rest left => ?_)
    obtain ⟨_, rfl⟩ := (Uint.sub_succeeds _ _ _).mp left
    simpa using sub_admitted (Or.inl (by omega))

/-- What a repayment needs so that none of its subtractions is out of range. -/
structure RepayInRange (f : Frame β) : Prop where
  fees : FeesInRange f.world.clp
  percentage : f.world.margin.forceCloseFundPercentage.raw ≤ Dec.one.raw
  liabilities : f.mtp.liabilities ≤ f.pool.amount (sideOf f.mtp.collateralAsset) .liabilities

theorem repay_fails {repayAmount : ℕ}
    (below : repayAmount < f.pool.amount (sideOf f.mtp.collateralAsset) .balance)
    (inRange : InRange E (RepayInRange f)) : Fails (repay env repayAmount takeFund) f E := by
  unfold repay
  refine fails_bind (assignHealth_fails admits (inRange.imp_left (fun whole => whole.fees))) ?_
  intro _ g assigned
  obtain ⟨health, rfl⟩ := (assignHealth_only f).ok _ _ assigned
  refine fails_read_then (fails_ofExcept_then (settleDebt_admitted admits) ?_)
  rintro ⟨returnAmount, debtP, debtI⟩ settled
  obtain ⟨returned, _⟩ := settleDebt_succeeds settled
  dsimp only at returned ⊢
  refine fails_bind (fails_zoom (payReturn_fails admits
    (inRange.imp_left (fun whole => whole.percentage)))) ?_
  intro _ g paid
  obtain ⟨w, _, rfl⟩ := onWorld_succeeds.mp paid
  refine fails_bind (subField_fails (Or.inl ?_)) ?_
  · dsimp only
    omega
  · intro _ g taken
    have balance := (subField_then (fun u => pure u)).mp
      ((bind_succeeds _ _ _ _ _).mpr ⟨_, _, taken, rfl⟩)
    obtain ⟨_, done⟩ := balance
    obtain ⟨_, rfl⟩ := pure_succeeds.mp done
    refine fails_bind (subField_fails (inRange.imp_left ?_)) (fun _ g _ => ?_)
    · intro whole
      simpa [amount_set] using whole.liabilities
    · refine fails_ofExcept_then (add_admitted admits) (fun _ _ => ?_)
      refine fails_ofExcept_then (add_admitted admits) (fun _ _ => ?_)
      refine fails_modify_then ?_
      refine fails_bind (fails_zoom (fails_bind (getMTP_fails admits)
        (fun _ _ _ => fails_modify))) (fun _ _ _ => storePool_fails admits)

/-- What closing a position needs so that none of its subtractions is out of range. -/
structure CloseInRange (f : Frame β) : Prop where
  fees : FeesInRange f.world.clp
  percentage : f.world.margin.forceCloseFundPercentage.raw ≤ Dec.one.raw
  liabilities : f.mtp.liabilities ≤ f.pool.amount (sideOf f.mtp.collateralAsset) .liabilities
  custody : f.mtp.custodyAmount ≤ f.pool.amount (sideOf f.mtp.custodyAsset) .custody

omit admits in
theorem released_liabilities (p : Pool) (s t : Side) (custody n : ℕ) :
    (p.released s custody n).amount t .liabilities = p.amount t .liabilities := by
  simp [Pool.released, amount_set]

theorem closePosition_fails (inRange : InRange E (CloseInRange f)) :
    Fails (closePosition env takeFund) f E := by
  unfold closePosition
  refine fails_bind (takeOutCustody_fails admits (inRange.imp_left (fun whole => whole.custody))) ?_
  intro _ g taken
  obtain ⟨_, rfl⟩ := takeOutCustody_succeeds taken
  refine fails_read_then (fails_ofExcept_then (clpSwap_admitted admits
    (inRange.imp_left (fun whole => whole.fees))) ?_)
  intro repayAmount swapped
  refine fails_bind (repay_fails admits (clpSwap_bounds swapped).2
    (inRange.imp_left ?_)) (fun _ _ _ => fails_pure)
  intro whole
  refine ⟨whole.fees, whole.percentage, ?_⟩
  simpa [Frame.released, Frame.stored, released_liabilities] using whole.liabilities

end Programs

end FuryNode
