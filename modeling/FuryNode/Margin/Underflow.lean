import FuryNode.Margin.Drift
import FuryNode.Margin.Failures
import FuryNode.Margin.Pricing
import FuryNode.Margin.WellFormed

/-!
No subtraction of margin is out of range, where the fees and the percentages are at most
one and the pool knows the custody and the liabilities of the position. The one subtraction
that no check guards, the rest of a payment that the custody does not cover, is in range
because a swap there and back never gains.
-/
namespace FuryNode
open StatefulProgram StatefulProgram.Prog KeyedTable KeyedTable.Table ConstantProduct ClpKeeper
  MarginKeeper MarginMsgServer
variable {β α : Type} {env : Env β} {f g : Frame β}

def NotUnderflow (e : Failure) : Prop := e ≠ .panic .underflow

@[simp] theorem notUnderflow_err (e : Err) : NotUnderflow (.err e) := nofun

@[simp] theorem notUnderflow_panic (p : Panic) : NotUnderflow (.panic p) ↔ p ≠ .underflow := by
  simp [NotUnderflow]

theorem admits_rest : Admits NotUnderflow :=
  ⟨fun e _ => notUnderflow_err e, fun p => (notUnderflow_panic p).mpr⟩

structure ParamsInRange (w : World β) : Prop where
  fees : FeesInRange w.clp
  forceClose : FeeInRange w.margin.forceCloseFundPercentage
  interest : FeeInRange w.margin.incrementalInterestPaymentFundPercentage

/-- A numbered position with one fury side, whose custody the pool holds and whose liabilities
    it knows. -/
structure Covered (f : Frame β) : Prop where
  numbered : f.mtp.id ≠ 0
  one : OneFurySide f.mtp.collateralAsset f.mtp.custodyAsset
  custody : f.mtp.custodyAmount ≤ f.pool.amount (sideOf f.mtp.custodyAsset) .custody
  liabilities : f.mtp.liabilities ≤ f.pool.amount (sideOf f.mtp.collateralAsset) .liabilities

theorem worth_le (one : OneFurySide f.mtp.collateralAsset f.mtp.custodyAsset) {payment price worth : ℕ}
    (priced : clpSwap f.world payment f.mtp.custodyAsset f.pool = .ok price)
    (short : f.mtp.custodyAmount < price)
    (sold : clpSwap f.world f.mtp.custodyAmount f.mtp.collateralAsset f.pool = .ok worth) :
    worth ≤ payment := by
  have sides := sides_differ one
  have back : (sideOf f.mtp.custodyAsset).other = sideOf f.mtp.collateralAsset := by
    rw [sides]
    cases sideOf f.mtp.collateralAsset <;> rfl
  have there := clpSwap_priced priced
  have again := clpSwap_priced sold
  obtain ⟨positive, inverse⟩ := priceFactor_inverse there.factor
  have quotedThere := there.quoted
  have quotedBack := again.quoted
  have sent := there.sent
  have depth := there.sold
  have bought := there.bought
  rw [back] at positive inverse quotedThere depth
  rw [← sides] at quotedBack
  generalize f.pool.depth (sideOf f.mtp.collateralAsset) = X at *
  generalize f.pool.depth (sideOf f.mtp.custodyAsset) = Y at *
  have share : (f.mtp.custodyAmount : ℚ) * Y ≤ price * (Y + f.mtp.custodyAmount) := by
    have less : (f.mtp.custodyAmount : ℚ) ≤ price := by exact_mod_cast short.le
    have first : (f.mtp.custodyAmount : ℚ) * Y ≤ price * Y :=
      mul_le_mul_of_nonneg_right less (by positivity)
    have second : (0 : ℚ) ≤ price * f.mtp.custodyAmount := by positivity
    linarith [mul_add (price : ℚ) Y f.mtp.custodyAmount]
  have bound : (worth : ℚ) * (X + payment) ≤ payment * X :=
    round_trip inverse positive (by positivity) (by exact_mod_cast bought) (by positivity)
      (by positivity) quotedThere quotedBack share
  have whole : (payment : ℚ) * X ≤ payment * (X + payment) := by nlinarith
  have total : (0 : ℚ) < X + payment := by positivity
  exact_mod_cast le_of_mul_le_mul_right (bound.trans whole) total

theorem coverPayment_admitted (covered : Covered f) (params : ParamsInRange f.world)
    {payment price : ℕ}
    (priced : clpSwap f.world payment f.mtp.custodyAsset f.pool = .ok price) :
    FailsOnly (coverPayment f payment price) NotUnderflow := by
  unfold coverPayment
  refine failsOnly_ite (fun short => ?_) (fun _ => failsOnly_pure _)
  refine failsOnly_bind (clpSwap_admitted admits_rest (Or.inl params.fees)) ?_
  intro worth sold
  refine failsOnly_bind (sub_admitted (Or.inl ?_)) (fun _ _ => failsOnly_pure _)
  exact worth_le covered.one priced short sold

theorem setMTP_fails : Fails setMTP f NotUnderflow := by
  unfold setMTP
  refine fails_read_then (fails_bind (fails_when (fun _ => fails_modify)) (fun _ g _ => ?_))
  refine fails_read_then (fails_ofExcept_then ?_ (fun _ _ => fails_modify))
  simp [mtpValidate]

theorem payFromCustody_fails {split : PaymentSplit} (within : split.custody ≤ f.mtp.custodyAmount)
    (covered : f.mtp.custodyAmount ≤ f.pool.amount (sideOf f.mtp.custodyAsset) .custody)
    (params : ParamsInRange f.world) : Fails (payFromCustody env split) f NotUnderflow := by
  have inPool := within.trans covered
  unfold payFromCustody
  refine fails_read_then (fails_ofExcept_then (by simp) (fun _ _ => ?_))
  refine fails_modify_then (fails_ofExcept_then (by simp) (fun _ _ => ?_))
  refine fails_modify_then (fails_ofExcept_then (sub_admitted (Or.inl within)) (fun _ _ => ?_))
  refine fails_modify_then (fails_ofExcept_then (getSigner_admitted admits_rest) (fun _ _ => ?_))
  refine fails_bind (fails_zoom (takeFundPayment_fails admits_rest _)) ?_
  intro take g paid
  obtain ⟨w, ran, rfl⟩ := onWorld_succeeds.mp paid
  obtain ⟨⟨share, multiplied, truncated⟩, _⟩ := takeFundPayment_succeeds ran
  have taken := share_le params.interest.2 multiplied truncated
  refine fails_ofExcept_then (sub_admitted (Or.inl taken)) (fun _ _ => ?_)
  refine fails_bind (subField_fails (Or.inl inPool)) (fun _ g _ => ?_)
  refine fails_bind (addField_fails admits_rest) (fun _ _ _ => ?_)
  refine fails_bind setMTP_fails (fun _ _ _ => ?_)
  exact fails_bind (storePool_fails admits_rest) (fun _ _ _ => fails_pure)

theorem incrementalInterestPayment_fails {interestPayment : ℕ} (covered : Covered f)
    (params : ParamsInRange f.world) :
    Fails (incrementalInterestPayment env interestPayment) f NotUnderflow := by
  unfold incrementalInterestPayment
  refine fails_read_then (fails_ofExcept_then
    (failsOnly_ite (fun _ => by simp) (fun _ => failsOnly_ok)) (fun payment _ => ?_))
  refine fails_ofExcept_then (clpSwap_admitted admits_rest (Or.inl params.fees)) ?_
  intro price priced
  refine fails_modify_then (fails_ofExcept_then
    (coverPayment_admitted covered params priced) (fun split split' => ?_))
  have within := (coverPayment_within split').1
  exact fails_modify_then (payFromCustody_fails within covered.custody params)

theorem outcome_fails {p : Step β α} {E : Failure → Prop} (inner : Fails p f E) :
    Fails (outcome p) f E := by
  have panics : Meets (outcome p) f (fun _ _ => True) (fun e _ => E e) := by
    refine meets_outcome ⟨fun _ _ _ => trivial, fun e t run => ?_⟩
    cases e with
    | err d => trivial
    | panic q => exact inner _ _ run
  exact panics.error

theorem handleInterestPayment_fails (interestPayment : ℕ) (covered : Covered f)
    (params : ParamsInRange f.world) :
    Fails (handleInterestPayment env interestPayment) f NotUnderflow := by
  unfold handleInterestPayment
  refine fails_read_then ?_
  split
  · refine fails_bind (outcome_fails (incrementalInterestPayment_fails covered params)) ?_
    intro result g _
    cases result with
    | ok _ => exact fails_pure
    | error e => exact fails_bind fails_modify (fun _ _ _ => fails_pure)
  · exact fails_modify_then fails_pure

theorem calcMTPInterestLiabilities_admitted {mtp : MTP} {rate : Dec} {epochPosition epochLength : ℤ} :
    FailsOnly (calcMTPInterestLiabilities env mtp rate epochPosition epochLength) NotUnderflow := by
  simp [calcMTPInterestLiabilities, ratQuo]

theorem chargeInterest_fails {epochPosition epochLength : ℤ} (covered : Covered f)
    (params : ParamsInRange f.world) :
    Fails (chargeInterest env epochPosition epochLength) f NotUnderflow := by
  unfold chargeInterest
  refine fails_read_then (fails_ofExcept_then
    calcMTPInterestLiabilities_admitted (fun _ _ => ?_))
  exact fails_bind (handleInterestPayment_fails _ covered params)
    (fun _ _ _ => addField_fails admits_rest)

theorem drift_covered (drift : Drift env f 0 g) (covered : Covered f) : Covered g := by
  refine ⟨?_, ?_, ?_, ?_⟩
  · have same : g.mtp.id = f.mtp.id := congrArg MtpKey.id drift.key
    rw [same]
    exact covered.numbered
  · rw [drift.collateralAsset, drift.custodyAsset]
    exact covered.one
  · rw [drift.custodyAsset]
    exact drift.covered covered.custody
  · rw [drift.debt, drift.collateralAsset, drift.liabilities]
    exact covered.liabilities

theorem drift_params (drift : Drift env f 0 g) (params : ParamsInRange f.world) :
    ParamsInRange g.world := by
  obtain ⟨clp, margin, _⟩ := drift.params
  exact ⟨clp ▸ params.fees, margin ▸ params.forceClose, margin ▸ params.interest⟩

theorem chargeWithinEpoch_fails (covered : Covered f) (params : ParamsInRange f.world) :
    Fails (chargeWithinEpoch env) f NotUnderflow := by
  unfold chargeWithinEpoch
  refine fails_read_then (fails_when (fun _ => ?_))
  refine fails_bind (chargeInterest_fails covered params) (fun _ g charged => ?_)
  have drift := (chargeInterest_drift covered.numbered).ok _ _ charged
  exact assignHealth_fails admits_rest (Or.inl (drift_params drift params).fees)

theorem closing_fails {takeFund : Bool} (covered : Covered f) (params : ParamsInRange f.world)
    (charged : (chargeWithinEpoch env).run f = (.ok (), g)) :
    Fails (closePosition env takeFund) g NotUnderflow := by
  have drift := (chargeWithinEpoch_drift covered.numbered).ok _ _ charged
  have coveredAfter := drift_covered drift covered
  have paramsAfter := drift_params drift params
  exact closePosition_fails admits_rest (Or.inl ⟨paramsAfter.fees,
    paramsAfter.forceClose.2, coveredAfter.liabilities, coveredAfter.custody⟩)

theorem forceCloseLong_fails {isAdminClose takeFund : Bool} (covered : Covered f)
    (params : ParamsInRange f.world) :
    Fails (forceCloseLong env isAdminClose takeFund) f NotUnderflow := by
  unfold forceCloseLong
  refine fails_bind (chargeWithinEpoch_fails covered params) (fun _ g charged => ?_)
  exact fails_read_then (fails_require_then (by simp)
    (fun _ => closing_fails covered params charged))

theorem closeLong_fails (covered : Covered f) (params : ParamsInRange f.world) :
    Fails (closeLong env) f NotUnderflow := by
  unfold closeLong
  exact fails_bind (chargeWithinEpoch_fails covered params)
    (fun _ g charged => closing_fails covered params charged)

theorem takeInCustody_fails
    (within : f.mtp.custodyAmount ≤ f.pool.amount (sideOf f.mtp.custodyAsset) .balance) :
    Fails (takeInCustody env) f NotUnderflow := by
  unfold takeInCustody
  refine fails_read_then (fails_bind (subField_fails (Or.inl within)) (fun _ _ _ => ?_))
  exact fails_bind (addField_fails admits_rest) (fun _ _ _ => storePool_fails admits_rest)

theorem borrow_fails {collateralAmount custodyAmount : ℕ} {eta : Dec} (fees : FeesInRange f.world.clp) :
    Fails (borrow env collateralAmount custodyAmount eta) f NotUnderflow := by
  unfold borrow
  refine fails_read_then (fails_ofExcept_then (decodeAddress_admitted admits_rest _ _) (fun _ _ => ?_))
  refine fails_ofExcept_then (by simp [newCoin]) (fun _ _ => ?_)
  refine fails_require_then (by simp) (fun _ => ?_)
  refine fails_ofExcept_then (by simp) (fun _ _ => ?_)
  refine fails_ofExcept_then (by simp) (fun _ _ => ?_)
  refine fails_ofExcept_then (by simp) (fun _ _ => ?_)
  refine fails_ofExcept_then (by simp) (fun _ _ => ?_)
  refine fails_ofExcept_then (by simp) (fun _ _ => ?_)
  refine fails_ofExcept_then (by simp) (fun _ _ => ?_)
  refine fails_modify_then (fails_read_then ?_)
  refine fails_ofExcept_then (updateMTPHealth_admitted admits_rest _ _ (Or.inl fees)) (fun _ _ => ?_)
  refine fails_modify_then (fails_ofExcept_then (newCoins_admitted admits_rest _) (fun _ _ => ?_))
  refine fails_bind (fails_zoom (bankCall_fails admits_rest _ _)) (fun _ _ _ => ?_)
  refine fails_bind (addField_fails admits_rest) (fun _ _ _ => ?_)
  refine fails_bind (addField_fails admits_rest) (fun _ _ _ => ?_)
  exact fails_bind (storePool_fails admits_rest) (fun _ _ _ => setMTP_fails)

theorem calculatePoolHealth_admitted (pool : Pool) :
    FailsOnly (calculatePoolHealth pool) NotUnderflow := by
  simp [calculatePoolHealth]

theorem updatePoolHealth_fails : Fails (updatePoolHealth env) f NotUnderflow := by
  unfold updatePoolHealth
  refine fails_read_then (fails_ofExcept_then (calculatePoolHealth_admitted _) (fun _ _ => ?_))
  exact fails_modify_then (storePool_fails admits_rest)

theorem wrap_admitted {x : Fallible α} (outer : Err) (only : FailsOnly x NotUnderflow) :
    FailsOnly (mapFailure (wrap outer) x) NotUnderflow := by
  cases x with
  | ok a => exact failsOnly_ok
  | error d =>
    intro e failed
    simp only [mapFailure, Except.error.injEq] at failed
    subst failed
    cases d with
    | err _ => simp [wrap, NotUnderflow]
    | panic p => exact only _ rfl

variable {w : World β}

theorem checkMinLiabilities_admitted {collateralAmount : ℕ} {eta : Dec} {pool : Pool}
    {custodyAsset : String} (fees : FeesInRange w.clp) :
    FailsOnly (checkMinLiabilities env w collateralAmount eta pool custodyAsset) NotUnderflow := by
  unfold checkMinLiabilities
  refine failsOnly_bind (by simp) (fun _ _ => ?_)
  refine failsOnly_bind (by simp) (fun _ _ => ?_)
  refine failsOnly_bind (by simp) (fun _ _ => ?_)
  refine failsOnly_bind (by simp) (fun _ _ => ?_)
  refine failsOnly_bind ?_ (fun _ _ => failsOnly_pure _)
  exact wrap_admitted _ (clpSwap_admitted admits_rest (Or.inl fees))

theorem getPool_wrapped_fails {symbol : String} (w : World β) :
    Fails (Action.wrapped .errPoolDoesNotExist (getPool symbol)) w NotUnderflow := by
  intro e t run
  unfold Action.wrapped Action.result at run
  cases found : w.pools.get ⟨symbol⟩ with
  | some p => simp [getPool, found, bind, attempt, Prog.read, pure] at run
  | none =>
    simp [getPool, found, bind, attempt, Prog.read, Prog.fail, pure] at run
    rw [← run.1]
    simp [NotUnderflow]

theorem enter_fails {mtp : MTP} {pool : Pool} {p : Step β α} {E : Failure → Prop}
    (inner : Fails p ⟨w, mtp, pool, []⟩ E) : Fails (enter mtp pool p) w E := by
  have failing : Meets (enter mtp pool p) w (fun _ _ => True) (fun e _ => E e) :=
    meets_enter ⟨fun _ _ _ => trivial, inner⟩
  exact failing.error

theorem takePosition_fails {m : MsgOpen} {leverage eta : Dec} {custodyAmount : ℕ} {pool : Pool}
    (one : OneFurySide m.collateralAsset m.borrowAsset) (fees : FeesInRange w.clp)
    (within : custodyAmount ≤ pool.amount (sideOf m.collateralAsset).other .balance) :
    Fails (takePosition env m eta custodyAmount) ⟨w, newMTP m leverage, pool, []⟩ NotUnderflow := by
  have sides := sides_differ one
  have differ : sideOf m.collateralAsset ≠ sideOf m.borrowAsset := by
    rw [sides]
    cases sideOf m.collateralAsset <;> decide
  unfold takePosition
  refine fails_bind (borrow_fails fees) (fun _ g borrowed => ?_)
  obtain ⟨liabilities, _, _, _, _, b, mtp, _, _, _, _, _, mtpIs, rfl⟩ :=
    borrow_succeeds borrowed
  refine fails_bind updatePoolHealth_fails (fun _ g updated => ?_)
  obtain ⟨health, rfl⟩ := updatePoolHealth_succeeds updated
  refine fails_bind (takeInCustody_fails ?_) (fun _ g taken => ?_)
  · rw [mtpIs]
    show custodyAmount ≤ (Pool.withHealth _ health).amount (sideOf m.borrowAsset) .balance
    simp only [amount_withHealth, Pool.borrowed, amount_set, reduceCtorEq, and_false, and_true,
      differ, ↓reduceIte]
    rw [sides]
    exact within
  · obtain ⟨_, rfl⟩ := takeInCustody_succeeds taken
    refine fails_read_then (fails_ofExcept_then (updateMTPHealth_admitted admits_rest _ _
      (Or.inl fees)) (fun _ _ => ?_))
    exact fails_require (by simp)

theorem openLong_fails {m : MsgOpen} (one : OneFurySide m.collateralAsset m.borrowAsset)
    (fees : FeesInRange w.clp) : Fails (openLong env m) w NotUnderflow := by
  unfold openLong
  refine fails_read_then (fails_ofExcept_then (by simp) (fun _ _ => ?_))
  refine fails_require_then (by simp) (fun _ => ?_)
  refine fails_bind (getPool_wrapped_fails w) (fun pool r found => ?_)
  obtain ⟨_, rfl⟩ := getPool_succeeds.mp (Action.wrapped_succeeds.mp found)
  refine fails_require_then (by simp) (fun _ => ?_)
  refine fails_ofExcept_then (by simp) (fun _ _ => ?_)
  refine fails_ofExcept_then (by simp) (fun _ _ => ?_)
  refine fails_require_then (by simp) (fun _ => ?_)
  refine fails_ofExcept_then (checkMinLiabilities_admitted fees) (fun _ _ => ?_)
  refine fails_ofExcept_then (clpSwap_admitted admits_rest (Or.inl fees)) (fun _ _ => ?_)
  refine fails_require_then (by simp) (fun within => ?_)
  exact fails_bind (enter_fails (takePosition_fails one fees within)) (fun _ _ _ => fails_pure)

theorem open_fails {m : MsgOpen} (one : OneFurySide m.collateralAsset m.borrowAsset)
    (fees : FeesInRange w.clp) : Fails (open' env m) w NotUnderflow := by
  unfold open'
  refine fails_read_then (fails_require_then (by simp) (fun _ => ?_))
  refine fails_require_then (by simp) (fun _ => ?_)
  refine fails_bind (getPool_wrapped_fails w) (fun pool r found => ?_)
  obtain ⟨_, rfl⟩ := getPool_succeeds.mp (Action.wrapped_succeeds.mp found)
  refine fails_require_then (by simp) (fun _ => ?_)
  refine fails_require_then (by simp) (fun _ => ?_)
  split
  · exact openLong_fails one fees
  · exact fails_fail (by simp)

def StoredCovered (w : World β) (address : String) (id : ℕ) : Prop :=
  ∀ mtp pool, w.mtps.get ⟨address, id⟩ = some mtp →
    w.pools.get ⟨externalAssetOf mtp.collateralAsset mtp.custodyAsset⟩ = some pool →
    Covered (⟨w, mtp, pool, []⟩ : Frame β)

def MarginMsg.Covers (w : World β) : MarginMsg → Prop
  | .open' m => OneFurySide m.collateralAsset m.borrowAsset
  | .close m => StoredCovered w m.signer m.id
  | .forceClose m => StoredCovered w m.mtpAddress m.id
  | .adminClose m => StoredCovered w m.mtpAddress m.id

theorem withPosition_fails {address : String} {id : ℕ} {act : Step β ℕ}
    (stored : StoredCovered w address id)
    (acts : ∀ mtp pool, Covered (⟨w, mtp, pool, []⟩ : Frame β) →
      Fails act ⟨w, mtp, pool, []⟩ NotUnderflow) :
    Fails (withPosition address id act) w NotUnderflow := by
  unfold withPosition
  refine fails_bind (getMTP_fails admits_rest) (fun mtp r read => ?_)
  unfold getMTP at read
  rw [read_then] at read
  split at read
  · rename_i found present
    obtain ⟨rfl, rfl⟩ := pure_succeeds.mp read
    split
    · refine fails_bind (getPool_wrapped_fails w) (fun pool r inPools => ?_)
      obtain ⟨poolIs, rfl⟩ := getPool_succeeds.mp (Action.wrapped_succeeds.mp inPools)
      exact fails_bind (enter_fails (acts _ _ (stored _ _ present poolIs))) (fun _ _ _ => fails_pure)
    · exact fails_fail (by simp)
  · exact (fail_succeeds.mp read).elim

theorem requireAdmin_fails (signer : String) (w : World β) :
    Fails (requireAdmin env signer) w NotUnderflow := by
  unfold requireAdmin
  refine fails_ofExcept_then (decodeAddress_admitted admits_rest _ _) (fun _ _ => ?_)
  exact fails_read_then (fails_require (by simp))

theorem requireAdmin_same {signer : String} {t : World β} {u : Unit}
    (run : (requireAdmin env signer).run w = (.ok u, t)) : t = w := by
  unfold requireAdmin at run
  simp only [ofExcept_then, read_then, require_succeeds] at run
  obtain ⟨_, _, _, rfl⟩ := run
  rfl

theorem accept_same {msg : MarginMsg} {t : World β} {u : Unit}
    (run : (msg.accept env).run w = (.ok u, t)) : t = w := by
  unfold MarginMsg.accept runMsg at run
  simp only [ofExcept_then, require_then, pure_succeeds] at run
  obtain ⟨_, _, _, _, _, _, rfl⟩ := run
  rfl

theorem validateBasic_admitted (msg : MarginMsg) : FailsOnly (msg.validateBasic env) NotUnderflow := by
  have checks : ∀ (c : Prop) [Decidable c] (e : Err), FailsOnly (check c (.err e)) NotUnderflow := by
    intro c _ e
    refine failsOnly_ite (fun _ => failsOnly_ok) (fun _ f failed => ?_)
    cases failed
    simp [NotUnderflow]
  have asset : ∀ symbol, FailsOnly (requireAsset env symbol) NotUnderflow :=
    fun symbol => failsOnly_bind (assetValidate_admitted admits_rest _ _) (fun _ _ => checks _ _)
  cases msg with
  | open' m =>
    refine failsOnly_bind (checks _ _) (fun _ _ => failsOnly_bind (asset _) (fun _ _ => ?_))
    refine failsOnly_bind (asset _) (fun _ _ => failsOnly_bind (checks _ _) (fun _ _ => ?_))
    exact failsOnly_bind (checks _ _) (fun _ _ => checks _ _)
  | close m => exact failsOnly_bind (checks _ _) (fun _ _ => checks _ _)
  | forceClose m =>
    exact failsOnly_bind (checks _ _) (fun _ _ => failsOnly_bind (checks _ _) (fun _ _ => checks _ _))
  | adminClose m => exact checks _ _

theorem message_fails {msg : MarginMsg} (params : ParamsInRange w) (covers : msg.Covers w) :
    Fails (msg.action env) w NotUnderflow := by
  have accepted : Fails (msg.accept env) w NotUnderflow := by
    refine fails_ofExcept_then (validateBasic_admitted msg) (fun _ _ => ?_)
    refine fails_ofExcept_then (getSigner_admitted admits_rest) (fun _ _ => ?_)
    exact fails_require_then (by simp) (fun _ => fails_pure)
  refine fails_bind accepted (fun _ r run => ?_)
  obtain rfl : r = w := accept_same run
  have admin : ∀ signer address id takeFund, StoredCovered r address id →
      Fails (requireAdmin env signer >>= fun _ =>
        withPosition address id (forceCloseLong env true takeFund)) r NotUnderflow := by
    intro signer address id takeFund stored
    refine fails_bind (requireAdmin_fails signer r) (fun _ t passed => ?_)
    obtain rfl : t = r := requireAdmin_same passed
    exact withPosition_fails stored
      (fun _ _ covered => forceCloseLong_fails covered params)
  cases msg with
  | open' m => exact open_fails covers params.fees
  | close m =>
    exact withPosition_fails covers (fun _ _ covered => closeLong_fails covered params)
  | forceClose m => exact admin _ _ _ _ covers
  | adminClose m => exact admin _ _ _ _ covers

end FuryNode
