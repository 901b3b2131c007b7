import FuryNode.Margin.Atomicity
import FuryNode.Margin.RoundTrip
import FuryNode.Margin.Underflow

/-!
The coins of the module account and the amounts that pools account for. Whatever margin
does to a position and its pool, each denomination of the module account changes by what
the balance and the custody of that side of the pool change.
-/
namespace FuryNode
open StatefulProgram StatefulProgram.Prog KeyedTable KeyedTable.Table ClpKeeper MarginKeeper
  MarginMsgServer
variable {β α : Type} {env : Env β} {f g h : Frame β} {b b' b'' : β} {p p' p'' : Pool}

def Pool.holding (p : Pool) (s : Side) : ℕ := p.amount s .balance + p.amount s .custody

def Pool.accounted (p : Pool) (d : String) : ℕ :=
  if d = nativeSymbol then p.holding .native
  else if d = p.externalAsset then p.holding .external
  else 0

/-- The module account changes as the pool does, denomination by denomination. -/
def Conserves (env : Env β) (b b' : β) (p p' : Pool) : Prop :=
  ∀ d, env.bank.getBalance b' (moduleAddress env) d + p.accounted d =
    env.bank.getBalance b (moduleAddress env) d + p'.accounted d

def Pool.assetAt (p : Pool) : Side → String
  | .native => nativeSymbol
  | .external => p.externalAsset

theorem conserves_refl {b : β} {p : Pool} : Conserves env b b p p := fun _ => rfl

theorem conserves_trans (first : Conserves env b b' p p') (second : Conserves env b' b'' p' p'') :
    Conserves env b b'' p p'' := by
  intro d
  have one := first d
  have two := second d
  omega

theorem conserves_symm (back : Conserves env b' b p' p) : Conserves env b b' p p' :=
  fun d => (back d).symm

theorem accounted_asset {p : Pool} (s : Side) (external : p.externalAsset ≠ nativeSymbol) :
    p.accounted (p.assetAt s) = p.holding s := by
  cases s with
  | native => simp [Pool.accounted, Pool.assetAt]
  | external => simp [Pool.accounted, Pool.assetAt, external]

theorem accounted_other {p p' : Pool} {s : Side} {d : String} (asset : p'.externalAsset = p.externalAsset)
    (same : p'.holding s.other = p.holding s.other) (other : p.assetAt s ≠ d) :
    p'.accounted d = p.accounted d := by
  unfold Pool.accounted
  rw [asset]
  cases s with
  | native =>
    have notNative : d ≠ nativeSymbol := fun equal => other equal.symm
    simp only [notNative, ↓reduceIte]
    split
    · exact same
    · rfl
  | external =>
    have notExternal : d ≠ p.externalAsset := fun equal => other equal.symm
    simp only [notExternal, ↓reduceIte]
    split
    · exact same
    · rfl

theorem conserves_out (s : Side) (n : ℕ) (external : p.externalAsset ≠ nativeSymbol)
    (asset : p'.externalAsset = p.externalAsset) (same : p'.holding s.other = p.holding s.other)
    (left : p'.holding s + n = p.holding s)
    (coins : ∀ d, env.bank.getBalance b' (moduleAddress env) d + (if p.assetAt s = d then n else 0) =
      env.bank.getBalance b (moduleAddress env) d) : Conserves env b b' p p' := by
  intro d
  have moved := coins d
  by_cases side : p.assetAt s = d
  · subst side
    have after : p'.accounted (p.assetAt s) = p'.holding s := by
      have equal : p.assetAt s = p'.assetAt s := by cases s <;> simp [Pool.assetAt, asset]
      rw [equal]
      exact accounted_asset s (asset ▸ external)
    rw [after, accounted_asset s external]
    simp only [↓reduceIte] at moved
    omega
  · rw [accounted_other asset same side]
    simp only [side, ↓reduceIte] at moved
    omega

/-- The position belongs to the pool: one of its assets is fury and the other the pool's. -/
structure Belongs (m : MTP) (p : Pool) : Prop where
  one : OneFurySide m.collateralAsset m.custodyAsset
  asset : p.externalAsset = externalAssetOf m.collateralAsset m.custodyAsset

theorem belongs_assets {m : MTP} (belongs : Belongs m p) :
    p.externalAsset ≠ nativeSymbol ∧ p.assetAt (sideOf m.collateralAsset) = m.collateralAsset ∧
      p.assetAt (sideOf m.custodyAsset) = m.custodyAsset := by
  obtain ⟨one, asset⟩ := belongs
  unfold externalAssetOf at asset
  rcases one with ⟨fury, other⟩ | ⟨other, fury⟩
  · rw [if_pos fury] at asset
    exact ⟨asset ▸ other, by simp [sideOf, fury, Pool.assetAt], by simp [sideOf, other, Pool.assetAt, asset]⟩
  · rw [if_neg other] at asset
    exact ⟨asset ▸ other, by simp [sideOf, other, Pool.assetAt, asset], by simp [sideOf, fury, Pool.assetAt]⟩

/-- From `f` to `g` the module account changed as the pool in memory did. -/
structure Solvent (env : Env β) (f g : Frame β) : Prop where
  conserves : Conserves env f.world.bank g.world.bank f.pool g.pool
  asset : g.pool.externalAsset = f.pool.externalAsset

theorem solvent_refl (env : Env β) (f : Frame β) : Solvent env f f := ⟨conserves_refl, rfl⟩

theorem solvent_trans (first : Solvent env f g) (second : Solvent env g h) : Solvent env f h :=
  ⟨conserves_trans first.conserves second.conserves, second.asset.trans first.asset⟩

structure SameHoldings (f g : Frame β) : Prop where
  bank : g.world.bank = f.world.bank
  asset : g.pool.externalAsset = f.pool.externalAsset
  holding : ∀ s, g.pool.holding s = f.pool.holding s

theorem solvent_same (same : SameHoldings f g) : Solvent env f g := by
  refine ⟨fun d => ?_, same.asset⟩
  have equal : g.pool.accounted d = f.pool.accounted d := by
    unfold Pool.accounted
    rw [same.asset, same.holding, same.holding]
  rw [same.bank, equal]

theorem same_field (f : Frame β) {s : Side} {field : PoolField} {n : ℕ} (balance : field ≠ .balance)
    (custody : field ≠ .custody) :
    SameHoldings f { f with pool := f.pool.setAmount s field n } :=
  ⟨rfl, by simp, fun t => by simp [Pool.holding, amount_set, balance, custody]⟩

theorem setMTP_same (f : Frame β) :
    Meets setMTP f (fun _ => SameHoldings f) (fun _ => SameHoldings f) := by
  unfold setMTP
  refine meets_read_then (meets_bind (P := fun _ => SameHoldings f)
    (meets_when (fun _ => meets_modify ⟨rfl, rfl, fun _ => rfl⟩) (fun _ => ⟨rfl, rfl, fun _ => rfl⟩)) ?_)
  intro _ g same
  refine meets_read_then (meets_ofExcept_then (fun _ _ => ?_) (fun _ _ => same))
  exact meets_modify ⟨same.bank, same.asset, same.holding⟩

theorem storePool_same (f : Frame β) :
    Meets (storePool env) f (fun _ => SameHoldings f) (fun _ => SameHoldings f) := by
  refine meets_read_then (meets_onWorld ?_)
  unfold setPool
  refine meets_ofExcept_then (fun _ _ => ?_) (fun _ _ => ⟨rfl, rfl, fun _ => rfl⟩)
  refine meets_require_then (fun _ => ?_) (fun _ => ⟨rfl, rfl, fun _ => rfl⟩)
  exact meets_modify ⟨rfl, rfl, fun _ => rfl⟩

theorem assignHealth_same (f : Frame β) :
    Meets assignHealth f (fun _ => SameHoldings f) (fun _ => SameHoldings f) := by
  have only : ∀ g, OnlyHealth f g → SameHoldings f g := by
    rintro g ⟨_, rfl⟩
    exact ⟨rfl, rfl, fun _ => rfl⟩
  exact meets_mono _ (assignHealth_only f) (fun _ => only) (fun _ => only)

def OverflowPanic (e : Failure) : Prop := e = .panic .overflow

def Excused (e : Failure) : Prop :=
  OverflowPanic e ∨ e = .err .errBankRefused ∨ e = .panic .bankPanicked

/-- The step conserves, whatever its outcome is, apart from the failures of `X`. -/
def Conserving (env : Env β) (X : Failure → Prop) (f : Frame β) (step : Step β α) (g : Frame β) : Prop :=
  Meets step g (fun _ => Solvent env f) (fun e h => X e ∨ Solvent env f h)

theorem conserving_excused {step : Step β α} (conserving : Conserving env OverflowPanic f step g) :
    Conserving env Excused f step g :=
  meets_mono _ conserving (fun _ _ solvent => solvent) (fun _ _ failed => failed.imp_left Or.inl)

theorem conserving_same {X : Failure → Prop} {step : Step β α} (solvent : Solvent env f g)
    (same : Meets step g (fun _ => SameHoldings g) (fun _ => SameHoldings g)) :
    Conserving env X f step g :=
  meets_mono _ same (fun _ _ kept => solvent_trans solvent (solvent_same kept))
    (fun _ _ kept => Or.inr (solvent_trans solvent (solvent_same kept)))

section Payment

theorem released_solvent (belongs : Belongs f.mtp f.pool) (s : Side) (custody take : ℕ)
    (side : s = sideOf f.mtp.custodyAsset) (within : custody ≤ f.pool.amount s .custody)
    (taken : take ≤ custody) (fund : AccAddress)
    (paid : Paid env f.world.bank b fund f.mtp.custodyAsset take)
    (bank : g.world.bank = b) (pool : g.pool = f.pool.released s custody (custody - take)) :
    Solvent env f g := by
  obtain ⟨external, _, asset⟩ := belongs_assets belongs
  have same : g.pool.externalAsset = f.pool.externalAsset := by rw [pool]; simp [Pool.released]
  refine ⟨?_, same⟩
  rw [bank]
  refine conserves_out s take external same ?_ ?_ ?_
  · rw [pool]
    cases s <;> simp [Pool.holding, Pool.released, amount_set, Side.other]
  · rw [pool]
    simp only [Pool.holding, Pool.released, amount_set, reduceCtorEq, and_false, and_self, ↓reduceIte]
    omega
  · intro d
    rw [side, asset]
    exact paid_module paid d

variable {X : Failure → Prop}

/-- What a payment needs so that none of its subtractions is out of range. -/
def PaymentInRange (f : Frame β) : Prop :=
  f.mtp.custodyAmount ≤ f.pool.amount (sideOf f.mtp.custodyAsset) .custody ∧
    FeeInRange f.world.margin.incrementalInterestPaymentFundPercentage

theorem payFromCustody_conserving (overflow : X (.panic .overflow)) {split : PaymentSplit}
    (belongs : Belongs f.mtp f.pool) (within : split.custody ≤ f.mtp.custodyAmount)
    (inRange : InRange X (PaymentInRange f)) : Conserving env X f (payFromCustody env split) f := by
  have start := solvent_refl env f
  unfold Conserving payFromCustody
  refine meets_read_then (meets_ofExcept_then (fun paidCollateral _ => ?_) (fun _ _ => Or.inr start))
  refine meets_modify_then (meets_ofExcept_then (fun paidCustody _ => ?_)
    (fun _ _ => Or.inr ⟨start.1, start.2⟩))
  refine meets_modify_then (meets_ofExcept_then (fun rest _ => ?_) (fun _ _ => Or.inr ⟨start.1, start.2⟩))
  refine meets_modify_then (meets_ofExcept_then (fun fund _ => ?_) (fun _ _ => Or.inr ⟨start.1, start.2⟩))
  refine meets_bind (P := fun take g => InRange X (take ≤ split.custody) ∧ g.pool = f.pool ∧
    Paid env f.world.bank g.world.bank fund f.mtp.custodyAsset take) (meets_onWorld ⟨?_, ?_⟩) ?_
  · intro take w run
    obtain ⟨⟨share, multiplied, truncated⟩, b, paid, rfl⟩ :=
      takeFundPayment_succeeds run
    exact ⟨inRange.imp_left (fun whole => share_le whole.2.2 multiplied truncated), rfl, paid⟩
  · intro e w run
    obtain rfl := (takeFundPayment_coins env).error e w run
    exact Or.inr ⟨start.1, start.2⟩
  rintro take g ⟨takeInRange, samePool, paid⟩
  refine meets_ofExcept_then (fun actual left => ?_) (fun e failed => ?_)
  · obtain ⟨taken, rfl⟩ := (Uint.sub_succeeds _ _ _).mp left
    refine meets_bind (P := fun _ h => split.custody ≤ f.pool.amount (sideOf f.mtp.custodyAsset) .custody ∧
      h.world.bank = g.world.bank ∧ h.pool = f.pool.setAmount (sideOf f.mtp.custodyAsset) .custody
        (f.pool.amount (sideOf f.mtp.custodyAsset) .custody - split.custody))
      (meets_subField (fun enough => ⟨samePool ▸ enough, rfl, by rw [samePool]⟩) ?_) ?_
    · intro short
      rw [samePool] at short
      refine Or.inl (inRange.resolve_left (fun whole => ?_))
      have covered := whole.1
      omega
    rintro _ h ⟨enough, bank, subtracted⟩
    refine meets_bind (P := fun _ => Solvent env f) (meets_addField ?_ (fun _ => Or.inl overflow)) ?_
    · intro _
      refine released_solvent belongs _ split.custody take rfl enough taken fund paid bank ?_
      simp [subtracted, Pool.released, amount_set]
    intro _ i solvent
    refine meets_bind (conserving_same solvent (setMTP_same i)) (fun _ j solvent => ?_)
    exact meets_bind (conserving_same solvent (storePool_same j)) (fun _ _ solvent => meets_pure solvent)
  · obtain ⟨rfl, short⟩ := Uint.sub_fails e failed
    exact Or.inl (takeInRange.resolve_left (by omega))

theorem incrementalInterestPayment_conserving (overflow : X (.panic .overflow)) (interestPayment : ℕ)
    (belongs : Belongs f.mtp f.pool) (inRange : InRange X (PaymentInRange f)) :
    Conserving env X f (incrementalInterestPayment env interestPayment) f := by
  have start := solvent_refl env f
  unfold Conserving incrementalInterestPayment
  refine meets_read_then (meets_ofExcept_then (fun payment _ => ?_) (fun _ _ => Or.inr start))
  refine meets_ofExcept_then (fun custody _ => ?_) (fun _ _ => Or.inr start)
  refine meets_modify_then (meets_ofExcept_then (fun split split' => ?_)
    (fun _ _ => Or.inr ⟨start.1, start.2⟩))
  have within := (coverPayment_within split').1
  refine meets_modify_then (meets_mono _ (payFromCustody_conserving overflow
    ⟨belongs.one, belongs.asset⟩ within inRange) ?_ ?_)
  · exact fun _ _ solvent => ⟨solvent.1, solvent.2⟩
  · exact fun _ _ failed => failed.imp_right (fun solvent => ⟨solvent.1, solvent.2⟩)

theorem handleInterestPayment_conserving (overflow : X (.panic .overflow))
    (panics : ∀ d, ¬X (.err d)) (interestPayment : ℕ) (belongs : Belongs f.mtp f.pool)
    (inRange : InRange X (PaymentInRange f)) :
    Conserving env X f (handleInterestPayment env interestPayment) f := by
  unfold Conserving handleInterestPayment
  refine meets_read_then (meets_ite (fun _ => ?_) (fun _ => ?_))
  · refine meets_bind (P := fun _ => Solvent env f) (meets_outcome (meets_mono _
      (incrementalInterestPayment_conserving overflow interestPayment belongs inRange)
      (fun _ _ solvent => solvent) ?_)) ?_
    · intro e g failed
      cases e with
      | err d => exact failed.resolve_left (panics d)
      | panic q => exact failed
    · intro result g solvent
      cases result with
      | ok _ => exact meets_pure solvent
      | error e =>
        exact meets_bind (P := fun _ => Solvent env f) (meets_modify ⟨solvent.1, solvent.2⟩)
          (fun _ _ solvent => meets_pure solvent)
  · exact meets_modify_then (meets_pure ⟨conserves_refl, rfl⟩)

theorem chargeWithinEpoch_conserving (overflow : X (.panic .overflow)) (panics : ∀ d, ¬X (.err d))
    (belongs : Belongs f.mtp f.pool) (inRange : InRange X (PaymentInRange f)) :
    Conserving env X f (chargeWithinEpoch env) f := by
  have start := solvent_refl env f
  unfold Conserving chargeWithinEpoch
  refine meets_read_then (meets_when (fun _ => ?_) (fun _ => start))
  refine meets_bind (P := fun _ => Solvent env f) ?_
    (fun _ g solvent => conserving_same solvent (assignHealth_same g))
  unfold chargeInterest
  refine meets_read_then (meets_ofExcept_then (fun payment _ => ?_) (fun _ _ => Or.inr start))
  refine meets_bind (handleInterestPayment_conserving overflow panics payment belongs inRange) ?_
  intro actual g solvent
  refine meets_addField (fun _ => ?_) (fun _ => Or.inl overflow)
  exact solvent_trans solvent (solvent_same (same_field g (by decide) (by decide)))

end Payment

/-- The owner of the position has an address and its collateral is a denomination. -/
structure Payable (env : Env β) (m : MTP) : Prop where
  denom : env.validateDenom m.collateralAsset = true
  owner : (env.accAddressFromBech32 m.address).isSome

theorem coinsAdd_overflows {coins : Coins} {c : Coin} : FailsOnly (Coins.add coins c) OverflowPanic := by
  refine failsOnly_ite (fun _ => failsOnly_ok) (fun _ => ?_)
  cases coins.find? (fun d => d.denom = c.denom) with
  | none => exact failsOnly_ok
  | some d => exact failsOnly_bind Uint.add_fails (fun _ _ => failsOnly_ok)

theorem bankCall_refused (call : β → Except BankFailure β) (w : World β) :
    Meets (bankCall call) w (fun _ _ => True) (fun e _ => Excused e) := by
  unfold bankCall
  refine meets_read_then ?_
  split
  · exact meets_modify trivial
  · rename_i failure _
    cases failure with
    | refused => exact meets_fail (Or.inr (Or.inl rfl))
    | panicked => exact meets_fail (Or.inr (Or.inr rfl))

variable {takeFund : Bool} {w : World β}

theorem ownerPart_refused {amount : ℕ} {asset : String}
    (percentage : FeeInRange w.margin.forceCloseFundPercentage) :
    Meets (ownerPart env amount asset takeFund) w (fun _ _ => True) (fun _ w' => w'.bank = w.bank) := by
  unfold ownerPart
  refine meets_ite (fun _ => ?_) (fun _ => meets_pure trivial)
  refine meets_read_then (meets_ofExcept_then (fun fund _ => ?_) (fun _ _ => rfl))
  refine meets_bind (P := fun take _ => take ≤ amount) ⟨?_, ?_⟩ (fun take r taken => ?_)
  · intro take w' run
    obtain ⟨⟨share, multiplied, truncated⟩, _⟩ := takeFundPayment_succeeds run
    exact share_le percentage.2 multiplied truncated
  · intro e w' run
    obtain rfl := (takeFundPayment_coins env).error e w' run
    rfl
  · refine meets_ofExcept (fun _ _ => trivial) (fun e failed => ?_)
    exact absurd (Uint.sub_fails e failed).2 (by omega)

theorem payReturn_refused {mtp : MTP} {amount : ℕ} (payable : Payable env mtp)
    (percentage : FeeInRange w.margin.forceCloseFundPercentage) :
    Meets (payReturn env mtp amount takeFund) w (fun _ _ => True)
      (fun e w' => Excused e ∨ w'.bank = w.bank) := by
  unfold payReturn
  refine meets_when (fun _ => ?_) (fun _ => trivial)
  refine meets_bind (P := fun _ _ => True) (meets_mono _ (ownerPart_refused percentage)
    (fun _ _ done => done) (fun _ _ same => Or.inr same)) (fun part r _ => ?_)
  refine meets_when (fun some => ?_) (fun _ => trivial)
  have coin : newCoin env mtp.collateralAsset part = .ok ⟨mtp.collateralAsset, part⟩ :=
    (newCoin_succeeds _ _ _).mpr ⟨payable.denom, rfl⟩
  obtain ⟨owner, decodes⟩ := Option.isSome_iff_exists.mp payable.owner
  have decoded : decodeAddress env mtp.address = .ok owner := (decodeAddress_succeeds _).mpr decodes
  rw [coin, decoded]
  refine meets_ofExcept_then (fun _ _ => ?_) (fun e failed => by cases failed)
  refine meets_ofExcept_then (fun coins _ => ?_) (fun e failed => ?_)
  · refine meets_ofExcept_then (fun _ _ => ?_) (fun e failed => by cases failed)
    exact meets_mono _ (bankCall_refused _ r) (fun _ _ done => done) (fun _ _ refused => Or.inl refused)
  · exact Or.inl (Or.inl (coinsAdd_overflows e failed))

theorem takeOutCustody_conserving
    (covered : f.mtp.custodyAmount ≤ f.pool.amount (sideOf f.mtp.custodyAsset) .custody) :
    Conserving env OverflowPanic f (takeOutCustody env) f := by
  unfold Conserving takeOutCustody
  refine meets_read_then (meets_bind (P := fun _ g => g.world.bank = f.world.bank ∧
    g.pool = f.pool.setAmount (sideOf f.mtp.custodyAsset) .custody
      (f.pool.amount (sideOf f.mtp.custodyAsset) .custody - f.mtp.custodyAmount))
    (meets_subField (fun _ => ⟨rfl, rfl⟩) (fun short => by omega)) ?_)
  rintro _ g ⟨bank, subtracted⟩
  refine meets_bind (P := fun _ => Solvent env f) (meets_addField ?_ (fun _ => Or.inl rfl))
    (fun _ h solvent => conserving_same solvent (storePool_same h))
  intro _
  refine solvent_same ⟨bank, by simp [subtracted], fun s => ?_⟩
  simp only [subtracted, Pool.holding, amount_set, reduceCtorEq, and_false, and_true, ↓reduceIte]
  split
  · rename_i same
    subst same
    omega
  · rfl

theorem returned_solvent (belongs : Belongs f.mtp f.pool) {amount : ℕ}
    (within : amount ≤ f.pool.amount (sideOf f.mtp.collateralAsset) .balance)
    (payout : Payout env f.mtp.address f.mtp.collateralAsset amount takeFund f.world.bank b)
    (bank : g.world.bank = b)
    (pool : g.pool = f.pool.setAmount (sideOf f.mtp.collateralAsset) .balance
      (f.pool.amount (sideOf f.mtp.collateralAsset) .balance - amount)) : Solvent env f g := by
  obtain ⟨external, asset, _⟩ := belongs_assets belongs
  have same : g.pool.externalAsset = f.pool.externalAsset := by simp [pool]
  refine ⟨?_, same⟩
  rw [bank]
  refine conserves_out (sideOf f.mtp.collateralAsset) amount external same ?_ ?_ ?_
  · rw [pool]
    cases sideOf f.mtp.collateralAsset <;> simp [Pool.holding, amount_set, Side.other]
  · simp only [pool, Pool.holding, amount_set, reduceCtorEq, and_false, and_self, ↓reduceIte]
    omega
  · intro d
    rw [asset]
    exact payout_module payout d

theorem destroyMTP_same {address : String} {id : ℕ} (f : Frame β) :
    Meets (onWorld (destroyMTP address id)) f (fun _ => SameHoldings f) (fun _ => SameHoldings f) := by
  refine meets_onWorld ?_
  unfold destroyMTP getMTP
  refine meets_bind (P := fun _ w => w = f.world) (meets_read_then ?_) ?_
  · split
    · exact meets_pure rfl
    · exact meets_fail ⟨rfl, rfl, fun _ => rfl⟩
  · rintro _ w rfl
    exact meets_modify ⟨rfl, rfl, fun _ => rfl⟩

theorem repay_conserving {repayAmount : ℕ} (takeFund : Bool) (belongs : Belongs f.mtp f.pool)
    (payable : Payable env f.mtp) (percentage : FeeInRange f.world.margin.forceCloseFundPercentage)
    (liabilities : f.mtp.liabilities ≤ f.pool.amount (sideOf f.mtp.collateralAsset) .liabilities)
    (below : repayAmount ≤ f.pool.amount (sideOf f.mtp.collateralAsset) .balance) :
    Conserving env Excused f (repay env repayAmount takeFund) f := by
  unfold Conserving repay
  refine meets_bind (P := fun _ g => OnlyHealth f g) (meets_mono _ (assignHealth_only f)
    (fun _ _ only => only) ?_) ?_
  · rintro _ g ⟨_, rfl⟩
    exact Or.inr ⟨conserves_refl, rfl⟩
  rintro _ g ⟨health, rfl⟩
  refine meets_read_then (meets_ofExcept_then ?_ (fun _ _ => Or.inr ⟨conserves_refl, rfl⟩))
  rintro ⟨returnAmount, debtP, debtI⟩ settled
  have returned := (settleDebt_succeeds settled).1
  refine meets_bind (P := fun _ h => h.pool = f.pool ∧ Payout env f.mtp.address f.mtp.collateralAsset
    returnAmount takeFund f.world.bank h.world.bank) (meets_onWorld ⟨?_, ?_⟩) ?_
  · intro _ w run
    obtain ⟨b, payout, rfl⟩ := payReturn_succeeds run
    exact ⟨rfl, payout⟩
  · intro e w run
    refine ((payReturn_refused ⟨payable.denom, payable.owner⟩ percentage).error e w run).imp_right
      (fun same => ?_)
    exact solvent_same ⟨same, rfl, fun _ => rfl⟩
  rintro _ h ⟨samePool, payout⟩
  dsimp only at returned
  refine meets_bind (P := fun _ i => Solvent env f i ∧
    i.pool.amount (sideOf f.mtp.collateralAsset) .liabilities =
      f.pool.amount (sideOf f.mtp.collateralAsset) .liabilities) (meets_subField ?_ ?_) ?_
  · intro within
    rw [samePool] at within ⊢
    exact ⟨returned_solvent belongs within payout rfl rfl, by simp [amount_set]⟩
  · intro short
    rw [samePool] at short
    dsimp only at short
    omega
  rintro _ i ⟨solvent, same⟩
  refine meets_bind (P := fun _ => Solvent env f) (meets_subField (fun _ => ?_) (fun short => ?_)) ?_
  · exact solvent_trans solvent (solvent_same (same_field i (by decide) (by decide)))
  · dsimp only at short
    omega
  intro _ j solvent
  refine meets_ofExcept_then (fun _ _ => ?_) (fun _ _ => Or.inr solvent)
  refine meets_ofExcept_then (fun _ _ => ?_) (fun _ _ => Or.inr solvent)
  refine meets_bind (P := fun _ => Solvent env f) (meets_modify (solvent_trans solvent
    (solvent_same (same_field j (by decide) (by decide))))) (fun _ k solvent => ?_)
  refine meets_bind (P := fun _ => Solvent env f) (conserving_same solvent (destroyMTP_same k)) ?_
  exact fun _ l solvent => conserving_same solvent (storePool_same l)

/-- A position as `Open` writes it, in the pool it belongs to, under parameters in range. -/
structure Margined (env : Env β) (f : Frame β) : Prop where
  covered : Covered f
  asset : f.pool.externalAsset = externalAssetOf f.mtp.collateralAsset f.mtp.custodyAsset
  payable : Payable env f.mtp
  params : ParamsInRange f.world

theorem Margined.belongs (margined : Margined env f) : Belongs f.mtp f.pool :=
  ⟨margined.covered.one, margined.asset⟩

theorem drift_margined (drift : Drift env f 0 g) (margined : Margined env f) : Margined env g := by
  have address : g.mtp.address = f.mtp.address := congrArg MtpKey.address drift.key
  refine ⟨drift_covered drift margined.covered, ?_, ⟨?_, ?_⟩, drift_params drift margined.params⟩
  · rw [drift.asset, drift.collateralAsset, drift.custodyAsset]
    exact margined.asset
  · rw [drift.collateralAsset]
    exact margined.payable.denom
  · rw [address]
    exact margined.payable.owner

theorem closePosition_conserving (takeFund : Bool) (margined : Margined env f) :
    Conserving env Excused f (closePosition env takeFund) f := by
  have asset : f.released.pool.externalAsset = f.pool.externalAsset := by
    simp [Frame.released, Frame.stored, Pool.released]
  have liabilities : f.mtp.liabilities ≤
      f.released.pool.amount (sideOf f.mtp.collateralAsset) .liabilities := by
    simpa [Frame.released, Frame.stored, released_liabilities] using margined.covered.liabilities
  unfold Conserving closePosition
  refine meets_bind (P := fun _ g => g = f.released ∧ Solvent env f g) ⟨?_, ?_⟩ ?_
  · intro u g run
    exact ⟨(takeOutCustody_succeeds run).2,
      (takeOutCustody_conserving margined.covered.custody).ok u g run⟩
  · exact (conserving_excused (takeOutCustody_conserving margined.covered.custody)).error
  rintro _ g ⟨rfl, released⟩
  refine meets_read_then (meets_ofExcept_then (fun repayAmount sold => ?_) (fun _ _ => Or.inr released))
  have repaid : Conserving env Excused f.released (repay env repayAmount takeFund) f.released :=
    repay_conserving takeFund ⟨margined.covered.one, asset.trans margined.asset⟩
      margined.payable margined.params.forceClose liabilities (clpSwap_bounds sold).2.le
  refine meets_bind (P := fun _ => Solvent env f) (meets_mono _ repaid
    (fun _ _ solvent => solvent_trans released solvent) ?_) (fun _ _ solvent => meets_pure solvent)
  exact fun _ _ failed => failed.imp_right (fun solvent => solvent_trans released solvent)

theorem charged_conserving {step : Step β α} (margined : Margined env f)
    (closes : ∀ g, Margined env g → Conserving env Excused g step g) :
    Conserving env Excused f (chargeWithinEpoch env >>= fun _ => step) f := by
  have charge : Conserving env OverflowPanic f (chargeWithinEpoch env) f :=
    chargeWithinEpoch_conserving rfl (by simp [OverflowPanic]) margined.belongs
      (Or.inl ⟨margined.covered.custody, margined.params.interest⟩)
  refine meets_bind (P := fun _ g => Solvent env f g ∧ Margined env g) ⟨?_, ?_⟩ ?_
  · intro u g run
    exact ⟨charge.ok u g run,
      drift_margined ((chargeWithinEpoch_drift margined.covered.numbered).ok u g run) margined⟩
  · exact (conserving_excused charge).error
  rintro _ g ⟨charged, still⟩
  exact meets_mono _ (closes g still) (fun _ _ solvent => solvent_trans charged solvent)
    (fun _ _ failed => failed.imp_right (fun solvent => solvent_trans charged solvent))

theorem forceCloseLong_conserving {isAdminClose : Bool} (margined : Margined env f) :
    Conserving env Excused f (forceCloseLong env isAdminClose takeFund) f := by
  refine charged_conserving margined (fun g still => ?_)
  exact meets_read_then (meets_require_then (fun _ => closePosition_conserving takeFund still)
    (fun _ => Or.inr (solvent_refl env g)))

theorem closePosition_solvent {repayAmount : ℕ} (belongs : Belongs f.mtp f.pool)
    (run : (closePosition env takeFund).run f = (.ok repayAmount, g)) :
    Solvent env f g ∧ g.world.pools.get f.pool.key = some g.pool := by
  obtain ⟨health, b, enough, _, repayable, payout, rfl⟩ := closePosition_succeeds run
  have asset : f.released.pool.externalAsset = f.pool.externalAsset := by
    simp [Frame.released, Frame.stored, Pool.released]
  have released : Solvent env f f.released := by
    refine solvent_same ⟨rfl, asset, fun s => ?_⟩
    simp only [Frame.released, Frame.stored, Pool.released, Pool.holding, amount_set, reduceCtorEq,
      and_false, and_true, ↓reduceIte]
    split
    · rename_i same
      subst same
      omega
    · rfl
  let owed := f.mtp.liabilities + f.mtp.interestUnpaidCollateral
  let collateral := sideOf f.mtp.collateralAsset
  let returned : Frame β := { f.released with
    world := { f.released.world with bank := b }
    pool := (f.released.pool.setAmount collateral .balance
      (f.released.pool.amount collateral .balance - (repayAmount - owed))) }
  have paid : Solvent env f.released returned :=
    returned_solvent ⟨belongs.one, asset.trans belongs.asset⟩ repayable.returned payout rfl rfl
  have same : SameHoldings returned (repaidFrame f.released repayAmount health b) := by
    refine ⟨rfl, by simp [repaidFrame, Pool.repaid, returned], fun s => ?_⟩
    simp [repaidFrame, Pool.repaid, returned, Pool.holding, amount_set, collateral, owed, Frame.released,
      Frame.stored]
  refine ⟨solvent_trans released (solvent_trans paid (solvent_same same)), ?_⟩
  have key : (repaidFrame f.released repayAmount health b).pool.key = f.pool.key := by
    simp [repaidFrame, Frame.released, Frame.stored]
  rw [← key]
  exact get_put_same _ _

def MarginMsg.assets (w : World β) : MarginMsg → Option (String × String)
  | .open' m => some (m.collateralAsset, m.borrowAsset)
  | .close m => (w.mtps.get ⟨m.signer, m.id⟩).map (fun t => (t.collateralAsset, t.custodyAsset))
  | .forceClose m =>
      (w.mtps.get ⟨m.mtpAddress, m.id⟩).map (fun t => (t.collateralAsset, t.custodyAsset))
  | .adminClose m =>
      (w.mtps.get ⟨m.mtpAddress, m.id⟩).map (fun t => (t.collateralAsset, t.custodyAsset))

/-- The pool of these assets before and after, and the module account with it. -/
def PoolConserves (env : Env β) (w w' : World β) (assets : Option (String × String)) : Prop :=
  ∃ a b p p', assets = some (a, b) ∧ w.pools.get ⟨externalAssetOf a b⟩ = some p ∧
    w'.pools.get ⟨externalAssetOf a b⟩ = some p' ∧ Conserves env w.bank w'.bank p p'

theorem open_conserves {m : MsgOpen} {w' : World β} {dropped : List Failure}
    (one : OneFurySide m.collateralAsset m.borrowAsset) {sender : AccAddress}
    (decoded : env.accAddressFromBech32 m.signer = some sender)
    (outside : sender ≠ moduleAddress env) (run : (open' env m).run w = (.ok dropped, w')) :
    PoolConserves env w w' (some (m.collateralAsset, m.borrowAsset)) := by
  obtain ⟨t, b, terms, _, rfl⟩ := open_succeeds run
  obtain rfl : t.sender = sender := Option.some.inj (terms.decoded.symm.trans decoded)
  have key := (poolAfter_key t m).trans (get_key _ _ _ terms.found)
  refine ⟨_, _, t.pool, t.poolAfter m, rfl, terms.found, key ▸ get_put_same _ _, ?_⟩
  have belongs : Belongs (t.mtp m 0) (t.poolAfter m) := ⟨one, congrArg PoolKey.symbol key⟩
  obtain ⟨external, asset, _⟩ := belongs_assets belongs
  have sides := sides_differ one
  have differ : sideOf m.borrowAsset ≠ sideOf m.collateralAsset := by
    rw [sides]
    cases sideOf m.collateralAsset <;> decide
  have inBalance := terms.inBalance
  simp only [OpenTerms.borrowedPool, Pool.borrowed, amount_set, reduceCtorEq, and_false, and_true,
    differ.symm, ↓reduceIte] at inBalance
  refine conserves_symm (conserves_out (sideOf m.collateralAsset) m.collateralAmount external
    (congrArg PoolKey.symbol (poolAfter_key t m)).symm ?_ ?_ ?_)
  · rw [← sides]
    simp only [OpenTerms.poolAfter, OpenTerms.borrowedPool, Pool.takenIn, Pool.borrowed, Pool.holding,
      amount_set, amount_withHealth, reduceCtorEq, and_false, and_true, differ.symm, ↓reduceIte]
    omega
  · simp only [OpenTerms.poolAfter, OpenTerms.borrowedPool, Pool.takenIn, Pool.borrowed, Pool.holding,
      amount_set, amount_withHealth, reduceCtorEq, and_false, and_true, differ, ↓reduceIte]
    omega
  · intro d
    have moved := terms.coins (moduleAddress env) d
    rw [show (t.poolAfter m).assetAt (sideOf m.collateralAsset) = m.collateralAsset from asset]
    simp only [outside.symm, ↓reduceIte, Nat.add_zero] at moved
    exact moved.symm

/-- Any panic, and no error. -/
def Panics (e : Failure) : Prop := ∃ p, e = .panic p

theorem charged_close_solvent {n : ℕ} (belongs : Belongs f.mtp f.pool) (numbered : f.mtp.id ≠ 0)
    (charged : (chargeWithinEpoch env).run f = (.ok (), g))
    (closed : (closePosition env takeFund).run g = (.ok n, h)) :
    Solvent env f h ∧ h.world.pools.get f.pool.key = some h.pool := by
  have charge : Conserving env Panics f (chargeWithinEpoch env) f :=
    chargeWithinEpoch_conserving ⟨_, rfl⟩ (by rintro d ⟨p, same⟩; cases same) belongs (Or.inr ⟨_, rfl⟩)
  have drift := (chargeWithinEpoch_drift numbered).ok _ _ charged
  have still : Belongs g.mtp g.pool := by
    refine ⟨?_, ?_⟩
    · rw [drift.collateralAsset, drift.custodyAsset]
      exact belongs.one
    · rw [drift.collateralAsset, drift.custodyAsset, drift.asset]
      exact belongs.asset
  obtain ⟨solvent, stored⟩ := closePosition_solvent still closed
  refine ⟨solvent_trans (charge.ok _ _ charged) solvent, ?_⟩
  have key : g.pool.key = f.pool.key := congrArg PoolKey.mk drift.asset
  rw [← key]
  exact stored

theorem forceCloseLong_solvent {isAdminClose : Bool} {n : ℕ} (belongs : Belongs f.mtp f.pool)
    (numbered : f.mtp.id ≠ 0) (run : (forceCloseLong env isAdminClose takeFund).run f = (.ok n, h)) :
    Solvent env f h ∧ h.world.pools.get f.pool.key = some h.pool := by
  unfold forceCloseLong at run
  obtain ⟨_, g, charged, run⟩ := bind_ok run
  rw [read_then, require_then] at run
  exact charged_close_solvent belongs numbered charged run.2

theorem closeLong_solvent (n : ℕ) (belongs : Belongs f.mtp f.pool) (numbered : f.mtp.id ≠ 0)
    (run : (closeLong env).run f = (.ok n, h)) :
    Solvent env f h ∧ h.world.pools.get f.pool.key = some h.pool := by
  obtain ⟨_, g, charged, closed⟩ := bind_ok run
  exact charged_close_solvent belongs numbered charged closed

theorem withPosition_conserves {address : String} {id : ℕ} {act : Step β ℕ} {w' : World β}
    {dropped : List Failure} (numbered : ∀ mtp ∈ w.mtps.rows, mtp.id ≠ 0)
    (one : ∀ mtp, w.mtps.get ⟨address, id⟩ = some mtp → OneFurySide mtp.collateralAsset mtp.custodyAsset)
    (closes : ∀ (f g : Frame β) n, Belongs f.mtp f.pool → f.mtp.id ≠ 0 → act.run f = (.ok n, g) →
      Solvent env f g ∧ g.world.pools.get f.pool.key = some g.pool)
    (run : (withPosition address id act).run w = (.ok dropped, w')) :
    PoolConserves env w w'
      ((w.mtps.get ⟨address, id⟩).map (fun t => (t.collateralAsset, t.custodyAsset))) := by
  obtain ⟨mtp, pool, n, g, found, inPools, ran, _, rfl⟩ := withPosition_succeeds run
  have key := get_key _ _ _ inPools
  obtain ⟨solvent, stored⟩ := closes _ g n ⟨one mtp found, congrArg PoolKey.symbol key⟩
    (numbered mtp (get_mem found).1) ran
  refine ⟨_, _, pool, g.pool, by rw [found]; rfl, inPools, ?_, solvent.conserves⟩
  rw [← key]
  exact stored

theorem message_conserves {msg : MarginMsg} {w' : World β} {dropped : List Failure}
    (numbered : ∀ mtp ∈ w.mtps.rows, mtp.id ≠ 0)
    (one : ∀ a b, msg.assets w = some (a, b) → OneFurySide a b)
    (run : (msg.action env).run w = (.ok dropped, w')) : PoolConserves env w w' (msg.assets w) := by
  obtain ⟨_, ⟨sender, decoded, canSign⟩, run⟩ := action_succeeds _ _ _ _ run
  have outside : sender ≠ moduleAddress env := by
    rintro rfl
    rw [moduleAddress, env.module_cannot_sign] at canSign
    cases canSign
  have stored : ∀ address id, (∀ a b, (w.mtps.get ⟨address, id⟩).map
      (fun t => (t.collateralAsset, t.custodyAsset)) = some (a, b) → OneFurySide a b) →
      ∀ mtp, w.mtps.get ⟨address, id⟩ = some mtp → OneFurySide mtp.collateralAsset mtp.custodyAsset :=
    fun address id sides mtp found => sides _ _ (by rw [found]; rfl)
  cases msg with
  | open' m => exact open_conserves (one _ _ rfl) decoded outside run
  | close m =>
    exact withPosition_conserves numbered (stored _ _ one)
      (fun _ _ n belongs id ran => closeLong_solvent n belongs id ran) run
  | forceClose m =>
    obtain ⟨_, r, admin, later⟩ := bind_ok run
    obtain rfl := requireAdmin_same admin
    exact withPosition_conserves numbered (stored _ _ one)
      (fun _ _ n belongs id ran => forceCloseLong_solvent belongs id ran) later
  | adminClose m =>
    obtain ⟨_, r, admin, later⟩ := bind_ok run
    obtain rfl := requireAdmin_same admin
    exact withPosition_conserves numbered (stored _ _ one)
      (fun _ _ n belongs id ran => forceCloseLong_solvent belongs id ran) later

/-- What a repayment did with its amount: it went to the fund and the owner or settled debt, and
    the debt that it did not settle is unsettled. -/
def RepaySettled (env : Env β) (f g : Frame β) (repayAmount : ℕ) (takeFund : Bool) : Prop :=
  let owed := f.mtp.liabilities + f.mtp.interestUnpaidCollateral
  let collateral := sideOf f.mtp.collateralAsset
  ∃ paid, Payout env f.mtp.address f.mtp.collateralAsset paid takeFund f.world.bank g.world.bank ∧
    paid + min owed repayAmount = repayAmount ∧
    g.pool.amount collateral .unsettled = f.pool.amount collateral .unsettled + (owed - repayAmount)

theorem repay_settled {repayAmount : ℕ} {u : Unit}
    (run : (repay env repayAmount takeFund).run f = (.ok u, g)) :
    RepaySettled env f g repayAmount takeFund := by
  obtain ⟨_, health, b, payout, rfl⟩ := repay_succeeds run
  refine ⟨_, payout, by omega, ?_⟩
  simp [repaidFrame, Pool.repaid, amount_set]

/-- A step of a block on a position: the module account and the pool change alike, the pool is
    stored when the step succeeds, and no subtraction is out of range. -/
structure StepSolvent (env : Env β) (X : Failure → Prop) (f : Frame β) (step : Step β ℕ) : Prop where
  conserving : Conserving env X f step f
  stored : ∀ n g, step.run f = (.ok n, g) → g.world.pools.get f.pool.key = some g.pool
  inRange : Fails step f NotUnderflow

theorem payment_solvent (interestPayment : ℕ) (margined : Margined env f) :
    StepSolvent env OverflowPanic f (incrementalInterestPayment env interestPayment) := by
  have overflow : OverflowPanic (.panic .overflow) := rfl
  refine ⟨incrementalInterestPayment_conserving overflow _ margined.belongs
    (Or.inl ⟨margined.covered.custody, margined.params.interest⟩), ?_,
    incrementalInterestPayment_fails margined.covered margined.params⟩
  intro n g run
  obtain ⟨_, split, take, b, _, _, _, _, rfl⟩ :=
    incrementalInterestPayment_succeeds margined.covered.numbered run
  have key : (interestPaid f split take b).pool.key = f.pool.key := by simp [interestPaid]
  rw [← key]
  exact get_put_same _ _

theorem forceClose_solvent (isAdminClose takeFund : Bool) (margined : Margined env f) :
    StepSolvent env Excused f (forceCloseLong env isAdminClose takeFund) :=
  ⟨forceCloseLong_conserving margined,
    fun _ _ run => (forceCloseLong_solvent margined.belongs margined.covered.numbered run).2,
    forceCloseLong_fails margined.covered margined.params⟩

/-- Margin keeps the module account and the pools together: every accepted message, every interest
    payment and every force close; a repayment is accounted for, and no subtraction is out of range. -/
theorem margin_solvency (env : Env β) :
    (∀ (msg : MarginMsg) (w w' : World β) dropped, (∀ mtp ∈ w.mtps.rows, mtp.id ≠ 0) →
      (∀ a b, msg.assets w = some (a, b) → OneFurySide a b) →
      (msg.action env).run w = (.ok dropped, w') → PoolConserves env w w' (msg.assets w)) ∧
    (∀ (msg : MarginMsg) (w : World β), ParamsInRange w → msg.Covers w → Fails (msg.action env) w NotUnderflow) ∧
    (∀ f, Margined env f →
      (∀ interestPayment, StepSolvent env OverflowPanic f (incrementalInterestPayment env interestPayment)) ∧
      ∀ isAdminClose takeFund, StepSolvent env Excused f (forceCloseLong env isAdminClose takeFund)) ∧
    ∀ f g repayAmount takeFund, (repay env repayAmount takeFund).run f = (.ok (), g) →
      RepaySettled env f g repayAmount takeFund := by
  refine ⟨?_, ?_, ?_, ?_⟩
  · intro msg w w' dropped numbered one run
    exact message_conserves numbered one run
  · intro msg w params covers
    exact message_fails params covers
  · intro f margined
    exact ⟨fun n => payment_solvent n margined, fun a t => forceClose_solvent a t margined⟩
  · intro f g repayAmount takeFund run
    exact repay_settled run

theorem ledger_params (w : World LedgerBank.Balances) (clp : w.clp = LedgerBank.clpParams)
    (margin : w.margin = LedgerBank.marginParams) : ParamsInRange w := by
  refine ⟨⟨?_, ?_⟩, ?_, ?_⟩
  · rw [clp]
    exact ⟨by decide, by decide⟩
  · rw [clp]
    intro p member
    cases member
  · rw [margin]
    exact ⟨by decide, by decide⟩
  · rw [margin]
    exact ⟨by decide, by decide⟩

theorem bob_margined : Margined LedgerBank.env (bobFrame LedgerBank.pooled.bank (10 ^ 16)) :=
  ⟨⟨by decide +kernel, by decide +kernel, by decide +kernel, by decide +kernel⟩, by decide +kernel,
    ⟨by decide +kernel, by decide +kernel⟩, ledger_params _ rfl rfl⟩

/-- The force close of bob's position in a block, and bob's message to open one. -/
theorem bob_solvent :
    StepSolvent LedgerBank.env Excused (bobFrame LedgerBank.pooled.bank (10 ^ 16))
        (forceCloseLong LedgerBank.env false true) ∧
      PoolConserves LedgerBank.env midEpoch bobOpened (some ("fury", "ceth")) := by
  obtain ⟨messages, _, steps, _⟩ := margin_solvency LedgerBank.env
  refine ⟨(steps _ bob_margined).2 false true, ?_⟩
  refine messages (.open' bobOpens) midEpoch bobOpened [] (by decide +kernel) ?_
    (Prod.ext (by decide +kernel) rfl)
  rintro a b same
  cases same
  exact Or.inl ⟨rfl, by decide⟩

end FuryNode
