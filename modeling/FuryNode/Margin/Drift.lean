import FuryNode.Margin.Effects

/-!
How far an interest payment can move a position and its pool, whatever its outcome. Custody
only leaves the position, and what the balance gains on the custody side has left the
position before. Debts, the other balance and the parameters stay.
-/
namespace FuryNode
open StatefulProgram StatefulProgram.Prog KeyedTable KeyedTable.Table ClpKeeper MarginKeeper
variable {β : Type}

/-- `g` is on the way from `f`; at least `n` has left the position and is not in the balance. -/
structure Drift (env : Env β) (f : Frame β) (n : ℕ) (g : Frame β) : Prop where
  key : g.mtp.key = f.mtp.key
  collateralAsset : g.mtp.collateralAsset = f.mtp.collateralAsset
  custodyAsset : g.mtp.custodyAsset = f.mtp.custodyAsset
  debt : g.mtp.liabilities = f.mtp.liabilities
  custody : g.mtp.custodyAmount ≤ f.mtp.custodyAmount
  balance : f.pool.amount (sideOf f.mtp.custodyAsset) .balance ≤
    g.pool.amount (sideOf f.mtp.custodyAsset) .balance
  moved : g.pool.amount (sideOf f.mtp.custodyAsset) .balance + g.mtp.custodyAmount + n ≤
    f.pool.amount (sideOf f.mtp.custodyAsset) .balance + f.mtp.custodyAmount
  covered : f.mtp.custodyAmount ≤ f.pool.amount (sideOf f.mtp.custodyAsset) .custody →
    g.mtp.custodyAmount ≤ g.pool.amount (sideOf f.mtp.custodyAsset) .custody
  other : g.pool.amount (sideOf f.mtp.custodyAsset).other .balance =
    f.pool.amount (sideOf f.mtp.custodyAsset).other .balance
  liabilities : ∀ s, g.pool.amount s .liabilities = f.pool.amount s .liabilities
  asset : g.pool.externalAsset = f.pool.externalAsset
  params : g.world.clp = f.world.clp ∧ g.world.margin = f.world.margin ∧
    g.world.height = f.world.height
  stored : (f.world.mtps.get f.mtp.key).isSome → (g.world.mtps.get f.mtp.key).isSome
  coins : ∀ a d, d ≠ f.mtp.custodyAsset →
    env.bank.getBalance g.world.bank a d = env.bank.getBalance f.world.bank a d

section Steps
variable {env : Env β} {f g g' : Frame β} {n : ℕ}

theorem drift_refl (env : Env β) (f : Frame β) : Drift env f 0 f :=
  ⟨rfl, rfl, rfl, rfl, le_rfl, le_rfl, le_rfl, fun enough => enough, rfl, fun _ => rfl, rfl, ⟨rfl, rfl, rfl⟩, fun some => some,
    fun _ _ _ => rfl⟩

theorem drift_less (drift : Drift env f n g) : Drift env f 0 g :=
  { drift with moved := by have := drift.moved; omega }

theorem drift_unpaid (drift : Drift env f n g) (unpaid : ℕ) :
    Drift env f n { g with mtp := { g.mtp with interestUnpaidCollateral := unpaid } } := { drift with }

theorem drift_paid (drift : Drift env f n g) (paid : ℕ) :
    Drift env f n { g with mtp := { g.mtp with interestPaidCollateral := paid } } := { drift with }

theorem drift_paidCustody (drift : Drift env f n g) (paid : ℕ) :
    Drift env f n { g with mtp := { g.mtp with interestPaidCustody := paid } } := { drift with }

theorem drift_health (drift : Drift env f n g) (h : OnlyHealth g g') : Drift env f n g' := by
  obtain ⟨health, rfl⟩ := h
  exact { drift with }

theorem drift_world (drift : Drift env f n g) {w : World β} (clp : w.clp = g.world.clp)
    (margin : w.margin = g.world.margin) (height : w.height = g.world.height)
    (stored : (g.world.mtps.get f.mtp.key).isSome → (w.mtps.get f.mtp.key).isSome)
    (coins : ∀ a d, d ≠ f.mtp.custodyAsset →
      env.bank.getBalance w.bank a d = env.bank.getBalance g.world.bank a d) :
    Drift env f n { g with world := w } :=
  { drift with
    params := ⟨clp.trans drift.params.1, margin.trans drift.params.2.1, height.trans drift.params.2.2⟩
    stored := fun some => stored (drift.stored some)
    coins := fun a d other => (coins a d other).trans (drift.coins a d other) }

theorem drift_spent (drift : Drift env f n g) {spent : ℕ} (within : spent ≤ g.mtp.custodyAmount) :
    Drift env f (n + spent)
      { g with mtp := { g.mtp with custodyAmount := g.mtp.custodyAmount - spent } } :=
  { drift with
    custody := (Nat.sub_le _ _).trans drift.custody
    covered := fun enough => (Nat.sub_le _ _).trans (drift.covered enough)
    moved := by
      have := drift.moved
      dsimp only
      omega }

theorem drift_field (drift : Drift env f n g) {s : Side} {field : PoolField} {a : ℕ}
    (balance : field ≠ .balance) (liabilities : field ≠ .liabilities)
    (covered : field = .custody → f.mtp.custodyAmount ≤ f.pool.amount (sideOf f.mtp.custodyAsset) .custody →
      g.mtp.custodyAmount ≤ a) :
    Drift env f n { g with pool := g.pool.setAmount s field a } := by
  have same : ∀ t other, other = .balance ∨ other = .liabilities →
      (g.pool.setAmount s field a).amount t other = g.pool.amount t other := by
    rintro t other (rfl | rfl) <;> simp [amount_set, balance, liabilities]
  exact { drift with
    balance := by simpa [same] using drift.balance
    moved := by simpa [same] using drift.moved
    covered := by
      intro enough
      rw [amount_set]
      split
      · rename_i changed
        exact covered changed.2 enough
      · exact drift.covered enough
    other := by simpa [same] using drift.other
    liabilities := by simpa [same] using drift.liabilities
    asset := by simpa using drift.asset }

theorem drift_gained (drift : Drift env f n g) (a : ℕ) (within : a ≤ n) :
    Drift env f 0 { g with pool := (g.pool.setAmount (sideOf f.mtp.custodyAsset) .balance
      (g.pool.amount (sideOf f.mtp.custodyAsset) .balance + a)) } := by
  have := drift.moved
  have := drift.balance
  exact { drift with
    balance := by simp only [amount_set, and_self, ↓reduceIte]; omega
    moved := by simp only [amount_set, and_self, ↓reduceIte]; omega
    covered := by simpa [amount_set] using drift.covered
    other := by
      rw [← drift.other, amount_set]
      cases sideOf f.mtp.custodyAsset <;> simp [Side.other]
    liabilities := by simpa [amount_set] using drift.liabilities
    asset := by simpa using drift.asset }

end Steps

section Payment
variable {env : Env β} {f g : Frame β} {n : ℕ}

/-- Whatever the outcome of the step is, the frame is on the way from `f`. -/
def Drifts {α : Type} (env : Env β) (f : Frame β) (n : ℕ) (p : Step β α) (g : Frame β) : Prop :=
  Meets p g (fun _ => Drift env f n) (fun _ => Drift env f n)

theorem setMTP_drift (drift : Drift env f n g) (numbered : f.mtp.key.id ≠ 0) : Drifts env f n setMTP g := by
  have still : g.mtp.id ≠ 0 := by
    rw [← drift.key] at numbered
    exact numbered
  unfold Drifts setMTP
  refine meets_read_then (meets_bind (P := fun _ h => h = g)
    (meets_when (fun zero => absurd zero still) (fun _ => rfl)) ?_)
  rintro _ g rfl
  refine meets_read_then (meets_ofExcept_then (fun _ _ => ?_) (fun _ _ => drift))
  refine meets_modify (drift_world drift rfl rfl rfl (fun _ => ?_) (fun _ _ _ => rfl))
  simp [← drift.key, get_put_same]

theorem storePool_drift (drift : Drift env f n g) : Drifts env f n (storePool env) g := by
  refine meets_read_then (meets_onWorld ?_)
  unfold setPool
  refine meets_ofExcept_then (fun _ _ => ?_) (fun _ _ => drift)
  refine meets_require_then (fun _ => ?_) (fun _ => drift)
  exact meets_modify (drift_world drift rfl rfl rfl (fun some => some) (fun _ _ _ => rfl))

theorem takeFundPayment_coins (env : Env β) {amount : ℕ} {asset : String} {percentage : Dec}
    {fund : AccAddress} {w : World β} :
    Meets (takeFundPayment env amount asset percentage fund) w
      (fun _ w' => ∃ b, w' = { w with bank := b } ∧ ∀ a d, d ≠ asset →
        env.bank.getBalance b a d = env.bank.getBalance w.bank a d)
      (fun _ w' => w' = w) := by
  constructor
  · intro take w' run
    obtain ⟨_, b, paid, rfl⟩ := takeFundPayment_succeeds run
    refine ⟨b, rfl, fun a d other => ?_⟩
    have moved := paid.moves a d
    simp only [Ne.symm other, ↓reduceIte, ite_self, Nat.add_zero] at moved
    exact moved
  · have failing : Meets (takeFundPayment env amount asset percentage fund) w (fun _ _ => True)
        (fun _ w' => w' = w) := by
      unfold takeFundPayment
      refine meets_ofExcept_then (fun _ _ => ?_) (fun _ _ => rfl)
      refine meets_ofExcept_then (fun _ _ => ?_) (fun _ _ => rfl)
      refine meets_bind (P := fun _ _ => True) (meets_when (fun _ => ?_) (fun _ => trivial))
        (fun _ _ _ => meets_pure trivial)
      refine meets_ofExcept_then (fun _ _ => ?_) (fun _ _ => rfl)
      refine meets_ofExcept_then (fun _ _ => ?_) (fun _ _ => rfl)
      unfold sendCoinsFromModuleToAccount bankCall
      refine meets_read_then ?_
      split
      · exact meets_modify trivial
      · exact meets_fail rfl
    exact failing.error

theorem takeFundPayment_drift (drift : Drift env f n g) {amount : ℕ} {percentage : Dec}
    {fund : AccAddress} :
    Drifts env f n (onWorld (takeFundPayment env amount g.mtp.custodyAsset percentage fund)) g := by
  refine meets_onWorld (meets_mono _ (takeFundPayment_coins env) ?_ ?_)
  · rintro _ w ⟨b, rfl, coins⟩
    refine drift_world drift rfl rfl rfl (fun some => some) (fun a d other => ?_)
    exact coins a d (drift.custodyAsset ▸ other)
  · rintro _ w rfl
    exact drift

theorem onWorld_apart {α : Type} {p : Action β α} {g : Frame β} :
    Meets (onWorld p) g (fun _ h => h.mtp = g.mtp ∧ h.pool = g.pool)
      (fun _ h => h.mtp = g.mtp ∧ h.pool = g.pool) :=
  meets_onWorld ⟨fun _ _ _ => ⟨rfl, rfl⟩, fun _ _ _ => ⟨rfl, rfl⟩⟩

theorem payFromCustody_drift (drift : Drift env f 0 g) (split : PaymentSplit)
    (numbered : f.mtp.key.id ≠ 0) : Drifts env f 0 (payFromCustody env split) g := by
  have side : sideOf g.mtp.custodyAsset = sideOf f.mtp.custodyAsset := by rw [drift.custodyAsset]
  unfold Drifts payFromCustody
  refine meets_read_then (meets_ofExcept_then (fun paid _ => ?_) (fun _ _ => drift))
  have drift := drift_paid drift paid
  refine meets_modify_then (meets_ofExcept_then (fun paid _ => ?_) (fun _ _ => drift))
  have drift := drift_paidCustody drift paid
  refine meets_modify_then (meets_ofExcept_then (fun rest left => ?_) (fun _ _ => drift))
  obtain ⟨within, rfl⟩ := (Uint.sub_succeeds _ _ _).mp left
  have covered : f.mtp.custodyAmount ≤ f.pool.amount (sideOf f.mtp.custodyAsset) .custody →
      g.mtp.custodyAmount - split.custody ≤
        g.pool.amount (sideOf f.mtp.custodyAsset) .custody - split.custody :=
    fun enough => Nat.sub_le_sub_right (drift.covered enough) _
  have drift := drift_spent drift within
  rw [Nat.zero_add] at drift
  refine meets_modify_then (meets_ofExcept_then (fun fund _ => ?_) (fun _ _ => drift_less drift))
  -- the pool still holds the custody that has left the position
  refine meets_bind (P := fun _ h => Drift env f split.custody h ∧
    h.mtp.custodyAmount = g.mtp.custodyAmount - split.custody ∧ h.pool = g.pool) (meets_mono _
    (meets_and (takeFundPayment_drift drift) onWorld_apart) ?_
    (fun _ _ both => drift_less both.1)) ?_
  · rintro _ h ⟨drift, sameMtp, samePool⟩
    exact ⟨drift, by rw [sameMtp], samePool⟩
  rintro take h ⟨drift, spent, samePool⟩
  refine meets_ofExcept_then (fun actual left => ?_) (fun _ _ => drift_less drift)
  obtain ⟨_, rfl⟩ := (Uint.sub_succeeds _ _ _).mp left
  rw [side]
  refine meets_bind (P := fun _ => Drift env f split.custody) (meets_subField
    (fun _ => drift_field drift (by decide) (by decide) ?_) (fun _ => drift_less drift)) ?_
  · intro _ enough
    rw [samePool, spent]
    exact covered enough
  intro _ i drift
  refine meets_bind (P := fun _ => Drift env f 0) (meets_addField
    (fun _ => drift_gained drift _ (Nat.sub_le _ _)) (fun _ => drift_less drift)) ?_
  intro _ j drift
  refine meets_bind (setMTP_drift drift numbered) (fun _ k drift => ?_)
  exact meets_bind (storePool_drift drift) (fun _ _ drift => meets_pure drift)

theorem incrementalInterestPayment_drift (interestPayment : ℕ) (numbered : f.mtp.key.id ≠ 0) :
    Drifts env f 0 (incrementalInterestPayment env interestPayment) f := by
  have drift := drift_refl env f
  unfold Drifts incrementalInterestPayment
  refine meets_read_then (meets_ofExcept_then (fun payment _ => ?_) (fun _ _ => drift))
  refine meets_ofExcept_then (fun custody _ => ?_) (fun _ _ => drift)
  have drift := drift_unpaid drift 0
  refine meets_modify_then (meets_ofExcept_then (fun split _ => ?_) (fun _ _ => drift))
  exact meets_modify_then (payFromCustody_drift (drift_unpaid drift split.unpaid) split numbered)

theorem handleInterestPayment_drift (interestPayment : ℕ) (numbered : f.mtp.key.id ≠ 0) :
    Drifts env f 0 (handleInterestPayment env interestPayment) f := by
  unfold Drifts handleInterestPayment
  refine meets_read_then (meets_ite (fun _ => ?_) (fun _ => ?_))
  · refine meets_bind (P := fun _ => Drift env f 0) (meets_outcome (meets_mono _
      (incrementalInterestPayment_drift interestPayment numbered) (fun _ _ drift => drift) ?_)) ?_
    · intro e g drift
      cases e <;> exact drift
    · intro result g drift
      cases result with
      | ok _ => exact meets_pure drift
      | error e =>
        exact meets_bind (P := fun _ => Drift env f 0) (meets_modify { drift with })
          (fun _ _ drift => meets_pure drift)
  · exact meets_modify_then (meets_pure (drift_unpaid (drift_refl env f) interestPayment))

theorem chargeInterest_drift {epochPosition epochLength : ℤ} (numbered : f.mtp.key.id ≠ 0) :
    Drifts env f 0 (chargeInterest env epochPosition epochLength) f := by
  unfold Drifts chargeInterest
  refine meets_read_then (meets_ofExcept_then (fun payment _ => ?_) (fun _ _ => drift_refl env f))
  refine meets_bind (handleInterestPayment_drift payment numbered) (fun actual g drift => ?_)
  exact meets_addField (fun _ => drift_field drift (by decide) (by decide) (by simp))
    (fun _ => drift)

theorem chargeWithinEpoch_drift (numbered : f.mtp.key.id ≠ 0) :
    Drifts env f 0 (chargeWithinEpoch env) f := by
  unfold Drifts chargeWithinEpoch
  refine meets_read_then (meets_when (fun _ => ?_) (fun _ => drift_refl env f))
  refine meets_bind (chargeInterest_drift numbered) (fun _ g drift => ?_)
  exact meets_mono _ (assignHealth_only g) (fun _ _ only => drift_health drift only)
    (fun _ _ only => drift_health drift only)

end Payment

end FuryNode
