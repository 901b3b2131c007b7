import FuryNode.Margin.Rows

/-!
What the margin keeper leaves behind when it succeeds. Each function has one statement
that gives its final frame; whoever calls it reads the frame and never the code.
-/
namespace FuryNode
open StatefulProgram StatefulProgram.Prog KeyedTable KeyedTable.Table ClpKeeper MarginKeeper
variable {β α : Type}
variable {s : Side} {n interestPayment : ℕ} {w w' : World β} {u : Unit} {recipient : AccAddress}
  {denom : String} {takeFund : Bool}

section Sequences
variable {f g : Frame β} {a : α}

theorem setMtp_then (h : MTP → MTP) (rest : Unit → Step β α) :
    (setMtp h >>= rest).run f = (.ok a, g) ↔ (rest ()).run { f with mtp := h f.mtp } = (.ok a, g) :=
  modify_then

theorem setField_then (s : Side) (field : PoolField) (n : ℕ) (rest : Unit → Step β α) :
    (setField s field n >>= rest).run f = (.ok a, g) ↔
      (rest ()).run { f with pool := f.pool.setAmount s field n } = (.ok a, g) :=
  modify_then

theorem addField_then (s : Side) (field : PoolField) (n : ℕ) (rest : Unit → Step β α) :
    (addField s field n >>= rest).run f = (.ok a, g) ↔ f.pool.amount s field + n < 2 ^ 256 ∧
      (rest ()).run { f with pool := f.pool.setAmount s field (f.pool.amount s field + n) } =
        (.ok a, g) := by
  constructor
  · intro run
    obtain ⟨u, h, ran, later⟩ := bind_ok run
    have added : Meets (addField s field n) f (fun _ t => f.pool.amount s field + n < 2 ^ 256 ∧
        t = { f with pool := f.pool.setAmount s field (f.pool.amount s field + n) })
        (fun _ _ => True) := meets_addField (fun small => ⟨small, rfl⟩) (fun _ => trivial)
    obtain ⟨small, rfl⟩ := added.ok u h ran
    exact ⟨small, later⟩
  · rintro ⟨small, later⟩
    have sum : Uint.add (f.pool.amount s field) n = .ok (f.pool.amount s field + n) :=
      (Uint.add_succeeds _ _ _).mpr ⟨small, rfl⟩
    refine (bind_succeeds _ _ _ _ _).mpr ⟨(), _, ?_, later⟩
    exact (read_then _ _ _ _).mpr (ofExcept_then.mpr ⟨_, sum, rfl⟩)

theorem subField_then {field : PoolField} (rest : Unit → Step β α) :
    (subField s field n >>= rest).run f = (.ok a, g) ↔ n ≤ f.pool.amount s field ∧
      (rest ()).run { f with pool := f.pool.setAmount s field (f.pool.amount s field - n) } =
        (.ok a, g) := by
  constructor
  · intro run
    obtain ⟨u, h, ran, later⟩ := bind_ok run
    have taken : Meets (subField s field n) f (fun _ t => n ≤ f.pool.amount s field ∧
        t = { f with pool := f.pool.setAmount s field (f.pool.amount s field - n) })
        (fun _ _ => True) := meets_subField (fun enough => ⟨enough, rfl⟩) (fun _ => trivial)
    obtain ⟨enough, rfl⟩ := taken.ok u h ran
    exact ⟨enough, later⟩
  · rintro ⟨enough, later⟩
    have difference : Uint.sub (f.pool.amount s field) n = .ok (f.pool.amount s field - n) :=
      (Uint.sub_succeeds _ _ _).mpr ⟨enough, rfl⟩
    refine (bind_succeeds _ _ _ _ _).mpr ⟨(), _, ?_, later⟩
    exact (read_then _ _ _ _).mpr (ofExcept_then.mpr ⟨_, difference, rfl⟩)

theorem onWorld_succeeds {p : Action β α} :
    (onWorld p).run f = (.ok a, g) ↔ ∃ w, p.run f.world = (.ok a, w) ∧ g = { f with world := w } := by
  unfold onWorld
  rw [zoom_succeeds]
  constructor
  · rintro ⟨w, ran, same⟩
    exact ⟨w, ran, same.symm⟩
  · rintro ⟨w, ran, same⟩
    exact ⟨w, ran, same.symm⟩

theorem onWorld_then {γ : Type} {p : Action β γ} {rest : γ → Step β α} :
    (onWorld p >>= rest).run f = (.ok a, g) ↔
      ∃ c w, p.run f.world = (.ok c, w) ∧ (rest c).run { f with world := w } = (.ok a, g) := by
  rw [bind_succeeds]
  constructor
  · rintro ⟨c, h, ran, later⟩
    obtain ⟨w, inner, rfl⟩ := onWorld_succeeds.mp ran
    exact ⟨c, w, inner, later⟩
  · rintro ⟨c, w, inner, later⟩
    exact ⟨c, _, onWorld_succeeds.mpr ⟨w, inner, rfl⟩, later⟩

theorem enter_succeeds {mtp : MTP} {pool : Pool} {p : Step β α} :
    (enter mtp pool p).run w = (.ok (a, g), w') ↔
      p.run ⟨w, mtp, pool, []⟩ = (.ok a, g) ∧ w' = g.world := by
  unfold enter
  rcases ran : p.run ⟨w, mtp, pool, []⟩ with ⟨result, h⟩
  cases result with
  | error e => simp [ran]
  | ok b =>
    simp only [ran, Prod.mk.injEq, Except.ok.injEq]
    constructor
    · rintro ⟨⟨rfl, rfl⟩, rfl⟩
      exact ⟨⟨rfl, rfl⟩, rfl⟩
    · rintro ⟨⟨rfl, rfl⟩, rfl⟩
      exact ⟨⟨rfl, rfl⟩, rfl⟩

theorem storePool_succeeds {env : Env β} :
    (storePool env).run f = (.ok u, g) ↔ assetValidate env f.pool.externalAsset = .ok true ∧
      g = { f with world := { f.world with pools := f.world.pools.put f.pool } } := by
  unfold storePool
  rw [read_then, onWorld_succeeds]
  constructor
  · rintro ⟨w, ran, rfl⟩
    obtain ⟨valid, rfl⟩ := (setPool_succeeds _).mp ran
    exact ⟨valid, rfl⟩
  · rintro ⟨valid, rfl⟩
    exact ⟨_, (setPool_succeeds _).mpr ⟨valid, rfl⟩, rfl⟩

theorem setMTP_numbered (numbered : f.mtp.id ≠ 0) :
    setMTP.run f = (.ok u, g) ↔ mtpValidate f.mtp = .ok () ∧
      g = { f with world := { f.world with mtps := f.world.mtps.put f.mtp } } := by
  unfold setMTP
  rw [read_then, bind_succeeds]
  constructor
  · rintro ⟨_, h, skipped, run⟩
    rcases when_succeeds.mp skipped with ⟨zero, _⟩ | ⟨_, rfl⟩
    · exact absurd zero numbered
    · rw [read_then, ofExcept_then] at run
      obtain ⟨_, valid, written⟩ := run
      exact ⟨valid, (modify_succeeds.mp written).symm⟩
  · rintro ⟨valid, rfl⟩
    refine ⟨(), f, when_succeeds.mpr (Or.inr ⟨numbered, rfl⟩), ?_⟩
    rw [read_then, ofExcept_then]
    exact ⟨(), valid, modify_succeeds.mpr rfl⟩

theorem mtpValidate_numbered (mtp : MTP) (valid : mtpValidate mtp = .ok ()) : mtp.id ≠ 0 := by
  simp only [mtpValidate, except_bind_succeeds, check_succeeds] at valid
  obtain ⟨_, _, _, _, _, _, numbered⟩ := valid
  exact numbered

theorem setMTP_new (new : f.mtp.id = 0) (u : Unit) (run : setMTP.run f = (.ok u, g)) :
    (countPosition f).mtp.id ≠ 0 ∧ g = { countPosition f with
      world := { (countPosition f).world with
        mtps := (countPosition f).world.mtps.put (countPosition f).mtp } } := by
  unfold setMTP at run
  rw [read_then, bind_succeeds] at run
  obtain ⟨_, h, counted, run⟩ := run
  rcases when_succeeds.mp counted with ⟨_, ran⟩ | ⟨numbered, _⟩
  · obtain rfl := modify_succeeds.mp ran
    rw [read_then, ofExcept_then] at run
    obtain ⟨_, valid, written⟩ := run
    exact ⟨mtpValidate_numbered _ valid, (modify_succeeds.mp written).symm⟩
  · exact absurd new numbered

end Sequences

section Payments
variable {env : Env β} {b b' : β}

/-- An amount of one denomination leaves the module account for `recipient`. -/
structure Paid (env : Env β) (b b' : β) (recipient : AccAddress) (denom : String) (n : ℕ) :
    Prop where
  moves : Moves (env.bank.getBalance b) (env.bank.getBalance b') (moduleAddress env) recipient
    (fun d => if denom = d then n else 0)
  other : n ≠ 0 → recipient ≠ moduleAddress env

theorem paid_nothing : Paid env b b recipient denom 0 := by
  refine ⟨?_, fun some => absurd rfl some⟩
  intro a d
  simp

theorem paid_module (paid : Paid env b b' recipient denom n) (d : String) :
    env.bank.getBalance b' (moduleAddress env) d + (if denom = d then n else 0) =
      env.bank.getBalance b (moduleAddress env) d := by
  have moved := paid.moves (moduleAddress env) d
  by_cases zero : n = 0
  · simpa [zero] using moved
  · simpa [(paid.other zero).symm] using moved

theorem paid_account (paid : Paid env b b' recipient denom n) {a : AccAddress}
    (outside : a ≠ moduleAddress env) (d : String) :
    env.bank.getBalance b' a d =
      env.bank.getBalance b a d + (if a = recipient ∧ denom = d then n else 0) := by
  have moved := paid.moves a d
  simp only [outside, ↓reduceIte, Nat.add_zero] at moved
  rw [moved, ite_and]

theorem sent_paid {coins : Coins} (amounts : ∀ d, amountOf coins d = if denom = d then n else 0)
    (run : (sendCoinsFromModuleToAccount env recipient coins).run w = (.ok u, w')) :
    ∃ b, Paid env w.bank b recipient denom n ∧ w' = { w with bank := b } := by
  obtain ⟨b, moved, same⟩ := sendCoinsFromModuleToAccount_moves env run
  have other := sendCoinsFromModuleToAccount_other env run
  have single : amountOf coins = fun d => if denom = d then n else 0 := funext amounts
  exact ⟨b, ⟨single ▸ moved, fun _ => other⟩, same⟩

theorem newCoins_single {coins : Coins} (made : newCoins [⟨denom, n⟩] = .ok coins) (d : String) :
    amountOf coins d = if denom = d then n else 0 := by
  rw [newCoins_amounts _ _ made, amountOf_cons, amountOf_nil]
  simp

theorem takeFundPayment_succeeds {returnAmount take : ℕ} {returnAsset : String}
    {takePercentage : Dec} {fundAddr : AccAddress}
    (run : (takeFundPayment env returnAmount returnAsset takePercentage fundAddr).run w =
      (.ok take, w')) :
    (∃ share, takePercentage.mul (Dec.ofInt returnAmount) = .ok share ∧ decToUint share = .ok take) ∧
      ∃ b, Paid env w.bank b fundAddr returnAsset take ∧ w' = { w with bank := b } := by
  unfold takeFundPayment at run
  obtain ⟨share, multiplied, run⟩ := ofExcept_then.mp run
  obtain ⟨amount, truncated, run⟩ := ofExcept_then.mp run
  obtain ⟨_, r, sent, done⟩ := bind_ok run
  obtain ⟨rfl, rfl⟩ := pure_succeeds.mp done
  refine ⟨⟨share, multiplied, truncated⟩, ?_⟩
  rcases when_succeeds.mp sent with ⟨_, sent⟩ | ⟨zero, rfl⟩
  · obtain ⟨coin, made, sent⟩ := ofExcept_then.mp sent
    obtain ⟨_, rfl⟩ := (newCoin_succeeds _ _ _).mp made
    obtain ⟨coins, collected, sent⟩ := ofExcept_then.mp sent
    exact sent_paid (newCoins_single collected) sent
  · obtain rfl : amount = 0 := by omega
    exact ⟨w.bank, paid_nothing, rfl⟩

theorem share_le {percentage share : Dec} {take : ℕ} (whole : percentage.raw ≤ Dec.one.raw)
    (multiplied : percentage.mul (Dec.ofInt n) = .ok share) (truncated : decToUint share = .ok take) :
    take ≤ n := by
  obtain ⟨_, rfl⟩ := Dec.checked_succeeds.mp multiplied
  simp only [decToUint, Dec.truncateInt, except_bind_succeeds, Dec.toInt_succeeds,
    Uint.ofBigInt_succeeds] at truncated
  obtain ⟨_, ⟨_, rfl⟩, value, _⟩ := truncated
  have product : percentage.raw * (Dec.ofInt n).raw = percentage.raw * n * Dec.precision := by
    simp only [Dec.ofInt]
    ring
  rw [product, Dec.chop_whole] at value
  have below : percentage.raw * n ≤ n * (Dec.precision : ℤ) := by
    have one : Dec.one.raw = (Dec.precision : ℤ) := by simp [Dec.one, Dec.ofInt]
    rw [one] at whole
    nlinarith
  have bound := calc (percentage.raw * n).tdiv Dec.precision
    _ ≤ (n * (Dec.precision : ℤ)).tdiv Dec.precision := Int.tdiv_le_tdiv (by decide) below
    _ = n := Int.mul_tdiv_cancel _ (by decide)
  omega

def Payout (env : Env β) (address denom : String) (n : ℕ) (takeFund : Bool) (b b' : β) : Prop :=
  ∃ fund owner take mid, take ≤ n ∧ (takeFund = false → take = 0) ∧
    Paid env b mid fund denom take ∧ Paid env mid b' owner denom (n - take) ∧
    (n - take ≠ 0 → env.accAddressFromBech32 address = some owner)

theorem payout_nothing {address : String} {b : β} : Payout env address denom 0 takeFund b b :=
  ⟨moduleAddress env, moduleAddress env, 0, b, Nat.le_refl 0, fun _ => rfl, paid_nothing,
    paid_nothing, fun some => absurd rfl some⟩

theorem payout_module {address : String} (payout : Payout env address denom n takeFund b b')
    (d : String) :
    env.bank.getBalance b' (moduleAddress env) d + (if denom = d then n else 0) =
      env.bank.getBalance b (moduleAddress env) d := by
  obtain ⟨fund, owner, take, mid, within, _, first, second, _⟩ := payout
  have left := paid_module first d
  have rest := paid_module second d
  split at left <;> simp_all
  omega

theorem ownerPart_succeeds {returnAmount part : ℕ} {collateralAsset : String}
    (run : (ownerPart env returnAmount collateralAsset takeFund).run w = (.ok part, w')) :
    ∃ fund take b, take ≤ returnAmount ∧ (takeFund = false → take = 0) ∧ part = returnAmount - take ∧
      Paid env w.bank b fund collateralAsset take ∧ w' = { w with bank := b } := by
  unfold ownerPart at run
  split at run
  · rename_i taking
    rw [read_then] at run
    obtain ⟨fund, _, run⟩ := ofExcept_then.mp run
    obtain ⟨take, r, sent, rest⟩ := bind_ok run
    obtain ⟨_, b, paid, rfl⟩ := takeFundPayment_succeeds sent
    obtain ⟨left, rfl⟩ := ofExcept_succeeds.mp rest
    obtain ⟨within, rfl⟩ := (Uint.sub_succeeds _ _ _).mp left
    exact ⟨fund, take, b, within, fun no => by simp [taking] at no, rfl, paid, rfl⟩
  · obtain ⟨rfl, rfl⟩ := pure_succeeds.mp run
    exact ⟨moduleAddress env, 0, w.bank, Nat.zero_le _, fun _ => rfl, rfl, paid_nothing, rfl⟩

theorem payReturn_succeeds {mtp : MTP} {returnAmount : ℕ}
    (run : (payReturn env mtp returnAmount takeFund).run w = (.ok u, w')) :
    ∃ b, Payout env mtp.address mtp.collateralAsset returnAmount takeFund w.bank b ∧
      w' = { w with bank := b } := by
  rcases when_succeeds.mp run with ⟨_, run⟩ | ⟨zero, rfl⟩
  · obtain ⟨part, r, taken, run⟩ := bind_ok run
    obtain ⟨fund, take, mid, within, none, rfl, paid, rfl⟩ :=
      ownerPart_succeeds taken
    rcases when_succeeds.mp run with ⟨_, run⟩ | ⟨zero, rfl⟩
    · obtain ⟨coin, made, run⟩ := ofExcept_then.mp run
      obtain ⟨_, rfl⟩ := (newCoin_succeeds _ _ _).mp made
      obtain ⟨coins, added, run⟩ := ofExcept_then.mp run
      obtain ⟨owner, decoded, run⟩ := ofExcept_then.mp run
      have amounts : ∀ d, amountOf coins d =
          if mtp.collateralAsset = d then returnAmount - take else 0 := by
        intro d
        rw [coins_add_amounts [] coins _ (by simp) added d, amountOf_nil, Nat.zero_add]
      obtain ⟨b, sent, rfl⟩ := sent_paid amounts run
      exact ⟨b, ⟨fund, owner, take, mid, within, none, paid, sent,
        fun _ => (decodeAddress_succeeds _).mp decoded⟩, rfl⟩
    · have all : returnAmount - take = 0 := by omega
      exact ⟨mid, ⟨fund, fund, take, mid, within, none, paid, all ▸ paid_nothing,
        fun some => absurd all some⟩, rfl⟩
  · obtain rfl : returnAmount = 0 := by omega
    exact ⟨w.bank, payout_nothing, rfl⟩

end Payments

/-- Custody is released, and `n` of it goes back to the balance. -/
def Pool.released (p : Pool) (s : Side) (custody n : ℕ) : Pool :=
  (p.setAmount s .custody (p.amount s .custody - custody)).setAmount s .balance
    (p.amount s .balance + n)

/-- A return and the liabilities leave the pool; a debt that is not settled stays. -/
def Pool.repaid (p : Pool) (s : Side) (returned liabilities debt : ℕ) : Pool :=
  ((p.setAmount s .balance (p.amount s .balance - returned)).setAmount s .liabilities
    (p.amount s .liabilities - liabilities)).setAmount s .unsettled (p.amount s .unsettled + debt)

def Frame.stored (f : Frame β) (p : Pool) : Frame β :=
  { f with pool := p, world := { f.world with pools := f.world.pools.put p } }

def Frame.released (f : Frame β) : Frame β :=
  f.stored (f.pool.released (sideOf f.mtp.custodyAsset) f.mtp.custodyAmount f.mtp.custodyAmount)

section Closing
variable {env : Env β} {f g : Frame β}

theorem takeOutCustody_succeeds (run : (takeOutCustody env).run f = (.ok u, g)) :
    f.mtp.custodyAmount ≤ f.pool.amount (sideOf f.mtp.custodyAsset) .custody ∧ g = f.released := by
  unfold takeOutCustody at run
  simp only [read_then, subField_then, addField_then, storePool_succeeds, amount_set,
    reduceCtorEq, and_false, ↓reduceIte] at run
  obtain ⟨enough, _, _, rfl⟩ := run
  exact ⟨enough, rfl⟩

def repaidFrame (f : Frame β) (repayAmount : ℕ) (health : Dec) (b : β) : Frame β :=
  let owed := f.mtp.liabilities + f.mtp.interestUnpaidCollateral
  let pool := f.pool.repaid (sideOf f.mtp.collateralAsset) (repayAmount - owed) f.mtp.liabilities
    (owed - repayAmount)
  { f with
    mtp := { f.mtp with mtpHealth := health }
    pool := pool
    world := { f.world with
      bank := b
      mtps := f.world.mtps.delete f.mtp.key
      openMtpCount := uint64OfInt ((f.world.openMtpCount : ℤ) - 1)
      pools := f.world.pools.put pool } }

structure Repayable (f : Frame β) (repayAmount : ℕ) : Prop where
  returned : repayAmount - (f.mtp.liabilities + f.mtp.interestUnpaidCollateral) ≤
    f.pool.amount (sideOf f.mtp.collateralAsset) .balance
  liabilities : f.mtp.liabilities ≤ f.pool.amount (sideOf f.mtp.collateralAsset) .liabilities
  stored : ∃ m, f.world.mtps.get f.mtp.key = some m

theorem repay_succeeds {repayAmount : ℕ} (run : (repay env repayAmount takeFund).run f = (.ok u, g)) :
    Repayable f repayAmount ∧ ∃ health b, Payout env f.mtp.address f.mtp.collateralAsset
      (repayAmount - (f.mtp.liabilities + f.mtp.interestUnpaidCollateral)) takeFund f.world.bank b ∧
      g = repaidFrame f repayAmount health b := by
  unfold repay at run
  obtain ⟨_, h, assigned, run⟩ := bind_ok run
  obtain ⟨health, rfl⟩ := (assignHealth_only f).ok _ _ assigned
  rw [read_then] at run
  obtain ⟨⟨returnAmount, debtP, debtI⟩, settled, run⟩ := ofExcept_then.mp run
  obtain ⟨returned, debt⟩ := settleDebt_succeeds settled
  obtain ⟨_, w, paid, run⟩ := onWorld_then.mp run
  obtain ⟨b, payout, rfl⟩ := payReturn_succeeds paid
  simp only [subField_then, ofExcept_then, Uint.add_succeeds, setField_then, amount_set,
    reduceCtorEq, and_false, ↓reduceIte] at run
  obtain ⟨inBalance, inLiabilities, withInterest, ⟨_, rfl⟩, unsettled, ⟨_, rfl⟩, run⟩ := run
  obtain ⟨_, w, destroyed, run⟩ := onWorld_then.mp run
  obtain ⟨m, _, found, deleted⟩ := bind_ok destroyed
  unfold getMTP at found
  rw [read_then] at found
  split at found
  · rename_i mtp present
    obtain ⟨rfl, rfl⟩ := pure_succeeds.mp found
    obtain rfl := modify_succeeds.mp deleted
    obtain ⟨_, rfl⟩ := storePool_succeeds.mp run
    subst returned
    refine ⟨⟨inBalance, inLiabilities, mtp, present⟩, health, b, payout, ?_⟩
    dsimp only at debt
    have sum : ∀ n, n + debtI + debtP = n +
        (f.mtp.liabilities + f.mtp.interestUnpaidCollateral - repayAmount) := by omega
    simp only [repaidFrame, Pool.repaid, sum]
    rfl
  · exact (fail_succeeds.mp found).elim

theorem closePosition_succeeds {repayAmount : ℕ}
    (run : (closePosition env takeFund).run f = (.ok repayAmount, g)) :
    ∃ health b, f.mtp.custodyAmount ≤ f.pool.amount (sideOf f.mtp.custodyAsset) .custody ∧
      clpSwap f.world f.mtp.custodyAmount f.mtp.collateralAsset f.released.pool = .ok repayAmount ∧
      Repayable f.released repayAmount ∧
      Payout env f.mtp.address f.mtp.collateralAsset
        (repayAmount - (f.mtp.liabilities + f.mtp.interestUnpaidCollateral)) takeFund f.world.bank b ∧
      g = repaidFrame f.released repayAmount health b := by
  unfold closePosition at run
  obtain ⟨_, h, taken, run⟩ := bind_ok run
  obtain ⟨enough, rfl⟩ := takeOutCustody_succeeds taken
  rw [read_then] at run
  obtain ⟨r, swapped, run⟩ := ofExcept_then.mp run
  obtain ⟨_, h, repaid, done⟩ := bind_ok run
  obtain ⟨rfl, rfl⟩ := pure_succeeds.mp done
  obtain ⟨repayable, health, b, payout, rfl⟩ := repay_succeeds repaid
  exact ⟨health, b, enough, swapped, repayable, payout, rfl⟩

end Closing

section Interest
variable {env : Env β} {f g : Frame β}

theorem coverPayment_succeeds {interestPaymentCustody : ℕ} {split : PaymentSplit}
    (covered : coverPayment f interestPayment interestPaymentCustody = .ok split) :
    (f.mtp.custodyAmount < interestPaymentCustody ∧ split.custody = f.mtp.custodyAmount ∧
      clpSwap f.world f.mtp.custodyAmount f.mtp.collateralAsset f.pool = .ok split.collateral ∧
      split.collateral + split.unpaid = interestPayment) ∨
    (interestPaymentCustody ≤ f.mtp.custodyAmount ∧
      split = ⟨interestPaymentCustody, interestPayment, 0⟩) := by
  unfold coverPayment at covered
  split at covered
  · rename_i short
    simp only [except_bind_succeeds, Uint.sub_succeeds, except_pure_succeeds] at covered
    obtain ⟨collateral, swapped, _, ⟨within, rfl⟩, rfl⟩ := covered
    exact Or.inl ⟨short, rfl, swapped, Nat.add_sub_cancel' within⟩
  · rename_i enough
    cases except_pure_succeeds.mp covered
    exact Or.inr ⟨by omega, rfl⟩

theorem coverPayment_within {interestPaymentCustody : ℕ} {split : PaymentSplit}
    (covered : coverPayment f interestPayment interestPaymentCustody = .ok split) :
    split.custody ≤ f.mtp.custodyAmount ∧ split.collateral + split.unpaid = interestPayment := by
  rcases coverPayment_succeeds covered with ⟨_, all, _, sum⟩ | ⟨enough, rfl⟩
  · exact ⟨all.le, sum⟩
  · exact ⟨enough, rfl⟩

def MTP.charged (m : MTP) (split : PaymentSplit) : MTP :=
  { m with
    interestUnpaidCollateral := split.unpaid
    interestPaidCollateral := m.interestPaidCollateral + split.collateral
    interestPaidCustody := m.interestPaidCustody + split.custody
    custodyAmount := m.custodyAmount - split.custody }

def interestPaid (f : Frame β) (split : PaymentSplit) (take : ℕ) (b : β) : Frame β :=
  let pool := f.pool.released (sideOf f.mtp.custodyAsset) split.custody (split.custody - take)
  { f with
    mtp := f.mtp.charged split
    pool := pool
    world := { f.world with
      bank := b
      mtps := f.world.mtps.put (f.mtp.charged split)
      pools := f.world.pools.put pool } }

structure PaymentMade (env : Env β) (f : Frame β) (split : PaymentSplit) (take : ℕ) (b : β) :
    Prop where
  inPosition : split.custody ≤ f.mtp.custodyAmount
  inPool : split.custody ≤ f.pool.amount (sideOf f.mtp.custodyAsset) .custody
  taken : take ≤ split.custody
  coins : ∃ fund, Paid env f.world.bank b fund f.mtp.custodyAsset take

theorem payFromCustody_succeeds {split : PaymentSplit} {actual : ℕ} (numbered : f.mtp.id ≠ 0)
    (unpaid : f.mtp.interestUnpaidCollateral = split.unpaid)
    (run : (payFromCustody env split).run f = (.ok actual, g)) :
    ∃ take b, PaymentMade env f split take b ∧ actual = split.custody - take ∧
      g = interestPaid f split take b := by
  unfold payFromCustody at run
  simp only [read_then, ofExcept_then, setMtp_then, onWorld_then, Uint.add_succeeds,
    Uint.sub_succeeds] at run
  obtain ⟨_, ⟨_, rfl⟩, _, ⟨_, rfl⟩, _, ⟨inPosition, rfl⟩, fund, _, take, w, paid, actual,
    ⟨taken, rfl⟩, run⟩ := run
  obtain ⟨_, b, coins, rfl⟩ := takeFundPayment_succeeds paid
  simp only [subField_then, addField_then, amount_set, reduceCtorEq, and_false, ↓reduceIte] at run
  obtain ⟨inPool, _, run⟩ := run
  obtain ⟨_, h, written, run⟩ := bind_ok run
  obtain ⟨_, rfl⟩ := (setMTP_numbered (by exact numbered)).mp written
  obtain ⟨_, h, kept, done⟩ := bind_ok run
  obtain ⟨_, rfl⟩ := storePool_succeeds.mp kept
  obtain ⟨rfl, rfl⟩ := pure_succeeds.mp done
  refine ⟨take, b, ⟨inPosition, inPool, taken, fund, coins⟩, rfl, ?_⟩
  simp only [interestPaid, MTP.charged, ← unpaid]
  rfl

theorem payment_sum {unpaid payment : ℕ}
    (added : (if 0 < unpaid then Uint.add interestPayment unpaid else .ok interestPayment) =
      .ok payment) : payment = interestPayment + unpaid := by
  split at added
  · exact ((Uint.add_succeeds _ _ _).mp added).2
  · cases added
    omega

/-- A payment of interest that succeeds: the interest that was unpaid is added to it, a swap
    tells what it costs in custody, and the custody pays as far as it goes. -/
theorem incrementalInterestPayment_succeeds {actual : ℕ} (numbered : f.mtp.id ≠ 0)
    (run : (incrementalInterestPayment env interestPayment).run f = (.ok actual, g)) :
    ∃ custody split take b,
      clpSwap f.world (interestPayment + f.mtp.interestUnpaidCollateral) f.mtp.custodyAsset f.pool =
        .ok custody ∧
      coverPayment f (interestPayment + f.mtp.interestUnpaidCollateral) custody = .ok split ∧
      PaymentMade env f split take b ∧ actual = split.custody - take ∧
      g = interestPaid f split take b := by
  unfold incrementalInterestPayment at run
  rw [read_then] at run
  obtain ⟨payment, added, run⟩ := ofExcept_then.mp run
  have sum : payment = interestPayment + f.mtp.interestUnpaidCollateral := payment_sum added
  subst sum
  simp only [ofExcept_then, setMtp_then] at run
  obtain ⟨custody, swapped, split, covered, run⟩ := run
  obtain ⟨take, b, made, same, rfl⟩ := payFromCustody_succeeds (by exact numbered) rfl run
  exact ⟨custody, split, take, b, swapped, covered,
    ⟨made.inPosition, made.inPool, made.taken, made.coins⟩, same, rfl⟩

theorem outcome_ok {p : Step β α} {a : α} :
    (outcome p).run f = (.ok (.ok a), g) ↔ p.run f = (.ok a, g) := by
  simp only [outcome, bind_succeeds, attempt_succeeds]
  rcases p.run f with ⟨(e | q) | b, t⟩ <;> simp [pure, Prog.fail, eq_comm]

theorem outcome_error {p : Step β α} {e : Err} :
    (outcome p).run f = (.ok (.error e), g) ↔ p.run f = (.error (.err e), g) := by
  simp only [outcome, bind_succeeds, attempt_succeeds]
  rcases p.run f with ⟨(d | q) | b, t⟩ <;> simp [pure, Prog.fail, eq_comm]

/-- Interest is added to the debt, or paid, or the payment fails and its error is dropped. -/
inductive Handled (env : Env β) (interestPayment : ℕ) (f : Frame β) : ℕ → Frame β → Prop where
  | deferred (disabled : f.world.margin.incrementalInterestPaymentEnabled = false) :
      Handled env interestPayment f 0
        { f with mtp := { f.mtp with interestUnpaidCollateral := interestPayment } }
  | paid (enabled : f.world.margin.incrementalInterestPaymentEnabled = true) (actual : ℕ)
      (g : Frame β) (run : (incrementalInterestPayment env interestPayment).run f = (.ok actual, g)) :
      Handled env interestPayment f actual g
  | dropped (enabled : f.world.margin.incrementalInterestPaymentEnabled = true) (e : Err)
      (g : Frame β)
      (run : (incrementalInterestPayment env interestPayment).run f = (.error (.err e), g)) :
      Handled env interestPayment f 0 { g with dropped := g.dropped ++ [.err e] }

theorem handleInterestPayment_succeeds {actual : ℕ}
    (run : (handleInterestPayment env interestPayment).run f = (.ok actual, g)) :
    Handled env interestPayment f actual g := by
  unfold handleInterestPayment at run
  rw [read_then] at run
  split at run
  · rename_i enabled
    obtain ⟨result, h, ran, run⟩ := bind_ok run
    cases result with
    | ok a =>
      obtain ⟨rfl, rfl⟩ := pure_succeeds.mp run
      exact .paid enabled _ _ (outcome_ok.mp ran)
    | error e =>
      obtain ⟨_, i, noted, done⟩ := bind_ok run
      obtain rfl := modify_succeeds.mp noted
      obtain ⟨rfl, rfl⟩ := pure_succeeds.mp done
      exact .dropped enabled e h (outcome_error.mp ran)
  · rename_i disabled
    rw [setMtp_then] at run
    obtain ⟨rfl, rfl⟩ := pure_succeeds.mp run
    exact .deferred (by simpa using disabled)

def Frame.counted (f : Frame β) (s : Side) (n : ℕ) : Frame β :=
  { f with pool := f.pool.setAmount s .blockInterest (f.pool.amount s .blockInterest + n) }

theorem chargeInterest_succeeds {epochPosition epochLength : ℤ}
    (run : (chargeInterest env epochPosition epochLength).run f = (.ok u, g)) :
    ∃ interestPayment actual h,
      calcMTPInterestLiabilities env f.mtp f.pool.interestRate epochPosition epochLength =
        .ok interestPayment ∧
      Handled env interestPayment f actual h ∧
      g = h.counted (sideOf f.mtp.collateralAsset).other actual := by
  unfold chargeInterest at run
  rw [read_then] at run
  obtain ⟨interestPayment, computed, run⟩ := ofExcept_then.mp run
  obtain ⟨actual, h, handled, run⟩ := bind_ok run
  have added : Meets (addField (sideOf f.mtp.collateralAsset).other .blockInterest actual) h
      (fun _ t => t = h.counted (sideOf f.mtp.collateralAsset).other actual) (fun _ _ => True) :=
    meets_addField (fun _ => rfl) (fun _ => trivial)
  exact ⟨interestPayment, actual, h, computed, handleInterestPayment_succeeds handled,
    added.ok u g run⟩

theorem chargeWithinEpoch_succeeds (u : Unit) (run : (chargeWithinEpoch env).run f = (.ok u, g)) :
    (getEpochPosition f.world.height f.world.margin.epochLength ≤ 0 ∧ g = f) ∨
    ∃ h, (chargeInterest env (getEpochPosition f.world.height f.world.margin.epochLength)
        f.world.margin.epochLength).run f = (.ok (), h) ∧ OnlyHealth h g := by
  unfold chargeWithinEpoch at run
  rw [read_then] at run
  rcases when_succeeds.mp run with ⟨_, run⟩ | ⟨start, rfl⟩
  · obtain ⟨_, h, charged, assigned⟩ := bind_ok run
    exact Or.inr ⟨h, charged, (assignHealth_only h).ok _ _ assigned⟩
  · exact Or.inl ⟨by omega, rfl⟩

theorem chargeWithinEpoch_start (env : Env β)
    (start : getEpochPosition f.world.height f.world.margin.epochLength ≤ 0) :
    (chargeWithinEpoch env).run f = (.ok (), f) :=
  when_succeeds.mpr (Or.inr ⟨by omega, rfl⟩)

theorem forceCloseLong_start (env : Env β) {isAdminClose : Bool}
    (start : getEpochPosition f.world.height f.world.margin.epochLength ≤ 0) :
    (forceCloseLong env isAdminClose takeFund).run f =
      (require (isAdminClose = true ∨ f.mtp.mtpHealth.le f.world.margin.safetyFactor)
        (.err .errMTPHealthy) >>= fun _ => closePosition env takeFund).run f := by
  unfold forceCloseLong
  simp only [bind, chargeWithinEpoch_start env start]
  rfl

end Interest

def Pool.borrowed (p : Pool) (s : Side) (collateral liabilities : ℕ) : Pool :=
  (p.setAmount s .balance (p.amount s .balance + collateral)).setAmount s .liabilities
    (p.amount s .liabilities + liabilities)

def Pool.takenIn (p : Pool) (s : Side) (custody : ℕ) : Pool :=
  (p.setAmount s .balance (p.amount s .balance - custody)).setAmount s .custody
    (p.amount s .custody + custody)

def Pool.withHealth (p : Pool) (health : Dec) : Pool := { p with health := health }

@[simp] theorem amount_withHealth (p : Pool) (health : Dec) (s : Side) (field : PoolField) :
    (p.withHealth health).amount s field = p.amount s field := by
  cases s <;> cases field <;> rfl

section Opening
open MarginMsgServer
variable {env : Env β} {f g : Frame β}

def Received (env : Env β) (b b' : β) (sender : AccAddress) (denom : String) (n : ℕ) : Prop :=
  Moves (env.bank.getBalance b) (env.bank.getBalance b') sender (moduleAddress env)
    (fun d => if denom = d then n else 0)

structure OpenTerms where
  pool : Pool
  leverage : Dec
  eta : Dec
  leveraged : ℕ
  liabilities : ℕ
  custody : ℕ
  recordedLeverage : Dec
  mtpHealth : Dec
  poolHealth : Dec
  sender : AccAddress

def OpenTerms.mtp (t : OpenTerms) (m : MsgOpen) (id : ℕ) : MTP :=
  { newMTP m t.recordedLeverage with
    collateralAmount := m.collateralAmount
    liabilities := t.liabilities
    custodyAmount := t.custody
    mtpHealth := t.mtpHealth
    id := id }

def OpenTerms.borrowedPool (t : OpenTerms) (m : MsgOpen) : Pool :=
  t.pool.borrowed (sideOf m.collateralAsset) m.collateralAmount t.liabilities

def OpenTerms.poolAfter (t : OpenTerms) (m : MsgOpen) : Pool :=
  ((t.borrowedPool m).withHealth t.poolHealth).takenIn (sideOf m.borrowAsset) t.custody

@[simp] theorem borrowed_key {p : Pool} {collateral liabilities : ℕ} :
    (p.borrowed s collateral liabilities).key = p.key := by
  simp [Pool.borrowed]

@[simp] theorem takenIn_key {p : Pool} {custody : ℕ} : (p.takenIn s custody).key = p.key := by
  simp [Pool.takenIn]

@[simp] theorem released_key {p : Pool} {custody : ℕ} : (p.released s custody n).key = p.key := by
  simp [Pool.released]

@[simp] theorem repaid_key (p : Pool) (s : Side) (returned liabilities debt : ℕ) :
    (p.repaid s returned liabilities debt).key = p.key := by
  simp [Pool.repaid]

def World.opened (w : World β) (b : β) (mtp : MTP) (pool : Pool) : World β :=
  { w with
    bank := b
    pools := w.pools.put pool
    mtps := w.mtps.put mtp
    mtpCount := (w.mtpCount + 1) % 2 ^ 64
    openMtpCount := (w.openMtpCount + 1) % 2 ^ 64 }

/-- What an `Open` that succeeds has checked and moved. -/
structure Opened (env : Env β) (m : MsgOpen) (w : World β) (t : OpenTerms) (b : β) : Prop where
  long : m.position = .long
  found : w.pools.get ⟨externalAssetOf m.collateralAsset m.borrowAsset⟩ = some t.pool
  leverage : t.leverage = m.leverage.min w.margin.leverageMax
  eta : t.leverage.sub Dec.one = .ok t.eta
  leveraged : ∃ d, (Dec.ofInt m.collateralAmount).mul t.leverage = .ok d ∧
    decToUint d = .ok t.leveraged
  liabilities : ∃ d, (Dec.ofInt m.collateralAmount).mul t.eta = .ok d ∧
    decToUint d = .ok t.liabilities
  swapped : clpSwap w t.leveraged m.borrowAsset t.pool = .ok t.custody
  inBalance : t.custody ≤ (t.borrowedPool m).amount (sideOf m.borrowAsset) .balance
  decoded : env.accAddressFromBech32 m.signer = some t.sender
  coins : Received env w.bank b t.sender m.collateralAsset m.collateralAmount
  numbered : (w.mtpCount + 1) % 2 ^ 64 ≠ 0

theorem takeInCustody_succeeds (run : (takeInCustody env).run f = (.ok u, g)) :
    f.mtp.custodyAmount ≤ f.pool.amount (sideOf f.mtp.custodyAsset) .balance ∧
      g = f.stored (f.pool.takenIn (sideOf f.mtp.custodyAsset) f.mtp.custodyAmount) := by
  unfold takeInCustody at run
  simp only [read_then, subField_then, addField_then, storePool_succeeds, amount_set,
    reduceCtorEq, and_false, ↓reduceIte] at run
  obtain ⟨enough, _, _, rfl⟩ := run
  exact ⟨enough, rfl⟩

/-- The frame after `Borrow` for a new position. -/
theorem borrow_succeeds {m : MsgOpen} {leverage eta : Dec} {custodyAmount : ℕ} {pool : Pool}
    (run : (borrow env m.collateralAmount custodyAmount eta).run ⟨w, newMTP m leverage, pool, []⟩ =
      (.ok u, g)) :
    ∃ (liabilities : ℕ) (recorded health d : Dec) (sender : AccAddress) (b : β) (mtp : MTP),
      (Dec.ofInt m.collateralAmount).mul eta = .ok d ∧ decToUint d = .ok liabilities ∧
      env.accAddressFromBech32 m.signer = some sender ∧
      Received env w.bank b sender m.collateralAsset m.collateralAmount ∧
      (w.mtpCount + 1) % 2 ^ 64 ≠ 0 ∧
      mtp = { newMTP m recorded with
        collateralAmount := m.collateralAmount
        liabilities := liabilities
        custodyAmount := custodyAmount
        mtpHealth := health
        id := (w.mtpCount + 1) % 2 ^ 64 } ∧
      g = ⟨w.opened b mtp (pool.borrowed (sideOf m.collateralAsset) m.collateralAmount liabilities),
        mtp, pool.borrowed (sideOf m.collateralAsset) m.collateralAmount liabilities, []⟩ := by
  unfold borrow at run
  simp only [read_then, ofExcept_then, decodeAddress_succeeds, newCoin_succeeds, require_then,
    Uint.add_succeeds, setMtp_then, onWorld_then] at run
  obtain ⟨sender, decoded, _, ⟨_, rfl⟩, _, d, multiplied, _, ⟨_, rfl⟩, liabilities, truncated, _,
    ⟨_, rfl⟩, _, ⟨_, rfl⟩, recorded, _, health, _, coins, collected, _, r, sent, run⟩ := run
  obtain ⟨b, moved, rfl⟩ := sendCoinsFromAccountToModule_moves _ sent
  simp only [addField_then, amount_set, reduceCtorEq, and_false, ↓reduceIte] at run
  obtain ⟨_, _, run⟩ := run
  obtain ⟨_, h, kept, written⟩ := bind_ok run
  obtain ⟨_, rfl⟩ := storePool_succeeds.mp kept
  obtain ⟨numbered, rfl⟩ := setMTP_new rfl _ written
  have single : amountOf coins = fun d => if m.collateralAsset = d then m.collateralAmount else 0 :=
    funext (newCoins_single collected)
  refine ⟨liabilities, recorded, health, d, sender, b, _, multiplied, truncated, decoded, ?_,
    numbered, rfl, ?_⟩
  · rw [single] at moved
    exact moved
  · simp [World.opened, Pool.borrowed, countPosition, newMTP]

theorem updatePoolHealth_succeeds (run : (updatePoolHealth env).run f = (.ok u, g)) :
    ∃ health, g = f.stored (f.pool.withHealth health) := by
  unfold updatePoolHealth at run
  rw [read_then] at run
  obtain ⟨health, _, run⟩ := ofExcept_then.mp run
  rw [modify_then] at run
  obtain ⟨_, rfl⟩ := storePool_succeeds.mp run
  exact ⟨health, rfl⟩

theorem openLong_succeeds {m : MsgOpen} {dropped : List Failure} (long : m.position = .long)
    (run : (openLong env m).run w = (.ok dropped, w')) :
    ∃ t b, Opened env m w t b ∧ dropped = [] ∧
      w' = w.opened b (t.mtp m ((w.mtpCount + 1) % 2 ^ 64)) (t.poolAfter m) := by
  unfold openLong at run
  simp only [read_then, ofExcept_then, require_then] at run
  obtain ⟨eta, etaIs, _, run⟩ := run
  obtain ⟨pool, r, found, run⟩ := bind_ok run
  obtain ⟨present, rfl⟩ := getPool_succeeds.mp (Action.wrapped_succeeds.mp found)
  simp only [ofExcept_then, require_then] at run
  obtain ⟨_, d, multiplied, leveraged, truncated, _, _, _, custody, swapped, _, run⟩ := run
  obtain ⟨⟨u, g⟩, r, entered, done⟩ := bind_ok run
  obtain ⟨rfl, rfl⟩ := pure_succeeds.mp done
  obtain ⟨taken, rfl⟩ := enter_succeeds.mp entered
  unfold takePosition at taken
  obtain ⟨_, h, borrowed, rest⟩ := bind_ok taken
  obtain ⟨liabilities, recorded, mtpHealth, e, sender, b, mtp, product, truncatedToo, decoded,
    received, numbered, mtpIs, rfl⟩ := borrow_succeeds borrowed
  obtain ⟨_, h, updated, rest⟩ := bind_ok rest
  obtain ⟨poolHealth, rfl⟩ := updatePoolHealth_succeeds updated
  obtain ⟨_, h, custodied, rest⟩ := bind_ok rest
  obtain ⟨inBalance, rfl⟩ := takeInCustody_succeeds custodied
  simp only [read_then, ofExcept_then, require_succeeds] at rest
  obtain ⟨_, _, _, rfl⟩ := rest
  subst mtpIs
  refine ⟨⟨pool, m.leverage.min w.margin.leverageMax, eta, leveraged, liabilities, custody, recorded,
    mtpHealth, poolHealth, sender⟩, b, ⟨long, present, rfl, etaIs, ⟨d, multiplied, truncated⟩,
    ⟨e, product, truncatedToo⟩, swapped, inBalance, decoded, received, numbered⟩, rfl, ?_⟩
  simp only [Frame.stored, World.opened]
  rw [put_put takenIn_key.symm, put_put (by rw [takenIn_key]; rfl)]
  rfl

theorem open_succeeds {m : MsgOpen} {dropped : List Failure}
    (run : (open' env m).run w = (.ok dropped, w')) :
    ∃ t b, Opened env m w t b ∧ dropped = [] ∧
      w' = w.opened b (t.mtp m ((w.mtpCount + 1) % 2 ^ 64)) (t.poolAfter m) := by
  unfold open' at run
  simp only [read_then, require_then] at run
  obtain ⟨_, _, run⟩ := run
  obtain ⟨pool, r, found, run⟩ := bind_ok run
  obtain ⟨_, rfl⟩ := getPool_succeeds.mp (Action.wrapped_succeeds.mp found)
  simp only [require_then] at run
  obtain ⟨_, _, run⟩ := run
  split at run
  · rename_i long
    exact openLong_succeeds long run
  · exact (fail_succeeds.mp run).elim

end Opening

section Messages
open MarginMsgServer
variable {env : Env β}

theorem withPosition_succeeds {address : String} {id : ℕ} {act : Step β ℕ} {dropped : List Failure}
    (run : (withPosition address id act).run w = (.ok dropped, w')) :
    ∃ mtp pool repayAmount g, w.mtps.get ⟨address, id⟩ = some mtp ∧
      w.pools.get ⟨externalAssetOf mtp.collateralAsset mtp.custodyAsset⟩ = some pool ∧
      act.run ⟨w, mtp, pool, []⟩ = (.ok repayAmount, g) ∧ dropped = g.dropped ∧ w' = g.world := by
  unfold withPosition at run
  obtain ⟨mtp, r, read, run⟩ := bind_ok run
  unfold getMTP at read
  rw [read_then] at read
  split at read
  · rename_i stored present
    obtain ⟨rfl, rfl⟩ := pure_succeeds.mp read
    split at run
    · obtain ⟨pool, r, found, run⟩ := bind_ok run
      obtain ⟨inPools, rfl⟩ := getPool_succeeds.mp (Action.wrapped_succeeds.mp found)
      obtain ⟨⟨repayAmount, g⟩, r, entered, done⟩ := bind_ok run
      obtain ⟨rfl, rfl⟩ := pure_succeeds.mp done
      obtain ⟨ran, rfl⟩ := enter_succeeds.mp entered
      exact ⟨stored, pool, repayAmount, g, present, inPools, ran, rfl, rfl⟩
    · exact (fail_succeeds.mp run).elim
  · exact (fail_succeeds.mp read).elim

theorem action_succeeds (msg : MarginMsg) (w w' : World β) (dropped : List Failure)
    (run : (msg.action env).run w = (.ok dropped, w')) :
    msg.validateBasic env = .ok () ∧
      (∃ address, env.accAddressFromBech32 msg.signer = some address ∧ env.canSign address = true) ∧
      (msg.handle env).run w = (.ok dropped, w') := by
  unfold MarginMsg.action MarginMsg.accept runMsg at run
  obtain ⟨_, r, accepted, run⟩ := bind_ok run
  simp only [ofExcept_then, require_then, pure_succeeds, getSigner_succeeds] at accepted
  obtain ⟨_, valid, address, decoded, signed, _, rfl⟩ := accepted
  exact ⟨valid, ⟨address, decoded, signed⟩, run⟩

end Messages

end FuryNode
