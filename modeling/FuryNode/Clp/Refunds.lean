import FuryNode.Clp.Withdrawals
import FuryNode.Clp.PositiveUnits
import FuryNode.Clp.Decommission

/-!
The arithmetic of the loop that pays the providers of a pool that is decommissioned. Each share is
rounded on its own and taken from what is left, so the loop ends only if all shares together are
covered. Up to a depth of about two times the scale of decimals they are, whatever the units are;
a provider without units stops the loop, and so can the rounding of a larger depth.
-/
namespace FuryNode
open StatefulProgram StatefulProgram.Prog
variable {β : Type}

section Amounts
variable {D P u : ℕ}

theorem fromDigits_natural {n : ℕ} (fit : n * Dec.precision < 2 ^ 315) :
    Dec.fromDigits n = .ok (Dec.ofInt n) := by
  have fits : Dec.fits (n * Dec.precision : ℤ) := by
    unfold Dec.fits
    rw [← Nat.cast_mul, Int.natAbs_natCast]
    exact fit
  rw [Dec.fromDigits, if_pos fits]

theorem quo_one (fit : u * Dec.precision < 2 ^ 315) :
    (Dec.ofInt u).quo Dec.one = .ok (Dec.ofInt u) := by
  have oneRaw : Dec.one.raw = Dec.precision := by decide
  have unitsRaw : (Dec.ofInt u).raw = (u * Dec.precision : ℕ) := by
    simp [Dec.ofInt]
  have scale : (0 : ℤ) < Dec.precision := by exact_mod_cast Dec.precision_pos
  obtain ⟨q, computed, low, high⟩ := Dec.quo_between Dec.one (u * Dec.precision)
    (Dec.ofInt_nonneg u) (by rw [oneRaw]; exact scale)
    (by rw [oneRaw, unitsRaw]) (by rw [oneRaw, unitsRaw]) fit
  have same : q = Dec.ofInt u := by
    cases q
    rw [Dec.mk.injEq] at *
    exact (le_antisymm high low).trans unitsRaw.symm
  rw [computed, same]

theorem shareOfDepth_found (some : 0 < u) (part : u ≤ P) (unitsFit : P * Dec.precision < 2 ^ 315)
    (depthFit : D * Dec.precision < 2 ^ 315) :
    ∃ share, shareOfDepth (Dec.ofInt D) (Dec.ofInt P) (Dec.ofInt u) = .ok share ∧
      0 ≤ share.raw ∧ share.raw ≤ D * Dec.precision := by
  have scale : (0 : ℤ) < Dec.precision := by exact_mod_cast Dec.precision_pos
  have raw (n : ℕ) : (Dec.ofInt n).raw = n * (Dec.precision : ℤ) := rfl
  have units : (1 : ℤ) ≤ u := by exact_mod_cast some
  have fewer : (u : ℤ) ≤ P := by exact_mod_cast part
  have positive : 0 < (Dec.ofInt u).raw := by
    rw [raw]
    exact mul_pos (lt_of_lt_of_le one_pos units) scale
  have square : (0 : ℤ) ≤ (Dec.precision : ℤ) * Dec.precision := mul_nonneg scale.le scale.le
  have ratioLow : (Dec.precision : ℤ) * (Dec.ofInt u).raw ≤ (Dec.ofInt P).raw * Dec.precision := by
    rw [raw, raw]
    linarith only [mul_le_mul_of_nonneg_right fewer square]
  have ratioHigh : (Dec.ofInt P).raw * Dec.precision ≤ (P * Dec.precision : ℕ) * (Dec.ofInt u).raw := by
    rw [raw, raw, Nat.cast_mul]
    linarith only [mul_le_mul_of_nonneg_left units (mul_nonneg (Int.natCast_nonneg P) square)]
  obtain ⟨ratio, first, low, _⟩ := Dec.quo_between (Dec.ofInt u) Dec.precision
    (Dec.ofInt_nonneg P) positive ratioLow ratioHigh unitsFit
  have shareLow : ((0 : ℕ) : ℤ) * ratio.raw ≤ (Dec.ofInt D).raw * Dec.precision := by
    rw [Nat.cast_zero, zero_mul]
    exact mul_nonneg (Dec.ofInt_nonneg D) scale.le
  have shareHigh : (Dec.ofInt D).raw * Dec.precision ≤ (D * Dec.precision : ℕ) * ratio.raw := by
    rw [raw, Nat.cast_mul]
    exact mul_le_mul_of_nonneg_left low (mul_nonneg (Int.natCast_nonneg D) scale.le)
  obtain ⟨share, second, nonneg, bound⟩ := Dec.quo_between ratio 0
    (Dec.ofInt_nonneg D) (lt_of_lt_of_le scale low) shareLow shareHigh depthFit
  rw [Nat.cast_zero] at nonneg
  rw [Nat.cast_mul] at bound
  have computed : shareOfDepth (Dec.ofInt D) (Dec.ofInt P) (Dec.ofInt u) = .ok share :=
    except_bind_succeeds.mpr ⟨ratio, first, second⟩
  exact ⟨share, computed, nonneg, bound⟩

theorem decToUint_found {d : Dec} (nonneg : 0 ≤ d.raw) (bound : d.raw ≤ D * Dec.precision)
    (fit : D < 2 ^ 256) : ∃ m, decToUint d = .ok m := by
  have scale : (0 : ℤ) < Dec.precision := by exact_mod_cast Dec.precision_pos
  obtain ⟨m, floor⟩ := Int.eq_ofNat_of_zero_le (Int.ediv_nonneg nonneg scale.le)
  have most : (m : ℤ) ≤ D := by
    rw [← floor]
    apply Int.ediv_le_of_le_mul scale
    linarith
  refine ⟨m, ?_⟩
  simp only [decToUint, Dec.truncateInt, except_bind_succeeds, Dec.toInt_succeeds,
    Uint.ofBigInt_succeeds]
  refine ⟨m, ⟨?_, ?_⟩, rfl, ?_⟩
  · rw [Int.tdiv_eq_ediv_of_nonneg nonneg, floor]
    omega
  · rw [Int.tdiv_eq_ediv_of_nonneg nonneg, floor]
  · omega

theorem refund_found (some : 0 < u) (part : u ≤ P) (unitsFit : P * Dec.precision < 2 ^ 315)
    (small : D ≤ refundableDepth) :
    ∃ share m, shareOfDepth (Dec.ofInt D) (Dec.ofInt P) (Dec.ofInt u) = .ok share ∧
      decToUint share = .ok m ∧ m * P < u * (D + 1) := by
  have depth : D < 2 ^ 61 := by
    unfold refundableDepth at small
    omega
  have depthFit : D * Dec.precision < 2 ^ 315 := by
    unfold Dec.precision
    omega
  obtain ⟨share, computed, nonneg, bound⟩ := shareOfDepth_found some part unitsFit depthFit
  obtain ⟨m, whole⟩ := decToUint_found nonneg bound (by omega)
  exact ⟨share, m, computed, whole, truncated_share_lt some part small computed whole⟩

end Amounts

/-- A pool without debts whose balances and units are small enough for the arithmetic of refunds. -/
structure Refundable (pool : Pool) : Prop where
  nativeDebt : pool.nativeLiabilities = 0
  externalDebt : pool.externalLiabilities = 0
  native : pool.nativeAssetBalance < poolThreshold
  external : pool.externalAssetBalance ≤ refundableDepth
  units : pool.poolUnits * Dec.precision < 2 ^ 315

section Rounds
variable {pool : Pool} {lp : LiquidityProvider}

theorem refundable_native (refundable : Refundable pool) : pool.nativeAssetBalance ≤ refundableDepth := by
  have below := refundable.native
  unfold poolThreshold at below
  unfold refundableDepth
  omega

theorem extractDebt_refundable (refundable : Refundable pool) :
    pool.extractDebt pool.nativeAssetBalance pool.externalAssetBalance false =
      .ok (pool.nativeAssetBalance, pool.externalAssetBalance) := by
  have native := refundable_native refundable
  have external := refundable.external
  unfold refundableDepth at native external
  simp only [Pool.extractDebt, Bool.false_eq_true, reduceIte, except_bind_succeeds,
    except_pure_succeeds, Uint.add_succeeds, refundable.nativeDebt, refundable.externalDebt, Nat.add_zero]
  exact ⟨_, ⟨by omega, rfl⟩, _, ⟨by omega, rfl⟩, rfl⟩

theorem refund_amounts (refundable : Refundable pool) (some : 0 < lp.liquidityProviderUnits)
    (part : lp.liquidityProviderUnits ≤ pool.poolUnits) :
    ∃ native external, calculateAllAssetsForLP pool lp = .ok (native, external, 0, 0) ∧
      native * pool.poolUnits < lp.liquidityProviderUnits * (pool.nativeAssetBalance + 1) ∧
      external * pool.poolUnits < lp.liquidityProviderUnits * (pool.externalAssetBalance + 1) := by
  have nativeSmall := refundable_native refundable
  have digits (D : ℕ) (small : D ≤ refundableDepth) : D * Dec.precision < 2 ^ 315 := by
    unfold refundableDepth at small
    unfold Dec.precision
    omega
  have unitsFit : lp.liquidityProviderUnits * Dec.precision < 2 ^ 315 :=
    lt_of_le_of_lt (Nat.mul_le_mul_right _ part) refundable.units
  obtain ⟨nativeShare, native, nativeComputed, nativeWhole, nativeBound⟩ :=
    refund_found some part refundable.units nativeSmall
  obtain ⟨externalShare, external, externalComputed, externalWhole, externalBound⟩ :=
    refund_found some part refundable.units refundable.external
  refine ⟨native, external, ?_, nativeBound, externalBound⟩
  have points : Dec.fromDigits maxWbasis = .ok (Dec.ofInt 10000) := by decide +kernel
  have denominator : (Dec.ofInt 10000).quo (Dec.ofInt 10000) = .ok Dec.one := by decide +kernel
  have nothing : (Dec.ofInt lp.liquidityProviderUnits).sub (Dec.ofInt lp.liquidityProviderUnits) =
      .ok Dec.zero := by
    rw [Dec.sub, sub_self]
    decide +kernel
  have none : decToUint Dec.zero = .ok 0 := by decide +kernel
  have symmetric : Dec.fromDigits 0 = .ok Dec.zero := by decide +kernel
  unfold calculateAllAssetsForLP
  rw [extractDebt_refundable refundable]
  simp only [calculateWithdrawal, except_bind_succeeds, except_pure_succeeds, reduceIte]
  exact ⟨_, rfl, _, fromDigits_natural (digits _ nativeSmall), _,
    fromDigits_natural (digits _ refundable.external), _, fromDigits_natural unitsFit, _, points, _,
    symmetric, _, denominator, _, quo_one unitsFit, _, externalComputed, _, nativeComputed, _, rfl, _,
    nothing, _, nativeWhole, _, externalWhole, _, none, _, none, rfl⟩

theorem refund_of_nothing (none : lp.liquidityProviderUnits = 0) (amounts : ℕ × ℕ × ℕ × ℕ) :
    calculateAllAssetsForLP pool lp ≠ .ok amounts := by
  intro computed
  simp only [calculateAllAssetsForLP, calculateWithdrawal, except_bind_succeeds] at computed
  obtain ⟨_, _, _, _, _, _, unitsF, unitsRead, pointsF, pointsRead, _, _, denominator, first, claim, second,
    _, share, _⟩ := computed
  obtain rfl := Dec.fromDigits_succeeds unitsRead
  obtain rfl := Dec.fromDigits_succeeds pointsRead
  rw [none] at second
  obtain ⟨nonneg, most⟩ := unitsToClaim_le (by decide) (by decide) first second
  have zero : claim.raw = 0 := by
    rw [Nat.cast_zero, zero_mul] at most
    exact le_antisymm most nonneg
  simp only [shareOfDepth, except_bind_succeeds] at share
  obtain ⟨ratio, divided, _⟩ := share
  rw [Dec.quo, if_pos zero] at divided
  cases divided

end Rounds

def refundLeft (pool : Pool) (left : ClpMsgServer.Remaining) (lp : LiquidityProvider) :
    Fallible ClpMsgServer.Remaining := do
  let (native, external, _, _) ← calculateAllAssetsForLP pool lp
  let poolUnits ← Uint.sub left.poolUnits lp.liquidityProviderUnits
  let nativeAssetBalance ← Uint.sub left.nativeAssetBalance native
  let externalAssetBalance ← Uint.sub left.externalAssetBalance external
  pure ⟨poolUnits, nativeAssetBalance, externalAssetBalance⟩

def refundsLeft (pool : Pool) (left : ClpMsgServer.Remaining) (lps : List LiquidityProvider) :
    Fallible ClpMsgServer.Remaining := lps.foldlM (refundLeft pool) left

def Pool.whole (pool : Pool) : ClpMsgServer.Remaining :=
  ⟨pool.poolUnits, pool.nativeAssetBalance, pool.externalAssetBalance⟩

def unitsOf (lps : List LiquidityProvider) : ℕ := (lps.map LiquidityProvider.liquidityProviderUnits).sum

theorem unitsOf_cons (lp : LiquidityProvider) (rest : List LiquidityProvider) :
    unitsOf (lp :: rest) = lp.liquidityProviderUnits + unitsOf rest := by
  simp [unitsOf]

/-- What was paid of a balance leaves room for the providers that are still to be paid. -/
def RefundCovered (units balance waiting left : ℕ) : Prop :=
  ∃ paid, left + paid = balance ∧ paid * units + waiting * (balance + 1) ≤ units * (balance + 1)

theorem refundCovered_pays {units balance waiting left u amount : ℕ} (some : 0 < units)
    (covered : RefundCovered units balance (u + waiting) left) (share : amount * units < u * (balance + 1)) :
    amount ≤ left ∧ RefundCovered units balance waiting (left - amount) := by
  obtain ⟨paid, split, room⟩ := covered
  rw [add_mul] at room
  have total : (paid + amount) * units + waiting * (balance + 1) < units * (balance + 1) := by
    rw [add_mul]
    omega
  have bound : paid + amount < balance + 1 := by
    have less : (paid + amount) * units < (balance + 1) * units := by
      rw [mul_comm (balance + 1)]
      omega
    exact lt_of_mul_lt_mul_right less some.le
  exact ⟨by omega, paid + amount, by omega, total.le⟩

section Loop
variable {pool : Pool}

/-- The state of the loop before the providers `rest` are paid. -/
structure Outstanding (pool : Pool) (rest : List LiquidityProvider) (left : ClpMsgServer.Remaining) :
    Prop where
  positive : ∀ lp ∈ rest, 0 < lp.liquidityProviderUnits
  units : left.poolUnits = unitsOf rest
  part : unitsOf rest ≤ pool.poolUnits
  native : RefundCovered pool.poolUnits pool.nativeAssetBalance (unitsOf rest) left.nativeAssetBalance
  external : RefundCovered pool.poolUnits pool.externalAssetBalance (unitsOf rest) left.externalAssetBalance

theorem outstanding_whole {lps : List LiquidityProvider} (total : unitsOf lps = pool.poolUnits)
    (positive : ∀ lp ∈ lps, 0 < lp.liquidityProviderUnits) : Outstanding pool lps pool.whole := by
  refine ⟨positive, total.symm, total.le, ⟨0, rfl, ?_⟩, ⟨0, rfl, ?_⟩⟩
  · rw [total, zero_mul, zero_add]
  · rw [total, zero_mul, zero_add]

theorem refundLeft_found (refundable : Refundable pool) {lp : LiquidityProvider}
    {rest : List LiquidityProvider} {left : ClpMsgServer.Remaining}
    (outstanding : Outstanding pool (lp :: rest) left) :
    ∃ native external next, calculateAllAssetsForLP pool lp = .ok (native, external, 0, 0) ∧
      native ≤ left.nativeAssetBalance ∧ external ≤ left.externalAssetBalance ∧
      lp.liquidityProviderUnits ≤ left.poolUnits ∧ refundLeft pool left lp = .ok next ∧
      Outstanding pool rest next := by
  have some := outstanding.positive lp (by simp)
  have units := outstanding.units
  have part := outstanding.part
  have nativeCovered := outstanding.native
  have externalCovered := outstanding.external
  rw [unitsOf_cons] at units part nativeCovered externalCovered
  obtain ⟨native, external, computed, nativeShare, externalShare⟩ :=
    @refund_amounts pool lp refundable some (by omega)
  obtain ⟨nativeBound, nativeLeft⟩ := refundCovered_pays (by omega) nativeCovered nativeShare
  obtain ⟨externalBound, externalLeft⟩ := refundCovered_pays (by omega) externalCovered externalShare
  refine ⟨native, external, ⟨left.poolUnits - lp.liquidityProviderUnits, left.nativeAssetBalance - native,
    left.externalAssetBalance - external⟩, computed, nativeBound, externalBound, by omega, ?_, ?_⟩
  · simp only [refundLeft, except_bind_succeeds, except_pure_succeeds, Uint.sub_succeeds]
    exact ⟨_, computed, _, ⟨by omega, rfl⟩, _, ⟨nativeBound, rfl⟩, _, ⟨externalBound, rfl⟩, rfl⟩
  · refine ⟨fun other member => outstanding.positive other (by simp [member]), ?_, by omega, nativeLeft,
      externalLeft⟩
    dsimp only
    omega

theorem refundsLeft_found (refundable : Refundable pool) (lps : List LiquidityProvider)
    (left : ClpMsgServer.Remaining) (outstanding : Outstanding pool lps left) :
    ∃ last, refundsLeft pool left lps = .ok last := by
  induction lps generalizing left with
  | nil => exact ⟨left, rfl⟩
  | cons lp rest ih =>
    obtain ⟨_, _, next, _, _, _, _, round, later⟩ := refundLeft_found refundable outstanding
    obtain ⟨last, computed⟩ := ih next later
    refine ⟨last, ?_⟩
    rw [refundsLeft, List.foldlM_cons]
    exact except_bind_succeeds.mpr ⟨next, round, computed⟩

theorem refundsLeft_positive (lps : List LiquidityProvider) (left last : ClpMsgServer.Remaining)
    (computed : refundsLeft pool left lps = .ok last) : ∀ lp ∈ lps, 0 < lp.liquidityProviderUnits := by
  induction lps generalizing left with
  | nil => simp
  | cons lp rest ih =>
    rw [refundsLeft, List.foldlM_cons] at computed
    obtain ⟨next, round, later⟩ := except_bind_succeeds.mp computed
    intro other member
    rcases List.mem_cons.mp member with rfl | after
    · apply Nat.pos_of_ne_zero
      intro none
      simp only [refundLeft, except_bind_succeeds] at round
      obtain ⟨amounts, share, _⟩ := round
      exact refund_of_nothing none amounts share
    · exact ih next later other after

def refundOf (pool : Pool) (lp : LiquidityProvider) : ℕ × ℕ :=
  match calculateAllAssetsForLP pool lp with
  | .ok (native, external, _, _) => (native, external)
  | .error _ => (0, 0)

theorem refundsLeft_total (lps : List LiquidityProvider) (left last : ClpMsgServer.Remaining)
    (computed : refundsLeft pool left lps = .ok last) :
    last.nativeAssetBalance + (lps.map (fun lp => (refundOf pool lp).1)).sum = left.nativeAssetBalance ∧
      last.externalAssetBalance + (lps.map (fun lp => (refundOf pool lp).2)).sum =
        left.externalAssetBalance := by
  induction lps generalizing left with
  | nil =>
    cases except_pure_succeeds.mp computed
    simp
  | cons lp rest ih =>
    rw [refundsLeft, List.foldlM_cons] at computed
    obtain ⟨next, round, later⟩ := except_bind_succeeds.mp computed
    obtain ⟨native, external⟩ := ih next later
    simp only [refundLeft, except_bind_succeeds, except_pure_succeeds, Uint.sub_succeeds] at round
    obtain ⟨⟨paid, sent, _, _⟩, share, _, ⟨_, rfl⟩, _, ⟨nativeBound, rfl⟩, _, ⟨externalBound, rfl⟩, rfl⟩ :=
      round
    have refund : refundOf pool lp = (paid, sent) := by simp only [refundOf, share]
    simp only [List.map_cons, List.sum_cons, refund]
    dsimp only at native external nativeBound externalBound
    omega

def payRefund (env : Env β) (symbol : String) (lp : LiquidityProvider) (native external : ℕ)
    (next : ClpMsgServer.Remaining) : Action β ClpMsgServer.Remaining := do
  let nativeInt ← ofExcept (parseToInt native)
  let externalInt ← ofExcept (parseToInt external)
  let withdrawNativeCoins ← ofExcept (newCoin env nativeSymbol nativeInt)
  let withdrawExternalCoins ← ofExcept (newCoin env symbol externalInt)
  let refundingCoins ← ofExcept (newCoins [withdrawExternalCoins, withdrawNativeCoins])
  Action.wrapped .errUnableToRemoveLiquidityProvider
    (ClpKeeper.removeLiquidityProvider env refundingCoins lp)
  pure next

def PayoutFails (env : Env β) (symbol : String) (lps : List LiquidityProvider) (e : Failure) : Prop :=
  ∃ lp ∈ lps, ∃ native external next w w',
    (payRefund env symbol lp native external next).run w = (.error e, w')

theorem refundProvider_pays (env : Env β) (symbol : String) {lp : LiquidityProvider}
    {left next : ClpMsgServer.Remaining} {native external : ℕ}
    (computed : calculateAllAssetsForLP pool lp = .ok (native, external, 0, 0))
    (round : refundLeft pool left lp = .ok next) :
    ClpMsgServer.refundProvider env symbol pool left lp = payRefund env symbol lp native external next := by
  simp only [refundLeft, computed, except_bind_succeeds, except_pure_succeeds, Except.ok.injEq] at round
  obtain ⟨_, rfl, _, units, _, nativeLeft, _, externalLeft, rfl⟩ := round
  unfold ClpMsgServer.refundProvider
  rw [computed, ofExcept_ok_then]
  dsimp only
  rw [units, ofExcept_ok_then, nativeLeft, ofExcept_ok_then, externalLeft, ofExcept_ok_then]
  rfl

theorem payRefund_returns (env : Env β) (symbol : String) (lp : LiquidityProvider) (native external : ℕ)
    (next : ClpMsgServer.Remaining) (w : World β) :
    Ensures (payRefund env symbol lp native external next) w (fun result _ => result = next) := by
  unfold payRefund
  refine ensures_ofExcept_then fun _ _ => ensures_ofExcept_then fun _ _ => ensures_ofExcept_then
    fun _ _ => ensures_ofExcept_then fun _ _ => ensures_ofExcept_then fun _ _ => ?_
  refine ensures_bind (P := fun _ _ => True) (fun _ _ _ => trivial) ?_
  intro _ _ _
  exact ensures_pure rfl

theorem refundProviders_fails (refundable : Refundable pool) (env : Env β) (symbol : String)
    (lps : List LiquidityProvider) (left : ClpMsgServer.Remaining) (w : World β)
    (outstanding : Outstanding pool lps left) :
    Fails (ClpMsgServer.refundProviders env symbol pool left lps) w (PayoutFails env symbol lps) := by
  induction lps generalizing left w with
  | nil => exact fails_pure
  | cons lp rest ih =>
    obtain ⟨native, external, next, computed, _, _, _, round, later⟩ :=
      refundLeft_found refundable outstanding
    unfold ClpMsgServer.refundProviders
    rw [refundProvider_pays env symbol computed round]
    apply fails_bind
    · intro e w' failed
      exact ⟨lp, by simp, native, external, next, w, w', failed⟩
    · intro result r paid
      obtain rfl := payRefund_returns env symbol lp native external next w result r paid
      intro e w' failed
      obtain ⟨other, member, payout⟩ := ih result r later e w' failed
      exact ⟨other, by simp [member], payout⟩

end Loop

namespace SmallPools

theorem cethPool_refundable : Refundable cethPool :=
  ⟨rfl, rfl, by decide, by decide, by decide +kernel⟩

def halves (signer : String) : ClpEvent :=
  .message (LedgerBank.block 3) (.removeLiquidity ⟨signer, "ceth", 5000, 0⟩)

def dustJoins : List ClpEvent :=
  [.message (LedgerBank.block 2) (.createPool ⟨"alice", "ceth", 10 ^ 18, 10 ^ 21⟩),
    .message (LedgerBank.block 3) (.addLiquidity ⟨"bob", "ceth", 0, 1⟩), halves "alice"]

def thirdsRound : List ClpEvent :=
  [.message (LedgerBank.block 2) (.createPool ⟨"alice", "ceth", 14 * 10 ^ 17, 14 * 10 ^ 25⟩),
    .message (LedgerBank.block 3) (.addLiquidity ⟨"bob", "ceth", 6 * 10 ^ 17, 6 * 10 ^ 25⟩),
    halves "alice", halves "alice", halves "bob", halves "bob"]

end SmallPools
end FuryNode
