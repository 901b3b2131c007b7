import FuryNode.Clp.SwapSequences

/-!
What one swap does to the depths, what a swap and its reversal return, and how the amount
received depends on the amount sent. All three come from one fact: the amount is a quote of
the depths at the factor of the ratio shift.
-/
namespace FuryNode
open StatefulProgram ConstantProduct

def shiftFactor (toFury : Bool) (rate : Dec) : ℚ :=
  if toFury then (calcPmtpFactor rate)⁻¹ else calcPmtpFactor rate

section Quotes
variable {toFury : Bool} {X x Y y fee : ℕ} {rate swapFeeRate : Dec}

theorem calcAdjusted_succeeds {v : ℚ} (adjusted : calcAdjusted toFury X x Y rate = .ok v) :
    v = calcRawXYK x X Y * shiftFactor toFury rate := by
  unfold calcAdjusted ratQuo at adjusted
  unfold shiftFactor
  cases toFury with
  | false =>
    simp only [Bool.false_eq_true, reduceIte, Except.ok.injEq] at adjusted ⊢
    exact adjusted.symm
  | true =>
    simp only [reduceIte] at adjusted ⊢
    split at adjusted
    · cases adjusted
    · cases adjusted
      exact div_eq_mul_inv _ _

theorem swap_quoted (factor : 0 ≤ shiftFactor toFury rate)
    (computed : calcSwapResult toFury X x Y rate swapFeeRate = .ok (y, fee)) :
    Quoted (shiftFactor toFury rate) X x Y y := by
  unfold Quoted
  rcases calcSwapResult_amount computed with rfl | ⟨_, some, _, v, adjusted, within, _⟩
  · rw [Nat.cast_zero, zero_mul]
    positivity
  · rw [calcAdjusted_succeeds adjusted] at within
    have total : (0 : ℚ) < X + x := by
      have sent : 0 < x := Nat.pos_of_ne_zero some
      positivity
    calc (y : ℚ) * (X + x) ≤ calcRawXYK x X Y * shiftFactor toFury rate * (X + x) :=
          mul_le_mul_of_nonneg_right within total.le
      _ = shiftFactor toFury rate * (x * Y) := by
        unfold calcRawXYK
        field_simp

theorem quoted_unshifted {φ : ℚ} (small : φ ≤ 1) (quoted : Quoted φ X x Y y) :
    Quoted (1 : ℚ) X x Y y := by
  unfold Quoted at quoted ⊢
  have amount : (0 : ℚ) ≤ x * Y := by positivity
  exact quoted.trans (mul_le_mul_of_nonneg_right small amount)

theorem calcPmtpFactor_pos (above : -(10 ^ 18) < rate.raw) : 0 < calcPmtpFactor rate := by
  unfold calcPmtpFactor decToRat
  have raw : -(10 ^ 18 : ℚ) < rate.raw := by exact_mod_cast above
  have scaled : -1 < (rate.raw : ℚ) / ((10 ^ 18 : ℤ) : ℚ) := by
    push_cast
    rw [lt_div_iff₀ (by positivity)]
    linarith
  linarith

theorem calcPmtpFactor_le_one (nonpos : rate.raw ≤ 0) : calcPmtpFactor rate ≤ 1 := by
  unfold calcPmtpFactor decToRat
  have raw : (rate.raw : ℚ) ≤ 0 := by exact_mod_cast nonpos
  have scaled : (rate.raw : ℚ) / ((10 ^ 18 : ℤ) : ℚ) ≤ 0 :=
    div_nonpos_of_nonpos_of_nonneg raw (by norm_num)
  linarith

theorem calcPmtpFactor_nonneg (above : -(10 ^ 18) ≤ rate.raw) : 0 ≤ calcPmtpFactor rate := by
  rcases above.eq_or_lt with least | more
  · simp [calcPmtpFactor, decToRat, ← least]
  · exact (calcPmtpFactor_pos more).le

theorem shiftFactor_pos (above : -(10 ^ 18) < rate.raw) : 0 < shiftFactor toFury rate := by
  have factor := calcPmtpFactor_pos above
  unfold shiftFactor
  split
  · exact inv_pos.mpr factor
  · exact factor

theorem shiftFactor_inverse (above : -(10 ^ 18) < rate.raw) :
    shiftFactor (!toFury) rate * shiftFactor toFury rate = 1 := by
  have nonzero := (calcPmtpFactor_pos above).ne'
  cases toFury with
  | false => simp [shiftFactor, nonzero]
  | true => simp [shiftFactor, nonzero]

end Quotes

section Depths
variable {pool finalPool : Pool} {toAsset : String} {rate swapFeeRate : Dec}
variable {sentAmount received fee impact : ℕ}

theorem depth_product (pool : Pool) (s : Side) :
    pool.depth .native * pool.depth .external = pool.depth s.other * pool.depth s := by
  cases s with
  | native => exact Nat.mul_comm _ _
  | external => rfl

theorem product_kept {s : Side} (swaps : Swaps pool finalPool s sentAmount received)
    (quoted : Quoted (1 : ℚ) (pool.depth s.other : ℕ) sentAmount (pool.depth s : ℕ) received) :
    pool.depth .native * pool.depth .external ≤
      finalPool.depth .native * finalPool.depth .external := by
  rw [depth_product pool s, depth_product finalPool s, swaps_depth_sold swaps]
  have bought := swaps_depth_bought swaps
  have bound : received * (pool.depth s.other + sentAmount) ≤ sentAmount * pool.depth s := by
    unfold Quoted at quoted
    rw [one_mul] at quoted
    exact_mod_cast quoted
  rw [← bought] at bound ⊢
  -- the sold depth times what is left loses the amount received and gains the amount sent
  nlinarith only [bound]

/-- The rates at which the shift of a direction does not raise the amount. -/
def RateFavoursPool (toAsset : String) (rate : Dec) : Prop :=
  if toAsset = nativeSymbol then 0 ≤ rate.raw else -(10 ^ 18) ≤ rate.raw ∧ rate.raw ≤ 0

theorem shiftFactor_unit (favours : RateFavoursPool toAsset rate) :
    0 ≤ shiftFactor (toAsset = nativeSymbol) rate ∧
      shiftFactor (toAsset = nativeSymbol) rate ≤ 1 := by
  unfold RateFavoursPool at favours
  by_cases native : toAsset = nativeSymbol
  · simp only [native, reduceIte] at favours
    have factor := calcPmtpFactor_ge_one favours
    simp only [native, decide_true, shiftFactor, reduceIte]
    exact ⟨inv_nonneg.mpr (by linarith), inv_le_one_of_one_le₀ factor⟩
  · simp only [native, reduceIte] at favours
    simp only [native, decide_false, shiftFactor, Bool.false_eq_true, reduceIte]
    exact ⟨calcPmtpFactor_nonneg favours.1, calcPmtpFactor_le_one favours.2⟩

/-- A swap does not lower the product of the depths, and moves only the two balances. -/
theorem swap_keeps_product (sentAmount : ℕ) (toAsset : String) (pool finalPool : Pool)
    (rate swapFeeRate : Dec) (received fee impact : ℕ) (favours : RateFavoursPool toAsset rate)
    (computed : swapOne sentAmount toAsset pool rate swapFeeRate = .ok (received, fee, impact, finalPool)) :
    pool.depth .native * pool.depth .external ≤
        finalPool.depth .native * finalPool.depth .external ∧
      Swaps pool finalPool (sideOf toAsset) sentAmount received := by
  have swaps := swapOne_swaps computed
  have amount := swapOne_amount computed
  obtain ⟨nonneg, small⟩ := shiftFactor_unit favours
  exact ⟨product_kept swaps (quoted_unshifted small (swap_quoted nonneg amount)), swaps⟩

def indebtedPool : Pool := {
  externalAsset := "ceth"
  nativeAssetBalance := 1000
  externalAssetBalance := 2000
  poolUnits := 1000
  nativeLiabilities := 50
  externalLiabilities := 70 }

theorem swap_keeps_product_indebted :
    RateFavoursPool nativeSymbol ⟨10 ^ 17⟩ ∧
      indebtedPool.depth .native * indebtedPool.depth .external ≤
        (indebtedPool.swapped nativeSymbol 300 120).depth .native *
          (indebtedPool.swapped nativeSymbol 300 120).depth .external :=
  have favours : RateFavoursPool nativeSymbol ⟨10 ^ 17⟩ := by simp [RateFavoursPool]
  ⟨favours, (swap_keeps_product 300 nativeSymbol indebtedPool _ ⟨10 ^ 17⟩ ⟨3 * 10 ^ 15⟩ 120 0 0 favours
    (by decide +kernel)).1⟩

/-- A swap of everything received back, at the same running rate and any two fees, returns at
    most what was sent. -/
theorem reversal_never_profits (sentAmount : ℕ) (toAsset backAsset : String)
    (pool middle finalPool : Pool) (rate feeRate backFeeRate : Dec)
    (received fee impact returned backFee backImpact : ℕ)
    (native : 0 < pool.depth .native) (external : 0 < pool.depth .external)
    (above : -(10 ^ 18) < rate.raw) (opposite : backAsset = nativeSymbol ↔ toAsset ≠ nativeSymbol)
    (there : swapOne sentAmount toAsset pool rate feeRate = .ok (received, fee, impact, middle))
    (back : swapOne received backAsset middle rate backFeeRate =
      .ok (returned, backFee, backImpact, finalPool)) : returned ≤ sentAmount := by
  have positive (s : Side) : (0 : ℚ) < pool.depth s := by
    cases s with
    | native => exact_mod_cast native
    | external => exact_mod_cast external
  have swaps := swapOne_swaps there
  have sold := swaps_depth_sold swaps
  have bought := swaps_depth_bought swaps
  have first := swap_quoted (shiftFactor_pos above).le (swapOne_amount there)
  have direction : decide (backAsset = nativeSymbol) = !decide (toAsset = nativeSymbol) := by
    rw [← decide_not]
    exact decide_eq_decide.mpr opposite
  have side : sideOf backAsset = (sideOf toAsset).other := by
    by_cases bought : toAsset = nativeSymbol
    · simp [sideOf, bought, Side.other, opposite]
    · simp [sideOf, bought, Side.other, opposite.mpr bought]
  have second := swap_quoted (shiftFactor_pos above).le (swapOne_amount back)
  have twice (s : Side) : s.other.other = s := by cases s <;> rfl
  rw [direction, side, twice, sold] at second
  push_cast at second
  have whole : (middle.depth (sideOf toAsset) : ℚ) + received = pool.depth (sideOf toAsset) := by
    exact_mod_cast bought
  have bound := round_trip_loses (shiftFactor_inverse above) (shiftFactor_pos above)
    (positive (sideOf toAsset).other) (Nat.cast_nonneg sentAmount) le_rfl (positive (sideOf toAsset))
    (whole ▸ positive (sideOf toAsset)) first second (by rw [whole])
  exact_mod_cast bound

theorem reversal_never_profits_indebted :
    swapOne 300 nativeSymbol indebtedPool ⟨10 ^ 17⟩ ⟨3 * 10 ^ 15⟩ =
        .ok (120, 0, 0, indebtedPool.swapped nativeSymbol 300 120) ∧
      swapOne 120 "ceth" (indebtedPool.swapped nativeSymbol 300 120) ⟨10 ^ 17⟩ ⟨0⟩ =
        .ok (297, 0, 0, (indebtedPool.swapped nativeSymbol 300 120).swapped "ceth" 120 297) ∧
      297 ≤ 300 :=
  have there : swapOne 300 nativeSymbol indebtedPool ⟨10 ^ 17⟩ ⟨3 * 10 ^ 15⟩ =
      .ok (120, 0, 0, indebtedPool.swapped nativeSymbol 300 120) := by decide +kernel
  have back : swapOne 120 "ceth" (indebtedPool.swapped nativeSymbol 300 120) ⟨10 ^ 17⟩ ⟨0⟩ =
      .ok (297, 0, 0, (indebtedPool.swapped nativeSymbol 300 120).swapped "ceth" 120 297) := by
    decide +kernel
  ⟨there, back, reversal_never_profits 300 nativeSymbol "ceth" indebtedPool _ _ ⟨10 ^ 17⟩
    ⟨3 * 10 ^ 15⟩ ⟨0⟩ 120 0 0 297 0 0 (by decide) (by decide) (by decide) (by decide) there back⟩

end Depths

section Monotone
variable {toFury : Bool} {X x Y y fee : ℕ} {rate swapFeeRate : Dec}

theorem calcRawXYK_mono {x₁ x₂ : ℕ} (depth : 0 < X) (more : x₁ ≤ x₂) :
    calcRawXYK x₁ X Y ≤ calcRawXYK x₂ X Y := by
  have positive : (0 : ℚ) < X := by exact_mod_cast depth
  have order : (x₁ : ℚ) ≤ x₂ := by exact_mod_cast more
  unfold calcRawXYK
  rw [div_le_div_iff₀ (by positivity) (by positivity)]
  have scaled : (x₁ : ℚ) * (Y * X) ≤ x₂ * (Y * X) :=
    mul_le_mul_of_nonneg_right order (by positivity)
  linarith

theorem calcSwapResult_floors (depth : 0 < X) (stock : 0 < Y) (sent : 0 < x)
    (computed : calcSwapResult toFury X x Y rate swapFeeRate = .ok (y, fee)) :
    ∃ whole : ℕ, ratIntQuo (calcRawXYK x X Y * shiftFactor toFury rate) = whole ∧
      ratIntQuo (calcRawXYK x X Y * shiftFactor toFury rate * decToRat swapFeeRate) = fee ∧
      y + fee = whole := by
  unfold calcSwapResult at computed
  rw [if_neg (by omega)] at computed
  simp only [except_bind_succeeds, except_pure_succeeds, Uint.ofBigInt_succeeds, Uint.sub_succeeds,
    Prod.mk.injEq] at computed
  obtain ⟨v, adjusted, cost, ⟨cut, _⟩, whole, ⟨truncated, _⟩, _, ⟨covers, rfl⟩, rfl, rfl⟩ := computed
  rw [calcAdjusted_succeeds adjusted] at cut truncated
  exact ⟨whole, truncated, cut, Nat.sub_add_cancel covers⟩

theorem calcSwapResult_none (computed : calcSwapResult toFury X 0 Y rate swapFeeRate = .ok (y, fee)) :
    y = 0 := by
  rw [calcSwapResult, if_pos (Or.inr (Or.inl rfl))] at computed
  cases computed
  rfl

theorem received_near (factor : 0 < shiftFactor toFury rate) (least : 0 ≤ decToRat swapFeeRate)
    {whole : ℕ} (amount : ratIntQuo (calcRawXYK x X Y * shiftFactor toFury rate) = whole)
    (cost : ratIntQuo (calcRawXYK x X Y * shiftFactor toFury rate * decToRat swapFeeRate) = fee)
    (split : y + fee = whole) :
    calcRawXYK x X Y * shiftFactor toFury rate * (1 - decToRat swapFeeRate) - 1 < y ∧
      (y : ℚ) < calcRawXYK x X Y * shiftFactor toFury rate * (1 - decToRat swapFeeRate) + 1 := by
  have exact : 0 ≤ calcRawXYK x X Y * shiftFactor toFury rate :=
    mul_nonneg (calcRawXYK_nonneg x X Y) factor.le
  obtain ⟨m, sameAmount, below, above⟩ := ratIntQuo_brackets _ exact
  obtain ⟨n, sameCost, belowCost, aboveCost⟩ := ratIntQuo_brackets _ (mul_nonneg exact least)
  obtain rfl : whole = m := by exact_mod_cast amount.symm.trans sameAmount
  obtain rfl : fee = n := by exact_mod_cast cost.symm.trans sameCost
  have total : (y : ℚ) + fee = whole := by exact_mod_cast split
  constructor
  · linarith
  · linarith

theorem ratIntQuo_mono {v w : ℚ} (nonneg : 0 ≤ v) (order : v ≤ w) : ratIntQuo v ≤ ratIntQuo w := by
  rw [ratIntQuo_floor v nonneg, ratIntQuo_floor w (nonneg.trans order)]
  exact Int.floor_le_floor order

/-- Sending more yields at most one unit less, and never less without a fee or at a full fee. -/
theorem received_nearly_monotone (toFury : Bool) (X Y x₁ x₂ y₁ y₂ fee₁ fee₂ : ℕ)
    (rate swapFeeRate : Dec) (depth : 0 < X) (stock : 0 < Y)
    (feeRange : 0 ≤ decToRat swapFeeRate ∧ decToRat swapFeeRate ≤ 1)
    (above : -(10 ^ 18) < rate.raw) (more : x₁ ≤ x₂)
    (less : calcSwapResult toFury X x₁ Y rate swapFeeRate = .ok (y₁, fee₁))
    (larger : calcSwapResult toFury X x₂ Y rate swapFeeRate = .ok (y₂, fee₂)) :
    y₁ ≤ y₂ + 1 ∧ (decToRat swapFeeRate = 0 ∨ decToRat swapFeeRate = 1 → y₁ ≤ y₂) := by
  rcases Nat.eq_zero_or_pos x₁ with rfl | sent
  · have none := calcSwapResult_none less
    exact ⟨by omega, fun _ => by omega⟩
  have factor : 0 < shiftFactor toFury rate := shiftFactor_pos above
  obtain ⟨whole₁, amount₁, cost₁, split₁⟩ := calcSwapResult_floors depth stock sent less
  obtain ⟨whole₂, amount₂, cost₂, split₂⟩ :=
    calcSwapResult_floors depth stock (by omega) larger
  have order : calcRawXYK x₁ X Y * shiftFactor toFury rate ≤
      calcRawXYK x₂ X Y * shiftFactor toFury rate :=
    mul_le_mul_of_nonneg_right (calcRawXYK_mono depth more) factor.le
  constructor
  · have near₁ := (received_near factor feeRange.1 amount₁ cost₁ split₁).2
    have near₂ := (received_near factor feeRange.1 amount₂ cost₂ split₂).1
    have after := mul_le_mul_of_nonneg_right order (by linarith [feeRange.2] :
      0 ≤ 1 - decToRat swapFeeRate)
    have bound : (y₁ : ℚ) < y₂ + 2 := by linarith
    have : y₁ < y₂ + 2 := by exact_mod_cast bound
    omega
  · intro extreme
    rcases extreme with free | full
    · -- without a fee the amount is one floor
      rw [free, mul_zero] at cost₁ cost₂
      have zero : ratIntQuo 0 = 0 := rfl
      have floors := ratIntQuo_mono (mul_nonneg (calcRawXYK_nonneg x₁ X Y) factor.le) order
      omega
    · -- at a full fee both floors are the same number
      rw [full, mul_one] at cost₁
      omega

theorem received_nearly_monotone_sample :
    calcSwapResult false 10000 33 1000 ⟨10 ^ 17⟩ ⟨3 * 10 ^ 17⟩ = .ok (2, 1) ∧
      calcSwapResult false 10000 66 1000 ⟨10 ^ 17⟩ ⟨3 * 10 ^ 17⟩ = .ok (5, 2) ∧ 2 ≤ 5 + 1 :=
  have less : calcSwapResult false 10000 33 1000 ⟨10 ^ 17⟩ ⟨3 * 10 ^ 17⟩ = .ok (2, 1) := by
    decide +kernel
  have larger : calcSwapResult false 10000 66 1000 ⟨10 ^ 17⟩ ⟨3 * 10 ^ 17⟩ = .ok (5, 2) := by
    decide +kernel
  ⟨less, larger, (received_nearly_monotone false 10000 1000 33 66 2 5 1 2 ⟨10 ^ 17⟩ ⟨3 * 10 ^ 17⟩
    (by decide) (by decide) (by norm_num [decToRat]) (by decide) (by decide) less larger).1⟩

/-- One more unit sent lifts the fee over its next floor but not the amount. -/
theorem larger_swap_receives_less :
    calcSwapResult true 10000 33 1000 ⟨0⟩ ⟨3 * 10 ^ 17⟩ = .ok (3, 0) ∧
      calcSwapResult true 10000 34 1000 ⟨0⟩ ⟨3 * 10 ^ 17⟩ = .ok (2, 1) := by
  decide +kernel

end Monotone

end FuryNode
