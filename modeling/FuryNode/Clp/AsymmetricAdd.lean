import FuryNode.Clp.Calculations
import FuryNode.Library.QuadraticRoot

/-!
The swap that an asymmetric addition implies. Both formulas of the source are the positive
root of a falling quadratic, whose value is the difference between the two sides of the
ratio equation they solve.
-/
namespace FuryNode
open StatefulProgram

/-- The root formula with the rounded square root and the absolute value of the source. -/
def positiveRoot (α β γ : ℚ) : Fallible ℚ := do
  let root ← approxRatSquareRoot (QuadraticRoot.discriminant α β γ)
  let quotient ← ratQuo (root + β) (2 * α)
  pure |quotient|

theorem positiveRoot_brackets (α β γ : ℚ) (unit : 1 ≤ α) (start : 0 ≤ γ) :
    ∃ (t : ℚ) (s : ℕ), positiveRoot α β γ = .ok t ∧ ratIntQuo t = s ∧
      0 ≤ QuadraticRoot.value α β γ s ∧ QuadraticRoot.value α β γ (s + 2) < 0 := by
  have leading : 0 ≤ α := by linarith
  obtain ⟨n, root, below, above⟩ := approxRatSquareRoot_brackets _
    (QuadraticRoot.discriminant_nonneg α β γ leading start)
  have nonzero : 2 * α ≠ 0 := by linarith
  obtain ⟨s, truncated, low, high⟩ := ratIntQuo_brackets |((n : ℚ) + β) / (2 * α)| (abs_nonneg _)
  have sides := QuadraticRoot.bracket unit start ⟨below, above⟩ low high
  refine ⟨_, s, ?_, truncated, sides⟩
  simp only [positiveRoot, root, ratQuo, if_neg nonzero, bind, Except.bind, pure, Except.pure,
    Int.cast_natCast]

section External
variable (R A r a f p : ℚ)

/-- What `CalculateExternalSwapAmountAsymmetricRat` takes the square root of. -/
def externalRadicand : ℚ :=
  R * (-1 * (a + A)) * (4 * f * p * A * r + 2 * f * p * A * R + 4 * f * A * r + 4 * f * A * R
    - f * f * a * R - f * f * A * R - 2 * f * p * a * R - p * p * a * R - p * p * A * R
    - 4 * p * A * r - 4 * p * A * R - 4 * A * r - 4 * A * R)

/-- How far the ratio of what is left of the external amount to the fury it is added with is
    above the ratio of the pool after the addition, when `s` of it is swapped. -/
def externalGap (s : ℚ) : ℚ :=
  (a - s) * (r + R) * (s + A) * (1 + p) - (a + A) * (r * (s + A) * (1 + p) + s * R * (1 - f))

def externalLeading : ℚ := (p + 1) * (r + R)

def externalLinear : ℚ :=
  f * a * R + f * A * R + p * a * R - 2 * p * A * r - p * A * R - 2 * A * r - 2 * A * R

def externalStart : ℚ := A * (1 + p) * (a * R - r * A)

theorem externalRadicand_eq : externalRadicand R A r a f p = QuadraticRoot.discriminant
    (externalLeading R r p) (externalLinear R A r a f p) (externalStart R A r a p) := by
  unfold externalRadicand QuadraticRoot.discriminant externalLeading externalLinear externalStart
  ring

theorem externalGap_eq (s : ℚ) : externalGap R A r a f p s = QuadraticRoot.value
    (externalLeading R r p) (externalLinear R A r a f p) (externalStart R A r a p) s := by
  unfold externalGap QuadraticRoot.value externalLeading externalLinear externalStart
  ring

theorem calculateExternalSwapAmountAsymmetricRat_eq :
    calculateExternalSwapAmountAsymmetricRat R A r a f p = positiveRoot
      (externalLeading R r p) (externalLinear R A r a f p) (externalStart R A r a p) := by
  have numerator (root : ℚ) : root + f * a * R + f * A * R + p * a * R - 2 * p * A * r - p * A * R
      - 2 * A * r - 2 * A * R = root + externalLinear R A r a f p := by
    unfold externalLinear
    ring
  have denominator : 2 * (p + 1) * (r + R) = 2 * externalLeading R r p := by
    unfold externalLeading
    ring
  unfold positiveRoot
  rw [← externalRadicand_eq]
  simp only [calculateExternalSwapAmountAsymmetricRat, numerator, denominator]
  rfl

end External

section Native
variable (R A r a f p : ℚ)

/-- What `CalculateNativeSwapAmountAsymmetricRat` takes the square root of. -/
def nativeRadicand : ℚ :=
  let w := p * A * r + p * A * R + 2 * a * R + 2 * A * R - f * p * A * r - f * p * A * R
    - f * A * r - f * A * R
  w * w - 4 * (a + A) * (a * R * R - A * r * R)

/-- The same for an addition with too much fury, of which `s` is swapped. -/
def nativeGap (s : ℚ) : ℚ :=
  (r - s) * (a + A) * (s + R) - (r + R) * (a * (s + R) + s * A * (1 + p) * (1 - f))

def nativeLinear : ℚ :=
  f * p * A * r + f * p * A * R + f * A * r + f * A * R - p * A * r - p * A * R - 2 * a * R
    - 2 * A * R

def nativeStart : ℚ := R * (r * A - a * R)

theorem nativeRadicand_eq : nativeRadicand R A r a f p = QuadraticRoot.discriminant
    (a + A) (nativeLinear R A r a f p) (nativeStart R A r a) := by
  unfold nativeRadicand QuadraticRoot.discriminant nativeLinear nativeStart
  ring

theorem nativeGap_eq (s : ℚ) : nativeGap R A r a f p s = QuadraticRoot.value
    (a + A) (nativeLinear R A r a f p) (nativeStart R A r a) s := by
  unfold nativeGap QuadraticRoot.value nativeLinear nativeStart
  ring

theorem calculateNativeSwapAmountAsymmetricRat_eq :
    calculateNativeSwapAmountAsymmetricRat R A r a f p = positiveRoot
      (a + A) (nativeLinear R A r a f p) (nativeStart R A r a) := by
  have numerator (root : ℚ) : root + f * p * A * r + f * p * A * R + f * A * r + f * A * R
      - p * A * r - p * A * R - 2 * a * R - 2 * A * R = root + nativeLinear R A r a f p := by
    unfold nativeLinear
    ring
  have denominator : (a + A) * 2 = 2 * (a + A) := mul_comm _ _
  unfold positiveRoot
  rw [← nativeRadicand_eq]
  simp only [calculateNativeSwapAmountAsymmetricRat, numerator, denominator]
  rfl

end Native

section Underflow
variable {P R A r a : ℕ} {sellFee buyFee rate : Dec}

theorem calculatePoolUnitsSymmetric_fails (X x P : ℕ) (nonzero : X ≠ 0) :
    FailsOnly (calculatePoolUnitsSymmetric X x P) (· = .panic .overflow) := by
  simp [calculatePoolUnitsSymmetric, Uint.quo, nonzero, Uint.ofNat_fails]

/-- What `CalculatePoolUnits` does with the swapped amount, on either side. -/
def correction (P X x : ℕ) (status : SwapStatus) (amount : Fallible ℕ) : Fallible (ℕ × ℕ × SwapStatus × ℕ) := do
  let swapAmount ← amount
  let corrected ← Uint.sub x swapAmount
  let projected ← Uint.add X swapAmount
  let (poolUnits, lpUnits) ← calculatePoolUnitsSymmetric projected corrected P
  pure (poolUnits, lpUnits, status, swapAmount)

theorem calculatePoolUnits_needMoreY (state : getLiquidityAddSymmetryState A a R r = .needMoreY) :
    calculatePoolUnits P R A r a sellFee buyFee rate = correction P A a .buyNative
      (calculateExternalSwapAmountAsymmetric R A r a (decToRat buyFee) (decToRat rate)) := by
  rw [calculatePoolUnits, state]
  rfl

theorem calculatePoolUnits_needMoreX (state : getLiquidityAddSymmetryState A a R r = .needMoreX) :
    calculatePoolUnits P R A r a sellFee buyFee rate = correction P R r .sellNative
      (calculateNativeSwapAmountAsymmetric R A r a (decToRat sellFee) (decToRat rate)) := by
  rw [calculatePoolUnits, state]
  rfl

/-- A swapped amount that the addition covers leaves only overflows to fail with. -/
theorem correction_fails {X x s : ℕ} {status : SwapStatus} (nonzero : X ≠ 0) (covered : s ≤ x) :
    FailsOnly (correction P X x status (Uint.ofBigInt s)) (· = .panic .overflow) := by
  simp only [correction, failsOnly_bind_iff, Uint.ofNat_fails, Uint.ofBigInt_succeeds, true_and]
  rintro n ⟨same, _⟩
  obtain rfl : s = n := by exact_mod_cast same
  refine ⟨by simp [Uint.sub, covered], fun _ _ => ⟨by simp, fun projected added => ?_⟩⟩
  obtain ⟨_, rfl⟩ := (Uint.add_succeeds X s projected).mp added
  simp [calculatePoolUnitsSymmetric_fails, nonzero]

theorem needMoreY_iff : getLiquidityAddSymmetryState A a R r = .needMoreY ↔
    0 < R ∧ 0 < A ∧ 0 < a ∧ (r : ℚ) / a < (R : ℚ) / A := by
  constructor
  · intro state
    unfold getLiquidityAddSymmetryState at state
    split_ifs at state with filled added none above level
    have short : (r : ℚ) / a < (R : ℚ) / A := lt_of_le_of_ne (not_lt.mp above) (Ne.symm level)
    exact ⟨by omega, by omega, by omega, short⟩
  · intro ⟨hR, hA, ha, short⟩
    have filled : ¬(A = 0 ∨ R = 0) := by omega
    have added : ¬(a = 0 ∧ r = 0) := by omega
    rw [getLiquidityAddSymmetryState, if_neg filled, if_neg added, if_neg ha.ne',
      if_neg short.not_gt, if_neg short.ne']

theorem needMoreX_iff : getLiquidityAddSymmetryState A a R r = .needMoreX ↔
    0 < R ∧ 0 < A ∧ 0 < r ∧ (a = 0 ∨ (R : ℚ) / A < (r : ℚ) / a) := by
  constructor
  · intro state
    unfold getLiquidityAddSymmetryState at state
    split_ifs at state with filled added none above
    · exact ⟨by omega, by omega, by omega, Or.inl none⟩
    · have positive : r ≠ 0 := by
        intro zero
        have depth : (0 : ℚ) ≤ (R : ℚ) / A := by positivity
        rw [zero, Nat.cast_zero, zero_div] at above
        exact absurd above depth.not_gt
      exact ⟨by omega, by omega, by omega, Or.inr above⟩
  · intro ⟨hR, hA, hr, short⟩
    have filled : ¬(A = 0 ∨ R = 0) := by omega
    have added : ¬(a = 0 ∧ r = 0) := by omega
    rw [getLiquidityAddSymmetryState, if_neg filled, if_neg added]
    by_cases none : a = 0
    · rw [if_pos none]
    · rw [if_neg none, if_pos (short.resolve_left none)]

theorem symmetric_ratio (state : getLiquidityAddSymmetryState A a R r = .symmetric) :
    0 < R ∧ A * (R + r) = R * (A + a) := by
  unfold getLiquidityAddSymmetryState at state
  split_ifs at state with filled added none above level
  have depth : (A : ℚ) ≠ 0 := by exact_mod_cast (by omega : A ≠ 0)
  have amount : (a : ℚ) ≠ 0 := by exact_mod_cast none
  rw [div_eq_div_iff depth amount] at level
  have whole : R * a = r * A := by exact_mod_cast level
  refine ⟨by omega, ?_⟩
  rw [mul_add, mul_add, whole, mul_comm A R, mul_comm A r]

end Underflow

section Amounts
variable {R A r a : ℕ} {f p : ℚ}

theorem covered_of_gap {x s : ℕ} {factor rest : ℚ} (positive : 0 < factor) (other : 0 ≤ rest)
    (reached : 0 ≤ (x - s) * factor - rest) : s ≤ x := by
  by_contra beyond
  have more : (x : ℚ) < s := by exact_mod_cast not_le.mp beyond
  have left : ((x : ℚ) - s) * factor < 0 := mul_neg_of_neg_of_pos (by linarith) positive
  linarith

theorem externalGap_beyond (hR : 0 < R) (hA : 0 < A) (fee : f ≤ 1) (rate : 0 ≤ p) (s : ℕ)
    (reached : 0 ≤ externalGap R A r a f p s) : s ≤ a := by
  have kept : 0 ≤ 1 - f := by linarith
  rw [externalGap, mul_assoc, mul_assoc] at reached
  exact covered_of_gap (by positivity) (by positivity) reached

theorem nativeGap_beyond (hR : 0 < R) (hA : 0 < A) (fee : f ≤ 1) (rate : 0 ≤ p) (s : ℕ)
    (reached : 0 ≤ nativeGap R A r a f p s) : s ≤ r := by
  have kept : 0 ≤ 1 - f := by linarith
  rw [nativeGap, mul_assoc] at reached
  exact covered_of_gap (by positivity) (by positivity) reached

theorem externalStart_pos (hA : 0 < A) (ha : 0 < a) (rate : 0 ≤ p)
    (short : (r : ℚ) / a < (R : ℚ) / A) : 0 < externalStart R A r a p := by
  have other : (0 : ℚ) < A := by exact_mod_cast hA
  have added : (0 : ℚ) < a := by exact_mod_cast ha
  rw [div_lt_div_iff₀ added other] at short
  have excess : 0 < (a : ℚ) * R - r * A := by linarith
  unfold externalStart
  positivity

theorem nativeStart_pos (hR : 0 < R) (hA : 0 < A) (hr : 0 < r)
    (short : a = 0 ∨ (R : ℚ) / A < (r : ℚ) / a) : 0 < nativeStart R A r a := by
  have depth : (0 : ℚ) < R := by exact_mod_cast hR
  have other : (0 : ℚ) < A := by exact_mod_cast hA
  have added : (0 : ℚ) < r := by exact_mod_cast hr
  have excess : 0 < (r : ℚ) * A - a * R := by
    by_cases none : a = 0
    · rw [none]
      push_cast
      linarith [mul_pos added other]
    · have amount : (0 : ℚ) < a := by exact_mod_cast Nat.pos_of_ne_zero none
      have ratio := short.resolve_left none
      rw [div_lt_div_iff₀ other amount] at ratio
      linarith
  unfold nativeStart
  positivity

theorem one_le_externalLeading (hR : 0 < R) (rate : 0 ≤ p) : 1 ≤ externalLeading R r p := by
  have depth : (1 : ℚ) ≤ R := by exact_mod_cast hR
  have added : (0 : ℚ) ≤ r := Nat.cast_nonneg r
  unfold externalLeading
  nlinarith [mul_nonneg rate (by linarith : (0 : ℚ) ≤ r + R)]

theorem externalAmount_brackets (hR : 0 < R) (hA : 0 < A) (ha : 0 < a)
    (short : (r : ℚ) / a < (R : ℚ) / A) (rate : 0 ≤ p) :
    ∃ (t : ℚ) (s : ℕ), calculateExternalSwapAmountAsymmetricRat R A r a f p = .ok t ∧
      ratIntQuo t = s ∧ 0 ≤ externalGap R A r a f p s ∧ externalGap R A r a f p (s + 2) < 0 ∧
      calculateExternalSwapAmountAsymmetric R A r a f p = Uint.ofBigInt s := by
  have unit : 1 ≤ externalLeading R r p := one_le_externalLeading hR rate
  have start := externalStart_pos hA ha rate short
  obtain ⟨t, s, computed, truncated, reached, passed⟩ :=
    positiveRoot_brackets _ (externalLinear R A r a f p) _ unit start.le
  rw [← calculateExternalSwapAmountAsymmetricRat_eq] at computed
  rw [← externalGap_eq] at reached passed
  refine ⟨t, s, computed, truncated, reached, passed, ?_⟩
  simp only [calculateExternalSwapAmountAsymmetric, computed, bind, Except.bind, truncated]

theorem nativeAmount_brackets (hR : 0 < R) (hA : 0 < A) (hr : 0 < r)
    (short : a = 0 ∨ (R : ℚ) / A < (r : ℚ) / a) :
    ∃ (t : ℚ) (s : ℕ), calculateNativeSwapAmountAsymmetricRat R A r a f p = .ok t ∧
      ratIntQuo t = s ∧ 0 ≤ nativeGap R A r a f p s ∧ nativeGap R A r a f p (s + 2) < 0 ∧
      calculateNativeSwapAmountAsymmetric R A r a f p = Uint.ofBigInt s := by
  have unit : (1 : ℚ) ≤ a + A := by exact_mod_cast (by omega : 1 ≤ a + A)
  have start := nativeStart_pos hR hA hr short
  obtain ⟨t, s, computed, truncated, reached, passed⟩ :=
    positiveRoot_brackets _ (nativeLinear R A r a f p) _ unit start.le
  rw [← calculateNativeSwapAmountAsymmetricRat_eq] at computed
  rw [← nativeGap_eq] at reached passed
  refine ⟨t, s, computed, truncated, reached, passed, ?_⟩
  simp only [calculateNativeSwapAmountAsymmetric, computed, bind, Except.bind, truncated]

/-- The amount swapped on the external side: the root is taken of a nonnegative number, and the
    amount is found within two units below the exact solution, so the addition covers it. -/
theorem external_swap_amount (R A r a : ℕ) (f p : ℚ) (hR : 0 < R) (hA : 0 < A) (ha : 0 < a)
    (short : (r : ℚ) / a < (R : ℚ) / A) (fee : 0 ≤ f ∧ f ≤ 1) (rate : 0 ≤ p) :
    0 ≤ externalRadicand R A r a f p ∧
      ∃ (t : ℚ) (s : ℕ), calculateExternalSwapAmountAsymmetricRat R A r a f p = .ok t ∧
        ratIntQuo t = s ∧ 0 ≤ externalGap R A r a f p s ∧ externalGap R A r a f p (s + 2) < 0 ∧
        s ≤ a ∧ (a < 2 ^ 256 → calculateExternalSwapAmountAsymmetric R A r a f p = .ok s) ∧
        ∀ (P : ℕ) (sellFee buyFee running : Dec), decToRat buyFee = f → decToRat running = p →
          FailsOnly (calculatePoolUnits P R A r a sellFee buyFee running)
            (· = .panic .overflow) := by
  constructor
  · have unit : 1 ≤ externalLeading R r p := one_le_externalLeading hR rate
    rw [externalRadicand_eq]
    exact QuadraticRoot.discriminant_nonneg _ _ _ (by linarith)
      (externalStart_pos hA ha rate short).le
  obtain ⟨t, s, computed, truncated, reached, passed, amount⟩ :=
    externalAmount_brackets (f := f) hR hA ha short rate
  have covered := externalGap_beyond hR hA fee.2 rate s reached
  refine ⟨t, s, computed, truncated, reached, passed, covered, ?_, ?_⟩
  · intro bounded
    rw [amount, Uint.ofBigInt_succeeds]
    exact ⟨rfl, by omega⟩
  · intro P sellFee buyFee running sameFee sameRate
    rw [calculatePoolUnits_needMoreY (needMoreY_iff.mpr ⟨hR, hA, ha, short⟩), sameFee, sameRate, amount]
    exact correction_fails hA.ne' covered

theorem external_swap_amount_sample :
    calculateExternalSwapAmountAsymmetric 100 100 0 50 (3 / 1000) (1 / 10) = .ok 23 ∧
      0 ≤ externalRadicand 100 100 0 50 (3 / 1000) (1 / 10) :=
  ⟨by decide +kernel, by
    simpa using (external_swap_amount 100 100 0 50 (3 / 1000) (1 / 10) (by decide) (by decide)
      (by decide) (by norm_num) (by norm_num) (by norm_num)).1⟩

/-- The same on the native side. -/
theorem native_swap_amount (R A r a : ℕ) (f p : ℚ) (hR : 0 < R) (hA : 0 < A) (hr : 0 < r)
    (short : a = 0 ∨ (R : ℚ) / A < (r : ℚ) / a) (fee : 0 ≤ f ∧ f ≤ 1) (rate : 0 ≤ p) :
    0 ≤ nativeRadicand R A r a f p ∧
      ∃ (t : ℚ) (s : ℕ), calculateNativeSwapAmountAsymmetricRat R A r a f p = .ok t ∧
        ratIntQuo t = s ∧ 0 ≤ nativeGap R A r a f p s ∧ nativeGap R A r a f p (s + 2) < 0 ∧
        s ≤ r ∧ (r < 2 ^ 256 → calculateNativeSwapAmountAsymmetric R A r a f p = .ok s) ∧
        ∀ (P : ℕ) (sellFee buyFee running : Dec), decToRat sellFee = f → decToRat running = p →
          FailsOnly (calculatePoolUnits P R A r a sellFee buyFee running)
            (· = .panic .overflow) := by
  constructor
  · rw [nativeRadicand_eq]
    exact QuadraticRoot.discriminant_nonneg _ _ _ (by positivity)
      (nativeStart_pos hR hA hr short).le
  obtain ⟨t, s, computed, truncated, reached, passed, amount⟩ :=
    nativeAmount_brackets (f := f) (p := p) hR hA hr short
  have covered := nativeGap_beyond hR hA fee.2 rate s reached
  refine ⟨t, s, computed, truncated, reached, passed, covered, ?_, ?_⟩
  · intro bounded
    rw [amount, Uint.ofBigInt_succeeds]
    exact ⟨rfl, by omega⟩
  · intro P sellFee buyFee running sameFee sameRate
    rw [calculatePoolUnits_needMoreX (needMoreX_iff.mpr ⟨hR, hA, hr, short⟩), sameFee, sameRate, amount]
    exact correction_fails hR.ne' covered

theorem native_swap_amount_sample :
    calculateNativeSwapAmountAsymmetric 100 100 50 0 (3 / 1000) (1 / 10) = .ok 21 ∧
      0 ≤ nativeRadicand 100 100 50 0 (3 / 1000) (1 / 10) :=
  ⟨by decide +kernel, by
    simpa using (native_swap_amount 100 100 50 0 (3 / 1000) (1 / 10) (by decide) (by decide)
      (by decide) (by simp) (by norm_num) (by norm_num)).1⟩

end Amounts

section Dilution
variable {P R A r a P' lpUnits s : ℕ} {f : ℚ}

/-- The product of the depths per squared unit is kept, up to the two units by which the
    swapped amount can fall short of the exact one. -/
def Undiluted (P R A r a P' s : ℕ) : SwapStatus → Prop
  | .noSwap => R * A * P' ^ 2 ≤ (R + r) * (A + a) * P ^ 2
  | .buyNative => R * A * (P' * (A + s)) ^ 2 ≤ (R + r) * (A + a) * (P * (A + s + 2)) ^ 2
  | .sellNative => R * A * (P' * (R + s)) ^ 2 ≤ (R + r) * (A + a) * (P * (R + s + 2)) ^ 2

theorem symmetric_units_le {X x : ℕ}
    (computed : calculatePoolUnitsSymmetric X x P = .ok (P', lpUnits)) :
    P' * X ≤ P * (X + x) := by
  simp only [calculatePoolUnitsSymmetric, except_bind_succeeds, Uint.quo_succeeds,
    Uint.ofBigInt_succeeds, Uint.add_succeeds, except_pure_succeeds, Prod.mk.injEq] at computed
  obtain ⟨quotient, ⟨_, rfl⟩, units, ⟨same, _⟩, _, ⟨_, rfl⟩, rfl, _⟩ := computed
  have share : units = x * P / X := by exact_mod_cast same.symm
  have floored : units * X ≤ x * P := share ▸ Nat.div_mul_le_self (x * P) X
  calc (P + units) * X = P * X + units * X := Nat.add_mul _ _ _
    _ ≤ P * X + x * P := Nat.add_le_add_left floored _
    _ = P * (X + x) := by ring

theorem correction_units {X x n : ℕ} {status kind : SwapStatus}
    (computed : correction P X x kind (Uint.ofBigInt n) = .ok (P', lpUnits, status, s)) :
    s = n ∧ status = kind ∧ P' * (X + n) ≤ P * (X + x) := by
  simp only [correction, except_bind_succeeds, except_pure_succeeds, Uint.ofBigInt_succeeds,
    Uint.sub_succeeds, Uint.add_succeeds, Prod.mk.injEq] at computed
  obtain ⟨m, ⟨same, _⟩, _, ⟨covered, rfl⟩, _, ⟨_, rfl⟩, ⟨_, _⟩, units, rfl, _, rfl, rfl⟩ := computed
  obtain rfl : n = m := by exact_mod_cast same
  have total : X + n + (x - n) = X + x := by omega
  exact ⟨rfl, rfl, total ▸ symmetric_units_le units⟩

/-- Without a running rate the gap says how the squared depth after the swap compares with the
    product before it. -/
theorem externalGap_passed (fee : 0 ≤ f) (passed : externalGap R A r a f 0 ((s : ℚ) + 2) < 0) :
    R * A * (A + a) ≤ (R + r) * (A + s + 2) ^ 2 := by
  have kept : 0 ≤ ((a : ℚ) + A) * (s + 2) * R * f := by positivity
  have gap : externalGap R A r a f 0 ((s : ℚ) + 2) = R * A * (A + a) - (R + r) * (A + s + 2) ^ 2
      + (a + A) * (s + 2) * R * f := by
    unfold externalGap
    ring
  have root : (R : ℚ) * A * (A + a) ≤ (R + r) * (A + s + 2) ^ 2 := by linarith
  exact_mod_cast root

theorem nativeGap_mirror (R A r a f s : ℚ) :
    nativeGap R A r a f 0 s = externalGap A R a r f 0 s := by
  unfold nativeGap externalGap
  ring

theorem undiluted_of_root {k X T : ℕ} (units : P' * X ≤ P * T)
    (root : R * A * T ≤ k * (X + 2) ^ 2) :
    R * A * (P' * X) ^ 2 ≤ k * T * (P * (X + 2)) ^ 2 :=
  calc R * A * (P' * X) ^ 2 ≤ R * A * (P * T) ^ 2 :=
        Nat.mul_le_mul_left _ (Nat.pow_le_pow_left units 2)
    _ = R * A * T * (T * P ^ 2) := by ring
    _ ≤ k * (X + 2) ^ 2 * (T * P ^ 2) := Nat.mul_le_mul_right _ root
    _ = k * T * (P * (X + 2)) ^ 2 := by ring

theorem undiluted_symmetric (positive : 0 < R) (ratio : A * (R + r) = R * (A + a))
    (units : P' * R ≤ P * (R + r)) : R * A * P' ^ 2 ≤ (R + r) * (A + a) * P ^ 2 := by
  apply Nat.le_of_mul_le_mul_left _ positive
  calc R * (R * A * P' ^ 2) = A * (P' * R) ^ 2 := by ring
    _ ≤ A * (P * (R + r)) ^ 2 := Nat.mul_le_mul_left _ (Nat.pow_le_pow_left units 2)
    _ = A * (R + r) * ((R + r) * P ^ 2) := by ring
    _ = R * (A + a) * ((R + r) * P ^ 2) := by rw [ratio]
    _ = R * ((R + r) * (A + a) * P ^ 2) := by ring

/-- Adding liquidity keeps the value of a unit, up to the rounding of the swapped amount. -/
theorem units_undiluted (P R A r a P' lpUnits s : ℕ) (sellFee buyFee rate : Dec)
    (status : SwapStatus) (hR : 0 < R) (hA : 0 < A) (sell : 0 ≤ decToRat sellFee)
    (buy : 0 ≤ decToRat buyFee) (still : rate.raw = 0)
    (computed : calculatePoolUnits P R A r a sellFee buyFee rate = .ok (P', lpUnits, status, s)) :
    Undiluted P R A r a P' s status := by
  have noRate : decToRat rate = 0 := by simp [decToRat, still]
  cases state : getLiquidityAddSymmetryState A a R r with
  | errorEmptyPool =>
    simp only [getLiquidityAddSymmetryState] at state
    split_ifs at state with empty
    omega
  | errorNothingAdded =>
    rw [calculatePoolUnits, state] at computed
    cases computed
    unfold Undiluted
    gcongr <;> omega
  | needMoreY =>
    obtain ⟨_, _, ha, short⟩ := needMoreY_iff.mp state
    obtain ⟨_, n, _, _, reached, passed, amount⟩ :=
      externalAmount_brackets (f := decToRat buyFee) hR hA ha short le_rfl
    rw [calculatePoolUnits_needMoreY state, noRate, amount] at computed
    obtain ⟨rfl, rfl, minted⟩ := correction_units computed
    exact undiluted_of_root minted (externalGap_passed buy passed)
  | symmetric =>
    rw [calculatePoolUnits, state] at computed
    simp only [except_bind_succeeds, except_pure_succeeds, Prod.mk.injEq] at computed
    obtain ⟨⟨_, _⟩, units, rfl, _, rfl, rfl⟩ := computed
    obtain ⟨positive, ratio⟩ := symmetric_ratio state
    exact undiluted_symmetric positive ratio (symmetric_units_le units)
  | needMoreX =>
    obtain ⟨_, _, hr, short⟩ := needMoreX_iff.mp state
    obtain ⟨_, n, _, _, reached, passed, amount⟩ :=
      nativeAmount_brackets (f := decToRat sellFee) (p := 0) hR hA hr short
    rw [calculatePoolUnits_needMoreX state, noRate, amount] at computed
    obtain ⟨rfl, rfl, minted⟩ := correction_units computed
    rw [nativeGap_mirror] at passed
    have root := externalGap_passed sell passed
    rw [mul_comm A R] at root
    have kept := undiluted_of_root minted root
    rwa [mul_comm (A + a) (R + r)] at kept

example : calculatePoolUnits 1000 100 100 10 10 ⟨0⟩ ⟨0⟩ ⟨0⟩ = .ok (1100, 100, .noSwap, 0) := by
  decide +kernel

theorem units_undiluted_sample :
    calculatePoolUnits (10 ^ 10) 100 100 0 50 ⟨0⟩ ⟨0⟩ ⟨0⟩ =
        .ok (12295081967, 2295081967, .buyNative, 22) ∧
      Undiluted (10 ^ 10) 100 100 0 50 12295081967 22 .buyNative :=
  have computed : calculatePoolUnits (10 ^ 10) 100 100 0 50 ⟨0⟩ ⟨0⟩ ⟨0⟩ =
      .ok (12295081967, 2295081967, .buyNative, 22) := by decide +kernel
  ⟨computed, units_undiluted (10 ^ 10) 100 100 0 50 12295081967 2295081967 22 ⟨0⟩ ⟨0⟩ ⟨0⟩ .buyNative
    (by decide) (by decide) (by simp [decToRat]) (by simp [decToRat]) rfl computed⟩

/-- The swapped amount rounds down to 22 of 22.47, and the added units take a part of what the
    other providers had. -/
theorem rounded_swap_dilutes :
    calculatePoolUnits (10 ^ 10) 100 100 0 50 ⟨0⟩ ⟨0⟩ ⟨0⟩ =
        .ok (12295081967, 2295081967, .buyNative, 22) ∧
      (100 + 0) * (100 + 50) * (10 ^ 10) ^ 2 < 100 * 100 * 12295081967 ^ 2 := by
  decide +kernel

end Dilution

end FuryNode
