import Mathlib.Data.Rat.Floor
import FuryNode.Library.HalfEven
import FuryNode.Library.StatefulProgram

/-!
The unsigned integers and decimals of the SDK. `sdk.Uint` is a natural below
2^256 and `sdk.Dec` an integer count of 10^-18, at most 315 bits long; every
operation that leaves its range panics. Registered errors and panics are kept
apart because callers treat them differently.
-/
namespace FuryNode
open StatefulProgram HalfEven

inductive Panic where
  | overflow
  | underflow
  | negative
  | divisionByZero
  | squareRootOfNegative
  | failToConvert
  | indexOutOfRange
  | nilDereference
  | invalidDenom
  | duplicateDenom
  | invalidAddress
  | sellNativeValueAboveThreshold
  | expectNotToReachHere
  | bankPanicked
  | coinDenomsDiffer
  | unableToSetDistributionRecord
  deriving DecidableEq, Repr

inductive Err where
  | errInvalid
  | errInvalidAddress
  | errInValidAsset
  | errInValidAmount
  | errInvalidWBasis
  | errInvalidAsymmetry
  | errAsymmetricRemove
  | errPoolDoesNotExist
  | errLiquidityProviderDoesNotExist
  | errTotalAmountTooLow
  | errNotEnoughAssetTokens
  | errBalanceTooHigh
  | errUnableToSetPool
  | errUnableToDestroyPool
  | errUnableToCreatePool
  | errUnableToAddBalance
  | errUnableToAddLiquidity
  | errUnableToRemoveLiquidity
  | errUnableToRemoveLiquidityProvider
  | errUnableToDecommissionPool
  | errUnableToSwap
  | errUnableToParseInt
  | errBalanceNotAvailable
  | errNotEnoughLiquidity
  | errPoolTooShallow
  | errPoolBalanceTooLow
  | errTokenNotSupported
  | errReceivedAmountBelowExpected
  | errAmountTooLow
  | errReachedMaxFuryLiquidityThreshold
  | errMaxFuryLiquidityThresholdAssetPoolDoesNotExist
  | errQueued
  | errRemovalsBlockedByHealth
  | errPermissionDenied
  | errNotAllowedToSellAsset
  | errNotAllowedToBuyAsset
  | errBankRefused
  | errMTPDoesNotExist
  | errMTPInvalid
  | errMTPDisabled
  | errMTPHealthy
  | errMTPUnhealthy
  | errInvalidPosition
  | errMaxOpenPositions
  | errUnauthorised
  | errBorrowTooLow
  | errBorrowTooHigh
  | errCustodyTooHigh
  | errFuryAsCollateralNotAllowed
  | errNotEnoughPermissions
  | errCannotStartPolicy
  | errStartBlockNotInFuture
  | errInvalidDecimal
  | errEpochLengthNotPositive
  | errNegativeStartBlock
  | errEndBlockNotPositive
  | errEndBlockBeforeStart
  | errUnequalEpochs
  | errEmptyRewardPeriodId
  | errNegativeMultiplier
  | errMultiplierAboveTen
  | errBlockRateOutOfRange
  | errZeroModulo
  | errFailedInputs
  | errFailedOutputs
  | errDistribution
  | errNoOutputs
  | errInvalidTimestamp
  deriving DecidableEq, Repr

inductive Failure where
  | err (e : Err)
  | panic (p : Panic)
  deriving DecidableEq, Repr

abbrev Fallible (α : Type) := Except Failure α

/-- What a pointer points to. -/
def deref {α : Type} : Option α → Fallible α
  | some a => .ok a
  | none => .error (.panic .nilDereference)

/-- `sdkerrors.Wrap(outer, err.Error())`; a panic passes through. -/
def wrap (outer : Err) : Failure → Failure
  | .err _ => .err outer
  | .panic p => .panic p

namespace Uint

def add (a b : ℕ) : Fallible ℕ :=
  if a + b < 2 ^ 256 then .ok (a + b) else .error (.panic .overflow)

def sub (a b : ℕ) : Fallible ℕ :=
  if b ≤ a then .ok (a - b) else .error (.panic .underflow)

def quo (a b : ℕ) : Fallible ℕ :=
  if b = 0 then .error (.panic .divisionByZero) else .ok (a / b)

def ofBigInt (i : ℤ) : Fallible ℕ :=
  if i < 0 then .error (.panic .negative)
  else if i.toNat < 2 ^ 256 then .ok i.toNat
  else .error (.panic .overflow)

theorem add_succeeds (a b c : ℕ) : add a b = .ok c ↔ a + b < 2 ^ 256 ∧ c = a + b := by
  unfold add
  split <;> simp_all [eq_comm]

theorem sub_succeeds (a b c : ℕ) : sub a b = .ok c ↔ b ≤ a ∧ c = a - b := by
  unfold sub
  split <;> simp_all [eq_comm]

theorem quo_succeeds {a b c : ℕ} : quo a b = .ok c ↔ b ≠ 0 ∧ c = a / b := by
  unfold quo
  split <;> simp_all [eq_comm]

theorem ofBigInt_succeeds {i : ℤ} {n : ℕ} : ofBigInt i = .ok n ↔ i = n ∧ n < 2 ^ 256 := by
  unfold ofBigInt
  split
  · simp only [reduceCtorEq, false_iff, not_and, not_lt]
    omega
  · split
    · simp only [Except.ok.injEq]
      omega
    · simp only [reduceCtorEq, false_iff, not_and, not_lt]
      omega

theorem add_overflows (a b : ℕ) :
    FailsOnly (add a b) (fun e => e = .panic .overflow ∧ 2 ^ 256 ≤ a + b) := by
  simp [add]

theorem add_fails {a b : ℕ} : FailsOnly (add a b) (· = .panic .overflow) :=
  failsOnly_mono (add_overflows a b) (fun _ failed => failed.1)

theorem sub_fails {a b : ℕ} : FailsOnly (sub a b) (fun e => e = .panic .underflow ∧ a < b) := by
  simp [sub]

theorem ofBigInt_fails (i : ℤ) : FailsOnly (ofBigInt i)
    (fun e => e = .panic .overflow ∨ (e = .panic .negative ∧ i < 0)) := by
  simp [ofBigInt]

theorem ofNat_fails (n : ℕ) : FailsOnly (ofBigInt n) (· = .panic .overflow) := by
  refine failsOnly_mono (ofBigInt_fails n) ?_
  intro e failed
  rcases failed with overflow | ⟨_, negative⟩
  · exact overflow
  · omega

end Uint

structure Dec where
  raw : ℤ
  deriving DecidableEq, Repr

namespace Dec

def precision : ℕ := 10 ^ 18

def fits (i : ℤ) : Prop := i.natAbs < 2 ^ 315

instance (i : ℤ) : Decidable (fits i) := inferInstanceAs (Decidable (_ < _))

def checked (i : ℤ) : Fallible Dec := if fits i then .ok ⟨i⟩ else .error (.panic .overflow)

def ofInt (i : ℤ) : Dec := ⟨i * precision⟩
def zero : Dec := ⟨0⟩
def one : Dec := ofInt 1

def chopPrecisionAndRound (i : ℤ) : ℤ := i.sign * halfEven i.natAbs precision

def add (a b : Dec) : Fallible Dec := checked (a.raw + b.raw)
def sub (a b : Dec) : Fallible Dec := checked (a.raw - b.raw)
def mul (a b : Dec) : Fallible Dec := checked (chopPrecisionAndRound (a.raw * b.raw))

def quo (a b : Dec) : Fallible Dec :=
  if b.raw = 0 then .error (.panic .divisionByZero)
  else checked (chopPrecisionAndRound ((a.raw * precision * precision).tdiv b.raw))

/-- `sdk.NewIntFromBigInt` on the result of a truncation or a rounding. -/
def toInt (i : ℤ) : Fallible ℤ :=
  if i.natAbs < 2 ^ 256 then .ok i else .error (.panic .overflow)

def truncateInt (a : Dec) : Fallible ℤ := toInt (a.raw.tdiv precision)
def roundInt (a : Dec) : Fallible ℤ := toInt (chopPrecisionAndRound a.raw)

/-- `sdk.NewDecFromStr` on the decimal digits of an integer, its error being a
    panic at every call site of the model. -/
def fromDigits (i : ℤ) : Fallible Dec :=
  if fits (i * precision) then .ok (ofInt i) else .error (.panic .failToConvert)

def isZero (a : Dec) : Prop := a.raw = 0
def lt (a b : Dec) : Prop := a.raw < b.raw
def le (a b : Dec) : Prop := a.raw ≤ b.raw
def min (a b : Dec) : Dec := if a.raw < b.raw then a else b

instance (a : Dec) : Decidable a.isZero := inferInstanceAs (Decidable (_ = _))
instance (a b : Dec) : Decidable (a.lt b) := inferInstanceAs (Decidable (_ < _))
instance (a b : Dec) : Decidable (a.le b) := inferInstanceAs (Decidable (_ ≤ _))

theorem checked_succeeds {i : ℤ} {d : Dec} : checked i = .ok d ↔ fits i ∧ d = ⟨i⟩ := by
  unfold checked
  split <;> simp_all [eq_comm]

theorem toInt_succeeds {i j : ℤ} : toInt i = .ok j ↔ i.natAbs < 2 ^ 256 ∧ j = i := by
  unfold toInt
  split <;> simp_all [eq_comm]

theorem fromDigits_succeeds {i : ℤ} {d : Dec} (computed : fromDigits i = .ok d) : d = ofInt i := by
  unfold fromDigits at computed
  split at computed
  · cases computed
    rfl
  · cases computed

theorem precision_pos : 0 < precision := by decide

theorem ofInt_nonneg (n : ℕ) : 0 ≤ (ofInt n).raw :=
  mul_nonneg (Int.natCast_nonneg n) (Int.natCast_nonneg precision)

theorem chop_whole (n : ℤ) : chopPrecisionAndRound (n * precision) = n := by
  have sign : (n * (precision : ℤ)).sign = n.sign := by
    rw [Int.sign_mul, Int.sign_natCast_of_ne_zero precision_pos.ne', mul_one]
  rw [chopPrecisionAndRound, sign, Int.natAbs_mul, Int.natAbs_natCast,
    halfEven_mul precision_pos]
  exact Int.sign_mul_natAbs n

theorem chop_natCast (n : ℕ) : chopPrecisionAndRound n = halfEven n precision := by
  rcases Nat.eq_zero_or_pos n with rfl | positive
  · simp [chopPrecisionAndRound, halfEven, precision_pos]
  · rw [chopPrecisionAndRound, Int.sign_natCast_of_ne_zero positive.ne', Int.natAbs_natCast, one_mul]

/-- A quotient of decimals is within half a digit of the exact one, and the truncation before the
    rounding can take a little more below it. -/
theorem quo_near {a b q : Dec} (nonneg : 0 ≤ a.raw) (positive : 0 < b.raw)
    (computed : quo a b = .ok q) :
    0 ≤ q.raw ∧ 2 * q.raw * b.raw ≤ 2 * a.raw * precision + b.raw ∧
      2 * a.raw * precision ^ 2 < 2 * precision * q.raw * b.raw + (precision + 2) * b.raw := by
  have scale : (0 : ℤ) < precision := by exact_mod_cast precision_pos
  have total : 0 ≤ a.raw * precision * precision := by positivity
  rw [quo, if_neg positive.ne', checked_succeeds, Int.tdiv_eq_ediv_of_nonneg total] at computed
  obtain ⟨n, floor⟩ := Int.eq_ofNat_of_zero_le (Int.ediv_nonneg total positive.le)
  rw [floor, chop_natCast] at computed
  obtain ⟨low, high⟩ := halfEven_near n precision_pos
  have lower : 2 * (n : ℤ) ≤ 2 * (precision * halfEven n precision) + precision := by exact_mod_cast low
  have upper : 2 * ((precision : ℤ) * halfEven n precision) ≤ 2 * n + precision := by exact_mod_cast high
  have below : (n : ℤ) * b.raw ≤ a.raw * precision * precision := floor ▸ Int.ediv_mul_le _ positive.ne'
  have above : a.raw * precision * precision < (n + 1) * b.raw :=
    floor ▸ Int.lt_ediv_add_one_mul_self _ positive
  obtain ⟨_, rfl⟩ := computed
  dsimp only
  refine ⟨Int.natCast_nonneg _, ?_, ?_⟩
  · apply le_of_mul_le_mul_left _ scale
    have scaled := mul_le_mul_of_nonneg_right upper positive.le
    linarith
  · have scaled := mul_le_mul_of_nonneg_right lower positive.le
    linarith

theorem quo_between {a : Dec} (b : Dec) (lo : ℕ) {hi : ℕ} (nonneg : 0 ≤ a.raw) (positive : 0 < b.raw)
    (low : lo * b.raw ≤ a.raw * precision) (high : a.raw * precision ≤ hi * b.raw)
    (fit : hi < 2 ^ 315) : ∃ q, quo a b = .ok q ∧ lo ≤ q.raw ∧ q.raw ≤ hi := by
  have scale : (0 : ℤ) < precision := by exact_mod_cast precision_pos
  have total : 0 ≤ a.raw * precision * precision := by positivity
  obtain ⟨n, floor⟩ := Int.eq_ofNat_of_zero_le (Int.ediv_nonneg total positive.le)
  have above : lo * precision ≤ n := by
    have bound : (lo : ℤ) * precision ≤ n := by
      rw [← floor, Int.le_ediv_iff_mul_le positive]
      have scaled := mul_le_mul_of_nonneg_right low scale.le
      linarith
    exact_mod_cast bound
  have below : n ≤ hi * precision := by
    have bound : (n : ℤ) ≤ hi * precision := by
      rw [← floor]
      apply Int.ediv_le_of_le_mul positive
      have scaled := mul_le_mul_of_nonneg_right high scale.le
      linarith
    exact_mod_cast bound
  have least := le_halfEven_of_mul_le precision_pos above
  have most := halfEven_le_of_le_mul precision_pos below
  refine ⟨⟨halfEven n precision⟩, ?_, ?_, ?_⟩
  · rw [quo, if_neg positive.ne', checked_succeeds, Int.tdiv_eq_ediv_of_nonneg total, floor,
      chop_natCast]
    refine ⟨?_, rfl⟩
    unfold fits
    omega
  · exact Int.ofNat_le.mpr least
  · exact Int.ofNat_le.mpr most

theorem checked_fails {i : ℤ} : FailsOnly (checked i) (· = .panic .overflow) := by
  simp [checked]

theorem quo_fails {a b : Dec} (nonzero : b.raw ≠ 0) :
    FailsOnly (quo a b) (· = .panic .overflow) := by
  unfold quo
  rw [if_neg nonzero]
  exact checked_fails

theorem toInt_fails {i : ℤ} : FailsOnly (toInt i) (· = .panic .overflow) := by
  simp [toInt]

end Dec

section FailsOnly
variable {E : Failure → Prop}

@[simp] theorem Uint.sub_failsOnly (a b : ℕ) (underflow : E (.panic .underflow)) :
    FailsOnly (Uint.sub a b) E := by
  simp [sub, underflow]

@[simp] theorem Uint.quo_failsOnly (a b : ℕ) (divides : E (.panic .divisionByZero)) :
    FailsOnly (Uint.quo a b) E := by
  simp [quo, divides]

@[simp] theorem Dec.fromDigits_failsOnly (i : ℤ) (converts : E (.panic .failToConvert)) :
    FailsOnly (Dec.fromDigits i) E := by
  simp [fromDigits, converts]

variable (overflow : E (.panic .overflow))
include overflow

@[simp] theorem Uint.add_failsOnly (a b : ℕ) : FailsOnly (Uint.add a b) E := by
  simp [add, overflow]

@[simp] theorem Uint.ofBigInt_failsOnly (i : ℤ) (negative : E (.panic .negative)) :
    FailsOnly (Uint.ofBigInt i) E := by
  simp [ofBigInt, overflow, negative]

@[simp] theorem Dec.checked_failsOnly (i : ℤ) : FailsOnly (Dec.checked i) E := by
  simp [checked, overflow]

@[simp] theorem Dec.toInt_failsOnly (i : ℤ) : FailsOnly (Dec.toInt i) E := by
  simp [toInt, overflow]

@[simp] theorem Dec.add_failsOnly (a b : Dec) : FailsOnly (a.add b) E := checked_failsOnly overflow _

@[simp] theorem Dec.sub_failsOnly (a b : Dec) : FailsOnly (a.sub b) E := checked_failsOnly overflow _

@[simp] theorem Dec.mul_failsOnly (a b : Dec) : FailsOnly (a.mul b) E := checked_failsOnly overflow _

@[simp] theorem Dec.quo_failsOnly (a b : Dec) (divides : b.raw ≠ 0 ∨ E (.panic .divisionByZero)) :
    FailsOnly (a.quo b) E := by
  simp only [quo, failsOnly_ite_iff, failsOnly_error, checked_failsOnly overflow, implies_true, and_true]
  exact fun zero => divides.resolve_left (fun nonzero => nonzero zero)

end FailsOnly

def decToRat (d : Dec) : ℚ := d.raw / (10 ^ 18 : ℤ)

/-- `RatIntQuo`: the quotient truncates towards zero. -/
def ratIntQuo (r : ℚ) : ℤ := r.num.tdiv r.den

theorem ratIntQuo_floor (r : ℚ) (nonneg : 0 ≤ r) : ratIntQuo r = ⌊r⌋ := by
  rw [ratIntQuo, Int.tdiv_eq_ediv_of_nonneg (Rat.num_nonneg.mpr nonneg), ← Rat.floor_def']

theorem ratIntQuo_nonpos {r : ℚ} (nonpos : r ≤ 0) : ratIntQuo r ≤ 0 := by
  have negated : -ratIntQuo r = ⌊-r⌋ := by
    rw [← ratIntQuo_floor (-r) (by linarith), ratIntQuo, ratIntQuo, Rat.num_neg_eq_neg_num,
      Rat.den_neg_eq_den, Int.neg_tdiv]
  have floor : 0 ≤ ⌊-r⌋ := Int.floor_nonneg.mpr (by linarith)
  omega

/-- A truncated rational that is a natural number is at most the rational, unless it is zero. -/
theorem ratIntQuo_le {r : ℚ} {n : ℕ} (value : ratIntQuo r = n) (positive : n ≠ 0) :
    (n : ℚ) ≤ r := by
  rcases le_total r 0 with nonpos | nonneg
  · have bound := ratIntQuo_nonpos nonpos
    omega
  · rw [ratIntQuo_floor r nonneg] at value
    exact_mod_cast Int.le_floor.mp value.ge

theorem ratIntQuo_gt {r : ℚ} {n : ℕ} (value : ratIntQuo r = n) : r < n + 1 := by
  rcases le_total r 0 with nonpos | nonneg
  · have : (0 : ℚ) ≤ n := Nat.cast_nonneg n
    linarith
  · rw [ratIntQuo_floor r nonneg] at value
    have above := Int.lt_floor_add_one r
    rw [value] at above
    exact_mod_cast above

/-- `big.Rat.Quo`. -/
def ratQuo (a b : ℚ) : Fallible ℚ :=
  if b = 0 then .error (.panic .divisionByZero) else .ok (a / b)

def approxRatSquareRoot (x : ℚ) : Fallible ℤ :=
  if ratIntQuo x < 0 then .error (.panic .squareRootOfNegative)
  else .ok (Nat.sqrt (ratIntQuo x).toNat)

theorem ratIntQuo_brackets (r : ℚ) (nonneg : 0 ≤ r) :
    ∃ n : ℕ, ratIntQuo r = n ∧ (n : ℚ) ≤ r ∧ r < n + 1 := by
  obtain ⟨n, floor⟩ := Int.eq_ofNat_of_zero_le (Int.floor_nonneg.mpr nonneg)
  have value : ratIntQuo r = n := (ratIntQuo_floor r nonneg).trans floor
  have below : (n : ℚ) ≤ r := by exact_mod_cast Int.le_floor.mp floor.ge
  exact ⟨n, value, below, ratIntQuo_gt value⟩

theorem approxRatSquareRoot_brackets (x : ℚ) (nonneg : 0 ≤ x) :
    ∃ n : ℕ, approxRatSquareRoot x = .ok n ∧ (n : ℚ) ^ 2 ≤ x ∧ x < ((n : ℚ) + 1) ^ 2 := by
  obtain ⟨k, truncated, below, above⟩ := ratIntQuo_brackets x nonneg
  refine ⟨Nat.sqrt k, ?_, ?_, ?_⟩
  · rw [approxRatSquareRoot, truncated, if_neg (by omega), Int.toNat_natCast]
  · have root : ((Nat.sqrt k : ℕ) : ℚ) ^ 2 ≤ k := by exact_mod_cast Nat.sqrt_le' k
    exact root.trans below
  · have next : k + 1 ≤ (Nat.sqrt k + 1) ^ 2 := Nat.lt_succ_sqrt' k
    have root : (k : ℚ) + 1 ≤ ((Nat.sqrt k : ℕ) + 1 : ℚ) ^ 2 := by exact_mod_cast next
    exact above.trans_le root

end FuryNode
