import FuryNode.Library.ConstantProduct
import FuryNode.Margin.Rows

/-!
The price of a margin swap: what it gives is quoted by the depths of the pool, where the
running rate of the policy scales one direction by a factor and the other by its inverse.
-/
namespace FuryNode
open StatefulProgram ConstantProduct ClpKeeper MarginKeeper
variable {β : Type}

def Pool.depth (p : Pool) (s : Side) : ℕ := p.amount s .balance + p.amount s .liabilities

def priceFactor (params : ClpParams) : Side → ℚ
  | .native => (calcPmtpFactor params.pmtpCurrentRunningRate)⁻¹
  | .external => calcPmtpFactor params.pmtpCurrentRunningRate

theorem priceFactor_inverse {params : ClpParams} {s : Side} (positive : 0 < priceFactor params s) :
    0 < priceFactor params s.other ∧ priceFactor params s.other * priceFactor params s = 1 := by
  cases s with
  | native =>
    have factor : 0 < calcPmtpFactor params.pmtpCurrentRunningRate := inv_pos.mp positive
    exact ⟨factor, mul_inv_cancel₀ factor.ne'⟩
  | external => exact ⟨inv_pos.mpr positive, inv_mul_cancel₀ positive.ne'⟩

theorem extractValues_depths {p : Pool} {toAsset : String} {depths : ℕ × ℕ}
    (extracted : p.extractDebt (p.extractValues toAsset).1 (p.extractValues toAsset).2.1
      (p.extractValues toAsset).2.2.1 = .ok depths) :
    depths = (p.depth (sideOf toAsset).other, p.depth (sideOf toAsset)) := by
  unfold Pool.extractValues sideOf at *
  split at extracted <;>
  · simp only [Pool.extractDebt, ↓reduceIte, Bool.false_eq_true, except_bind_succeeds,
      except_pure_succeeds, Uint.add_succeeds] at extracted
    obtain ⟨_, ⟨_, rfl⟩, _, ⟨_, rfl⟩, rfl⟩ := extracted
    simp [Pool.depth, Pool.amount, Side.other, *]

theorem calcAdjusted_quote {params : ClpParams} {s : Side} {X x Y : ℕ} {A : ℚ}
    (computed : calcAdjusted (s = .native) X x Y params.pmtpCurrentRunningRate = .ok A) :
    A = priceFactor params s * (x * Y / (X + x)) := by
  cases s with
  | native =>
    simp only [calcAdjusted, decide_true, ↓reduceIte, ratQuo] at computed
    split at computed
    · cases computed
    · cases computed
      rw [priceFactor, calcRawXYK, div_eq_inv_mul]
  | external =>
    simp only [calcAdjusted, reduceCtorEq, decide_false, Bool.false_eq_true, ↓reduceIte,
      Except.ok.injEq] at computed
    rw [← computed, priceFactor, calcRawXYK, mul_comm]

structure Priced (w : World β) (n : ℕ) (toAsset : String) (p : Pool) (result : ℕ) : Prop where
  sent : 0 < n
  sold : 0 < p.depth (sideOf toAsset).other
  bought : 0 < p.depth (sideOf toAsset)
  factor : 0 < priceFactor w.clp (sideOf toAsset)
  quoted : Quoted (priceFactor w.clp (sideOf toAsset)) (p.depth (sideOf toAsset).other : ℚ) n
    (p.depth (sideOf toAsset)) result

theorem calcSwapResult_priced {params : ClpParams} {s : Side} {X x Y y fee : ℕ} {rate : Dec}
    (computed : calcSwapResult (s = .native) X x Y params.pmtpCurrentRunningRate rate = .ok (y, fee))
    (some : y ≠ 0) :
    0 < x ∧ 0 < X ∧ 0 < Y ∧ 0 < priceFactor params s ∧ Quoted (priceFactor params s) (X : ℚ) x Y y := by
  unfold calcSwapResult at computed
  split at computed
  · cases computed
    exact absurd rfl some
  · rename_i depths
    simp only [except_bind_succeeds, except_pure_succeeds, Uint.ofBigInt_succeeds,
      Uint.sub_succeeds, Prod.mk.injEq] at computed
    obtain ⟨A, adjusted, percentFee, _, whole, ⟨truncated, _⟩, y', ⟨_, rfl⟩, rfl, rfl⟩ := computed
    have below : (whole : ℚ) ≤ A := ratIntQuo_le truncated (by omega)
    have within : ((whole - percentFee : ℕ) : ℚ) ≤ A := le_trans (by exact_mod_cast Nat.sub_le _ _) below
    have positive : (0 : ℚ) < ((whole - percentFee : ℕ) : ℚ) := by exact_mod_cast Nat.pos_of_ne_zero some
    have sides : (0 : ℚ) < X ∧ (0 : ℚ) < x ∧ (0 : ℚ) < Y := by
      refine ⟨?_, ?_, ?_⟩ <;> · norm_cast; omega
    obtain ⟨depthX, sent, depthY⟩ := sides
    rw [calcAdjusted_quote adjusted] at within
    have raw : 0 < (x : ℚ) * Y / (X + x) := by positivity
    have factor : 0 < priceFactor params s := by
      by_contra nonpositive
      have product := mul_nonpos_of_nonpos_of_nonneg (not_lt.mp nonpositive) raw.le
      linarith
    refine ⟨by omega, by omega, by omega, factor, ?_⟩
    unfold Quoted
    have total : 0 < (X : ℚ) + x := by linarith
    rw [← mul_div_assoc, le_div_iff₀ total] at within
    exact within

theorem clpSwap_priced {w : World β} {n : ℕ} {toAsset : String} {p : Pool} {result : ℕ}
    (swapped : clpSwap w n toAsset p = .ok result) : Priced w n toAsset p result := by
  have bought : (p.extractValues toAsset).2.2.1 = decide (sideOf toAsset = .native) := by
    unfold Pool.extractValues sideOf
    split <;> simp
  simp only [clpSwap, clpCalcSwap, except_bind_succeeds, check_succeeds, except_pure_succeeds]
    at swapped
  obtain ⟨r, ⟨depths, extracted, ⟨amount, fee⟩, computed, _, _, rfl⟩, _, nonzero, rfl⟩ := swapped
  obtain rfl := extractValues_depths extracted
  rw [bought] at computed
  obtain ⟨sent, sold, boughtDepth, factor, quoted⟩ :=
    calcSwapResult_priced computed nonzero
  exact ⟨sent, sold, boughtDepth, factor, quoted⟩

end FuryNode
