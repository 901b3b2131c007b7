import FuryNode.Clp.BeginBlock
import FuryNode.Clp.TradeScope
import FuryNode.Library.EventRuns

/-!
The PMTP policy as a state machine. A window of heights is divided into epochs of equal
length; the two counters are one mixed number that falls by one with every block, and the
running rate follows the power of the block rate. Between windows nothing moves.
-/
namespace FuryNode
open StatefulProgram StatefulProgram.Prog KeyedTable ClpKeeper BeginBlock PolicyMsgServer
variable {β : Type}

structure PmtpView where
  height : ℤ
  params : PmtpParams
  blockRate : Dec
  interPolicyRate : Dec
  epoch : PmtpEpoch
  runningRate : Dec

def PolicyState.pmtp (s : PolicyState β) : PmtpView :=
  ⟨s.world.height, s.pmtpParams, s.pmtpPeriodBlockRate, s.pmtpInterPolicyRate, s.pmtpEpoch, s.runningRate⟩

/-- A policy that `ValidateBasic` accepts, with its first block after the genesis. -/
structure PmtpParams.Valid (p : PmtpParams) : Prop where
  length : 0 < p.pmtpPeriodEpochLength
  start : 0 < p.pmtpPeriodStartBlock
  ordered : p.pmtpPeriodStartBlock ≤ p.pmtpPeriodEndBlock
  bounded : p.pmtpPeriodEndBlock < 2 ^ 63
  whole : p.pmtpPeriodEpochLength ∣ p.pmtpPeriodEndBlock - p.pmtpPeriodStartBlock + 1

namespace PmtpView

def inside (v : PmtpView) : Prop :=
  v.height ≤ v.params.pmtpPeriodEndBlock ∧ v.params.pmtpPeriodStartBlock ≤ v.height

/-- The rate that a policy has reached which started from `interPolicyRate`. -/
def RateReached (env : PolicyEnv β) (v : PmtpView) (interPolicyRate : Dec) : Prop :=
  ∃ base power : Dec, base.raw = Dec.one.raw + v.blockRate.raw ∧
    env.power base (v.height - v.params.pmtpPeriodStartBlock + 1).toNat = .ok power ∧
    v.runningRate.raw = interPolicyRate.raw + power.raw - Dec.one.raw

structure Counted (v : PmtpView) : Prop where
  left : (v.epoch.epochCounter - 1) * v.params.pmtpPeriodEpochLength + v.epoch.blockCounter =
    v.params.pmtpPeriodEndBlock - v.height
  epochs : 0 < v.epoch.epochCounter
  blocks : 0 < v.epoch.blockCounter
  within : v.epoch.blockCounter ≤ v.params.pmtpPeriodEpochLength

def Idle (v : PmtpView) : Prop := v.epoch = ⟨0, 0⟩ ∧ v.interPolicyRate = v.runningRate

/-- What holds in every state; `interPolicyRate` and `blockRate` are those of the last start. -/
structure Sound (env : PolicyEnv β) (v : PmtpView) (interPolicyRate blockRate : Dec) : Prop where
  height : 0 ≤ v.height
  pending : v.height < v.params.pmtpPeriodStartBlock → v.params.Valid
  outside : ¬v.inside → v.Idle
  reached : v.inside → v.blockRate = blockRate ∧ v.RateReached env interPolicyRate
  running : v.inside → v.height < v.params.pmtpPeriodEndBlock →
    v.params.Valid ∧ v.interPolicyRate = interPolicyRate ∧ v.Counted
  ended : v.inside → v.height = v.params.pmtpPeriodEndBlock → v.Idle

end PmtpView

variable {s t : PolicyState β} {u : Unit} {rate : Dec}

section Block
variable (env : PolicyEnv β)

theorem policyStart_succeeds (run : (policyStart env).run s = (.ok u, t)) :
    ∃ blockRate, t = { s with
      pmtpPeriodBlockRate := blockRate
      pmtpEpoch := ⟨(wrapInt64 (s.pmtpParams.pmtpPeriodEndBlock - s.pmtpParams.pmtpPeriodStartBlock + 1)).tdiv
        s.pmtpParams.pmtpPeriodEpochLength, s.pmtpParams.pmtpPeriodEpochLength⟩ } := by
  simp only [policyStart, read_then, require_then, ofExcept_then, modify_succeeds] at run
  obtain ⟨_, blockRate, _, rfl⟩ := run
  exact ⟨blockRate, rfl⟩

theorem policyCalculations_succeeds (run : (policyCalculations env).run s = (.ok rate, t)) :
    t = s.setRunningRate rate ∧ ∃ base power : Dec,
      base.raw = Dec.one.raw + s.pmtpPeriodBlockRate.raw ∧
      env.power base (uint64OfInt (s.world.height - s.pmtpParams.pmtpPeriodStartBlock + 1)) = .ok power ∧
      rate.raw = s.pmtpInterPolicyRate.raw + power.raw - Dec.one.raw := by
  simp only [policyCalculations, read_then, ofExcept_then, modify_then, pure_succeeds, Dec.add, Dec.sub,
    Dec.checked_succeeds] at run
  obtain ⟨base, ⟨_, rfl⟩, power, raised, _, ⟨_, rfl⟩, _, ⟨_, rfl⟩, rfl, rfl⟩ := run
  refine ⟨rfl, _, power, rfl, raised, ?_⟩
  simp only
  omega

theorem countEpoch_succeeds (run : countEpoch.run s = (.ok u, t)) :
    t = if s.pmtpEpoch.blockCounter = 0 ∧ s.world.height < s.pmtpParams.pmtpPeriodEndBlock ∧
        s.pmtpParams.pmtpPeriodStartBlock ≤ s.world.height
      then { s with pmtpEpoch := ⟨s.pmtpEpoch.epochCounter - 1, s.pmtpParams.pmtpPeriodEpochLength⟩ }
      else s := by
  simp only [countEpoch, read_then, when_succeeds, modify_succeeds] at run
  obtain ⟨rolls, rfl⟩ | ⟨stays, rfl⟩ := run
  · rw [if_pos rolls]
  · rw [if_neg stays]

theorem endPolicy_succeeds (run : (endPolicy rate).run s = (.ok u, t)) :
    t = if s.world.height = s.pmtpParams.pmtpPeriodEndBlock
      then { s with pmtpEpoch := ⟨0, 0⟩, pmtpInterPolicyRate := rate } else s := by
  simp only [endPolicy, read_then, when_succeeds, modify_succeeds] at run
  obtain ⟨ends, rfl⟩ | ⟨goes, rfl⟩ := run
  · rw [if_pos ends]
  · rw [if_neg goes]

theorem pmtpBlock_succeeds (run : (pmtpBlock env).run s = (.ok rate, t)) :
    ∃ started counted, (∃ u, (startPolicy env).run s = (.ok u, started)) ∧
      (countBlock env).run started = (.ok rate, counted) ∧
      ∃ rolled, (∃ u, countEpoch.run counted = (.ok u, rolled)) ∧
        ∃ u, (endPolicy rate).run rolled = (.ok u, t) := by
  simp only [pmtpBlock, bind_succeeds, pure_succeeds] at run
  obtain ⟨u, started, begun, r, counted, counts, v, rolled, rolls, w, _, ends, rfl, rfl⟩ := run
  exact ⟨started, counted, ⟨u, begun⟩, counts, rolled, ⟨v, rolls⟩, w, ends⟩

theorem idle_block (outside : ¬s.pmtp.inside)
    (ordered : s.world.height = s.pmtpParams.pmtpPeriodStartBlock ∨
      s.world.height = s.pmtpParams.pmtpPeriodEndBlock →
        s.pmtpParams.pmtpPeriodStartBlock ≤ s.pmtpParams.pmtpPeriodEndBlock)
    (run : (pmtpBlock env).run s = (.ok rate, t)) : t = s := by
  have apart : ¬(s.world.height ≤ s.pmtpParams.pmtpPeriodEndBlock ∧
    s.pmtpParams.pmtpPeriodStartBlock ≤ s.world.height) := outside
  have first : s.world.height ≠ s.pmtpParams.pmtpPeriodStartBlock := by
    intro same
    have := ordered (Or.inl same)
    omega
  have last : s.world.height ≠ s.pmtpParams.pmtpPeriodEndBlock := by
    intro same
    have := ordered (Or.inr same)
    omega
  obtain ⟨started, counted, ⟨u, begun⟩, counts, rolled, ⟨v, rolls⟩, w, ends⟩ :=
    pmtpBlock_succeeds env run
  simp only [startPolicy, read_then, when_succeeds] at begun
  obtain ⟨starts, _⟩ | ⟨_, rfl⟩ := begun
  · exact absurd starts.1 first
  · simp only [countBlock, read_then] at counts
    rw [if_neg (by omega)] at counts
    obtain ⟨_, rfl⟩ := pure_succeeds.mp counts
    have rolled_eq := countEpoch_succeeds rolls
    rw [if_neg (by omega)] at rolled_eq
    subst rolled_eq
    have ended_eq := endPolicy_succeeds ends
    rwa [if_neg last] at ended_eq

structure Due (v : PmtpView) : Prop where
  left : (v.epoch.epochCounter - 1) * v.params.pmtpPeriodEpochLength + v.epoch.blockCounter =
    v.params.pmtpPeriodEndBlock - v.height + 1
  epochs : 0 < v.epoch.epochCounter
  blocks : 0 < v.epoch.blockCounter
  within : v.epoch.blockCounter ≤ v.params.pmtpPeriodEpochLength

theorem counted_block {counted rolled : PolicyState β} {v : Unit} (valid : s.pmtpParams.Valid)
    (inside : s.pmtp.inside) (due : Due s.pmtp)
    (counts : (countBlock env).run s = (.ok rate, counted))
    (rolls : countEpoch.run counted = (.ok u, rolled))
    (ends : (endPolicy rate).run rolled = (.ok v, t)) :
    t.world.height = s.world.height ∧ t.pmtpParams = s.pmtpParams ∧
      t.pmtpPeriodBlockRate = s.pmtpPeriodBlockRate ∧ t.pmtp.RateReached env s.pmtpInterPolicyRate ∧
      (s.world.height < s.pmtpParams.pmtpPeriodEndBlock →
        t.pmtpInterPolicyRate = s.pmtpInterPolicyRate ∧ t.pmtp.Counted) ∧
      (s.world.height = s.pmtpParams.pmtpPeriodEndBlock → t.pmtp.Idle) := by
  obtain ⟨before, since⟩ : s.world.height ≤ s.pmtpParams.pmtpPeriodEndBlock ∧
    s.pmtpParams.pmtpPeriodStartBlock ≤ s.world.height := inside
  have epochs : 0 < s.pmtpEpoch.epochCounter := due.epochs
  simp only [countBlock, read_then] at counts
  rw [if_pos ⟨since, before, epochs⟩] at counts
  simp only [bind_succeeds, modify_succeeds, pure_succeeds] at counts
  obtain ⟨_, calculated, calculates, _, _, rfl, rfl, rfl⟩ := counts
  obtain ⟨rfl, base, power, sum, raised, reached⟩ := policyCalculations_succeeds env calculates
  have exponent := uint64OfInt_small (s.world.height - s.pmtpParams.pmtpPeriodStartBlock + 1) (by omega)
    (by have := valid.bounded; have := valid.start; omega)
  rw [exponent] at raised
  have rolled_eq := countEpoch_succeeds rolls
  have ended_eq := endPolicy_succeeds ends
  have left : (s.pmtpEpoch.epochCounter - 1) * s.pmtpParams.pmtpPeriodEpochLength + s.pmtpEpoch.blockCounter =
    s.pmtpParams.pmtpPeriodEndBlock - s.world.height + 1 := due.left
  have blocks : 0 < s.pmtpEpoch.blockCounter := due.blocks
  have within : s.pmtpEpoch.blockCounter ≤ s.pmtpParams.pmtpPeriodEpochLength := due.within
  by_cases last : s.world.height = s.pmtpParams.pmtpPeriodEndBlock
  · have stays : ¬(s.pmtpEpoch.blockCounter - 1 = 0 ∧ s.world.height < s.pmtpParams.pmtpPeriodEndBlock ∧
      s.pmtpParams.pmtpPeriodStartBlock ≤ s.world.height) := by omega
    obtain rfl := rolled_eq.trans (if_neg stays)
    obtain rfl := ended_eq.trans (if_pos last)
    exact ⟨rfl, rfl, rfl, ⟨base, power, sum, raised, reached⟩, fun less => absurd last less.ne,
      fun _ => ⟨rfl, rfl⟩⟩
  · have less : s.world.height < s.pmtpParams.pmtpPeriodEndBlock := lt_of_le_of_ne before last
    -- the epoch counter is moved on exactly when the block counter has run out
    by_cases out : s.pmtpEpoch.blockCounter - 1 = 0
    · obtain rfl := rolled_eq.trans (if_pos ⟨out, less, since⟩)
      obtain rfl := ended_eq.trans (if_neg last)
      refine ⟨rfl, rfl, rfl, ⟨base, power, sum, raised, reached⟩, fun _ => ⟨rfl, ?_⟩,
        fun same => absurd same last⟩
      have more : 0 < (s.pmtpEpoch.epochCounter - 1) * s.pmtpParams.pmtpPeriodEpochLength := by omega
      have another : 0 < s.pmtpEpoch.epochCounter - 1 := (pos_iff_pos_of_mul_pos more).mpr valid.length
      refine ⟨?_, another, valid.length, le_rfl⟩
      change (s.pmtpEpoch.epochCounter - 1 - 1) * s.pmtpParams.pmtpPeriodEpochLength +
        s.pmtpParams.pmtpPeriodEpochLength = s.pmtpParams.pmtpPeriodEndBlock - s.world.height
      linarith
    · obtain rfl := rolled_eq.trans (if_neg (fun rolls => out rolls.1))
      obtain rfl := ended_eq.trans (if_neg last)
      refine ⟨rfl, rfl, rfl, ⟨base, power, sum, raised, reached⟩, fun _ => ⟨rfl, ?_⟩,
        fun same => absurd same last⟩
      refine ⟨?_, epochs, ?_, ?_⟩
      · change (s.pmtpEpoch.epochCounter - 1) * s.pmtpParams.pmtpPeriodEpochLength +
          (s.pmtpEpoch.blockCounter - 1) = s.pmtpParams.pmtpPeriodEndBlock - s.world.height
        linarith
      · change 0 < s.pmtpEpoch.blockCounter - 1
        omega
      · change s.pmtpEpoch.blockCounter - 1 ≤ s.pmtpParams.pmtpPeriodEpochLength
        omega

theorem counted_block_sound {counted rolled : PolicyState β} {v : Unit}
    (height : 0 ≤ s.world.height) (valid : s.pmtpParams.Valid) (inside : s.pmtp.inside)
    (due : Due s.pmtp) (counts : (countBlock env).run s = (.ok rate, counted))
    (rolls : countEpoch.run counted = (.ok u, rolled))
    (ends : (endPolicy rate).run rolled = (.ok v, t)) :
    (t.world.height = s.world.height ∧ t.pmtpParams = s.pmtpParams ∧
      t.pmtpPeriodBlockRate = s.pmtpPeriodBlockRate) ∧
      t.pmtp.Sound env s.pmtpInterPolicyRate s.pmtpPeriodBlockRate := by
  obtain ⟨sameHeight, sameParams, sameRate, reached, goes, finishes⟩ :=
    counted_block env valid inside due counts rolls ends
  have still : t.pmtp.inside := by
    change t.world.height ≤ t.pmtpParams.pmtpPeriodEndBlock ∧
      t.pmtpParams.pmtpPeriodStartBlock ≤ t.world.height
    rw [sameHeight, sameParams]
    exact inside
  refine ⟨⟨sameHeight, sameParams, sameRate⟩, ?_⟩
  constructor
  · change 0 ≤ t.world.height
    rwa [sameHeight]
  · intro early
    exact absurd still.2 (not_le.mpr early)
  · intro outside
    exact absurd still outside
  · intro _
    exact ⟨sameRate, reached⟩
  · intro _ less
    change t.world.height < t.pmtpParams.pmtpPeriodEndBlock at less
    rw [sameHeight, sameParams] at less
    refine ⟨?_, goes less⟩
    change t.pmtpParams.Valid
    rwa [sameParams]
  · intro _ last
    change t.world.height = t.pmtpParams.pmtpPeriodEndBlock at last
    rw [sameHeight, sameParams] at last
    exact finishes last

theorem started_due (s : PolicyState β) (blockRate : Dec) (valid : s.pmtpParams.Valid)
    (first : s.world.height = s.pmtpParams.pmtpPeriodStartBlock) :
    Due ({ s with
      pmtpPeriodBlockRate := blockRate
      pmtpEpoch := ⟨(wrapInt64 (s.pmtpParams.pmtpPeriodEndBlock - s.pmtpParams.pmtpPeriodStartBlock + 1)).tdiv
        s.pmtpParams.pmtpPeriodEpochLength, s.pmtpParams.pmtpPeriodEpochLength⟩ } : PolicyState β).pmtp := by
  obtain ⟨epochs, whole⟩ := valid.whole
  have length := valid.length
  have start := valid.start
  have ordered := valid.ordered
  have bounded := valid.bounded
  have quotient : (wrapInt64 (s.pmtpParams.pmtpPeriodEndBlock - s.pmtpParams.pmtpPeriodStartBlock + 1)).tdiv
      s.pmtpParams.pmtpPeriodEpochLength = epochs := by
    rw [wrapInt64_of_range _ (by omega) (by omega), whole, Int.mul_tdiv_cancel_left _ length.ne']
  have positive : 0 < s.pmtpParams.pmtpPeriodEpochLength * epochs := by omega
  rw [quotient]
  refine ⟨?_, (pos_iff_pos_of_mul_pos positive).mp length, length, le_rfl⟩
  change (epochs - 1) * s.pmtpParams.pmtpPeriodEpochLength + s.pmtpParams.pmtpPeriodEpochLength =
    s.pmtpParams.pmtpPeriodEndBlock - s.world.height + 1
  rw [first]
  linarith

section Next
variable {height : ℤ} {interPolicyRate blockRate : Dec} {s t : PolicyState β} {rate : Dec}
  (sound : ({ s.pmtp with height := height } : PmtpView).Sound env interPolicyRate blockRate)
  (later : s.world.height = height + 1) (run : (pmtpBlock env).run s = (.ok rate, t))
include sound later run

theorem first_block_sound (first : s.world.height = s.pmtpParams.pmtpPeriodStartBlock) :
    (t.world.height = s.world.height ∧ t.pmtpParams = s.pmtpParams) ∧
      t.pmtp.Sound env s.pmtpInterPolicyRate t.pmtpPeriodBlockRate := by
  have early : height < s.pmtpParams.pmtpPeriodStartBlock := by omega
  have nonneg : 0 ≤ height := sound.height
  have valid : s.pmtpParams.Valid := sound.pending early
  have inside : s.pmtp.inside := ⟨le_of_eq_of_le first valid.ordered, first.ge⟩
  have zero : s.pmtpEpoch = ⟨0, 0⟩ := (sound.outside (fun within => absurd within.2 (not_le.mpr early))).1
  obtain ⟨started, counted, ⟨u, begun⟩, counts, rolled, ⟨v, rolls⟩, w, ends⟩ :=
    pmtpBlock_succeeds env run
  simp only [startPolicy, read_then, when_succeeds] at begun
  obtain ⟨_, starts⟩ | ⟨stays, _⟩ := begun
  · obtain ⟨chosen, shape⟩ := policyStart_succeeds env starts
    have world : started.world = s.world := by rw [shape]
    have params : started.pmtpParams = s.pmtpParams := by rw [shape]
    have inter : started.pmtpInterPolicyRate = s.pmtpInterPolicyRate := by rw [shape]
    have due : Due started.pmtp := by
      rw [shape]
      exact started_due s chosen valid first
    have within : started.pmtp.inside := by
      simp only [PolicyState.pmtp, world, params]
      exact inside
    obtain ⟨⟨sameHeight, sameParams, sameRate⟩, done⟩ := counted_block_sound env
      (by rw [world]; omega) (by rwa [params]) within due counts rolls ends
    rw [world] at sameHeight
    rw [params] at sameParams
    rw [inter, ← sameRate] at done
    exact ⟨⟨sameHeight, sameParams⟩, done⟩
  · exact absurd ⟨first, by rw [zero], by rw [zero]⟩ stays

theorem later_block_sound (inside : s.pmtp.inside)
    (started : s.world.height ≠ s.pmtpParams.pmtpPeriodStartBlock) :
    (t.world.height = s.world.height ∧ t.pmtpParams = s.pmtpParams) ∧
      t.pmtp.Sound env interPolicyRate blockRate := by
  obtain ⟨before, since⟩ : s.world.height ≤ s.pmtpParams.pmtpPeriodEndBlock ∧
    s.pmtpParams.pmtpPeriodStartBlock ≤ s.world.height := inside
  have nonneg : 0 ≤ height := sound.height
  have within : height ≤ s.pmtpParams.pmtpPeriodEndBlock ∧ s.pmtpParams.pmtpPeriodStartBlock ≤ height := by
    omega
  have notLast : height < s.pmtpParams.pmtpPeriodEndBlock := by omega
  obtain ⟨valid, sameInter, blocks⟩ := sound.running within notLast
  have sameRate : s.pmtpPeriodBlockRate = blockRate := (sound.reached within).1
  have due : Due s.pmtp := by
    refine ⟨?_, blocks.epochs, blocks.blocks, blocks.within⟩
    have left : (s.pmtpEpoch.epochCounter - 1) * s.pmtpParams.pmtpPeriodEpochLength +
      s.pmtpEpoch.blockCounter = s.pmtpParams.pmtpPeriodEndBlock - height := blocks.left
    change (s.pmtpEpoch.epochCounter - 1) * s.pmtpParams.pmtpPeriodEpochLength +
      s.pmtpEpoch.blockCounter = s.pmtpParams.pmtpPeriodEndBlock - s.world.height + 1
    omega
  obtain ⟨_, counted, ⟨u, begun⟩, counts, rolled, ⟨v, rolls⟩, w, ends⟩ :=
    pmtpBlock_succeeds env run
  simp only [startPolicy, read_then, when_succeeds] at begun
  obtain ⟨starts, _⟩ | ⟨_, rfl⟩ := begun
  · exact absurd starts.1 started
  · obtain ⟨⟨sameHeight, sameParams, _⟩, done⟩ := counted_block_sound env
      (by omega) valid ⟨before, since⟩ due counts rolls ends
    obtain rfl : s.pmtpInterPolicyRate = interPolicyRate := sameInter
    subst sameRate
    exact ⟨⟨sameHeight, sameParams⟩, done⟩

theorem outside_block_sound (outside : ¬s.pmtp.inside) (oldInter oldRate : Dec) :
    t = s ∧ t.pmtp.Sound env oldInter oldRate := by
  have nonneg : 0 ≤ height := sound.height
  have gone : ¬(s.world.height ≤ s.pmtpParams.pmtpPeriodEndBlock ∧
    s.pmtpParams.pmtpPeriodStartBlock ≤ s.world.height) := outside
  have ordered : s.world.height = s.pmtpParams.pmtpPeriodStartBlock ∨
      s.world.height = s.pmtpParams.pmtpPeriodEndBlock →
        s.pmtpParams.pmtpPeriodStartBlock ≤ s.pmtpParams.pmtpPeriodEndBlock := by
    intro boundary
    by_contra reversed
    have early : height < s.pmtpParams.pmtpPeriodStartBlock := by omega
    have valid : s.pmtpParams.Valid := sound.pending early
    exact reversed valid.ordered
  obtain rfl := idle_block env outside ordered run
  have idle : t.pmtp.Idle := by
    by_cases was : height ≤ t.pmtpParams.pmtpPeriodEndBlock ∧ t.pmtpParams.pmtpPeriodStartBlock ≤ height
    · have last : height = t.pmtpParams.pmtpPeriodEndBlock := by omega
      exact sound.ended was last
    · exact sound.outside was
  refine ⟨rfl, by change 0 ≤ t.world.height; omega, ?_, fun _ => idle, fun now => absurd now outside,
    fun now => absurd now outside, fun now => absurd now outside⟩
  intro early
  change t.world.height < t.pmtpParams.pmtpPeriodStartBlock at early
  exact sound.pending (by change height < t.pmtpParams.pmtpPeriodStartBlock; omega)

end Next

/-- A block that begins leaves the rest of the policy's state to `pmtpBlock`. -/
theorem nextBlock_succeeds (run : (nextBlock env).run s = (.ok u, t)) :
    ∃ s' t' rate, s'.pmtp = { s.pmtp with height := s.world.height + 1 } ∧
      (pmtpBlock env).run s' = (.ok rate, t') ∧ t.pmtp = t'.pmtp := by
  simp only [nextBlock, modify_then] at run
  simp only [beginBlocker, bind_succeeds] at run
  obtain ⟨_, s', replenishes, rate, t', runs, prices⟩ := run
  have replenish : Preserves (PolicyState.pmtp (β := β)) replenishThreshold :=
    preserves_read_then fun _ => preserves_when (preserves_ofExcept_then fun _ =>
      preserves_modify fun _ => rfl)
  have before := replenish { s with world := { s.world with height := s.world.height + 1 } }
  have priced : Preserves (PolicyState.pmtp (β := β)) (policyRun env rate) :=
    policyRun_scope (fun _ _ => rfl) env rate
  have after := priced t'
  rw [replenishes] at before
  rw [prices] at after
  exact ⟨s', t', rate, before, runs, after⟩

end Block

structure PolicyWatch (β : Type) where
  state : PolicyState β
  interPolicyRateAtStart : Dec
  blockRateAtStart : Dec

def PolicyWatch.Sound (env : PolicyEnv β) (r : PolicyWatch β) : Prop :=
  r.state.pmtp.Sound env r.interPolicyRateAtStart r.blockRateAtStart

def PolicyWatch.step (env : PolicyEnv β) (e : PolicyEvent) (r : PolicyWatch β) : PolicyWatch β :=
  let next := e.step env r.state
  if r.state.world.height < next.world.height ∧ next.world.height = next.pmtpParams.pmtpPeriodStartBlock then
    ⟨next, r.state.pmtpInterPolicyRate, next.pmtpPeriodBlockRate⟩
  else ⟨next, r.interPolicyRateAtStart, r.blockRateAtStart⟩

section Watching
variable (env : PolicyEnv β)

theorem watch_step_state (e : PolicyEvent) (r : PolicyWatch β) :
    (PolicyWatch.step env e r).state = e.step env r.state := by
  unfold PolicyWatch.step
  dsimp only
  split <;> rfl

theorem watch_state (events : List PolicyEvent) (r : PolicyWatch β) :
    (EventRuns.run (PolicyWatch.step env) events r).state =
      EventRuns.run (PolicyEvent.step env) events r.state := by
  induction events generalizing r with
  | nil => rfl
  | cons e rest ih =>
    refine (ih (PolicyWatch.step env e r)).trans ?_
    rw [watch_step_state]
    rfl

theorem beginBlock_sound (r : PolicyWatch β) (sound : r.Sound env) :
    (PolicyWatch.step env .beginBlock r).Sound env := by
  have outcome := transact_cases (nextBlock env) r.state
  rcases outcome with same | ⟨u, run⟩
  · have halted : PolicyEvent.step env .beginBlock r.state = r.state := same
    simp only [PolicyWatch.step, halted, lt_self_iff_false, false_and, if_false]
    exact sound
  · obtain ⟨s, t, rate, next, runs, after⟩ := nextBlock_succeeds env run
    change (PolicyEvent.step env .beginBlock r.state).pmtp = t.pmtp at after
    have later : s.world.height = r.state.world.height + 1 := congrArg PmtpView.height next
    have sameInter : s.pmtpInterPolicyRate = r.state.pmtpInterPolicyRate :=
      congrArg PmtpView.interPolicyRate next
    have before : ({ s.pmtp with height := r.state.world.height } : PmtpView) = r.state.pmtp := by
      rw [next]
      rfl
    have old : ({ s.pmtp with height := r.state.world.height } : PmtpView).Sound env
        r.interPolicyRateAtStart r.blockRateAtStart := by
      rw [before]
      exact sound
    have height : (PolicyEvent.step env .beginBlock r.state).world.height = t.world.height :=
      congrArg PmtpView.height after
    have params : (PolicyEvent.step env .beginBlock r.state).pmtpParams = t.pmtpParams :=
      congrArg PmtpView.params after
    have blockRate : (PolicyEvent.step env .beginBlock r.state).pmtpPeriodBlockRate = t.pmtpPeriodBlockRate :=
      congrArg PmtpView.blockRate after
    by_cases first : s.world.height = s.pmtpParams.pmtpPeriodStartBlock
    · obtain ⟨⟨sameHeight, sameParams⟩, done⟩ := first_block_sound env old later runs first
      simp only [PolicyWatch.step, height, params, sameHeight, sameParams, blockRate]
      rw [if_pos ⟨by omega, first⟩]
      simp only [PolicyWatch.Sound, after, ← sameInter]
      exact done
    · have kept : (t.world.height = s.world.height ∧ t.pmtpParams = s.pmtpParams) ∧
          t.pmtp.Sound env r.interPolicyRateAtStart r.blockRateAtStart := by
        by_cases inside : s.pmtp.inside
        · exact later_block_sound env old later runs inside first
        · obtain ⟨rfl, done⟩ := outside_block_sound env old later runs inside r.interPolicyRateAtStart
            r.blockRateAtStart
          exact ⟨⟨rfl, rfl⟩, done⟩
      obtain ⟨⟨sameHeight, sameParams⟩, done⟩ := kept
      simp only [PolicyWatch.step, height, params, sameHeight, sameParams]
      rw [if_neg (fun starts => first starts.2)]
      simp only [PolicyWatch.Sound, after]
      exact done

end Watching

section Delivery
variable (env : PolicyEnv β)

theorem trade_scope (m : ClpMsg) :
    Preserves (PolicyState.pmtp (β := β)) ((PolicyMsg.trade m).action env) := by
  intro s
  have blind : BlindToTrades (fun w : World β => (w.height, w.clp)) :=
    ⟨⟨⟨fun _ _ => rfl, fun _ _ => rfl, fun _ _ _ _ => rfl, fun _ _ => rfl⟩, fun _ _ => rfl⟩,
      fun _ _ => rfl, fun _ _ => rfl⟩
  have kept := clpMsg_scope blind (fun _ _ => rfl) env.toEnv m s.world
  obtain ⟨height, clp⟩ := Prod.mk.inj kept
  simp only [PolicyMsg.action, zoom, PolicyState.pmtp, PolicyState.runningRate, height, clp]

theorem protection_scope {m : PolicyMsg}
    (protects : (∃ u, m = .updateLiquidityProtectionParams u) ∨ ∃ u, m = .modifyLiquidityProtectionRates u) :
    Preserves (PolicyState.pmtp (β := β)) (m.action env) := by
  obtain ⟨u, rfl⟩ | ⟨u, rfl⟩ := protects
  · exact preserves_ofExcept_then fun _ => preserves_require_then fun _ =>
      preserves_bind (requireAdmin_scope env) fun _ => preserves_modify fun _ => rfl
  · exact preserves_bind (requireAdmin_scope env) fun _ => preserves_modify fun _ => rfl

/-- What `ValidateBasic` accepts, for a first block after the present one. -/
theorem validated_params {m : MsgUpdatePmtpParams} (rGov : Dec)
    (validated : validatePmtpParams env m = .ok u) (future : 0 < m.pmtpPeriodStartBlock.toInt) :
    PmtpParams.Valid ⟨rGov, m.pmtpPeriodEpochLength.toInt, m.pmtpPeriodStartBlock.toInt,
      m.pmtpPeriodEndBlock.toInt⟩ := by
  simp only [validatePmtpParams, except_bind_succeeds, check_succeeds] at validated
  obtain ⟨_, _, _, length, _, _, _, _, _, ordered, equal⟩ := validated
  have bounded := m.pmtpPeriodEndBlock.toInt_lt
  rw [wrapInt64_of_range _ (by omega) (by omega)] at equal
  exact ⟨length, future, ordered, bounded, Int.dvd_of_tmod_eq_zero equal⟩

theorem updatePmtpParams_sound {m : MsgUpdatePmtpParams} {interPolicyRate blockRate : Dec}
    (sound : s.pmtp.Sound env interPolicyRate blockRate)
    (run : (updatePmtpParams env m).run s = (.ok u, t)) :
    t.world.height = s.world.height ∧ t.pmtp.Sound env interPolicyRate blockRate := by
  simp only [updatePmtpParams, ofExcept_then] at run
  obtain ⟨_, validated, run⟩ := run
  obtain ⟨_, _, admin, run⟩ := bind_ok run
  obtain ⟨_, rfl⟩ := requireAdmin_succeeds.mp admin
  simp only [read_then, require_then, ofExcept_then, modify_succeeds] at run
  obtain ⟨outside, future, rGov, _, rfl⟩ := run
  have height : 0 ≤ s.world.height := sound.height
  have idle := sound.outside outside
  have valid := validated_params env rGov validated (by omega)
  refine ⟨rfl, height, fun _ => valid, fun _ => idle, ?_, ?_, ?_⟩
  all_goals
    intro inside
    exact absurd inside.2 (not_le.mpr future)

/-- Between policies both rates are set together; within one it can only be ended. -/
theorem modifyPmtpRates_sound {m : MsgModifyPmtpRates} {interPolicyRate blockRate : Dec}
    (sound : s.pmtp.Sound env interPolicyRate blockRate)
    (run : (modifyPmtpRates env m).run s = (.ok u, t)) :
    t.world.height = s.world.height ∧ t.pmtp.Sound env interPolicyRate blockRate := by
  simp only [modifyPmtpRates] at run
  obtain ⟨_, _, admin, run⟩ := bind_ok run
  obtain ⟨_, rfl⟩ := requireAdmin_succeeds.mp admin
  simp only [read_then] at run
  split at run
  · rename_i inside
    obtain ⟨_, changed⟩ | ⟨_, rfl⟩ := when_succeeds.mp run
    · obtain rfl := modify_succeeds.mp changed
      have early : ¬s.world.height < s.pmtpParams.pmtpPeriodStartBlock := not_lt.mpr inside.2
      exact ⟨rfl, sound.height, fun now => absurd now early, fun outside => absurd ⟨le_rfl, inside.2⟩ outside,
        fun _ => sound.reached inside, fun _ now => absurd now (lt_irrefl _), fun _ _ => ⟨rfl, rfl⟩⟩
    · exact ⟨rfl, sound⟩
  · rename_i outside
    simp only [ofExcept_then, modify_succeeds] at run
    obtain ⟨newBlockRate, _, newRunningRate, parsed, rfl⟩ := run
    have idle := sound.outside outside
    refine ⟨rfl, sound.height, sound.pending, fun _ => ⟨idle.1, ?_⟩, fun now => absurd now outside,
      fun now => absurd now outside, fun now => absurd now outside⟩
    change (if m.runningRate = "" then s.pmtpInterPolicyRate else newRunningRate) = newRunningRate
    split
    · rename_i empty
      rw [parseRate, if_pos empty] at parsed
      cases parsed
      exact idle.2
    · rfl

theorem deliver_sound (m : PolicyMsg) {interPolicyRate blockRate : Dec}
    (sound : s.pmtp.Sound env interPolicyRate blockRate) :
    (m.deliver env s).world.height = s.world.height ∧
      (m.deliver env s).pmtp.Sound env interPolicyRate blockRate := by
  have unseen : Preserves (PolicyState.pmtp (β := β)) (m.action env) →
      (m.deliver env s).world.height = s.world.height ∧
        (m.deliver env s).pmtp.Sound env interPolicyRate blockRate := by
    intro preserved
    have same : (m.deliver env s).pmtp = s.pmtp := preserves_transact preserved s
    rw [same]
    exact ⟨congrArg PmtpView.height same, sound⟩
  cases m with
  | updatePmtpParams u =>
    exact transact_preserves (fun t => t.world.height = s.world.height ∧
      t.pmtp.Sound env interPolicyRate blockRate) _ s
      (fun _ t run => updatePmtpParams_sound env sound run) ⟨rfl, sound⟩
  | modifyPmtpRates u =>
    exact transact_preserves (fun t => t.world.height = s.world.height ∧
      t.pmtp.Sound env interPolicyRate blockRate) _ s
      (fun _ t run => modifyPmtpRates_sound env sound run) ⟨rfl, sound⟩
  | updateLiquidityProtectionParams u => exact unseen (protection_scope env (Or.inl ⟨u, rfl⟩))
  | modifyLiquidityProtectionRates u => exact unseen (protection_scope env (Or.inr ⟨u, rfl⟩))
  | trade u => exact unseen (trade_scope env u)

theorem watch_sound (e : PolicyEvent) (r : PolicyWatch β) (sound : r.Sound env) :
    (PolicyWatch.step env e r).Sound env := by
  cases e with
  | beginBlock => exact beginBlock_sound env r sound
  | deliver m =>
    obtain ⟨height, done⟩ := deliver_sound env m sound
    have same : PolicyWatch.step env (.deliver m) r =
        ⟨m.deliver env r.state, r.interPolicyRateAtStart, r.blockRateAtStart⟩ :=
      if_neg (fun moved => absurd (show r.state.world.height < (m.deliver env r.state).world.height from moved.1)
        (by omega))
    rw [same]
    exact done

/-- Every run from between two policies, over blocks and messages in any order. In the window
    of a policy the running rate is the rate it started from plus the growth of the blocks so
    far, and until the last block the counters say how many blocks are left; outside the window
    and after its last block the counters are zero and both rates agree. -/
theorem pmtp_policy_invariant (events : List PolicyEvent) (s : PolicyState β)
    (interPolicyRate blockRate : Dec) (height : 0 ≤ s.world.height)
    (pending : s.world.height < s.pmtpParams.pmtpPeriodStartBlock → s.pmtpParams.Valid)
    (between : ¬s.isInsidePmtpWindow) (counters : s.pmtpEpoch = ⟨0, 0⟩)
    (rates : s.pmtpInterPolicyRate = s.runningRate) :
    let r := EventRuns.run (PolicyWatch.step env) events ⟨s, interPolicyRate, blockRate⟩
    let t := r.state
    t = EventRuns.run (PolicyEvent.step env) events s ∧
    (¬t.isInsidePmtpWindow → t.pmtpEpoch = ⟨0, 0⟩ ∧ t.pmtpInterPolicyRate = t.runningRate) ∧
    (t.isInsidePmtpWindow → ∃ base power : Dec, base.raw = Dec.one.raw + r.blockRateAtStart.raw ∧
      env.power base (t.world.height - t.pmtpParams.pmtpPeriodStartBlock + 1).toNat = .ok power ∧
      t.runningRate.raw = r.interPolicyRateAtStart.raw + power.raw - Dec.one.raw) ∧
    (t.isInsidePmtpWindow → t.world.height < t.pmtpParams.pmtpPeriodEndBlock →
      t.pmtpInterPolicyRate = r.interPolicyRateAtStart ∧
      (t.pmtpEpoch.epochCounter - 1) * t.pmtpParams.pmtpPeriodEpochLength + t.pmtpEpoch.blockCounter =
        t.pmtpParams.pmtpPeriodEndBlock - t.world.height ∧
      0 ≤ t.pmtpEpoch.epochCounter ∧ 0 ≤ t.pmtpEpoch.blockCounter ∧
      t.pmtpEpoch.blockCounter ≤ t.pmtpParams.pmtpPeriodEpochLength) ∧
    (t.isInsidePmtpWindow → t.world.height = t.pmtpParams.pmtpPeriodEndBlock →
      t.pmtpEpoch = ⟨0, 0⟩ ∧ t.pmtpInterPolicyRate = t.runningRate) := by
  intro r t
  have start : PolicyWatch.Sound env ⟨s, interPolicyRate, blockRate⟩ :=
    ⟨height, pending, fun _ => ⟨counters, rates⟩, fun inside => absurd inside between,
      fun inside => absurd inside between, fun inside => absurd inside between⟩
  have sound : r.Sound env := EventRuns.run_preserves (PolicyWatch.step env) (fun _ _ => True)
    (PolicyWatch.Sound env) (fun r e _ => watch_sound env e r) events _
    (EventRuns.guarded_all _ _ events _ (fun _ _ => trivial)) start
  refine ⟨watch_state env events _, sound.outside, ?_, ?_, sound.ended⟩
  · intro inside
    obtain ⟨sameRate, reached⟩ := sound.reached inside
    rw [← sameRate]
    exact reached
  · intro inside notLast
    obtain ⟨_, inter, blocks⟩ := sound.running inside notLast
    exact ⟨inter, blocks.left, blocks.epochs.le, blocks.blocks.le, blocks.within⟩

end Delivery

namespace PlainPolicy

/-- A policy over the blocks 3 to 6 in two epochs, seen in block 5; the attempt to set a rate
    within the window has no effect. -/
def secondEpoch : List PolicyEvent :=
  [.deliver (.updatePmtpParams ⟨"carol", "", 2, 3, 6⟩), .beginBlock, .beginBlock,
    .deliver (.modifyPmtpRates ⟨"carol", "", "0.5", false⟩), .beginBlock, .beginBlock]

theorem pmtp_policy_invariant_second_epoch :
    let r := EventRuns.run (PolicyWatch.step env) secondEpoch ⟨start, Dec.zero, Dec.zero⟩
    r.state.world.height = 5 ∧ r.state.pmtpEpoch = ⟨1, 1⟩ ∧
      (∃ base power : Dec, base.raw = Dec.one.raw + r.blockRateAtStart.raw ∧
        env.power base (r.state.world.height - r.state.pmtpParams.pmtpPeriodStartBlock + 1).toNat = .ok power ∧
        r.state.runningRate.raw = r.interPolicyRateAtStart.raw + power.raw - Dec.one.raw) ∧
      r.state.pmtpInterPolicyRate = r.interPolicyRateAtStart := by
  have invariant := pmtp_policy_invariant env secondEpoch start Dec.zero Dec.zero (by decide)
    (fun early => absurd early (by decide)) (by decide +kernel) rfl rfl
  have inside : (EventRuns.run (PolicyWatch.step env) secondEpoch
    ⟨start, Dec.zero, Dec.zero⟩).state.isInsidePmtpWindow := by decide +kernel
  exact ⟨by decide +kernel, by decide +kernel, invariant.2.2.1 inside,
    (invariant.2.2.2.1 inside (by decide +kernel)).1⟩

end PlainPolicy
end FuryNode
