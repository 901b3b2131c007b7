import FuryNode.Clp.Distribution
import FuryNode.Clp.MsgServer
import FuryNode.Sdk.LedgerBank

/-!
What the end of a block decides from the periods that a message may add: which period is
active, whether the block distributes, and how much. The message checks `uint64` fields, and
the block casts some of them to `int64`.
-/
namespace FuryNode
open StatefulProgram ClpKeeper

/-- The range of a multiplier in `MsgAddRewardPeriodRequest`. -/
def checkMultiplier (multiplier : Dec) : Fallible Unit := do
  check (¬multiplier.lt Dec.zero) (.err .errNegativeMultiplier)
  check (¬(Dec.ofInt 10).lt multiplier) (.err .errMultiplierAboveTen)

def RewardPeriod.validate (period : RewardPeriod) : Fallible Unit := do
  check (period.rewardPeriodId ≠ "") (.err .errEmptyRewardPeriodId)
  check (period.rewardPeriodStartBlock ≤ period.rewardPeriodEndBlock) (.err .errEndBlockBeforeStart)
  period.rewardPeriodPoolMultipliers.forM (fun m => deref m.multiplier >>= checkMultiplier)
  checkMultiplier period.rewardPeriodDefaultMultiplier

def ProviderDistributionPeriod.validate (period : ProviderDistributionPeriod) : Fallible Unit := do
  check (period.distributionPeriodStartBlock ≤ period.distributionPeriodEndBlock)
    (.err .errEndBlockBeforeStart)
  check (¬period.distributionPeriodBlockRate.lt Dec.zero ∧
    ¬Dec.one.lt period.distributionPeriodBlockRate) (.err .errBlockRateOutOfRange)
  check (period.distributionPeriodMod ≠ 0) (.err .errZeroModulo)

structure MsgAddRewardPeriodRequest where
  rewardPeriods : List RewardPeriod

structure MsgAddProviderDistributionPeriodRequest where
  signer : String
  distributionPeriods : List ProviderDistributionPeriod

def MsgAddRewardPeriodRequest.validateBasic (m : MsgAddRewardPeriodRequest) : Fallible Unit :=
  m.rewardPeriods.forM RewardPeriod.validate

def MsgAddProviderDistributionPeriodRequest.validateBasic
    (m : MsgAddProviderDistributionPeriodRequest) : Fallible Unit := do
  requireSigner m.signer
  m.distributionPeriods.forM ProviderDistributionPeriod.validate

namespace Periods
variable {β : Type}

def RewardPeriod.Uint64 (p : RewardPeriod) : Prop :=
  p.rewardPeriodStartBlock < 2 ^ 64 ∧ p.rewardPeriodEndBlock < 2 ^ 64 ∧ p.rewardPeriodMod < 2 ^ 64

def ProviderDistributionPeriod.Uint64 (p : ProviderDistributionPeriod) : Prop :=
  p.distributionPeriodStartBlock < 2 ^ 64 ∧ p.distributionPeriodEndBlock < 2 ^ 64 ∧
    p.distributionPeriodMod < 2 ^ 64

instance (p : RewardPeriod) : Decidable (RewardPeriod.Uint64 p) :=
  inferInstanceAs (Decidable (_ ∧ _ ∧ _))

instance (p : ProviderDistributionPeriod) : Decidable (ProviderDistributionPeriod.Uint64 p) :=
  inferInstanceAs (Decidable (_ ∧ _ ∧ _))

/-- The parameters hold what accepted messages put there, and the height is a block height. -/
structure Accepted (w : World β) (height : ℕ) : Prop where
  range : height < 2 ^ 63
  current : w.height = height
  rewardFields : ∀ p ∈ w.clp.rewardPeriods, RewardPeriod.Uint64 p
  rewards : MsgAddRewardPeriodRequest.validateBasic ⟨w.clp.rewardPeriods⟩ = .ok ()
  providerFields : ∀ p ∈ w.clp.distributionPeriods, ProviderDistributionPeriod.Uint64 p
  providers : ∃ signer, MsgAddProviderDistributionPeriodRequest.validateBasic
    ⟨signer, w.clp.distributionPeriods⟩ = .ok ()

def activeReward (periods : List RewardPeriod) (height : ℕ) : Option RewardPeriod :=
  periods.find? (fun p => p.rewardPeriodStartBlock ≤ height && height ≤ p.rewardPeriodEndBlock)

def activeProvider (periods : List ProviderDistributionPeriod) (height : ℕ) :
    Option ProviderDistributionPeriod :=
  periods.find? (fun p =>
    p.distributionPeriodStartBlock ≤ height && height ≤ p.distributionPeriodEndBlock)

def effectiveMod (p : RewardPeriod) : ℕ := if p.rewardPeriodMod = 0 then 1 else p.rewardPeriodMod

/-- The decisions of the end of a block, without panic and as on unbounded integers. -/
structure DecisionsExact (w : World β) (height : ℕ) : Prop where
  rewardActive : getCurrentRewardPeriod w = (activeReward w.clp.rewardPeriods height).map
    (fun p => { p with rewardPeriodMod := effectiveMod p })
  rewardDecided : ∀ p, getCurrentRewardPeriod w = some p →
    ∃ allocation, deref p.rewardPeriodAllocation = .ok allocation ∧ (allocation ≠ 0 →
      isDistributionBlockPure w.height p.rewardPeriodStartBlock p.rewardPeriodMod =
        .ok (decide (p.rewardPeriodMod ∣ height - p.rewardPeriodStartBlock)) ∧
      calcBlockDistribution p =
        .ok (allocation / (p.rewardPeriodEndBlock - p.rewardPeriodStartBlock + 1)))
  providerActive : findProviderDistributionPeriod w.height w.clp.distributionPeriods =
    activeProvider w.clp.distributionPeriods height
  providerDecided : isDistributionBlock w =
    .ok ((activeProvider w.clp.distributionPeriods height).any (fun p =>
      p.distributionPeriodMod ∣ height - p.distributionPeriodStartBlock))

/-- A modulus that is negative as an `int64` divides as its absolute value does. -/
def castMod (mod : ℕ) : ℕ := if mod < 2 ^ 63 then mod else 2 ^ 64 - mod

def ModulusFits (mod elapsed : ℕ) : Prop := 2 ^ 63 ≤ mod → 0 < elapsed → ¬2 ^ 64 - mod ∣ elapsed

instance (mod elapsed : ℕ) : Decidable (ModulusFits mod elapsed) :=
  inferInstanceAs (Decidable (_ → _ → ¬_))

theorem int64_of_ge {n : ℕ} (large : 2 ^ 63 ≤ n) (fits : n < 2 ^ 64) : int64 n = n - 2 ^ 64 := by
  have shifted : int64 n = wrapInt64 (n - 2 ^ 64) := by
    unfold int64 wrapInt64
    exact (Int.sub_bmod_right n (2 ^ 64)).symm
  rw [shifted, wrapInt64_of_range _ (by omega) (by omega)]

theorem int64_natAbs {n : ℕ} (fits : n < 2 ^ 64) : (int64 n).natAbs = castMod n := by
  unfold castMod
  split
  · rw [int64_of_lt n (by omega)]
    omega
  · rw [int64_of_ge (by omega) fits]
    omega

theorem isDistributionBlockPure_value {height start mod : ℕ} (range : height < 2 ^ 63)
    (begun : start ≤ height) (fits : mod < 2 ^ 64) (nonzero : mod ≠ 0) :
    isDistributionBlockPure height start mod = .ok (decide (castMod mod ∣ height - start)) := by
  have cast : int64 mod ≠ 0 := by
    intro zero
    have same := int64_natAbs fits
    unfold castMod at same
    split at same <;> omega
  have elapsed : wrapInt64 (height - int64 start) = ((height - start : ℕ) : ℤ) := by
    rw [int64_of_lt start (by omega), wrapInt64_of_range _ (by omega) (by omega)]
    omega
  have divides : (int64 mod ∣ ((height - start : ℕ) : ℤ)) ↔ castMod mod ∣ height - start := by
    rw [← Int.natAbs_dvd_natAbs, int64_natAbs fits, Int.natAbs_natCast]
  unfold isDistributionBlockPure
  rw [if_neg cast, elapsed]
  simp only [← divides, Int.dvd_iff_tmod_eq_zero]

theorem castMod_exact_iff {mod elapsed : ℕ} (range : elapsed < 2 ^ 63) :
    (castMod mod ∣ elapsed ↔ mod ∣ elapsed) ↔ ModulusFits mod elapsed := by
  unfold castMod ModulusFits
  by_cases small : mod < 2 ^ 63
  · rw [if_pos small]
    exact ⟨fun _ large => absurd small (by omega), fun _ => Iff.rfl⟩
  · rw [if_neg small]
    have only : mod ∣ elapsed ↔ elapsed = 0 := by
      constructor
      · intro divides
        exact Nat.eq_zero_of_dvd_of_lt divides (by omega)
      · intro zero
        simp [zero]
    rw [only]
    constructor
    · intro same _ positive divides
      have zero := same.mp divides
      omega
    · intro fits
      constructor
      · intro divides
        by_contra positive
        exact fits (by omega) (by omega) divides
      · intro zero
        simp [zero]

theorem isDistributionBlockPure_exact_iff {height start mod : ℕ} (range : height < 2 ^ 63)
    (begun : start ≤ height) (fits : mod < 2 ^ 64) (nonzero : mod ≠ 0) :
    isDistributionBlockPure height start mod = .ok (decide (mod ∣ height - start)) ↔
      ModulusFits mod (height - start) := by
  rw [isDistributionBlockPure_value range begun fits nonzero,
    ← castMod_exact_iff (by omega)]
  simp [decide_eq_decide]

/-- An open end wraps to a negative one, so the period is never active. -/
theorem isActivePeriod_iff {height start stop : ℕ} (ordered : start ≤ stop) (fits : stop < 2 ^ 64) :
    isActivePeriod height start stop = true ↔
      (start ≤ height ∧ height ≤ stop) ∧ stop < 2 ^ 63 := by
  unfold isActivePeriod
  rw [Bool.and_eq_true, decide_eq_true_iff, decide_eq_true_iff]
  by_cases small : stop < 2 ^ 63
  · rw [int64_of_lt start (by omega), int64_of_lt stop small]
    omega
  · rw [int64_of_ge (by omega) fits]
    omega

/-- A narrower search finds the same entry exactly if it accepts the one the wider search finds. -/
theorem find_narrower_iff {α : Type} (l : List α) (p q c : α → Bool)
    (narrows : ∀ x ∈ l, p x = (q x && c x)) :
    l.find? p = l.find? q ↔ ∀ x, l.find? q = some x → c x = true := by
  induction l with
  | nil => simp
  | cons x rest ih =>
    have tail := ih (fun y member => narrows y (List.mem_cons_of_mem _ member))
    have head := narrows x List.mem_cons_self
    cases wide : q x with
    | false =>
      rw [wide, Bool.false_and] at head
      rw [List.find?_cons_of_neg (by simp [head]), List.find?_cons_of_neg (by simp [wide])]
      exact tail
    | true =>
      rw [wide, Bool.true_and] at head
      rw [List.find?_cons_of_pos (p := q) wide]
      cases kept : c x with
      | true =>
        rw [List.find?_cons_of_pos (head.trans kept)]
        simp [kept]
      | false =>
        rw [List.find?_cons_of_neg (by simp [head, kept])]
        constructor
        · intro found
          have selected := List.find?_some found
          rw [head, kept] at selected
          cases selected
        · intro all
          have accepted := all x rfl
          rw [kept] at accepted
          cases accepted

theorem validated_provider {signer : String} {periods : List ProviderDistributionPeriod}
    (accepted : MsgAddProviderDistributionPeriodRequest.validateBasic ⟨signer, periods⟩ = .ok ())
    {p : ProviderDistributionPeriod} (member : p ∈ periods) :
    p.distributionPeriodStartBlock ≤ p.distributionPeriodEndBlock ∧ p.distributionPeriodMod ≠ 0 := by
  obtain ⟨_, _, checked⟩ := except_bind_succeeds.mp accepted
  have valid := forM_succeeds checked p member
  obtain ⟨_, ordered, rest⟩ := except_bind_succeeds.mp valid
  obtain ⟨_, _, positive⟩ := except_bind_succeeds.mp rest
  exact ⟨check_succeeds.mp ordered, check_succeeds.mp positive⟩

def ProviderFits (p : ProviderDistributionPeriod) (height : ℕ) : Prop :=
  p.distributionPeriodEndBlock < 2 ^ 63 ∧
    ModulusFits p.distributionPeriodMod (height - p.distributionPeriodStartBlock)

instance (p : ProviderDistributionPeriod) (height : ℕ) : Decidable (ProviderFits p height) :=
  inferInstanceAs (Decidable (_ ∧ _))

theorem provider_exact_iff {w : World β} {height : ℕ} (accepted : Accepted w height) :
    (findProviderDistributionPeriod w.height w.clp.distributionPeriods =
        activeProvider w.clp.distributionPeriods height ∧
      isDistributionBlock w = .ok ((activeProvider w.clp.distributionPeriods height).any (fun p =>
        p.distributionPeriodMod ∣ height - p.distributionPeriodStartBlock))) ↔
      ∀ p, activeProvider w.clp.distributionPeriods height = some p → ProviderFits p height := by
  obtain ⟨signer, valid⟩ := accepted.providers
  have same : findProviderDistributionPeriod w.height w.clp.distributionPeriods =
      activeProvider w.clp.distributionPeriods height ↔
      ∀ p, activeProvider w.clp.distributionPeriods height = some p →
        p.distributionPeriodEndBlock < 2 ^ 63 := by
    unfold findProviderDistributionPeriod activeProvider
    rw [find_narrower_iff (c := fun p => decide (p.distributionPeriodEndBlock < 2 ^ 63))]
    · simp only [decide_eq_true_iff]
    · intro p member
      rw [Bool.eq_iff_iff, accepted.current, isActivePeriod_iff
        (validated_provider valid member).1 (accepted.providerFields p member).2.1]
      simp
  unfold isDistributionBlock
  cases found : activeProvider w.clp.distributionPeriods height with
  | none =>
    have none := same.mpr (by simp [found])
    rw [found] at none
    simp [none]
  | some p =>
    have member := List.mem_of_find?_eq_some found
    have active : p.distributionPeriodStartBlock ≤ height ∧ height ≤ p.distributionPeriodEndBlock := by
      simpa using List.find?_some found
    have remainder := isDistributionBlockPure_exact_iff
      accepted.range active.1 (accepted.providerFields p member).2.2
      (validated_provider valid member).2
    rw [found] at same
    constructor
    · intro both q is
      cases is
      have here := both.2
      rw [both.1, accepted.current] at here
      exact ⟨same.mp both.1 p rfl, remainder.mp here⟩
    · intro fits
      have here := same.mpr (fun q is => by cases is; exact (fits p rfl).1)
      refine ⟨here, ?_⟩
      rw [here, accepted.current]
      exact remainder.mpr (fits p rfl).2

def RewardFits (p : RewardPeriod) (height : ℕ) : Prop :=
  p.rewardPeriodAllocation ≠ none ∧ (p.rewardPeriodAllocation ≠ some 0 →
    ModulusFits (effectiveMod p) (height - p.rewardPeriodStartBlock) ∧
      ¬(p.rewardPeriodStartBlock = 0 ∧ p.rewardPeriodEndBlock = 2 ^ 64 - 1))

instance (p : RewardPeriod) (height : ℕ) : Decidable (RewardFits p height) :=
  inferInstanceAs (Decidable (_ ∧ (_ → _ ∧ ¬_)))

theorem currentRewardPeriod_exact {w : World β} {height : ℕ} (range : height < 2 ^ 63)
    (current : w.height = height) :
    getCurrentRewardPeriod w = (activeReward w.clp.rewardPeriods height).map
      (fun p => { p with rewardPeriodMod := effectiveMod p }) := by
  have cast : uint64OfInt w.height = height := by
    rw [current, uint64OfInt_small _ (by omega) (by omega)]
    omega
  unfold getCurrentRewardPeriod activeReward
  rw [cast]
  congr 1
  funext p
  unfold effectiveMod
  split <;> rfl

/-- The length of a period over all heights wraps to zero. -/
theorem calcBlockDistribution_exact_iff (p : RewardPeriod) (allocation : ℕ)
    (allocated : p.rewardPeriodAllocation = some allocation)
    (ordered : p.rewardPeriodStartBlock ≤ p.rewardPeriodEndBlock)
    (fits : p.rewardPeriodEndBlock < 2 ^ 64) :
    calcBlockDistribution p =
        .ok (allocation / (p.rewardPeriodEndBlock - p.rewardPeriodStartBlock + 1)) ↔
      ¬(p.rewardPeriodStartBlock = 0 ∧ p.rewardPeriodEndBlock = 2 ^ 64 - 1) := by
  have value : calcBlockDistribution p = Uint.quo allocation
      (uint64OfInt ((p.rewardPeriodEndBlock : ℤ) - p.rewardPeriodStartBlock + 1)) := by
    unfold calcBlockDistribution
    rw [allocated]
    rfl
  rw [value]
  by_cases whole : p.rewardPeriodStartBlock = 0 ∧ p.rewardPeriodEndBlock = 2 ^ 64 - 1
  · rw [whole.1, whole.2]
    simp [uint64OfInt, Uint.quo]
  · rw [uint64OfInt_small _ (by omega) (by omega)]
    have length : ((p.rewardPeriodEndBlock : ℤ) - p.rewardPeriodStartBlock + 1).toNat =
        p.rewardPeriodEndBlock - p.rewardPeriodStartBlock + 1 := by omega
    rw [length]
    exact ⟨fun _ => whole, fun _ => if_neg (Nat.succ_ne_zero _)⟩

theorem reward_decided_iff {p : RewardPeriod} {height : ℕ} (range : height < 2 ^ 63)
    (fields : RewardPeriod.Uint64 p)
    (active : p.rewardPeriodStartBlock ≤ height ∧ height ≤ p.rewardPeriodEndBlock) :
    (∃ allocation, deref p.rewardPeriodAllocation = .ok allocation ∧ (allocation ≠ 0 →
      isDistributionBlockPure height p.rewardPeriodStartBlock (effectiveMod p) =
        .ok (decide (effectiveMod p ∣ height - p.rewardPeriodStartBlock)) ∧
      calcBlockDistribution { p with rewardPeriodMod := effectiveMod p } =
        .ok (allocation / (p.rewardPeriodEndBlock - p.rewardPeriodStartBlock + 1)))) ↔
      RewardFits p height := by
  have positive : effectiveMod p ≠ 0 ∧ effectiveMod p < 2 ^ 64 := by
    have bound := fields.2.2
    unfold effectiveMod
    split <;> omega
  have remainder := isDistributionBlockPure_exact_iff range active.1 positive.2 positive.1
  unfold RewardFits
  cases allocated : p.rewardPeriodAllocation with
  | none => simp [deref]
  | some allocation =>
    have quotient := calcBlockDistribution_exact_iff
      { p with rewardPeriodMod := effectiveMod p } allocation allocated
      (active.1.trans active.2) fields.2.1
    simp only [deref, Except.ok.injEq, exists_eq_left', remainder]
    simp only [allocated] at quotient
    simp [quotient]

/-- The end of a block decides as on unbounded integers exactly if the active reward period has an
    allocation, does not span all heights and has a modulus that fits, and the active provider
    period ends at an `int64` and has a modulus that fits. -/
theorem period_decisions_exact_iff (w : World β) (height : ℕ) (accepted : Accepted w height) :
    DecisionsExact w height ↔
      (∀ p, activeReward w.clp.rewardPeriods height = some p → RewardFits p height) ∧
      ∀ p, activeProvider w.clp.distributionPeriods height = some p → ProviderFits p height := by
  have active := currentRewardPeriod_exact accepted.range accepted.current
  have providers := provider_exact_iff accepted
  have decided : ∀ p, activeReward w.clp.rewardPeriods height = some p → _ := fun p found =>
    reward_decided_iff accepted.range (accepted.rewardFields p (List.mem_of_find?_eq_some found))
      (by simpa using List.find?_some found)
  constructor
  · intro exact
    refine ⟨?_, providers.mp ⟨exact.providerActive, exact.providerDecided⟩⟩
    intro p found
    have here := exact.rewardDecided { p with rewardPeriodMod := effectiveMod p }
      (by rw [active, found]; rfl)
    rw [accepted.current] at here
    exact (decided p found).mp here
  · intro fits
    obtain ⟨found, distributes⟩ := providers.mpr fits.2
    refine ⟨active, ?_, found, distributes⟩
    intro q is
    rw [active, Option.map_eq_some_iff] at is
    obtain ⟨p, here, rfl⟩ := is
    rw [accepted.current]
    exact (decided p here).mpr (fits.1 p here)

/-- Block 7 with a reward period and a provider period from `start` to `stop`. -/
def blockSeven (start stop : ℕ) : World LedgerBank.Balances :=
  { LedgerBank.genesis with
    height := 7
    clp := { LedgerBank.genesis.clp with
      rewardPeriods := [⟨"RP_1", start, stop, some 10000, [], Dec.one, true, 0⟩]
      distributionPeriods := [⟨Dec.one, start, stop, 1⟩] } }

theorem bounded_periods_exact : Accepted (blockSeven 1 10) 7 ∧ DecisionsExact (blockSeven 1 10) 7 := by
  have accepted : Accepted (blockSeven 1 10) 7 :=
    ⟨by decide, rfl, by decide +kernel, by decide +kernel, by decide +kernel,
      "admin", by decide +kernel⟩
  refine ⟨accepted, (period_decisions_exact_iff _ 7 accepted).mpr ⟨?_, ?_⟩⟩
  · intro p found
    cases found
    decide
  · intro p found
    cases found
    decide

/-- A reward period over all heights halts the chain, and such a provider period never pays. -/
theorem open_ended_periods_diverge : Accepted (blockSeven 0 (2 ^ 64 - 1)) 7 ∧
    ¬DecisionsExact (blockSeven 0 (2 ^ 64 - 1)) 7 ∧
    ((endBlocker LedgerBank.env .asWritten).run (blockSeven 0 (2 ^ 64 - 1))).1 =
      .error (.panic .divisionByZero) ∧
    findProviderDistributionPeriod 7 (blockSeven 0 (2 ^ 64 - 1)).clp.distributionPeriods = none := by
  refine ⟨⟨by decide, rfl, by decide +kernel, by decide +kernel, by decide +kernel,
    "admin", by decide +kernel⟩, ?_, by decide +kernel, by decide +kernel⟩
  intro exact
  exact absurd exact.providerActive (by decide +kernel)

end Periods
end FuryNode
