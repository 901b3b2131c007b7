import FuryNode.Oracle.Quorum

/-!
Whether two nodes that visit the claims of a prophecy in different orders decide it alike.
They do unless two contents share a lead that is enough to succeed: then the node takes the
content it meets first. On a list that all claimants are still on, and with a threshold
above one half, no lead that is enough can be shared.
-/
namespace FuryNode
open StatefulProgram StatefulProgram.Prog KeyedTable OracleKeeper WeightedVotes
variable {k : OracleKeeper}

def MapOrder.rotated (n : ℕ) : MapOrder :=
  ⟨fun entries => entries.rotate n, fun entries => List.rotate_perm entries n⟩

theorem rotated_first {α : Type} {entries : List α} {e : α} (member : e ∈ entries) :
    ∃ n rest, (MapOrder.rotated n).arrange entries = e :: rest := by
  obtain ⟨xs, ys, rfl⟩ := List.append_of_mem member
  exact ⟨xs.length, ys ++ xs, List.rotate_append_length_eq xs (e :: ys)⟩

/-- Two contents share the lead among the claims, and the lead is enough to succeed. -/
def Contested (k : OracleKeeper) (s : OracleState) (p : Prophecy) : Prop :=
  let roll := s.staking.getBondedValidatorsByPower
  ∃ e ∈ p.claimValidators.rows, ∃ d ∈ p.claimValidators.rows, e.content ≠ d.content ∧
    Prophecy.claimPower k roll d.validators = Prophecy.claimPower k roll e.validators ∧
    (∀ f ∈ p.claimValidators.rows,
      Prophecy.claimPower k roll f.validators ≤ Prophecy.claimPower k roll e.validators) ∧
    (FloatRatio.div (Prophecy.claimPower k roll e.validators)
      (Prophecy.totalPower roll s.whiteList)).ge k.consensusNeeded = true

section Orders
variable (s : OracleState) (p : Prophecy)

theorem leadingEntry_weight (order other : MapOrder) :
    (leadingEntry k order s p).2 = (leadingEntry k other s p).2 :=
  leader_weight_perm _ ((order.perm _).trans (other.perm _).symm)

theorem leadingEntry_chosen (e : ClaimEntry) (member : e ∈ p.claimValidators.rows)
    (unbeaten : ∀ f ∈ p.claimValidators.rows,
      Prophecy.claimPower k s.staking.getBondedValidatorsByPower f.validators ≤
        Prophecy.claimPower k s.staking.getBondedValidatorsByPower e.validators) :
    ∃ order, leadingEntry k order s p =
      (e, Prophecy.claimPower k s.staking.getBondedValidatorsByPower e.validators) := by
  obtain ⟨n, rest, arranged⟩ := rotated_first member
  refine ⟨.rotated n, ?_⟩
  rw [leadingEntry, arranged]
  apply leader_first
  · have nonneg := claimPower_nonneg (k := k) s.staking.getBondedValidatorsByPower e.validators
    dsimp only
    omega
  · intro f later
    have visited := (MapOrder.rotated n).perm p.claimValidators.rows
    rw [arranged] at visited
    exact unbeaten f (visited.mem_iff.mp (by simp [later]))

theorem status_order_iff :
    (∀ order other, (k.processCompletion order s p).status = (k.processCompletion other s p).status) ↔
      ¬Contested k s p := by
  constructor
  · rintro same ⟨e, first, d, second, differ, tie, unbeaten, enough⟩
    obtain ⟨order, led⟩ := leadingEntry_chosen (k := k) s p e first unbeaten
    obtain ⟨other, trailed⟩ := leadingEntry_chosen (k := k) s p d second (by rw [tie]; exact unbeaten)
    have statuses := same order other
    rw [processCompletion_leader, processCompletion_leader, led, trailed] at statuses
    dsimp only at statuses
    rw [tie, if_pos enough, if_pos enough] at statuses
    exact differ (congrArg Status.finalClaim statuses)
  · intro calm order other
    rw [processCompletion_leader, processCompletion_leader, leadingEntry_weight s p other order]
    by_cases enough : (FloatRatio.div (leadingEntry k order s p).2
        (Prophecy.totalPower s.staking.getBondedValidatorsByPower s.whiteList)).ge k.consensusNeeded = true
    · rw [if_pos enough, if_pos enough]
      congr 1
      by_contra differ
      rcases leadingEntry_cases (k := k) s p order with none | ⟨e, first, led, unbeaten⟩
      · have nobody : ∀ o : MapOrder, o.arrange p.claimValidators.rows = [] :=
          fun o => List.perm_nil.mp (none ▸ o.perm p.claimValidators.rows)
        exact differ (by rw [leadingEntry, leadingEntry, nobody, nobody])
      · rcases leadingEntry_cases (k := k) s p other with none | ⟨d, second, trailed, _⟩
        · simp [none] at first
        · have tie := leadingEntry_weight (k := k) s p other order
          rw [led, trailed] at tie differ
          rw [led] at enough
          exact calm ⟨e, first, d, second, differ, tie, unbeaten, enough⟩
    · rw [if_neg enough, if_neg enough]

end Orders

theorem supports_within {s : OracleState} {p : Prophecy} (recorded : p.Recorded k)
    (listed : ClaimantsListed k s p) {x y : String} (differ : x ≠ y) :
    p.support s.staking.getBondedValidatorsByPower x +
      p.support s.staking.getBondedValidatorsByPower y ≤ s.totalListed := by
  have both : weigh Validator.getConsensusPower
      (fun v => v.operator ∈ p.claimers x ∨ v.operator ∈ p.claimers y)
      s.staking.getBondedValidatorsByPower =
        p.support s.staking.getBondedValidatorsByPower x +
          p.support s.staking.getBondedValidatorsByPower y := by
    apply weigh_disjoint
    · intro v _
      exact Iff.rfl
    · rintro v _ ⟨first, second⟩
      rw [recorded.agrees] at first second
      rw [first] at second
      simp only [Option.some.injEq, VoteEntry.mk.injEq, true_and] at second
      exact differ second
  rw [← both, total_split listed]
  refine le_trans (weigh_mono _ _ _ _ ?_) (Nat.le_add_right _ _)
  rintro v _ (claimed | claimed)
  all_goals
    obtain ⟨e, entry, _, inside⟩ := Prophecy.claimers_mem claimed
    exact (Prophecy.claimed_iff recorded v.operator).mp ⟨e, entry, inside⟩

theorem listed_uncontested {s : OracleState} {p : Prophecy} (recorded : p.Recorded k)
    (listed : ClaimantsListed k s p) (majority : 1 / 2 < k.consensusNeeded) : ¬Contested k s p := by
  rintro ⟨e, first, d, second, differ, tie, _, enough⟩
  have distinct := s.staking.bonded_distinct
  have within := supports_within recorded listed differ
  rw [Prophecy.entry_support _ recorded distinct first,
    Prophecy.entry_support _ recorded distinct second] at tie
  rw [Prophecy.entry_support _ recorded distinct first, totalPower_listed] at enough
  have half : 2 * p.support s.staking.getBondedValidatorsByPower e.content ≤ s.totalListed := by
    omega
  rcases (FloatRatio.div_ge (Int.natCast_nonneg _)).mp enough with ⟨some, reached⟩ | ⟨zero, some⟩
  · have bound : (2 : ℚ) * p.support s.staking.getBondedValidatorsByPower e.content ≤ s.totalListed := by
      exact_mod_cast half
    have positive : (0 : ℚ) < s.totalListed := by exact_mod_cast some
    have above := mul_lt_mul_of_pos_right majority positive
    push_cast at reached
    linarith
  · omega

/-- **Determinism.** In every state that claims, updates of the list and changes of the stake
    can reach, the status of a prophecy with one more claim is the same for all orders exactly
    when no two contents share a sufficient lead. With a threshold above one half none do, as
    long as the claimants before are still on the list. -/
theorem nodes_decide_alike (k : OracleKeeper) (start : OracleState)
    (empty : start.prophecies = .empty) (events : List OracleEvent) (c : Claim) (a : ValAddress) :
    let s := runOracle k events start
    let p := (k.current s c.id).addClaim k a c.content
    ((∀ order other, (k.processCompletion order s p).status = (k.processCompletion other s p).status) ↔
      ¬Contested k s p) ∧
    (1 / 2 < k.consensusNeeded → ClaimantsListed k s (k.current s c.id) →
      (∃ order status t, (k.processClaim order c).run s = (.ok status, t) ∧
        c.validatorAddress = k.valAddressString a) →
      ∀ order other, (k.processCompletion order s p).status = (k.processCompletion other s p).status) := by
  intro s p
  refine ⟨status_order_iff s p, ?_⟩
  rintro majority listed ⟨order, status, t, run, own⟩
  obtain ⟨b, taken⟩ := processClaim_taken run
  have same : a = b := valAddressString_injective k (own.symm.trans taken.address)
  subst same
  have sound := run_sound events start (empty_sound (k := k) start empty)
  have recorded := Prophecy.recorded_addClaim (sound_current sound c.id) taken.content taken.fresh
  exact (status_order_iff s p).mpr
    (listed_uncontested recorded (addClaim_listed listed taken.listed c.content) majority)

open PlainOracle in
theorem listed_nodes_decide_alike :
    let s := runOracle keeper [claiming "a" "x", claiming "b" "y"] genesis
    let p := (keeper.current s "1").addClaim keeper cid "z"
    (keeper.processCompletion .asWritten s p).status =
      (keeper.processCompletion (.rotated 1) s p).status := by
  intro s p
  have taken : ((keeper.processClaim .asWritten ⟨"1", "c", "z"⟩).run s).1 = .ok ⟨.failed, ""⟩ := by
    decide +kernel
  exact (nodes_decide_alike keeper genesis rfl [claiming "a" "x", claiming "b" "y"] ⟨"1", "c", "z"⟩
    cid).2 (by decide +kernel) (by decide +kernel)
    ⟨.asWritten, ⟨.failed, ""⟩, _, Prod.ext taken rfl, by decide +kernel⟩ _ _

open PlainOracle in
/-- Three contents with one claim each. Only the last claimant is still on the list, so each
    content holds as much as the whole list, and the node takes the one it visits first. -/
theorem shared_lead_forks :
    let s := runOracle keeper
      [claiming "a" "x", claiming "b" "y", removes ann, removes ben, removes dan] genesis
    let p := (keeper.current s "1").addClaim keeper cid "z"
    ((keeper.processClaim .asWritten ⟨"1", "c", "z"⟩).run s).1 = .ok ⟨.success, "x"⟩ ∧
    ((keeper.processClaim (.rotated 1) ⟨"1", "c", "z"⟩).run s).1 = .ok ⟨.success, "y"⟩ ∧
    (keeper.processCompletion .asWritten s p).status ≠
      (keeper.processCompletion (.rotated 1) s p).status := by
  decide +kernel

end FuryNode
