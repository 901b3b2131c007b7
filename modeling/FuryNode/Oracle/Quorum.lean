import Mathlib.Algebra.BigOperators.Ring.Finset
import Mathlib.Tactic.Linarith
import FuryNode.Oracle.PlainKeeper

/-!
What the powers that decide a prophecy are powers of. The claims for a content count the
bonded validators that made them, listed or not, while the total counts the bonded
validators on the list. When no claimant has left the list, a success has the required part
of the listed power behind it and a failure leaves no content that could still reach it.
-/
namespace FuryNode
open StatefulProgram StatefulProgram.Prog KeyedTable OracleKeeper WeightedVotes
variable {k : OracleKeeper}

namespace Staking

theorem bonded_distinct (s : Staking) :
    (s.getBondedValidatorsByPower.map Validator.operator).Nodup := by
  rw [getBondedValidatorsByPower, ((List.perm_insertionSort _ _).map Validator.operator).nodup_iff]
  exact s.distinct.sublist (List.filter_sublist.map Validator.operator)

end Staking

variable {p : Prophecy}

namespace Prophecy
variable (roll : List Validator)

theorem validatorsByAddress_find (distinct : (roll.map Validator.operator).Nodup) (a : ValAddress) :
    validatorsByAddress k roll (k.valAddressString a) = roll.find? (fun v => v.operator = a) := by
  -- the induction is on the validators still to be indexed
  have indexed : ∀ (rest : List Validator) (index : String → Option Validator),
      (rest.map Validator.operator).Nodup →
      rest.foldl (fun index v => Function.update index (k.valAddressString v.operator) (some v)) index
        (k.valAddressString a) =
      (rest.find? (fun v => v.operator = a)).or (index (k.valAddressString a)) := by
    intro rest
    induction rest with
    | nil =>
      intro index _
      rfl
    | cons v rest ih =>
      intro index nodup
      obtain ⟨absent, others⟩ := List.nodup_cons.mp nodup
      rw [List.foldl_cons, ih _ others]
      by_cases same : v.operator = a
      · have nobody : rest.find? (fun u => u.operator = a) = none := by
          refine List.find?_eq_none.mpr ?_
          intro u member equal
          exact absent (List.mem_map.mpr ⟨u, member, by simpa [same] using equal⟩)
        simp [nobody, same]
      · have other : k.valAddressString a ≠ k.valAddressString v.operator :=
          fun equal => same (valAddressString_injective k equal).symm
        simp [same, Function.update_of_ne other]
  rw [validatorsByAddress, indexed roll _ distinct]
  simp

theorem claimPower_weigh (distinct : (roll.map Validator.operator).Nodup)
    {addrs : List ValAddress} (once : addrs.Nodup) :
    claimPower k roll addrs =
      weigh Validator.getConsensusPower (fun v => v.operator ∈ addrs) roll := by
  rw [← ballots_weigh Validator.operator Validator.getConsensusPower distinct once]
  have summed : ∀ (rest : List ValAddress) (power : ℤ),
      rest.foldl (addPower k roll) power =
      power + ((rest.map (weightAt Validator.operator Validator.getConsensusPower roll)).sum : ℕ) := by
    intro rest
    induction rest with
    | nil =>
      intro power
      simp
    | cons a rest ih =>
      intro power
      rw [List.foldl_cons, ih, List.map_cons, List.sum_cons, addPower, weightAt,
        ← validatorsByAddress_find (k := k) roll distinct a]
      cases validatorsByAddress k roll (k.valAddressString a) with
      | none => simp
      | some v =>
        simp only [Option.map_some, Option.getD_some, Nat.cast_add]
        exact add_assoc _ _ _
  rw [claimPower, summed addrs 0, zero_add]

theorem totalPower_weigh (whiteList : List ValAddress) :
    totalPower roll whiteList =
      weigh Validator.getConsensusPower (fun v => inWhiteList v whiteList = true) roll := by
  have summed : ∀ (rest : List Validator) (total : ℤ),
      rest.foldl (addListedPower whiteList) total =
      total + weigh Validator.getConsensusPower (fun v => inWhiteList v whiteList = true) rest := by
    intro rest
    induction rest with
    | nil =>
      intro total
      simp [weigh]
    | cons v rest ih =>
      intro total
      rw [List.foldl_cons, ih, weigh_cons, addListedPower]
      split
      · push_cast
        exact add_assoc _ _ _
      · simp
  rw [totalPower, summed roll 0, zero_add]

theorem tally_leader (entries : List ClaimEntry) (total : ℤ) (best : ClaimEntry × ℤ) :
    entries.foldl (tallyEntry k roll) ⟨total, best.2, best.1.content⟩ =
      ⟨total + (entries.map (fun e => claimPower k roll e.validators)).sum,
        (leader (fun e => claimPower k roll e.validators) best entries).2,
        (leader (fun e => claimPower k roll e.validators) best entries).1.content⟩ := by
  induction entries generalizing total best with
  | nil => simp [leader]
  | cons e rest ih =>
    have entry : tallyEntry k roll ⟨total, best.2, best.1.content⟩ e =
        ⟨total + claimPower k roll e.validators,
          (improve (fun e => claimPower k roll e.validators) best e).2,
          (improve (fun e => claimPower k roll e.validators) best e).1.content⟩ := by
      unfold tallyEntry improve
      dsimp only
      split <;> rfl
    rw [List.foldl_cons, entry, ih, leader_cons, List.map_cons, List.sum_cons, add_assoc]

theorem claimers_entry {e : ClaimEntry} (member : e ∈ p.claimValidators.rows) :
    p.claimers e.content = e.validators := by
  have found := Table.get_row member
  simp [claimers, found]

theorem claimers_mem {a : ValAddress} {content : String} (claimed : a ∈ p.claimers content) :
    ∃ e ∈ p.claimValidators.rows, e.content = content ∧ a ∈ e.validators := by
  unfold claimers at claimed
  cases found : p.claimValidators.get content with
  | none => simp [found] at claimed
  | some e =>
    obtain ⟨member, same⟩ := Table.get_mem found
    exact ⟨e, member, same, by simpa [found] using claimed⟩

theorem claimed_iff (recorded : Recorded k p) (a : ValAddress) :
    (∃ e ∈ p.claimValidators.rows, a ∈ e.validators) ↔ p.claimOf (k.valAddressString a) ≠ "" := by
  rw [Ne, claimOf_empty recorded]
  constructor
  · rintro ⟨e, member, inside⟩ missing
    rw [← claimers_entry member, recorded.agrees, missing] at inside
    cases inside
  · intro present
    obtain ⟨vote, found⟩ := Option.ne_none_iff_exists'.mp present
    have own := p.validatorClaims.get_key _ vote found
    have claimed := (recorded.agrees a vote.content).mpr (by rw [found, ← own])
    obtain ⟨e, member, _, inside⟩ := claimers_mem claimed
    exact ⟨e, member, inside⟩

theorem lists_apart (recorded : Recorded k p) :
    (p.claimValidators.rows.map ClaimEntry.validators).Pairwise (fun xs ys => ∀ a ∈ xs, a ∉ ys) := by
  rw [List.pairwise_map]
  have distinct := p.claimValidators.distinct
  rw [List.Nodup, List.pairwise_map] at distinct
  refine distinct.imp_of_mem ?_
  intro e d first second differ a here there
  rw [← claimers_entry first, recorded.agrees] at here
  rw [← claimers_entry second, recorded.agrees, here] at there
  simp only [Option.some.injEq, VoteEntry.mk.injEq, true_and] at there
  exact differ there

/-- What the bonded validators that claimed a content hold, listed or not. -/
def support (p : Prophecy) (content : String) : ℕ :=
  weigh Validator.getConsensusPower (fun v => v.operator ∈ p.claimers content) roll

def claimed (k : OracleKeeper) (p : Prophecy) : ℕ :=
  weigh Validator.getConsensusPower (fun v => p.claimOf (k.valAddressString v.operator) ≠ "") roll

theorem entry_support (recorded : Recorded k p) (distinct : (roll.map Validator.operator).Nodup)
    {e : ClaimEntry} (member : e ∈ p.claimValidators.rows) :
    claimPower k roll e.validators = support roll p e.content := by
  have once := recorded.once e.content
  rw [claimers_entry member] at once
  rw [claimPower_weigh roll distinct once, support, claimers_entry member]

theorem entries_claimed (recorded : Recorded k p) (distinct : (roll.map Validator.operator).Nodup) :
    (p.claimValidators.rows.map (fun e => claimPower k roll e.validators)).sum = claimed roll k p := by
  have boxes := boxes_weigh Validator.operator Validator.getConsensusPower roll
    (lists_apart recorded)
  rw [List.map_map] at boxes
  have entries : p.claimValidators.rows.map (fun e => claimPower k roll e.validators) =
      (p.claimValidators.rows.map
        ((fun box => weigh Validator.getConsensusPower (fun v => v.operator ∈ box) roll) ∘
          ClaimEntry.validators)).map Nat.cast := by
    rw [List.map_map]
    refine List.map_congr_left ?_
    intro e member
    rw [entry_support roll recorded distinct member, support, claimers_entry member]
    rfl
  rw [entries, ← Nat.cast_list_sum, boxes, claimed]
  congr 1
  apply weigh_congr
  intro v _
  rw [← claimed_iff recorded v.operator]
  simp

end Prophecy

namespace FloatRatio

theorem div_ge {a b : ℤ} {q : ℚ} (nonneg : 0 ≤ b) :
    (div a b).ge q = true ↔ (0 < b ∧ q * b ≤ a) ∨ (b = 0 ∧ 0 < a) := by
  unfold div
  by_cases zero : b = 0
  · subst zero
    simp only [ne_eq, not_true_eq_false, ↓reduceIte, lt_self_iff_false, false_and, true_and, false_or]
    split
    · simp_all [ge]
    · split <;> simp_all [ge]
  · have positive : 0 < b := lt_of_le_of_ne nonneg (Ne.symm zero)
    simp only [ne_eq, zero, not_false_eq_true, ↓reduceIte, ge, decide_eq_true_eq, positive, true_and,
      false_and, or_false]
    exact le_div_iff₀ (by exact_mod_cast positive)

theorem div_lt {a b : ℤ} {q : ℚ} (nonneg : 0 ≤ b) :
    (div a b).lt q = true ↔ (0 < b ∧ a < q * b) ∨ (b = 0 ∧ a < 0) := by
  unfold div
  by_cases zero : b = 0
  · subst zero
    simp only [ne_eq, not_true_eq_false, ↓reduceIte, lt_self_iff_false, false_and, true_and, false_or]
    split
    · rename_i positive
      simp only [lt, Bool.false_eq_true, false_iff, not_lt]
      exact le_of_lt positive
    · split <;> simp_all [lt]
  · have positive : 0 < b := lt_of_le_of_ne nonneg (Ne.symm zero)
    simp only [ne_eq, zero, not_false_eq_true, ↓reduceIte, lt, decide_eq_true_eq, positive, true_and,
      false_and, or_false]
    exact div_lt_iff₀ (by exact_mod_cast positive)

end FloatRatio

/-- The leading entry of the claims, found in the order in which they are visited. -/
def leadingEntry (k : OracleKeeper) (order : MapOrder) (s : OracleState) (p : Prophecy) :
    ClaimEntry × ℤ :=
  leader (fun e => Prophecy.claimPower k s.staking.getBondedValidatorsByPower e.validators)
    (⟨"", []⟩, -1) (order.arrange p.claimValidators.rows)

theorem claimPower_nonneg (roll : List Validator) (addrs : List ValAddress) :
    0 ≤ Prophecy.claimPower k roll addrs := by
  have grows : ∀ (rest : List ValAddress) (power : ℤ), 0 ≤ power →
      0 ≤ rest.foldl (Prophecy.addPower k roll) power := by
    intro rest
    induction rest with
    | nil =>
      intro power nonneg
      exact nonneg
    | cons a rest ih =>
      intro power nonneg
      apply ih
      unfold Prophecy.addPower
      split
      · exact add_nonneg nonneg (Int.natCast_nonneg _)
      · exact nonneg
  exact grows addrs 0 (le_refl 0)

theorem leadingEntry_cases (s : OracleState) (p : Prophecy) (order : MapOrder) :
    p.claimValidators.rows = [] ∨ ∃ e ∈ p.claimValidators.rows,
      leadingEntry k order s p =
        (e, Prophecy.claimPower k s.staking.getBondedValidatorsByPower e.validators) ∧
      ∀ f ∈ p.claimValidators.rows,
        Prophecy.claimPower k s.staking.getBondedValidatorsByPower f.validators ≤
          Prophecy.claimPower k s.staking.getBondedValidatorsByPower e.validators := by
  have visited := order.perm p.claimValidators.rows
  cases rows : p.claimValidators.rows with
  | nil => exact Or.inl rfl
  | cons first rest =>
    refine Or.inr ?_
    rw [← rows]
    have present : first ∈ p.claimValidators.rows := by simp [rows]
    have nonneg := claimPower_nonneg (k := k) s.staking.getBondedValidatorsByPower first.validators
    obtain ⟨e, member, led⟩ := leader_found
      (fun e => Prophecy.claimPower k s.staking.getBondedValidatorsByPower e.validators)
      (⟨"", []⟩, -1) (visited.mem_iff.mpr present)
      (by dsimp only; omega)
    refine ⟨e, visited.mem_iff.mp member, led, ?_⟩
    intro f other
    have bound := leader_bounds
      (fun e => Prophecy.claimPower k s.staking.getBondedValidatorsByPower e.validators)
      (⟨"", []⟩, -1) (visited.mem_iff.mpr other)
    rw [led] at bound
    exact bound

def claimsPower (k : OracleKeeper) (s : OracleState) (p : Prophecy) : ℤ :=
  (p.claimValidators.rows.map
    (fun e => Prophecy.claimPower k s.staking.getBondedValidatorsByPower e.validators)).sum

theorem findHighestClaim_leader (order : MapOrder) (s : OracleState) (p : Prophecy) :
    p.findHighestClaim k order s.staking s.whiteList =
      (⟨claimsPower k s p, (leadingEntry k order s p).2, (leadingEntry k order s p).1.content⟩,
        Prophecy.totalPower s.staking.getBondedValidatorsByPower s.whiteList) := by
  have tally := Prophecy.tally_leader (k := k) s.staking.getBondedValidatorsByPower
    (order.arrange p.claimValidators.rows) 0 (⟨"", []⟩, -1)
  rw [((order.perm p.claimValidators.rows).map _).sum_eq, zero_add] at tally
  rw [Prophecy.findHighestClaim, tally]
  rfl

/-- The order of the claims matters for the leading entry only. -/
theorem processCompletion_leader (order : MapOrder) (s : OracleState) (p : Prophecy) :
    let total := Prophecy.totalPower s.staking.getBondedValidatorsByPower s.whiteList
    let lead := leadingEntry k order s p
    (k.processCompletion order s p).status =
      if (FloatRatio.div lead.2 total).ge k.consensusNeeded then ⟨.success, lead.1.content⟩
      else if (FloatRatio.div (lead.2 + (total - claimsPower k s p)) total).lt k.consensusNeeded then
        ⟨.failed, p.status.finalClaim⟩
      else p.status := by
  simp only [processCompletion, findHighestClaim_leader]
  split
  · rfl
  · split <;> rfl

def OracleState.listedPower (s : OracleState) (P : ValAddress → Prop) [DecidablePred P] : ℕ :=
  weigh Validator.getConsensusPower (fun v => inWhiteList v s.whiteList = true ∧ P v.operator)
    s.staking.getBondedValidatorsByPower

def OracleState.totalListed (s : OracleState) : ℕ := s.listedPower (fun _ => True)

theorem totalPower_listed (s : OracleState) :
    Prophecy.totalPower s.staking.getBondedValidatorsByPower s.whiteList = s.totalListed := by
  rw [Prophecy.totalPower_weigh, OracleState.totalListed, OracleState.listedPower]
  simp

theorem processCompletion_outcome (order : MapOrder) (s : OracleState) (p : Prophecy)
    (recorded : p.Recorded k) (some : p.claimValidators.rows ≠ []) :
    let roll := s.staking.getBondedValidatorsByPower
    ∃ e ∈ p.claimValidators.rows, (∀ d ∈ p.claimValidators.rows,
        p.support roll d.content ≤ p.support roll e.content) ∧
      (k.processCompletion order s p).status =
        if (FloatRatio.div (p.support roll e.content) s.totalListed).ge k.consensusNeeded then
          ⟨.success, e.content⟩
        else if (FloatRatio.div (p.support roll e.content + (s.totalListed - p.claimed roll k))
            s.totalListed).lt k.consensusNeeded then ⟨.failed, p.status.finalClaim⟩
        else p.status := by
  intro roll
  have distinct := s.staking.bonded_distinct
  have weights : ∀ e ∈ p.claimValidators.rows,
      Prophecy.claimPower k roll e.validators = p.support roll e.content :=
    fun e member => Prophecy.entry_support roll recorded distinct member
  obtain ⟨e, member, lead, unbeaten⟩ := (leadingEntry_cases (k := k) s p order).resolve_left some
  refine ⟨e, member, ?_, ?_⟩
  · intro d other
    have bound := unbeaten d other
    rw [weights d other, weights e member] at bound
    exact Int.ofNat_le.mp bound
  · rw [processCompletion_leader, lead, totalPower_listed, weights e member, claimsPower,
      Prophecy.entries_claimed roll recorded distinct]

/-- Every bonded validator that has made a claim for the prophecy is on the list. -/
def ClaimantsListed (k : OracleKeeper) (s : OracleState) (p : Prophecy) : Prop :=
  ∀ v ∈ s.staking.getBondedValidatorsByPower,
    p.claimOf (k.valAddressString v.operator) ≠ "" → inWhiteList v s.whiteList = true

instance (s : OracleState) (p : Prophecy) : Decidable (ClaimantsListed k s p) :=
  inferInstanceAs (Decidable (∀ v ∈ _, _))

theorem addClaim_nonempty (p : Prophecy) (a : ValAddress) (claim : String) :
    (p.addClaim k a claim).claimValidators.rows ≠ [] :=
  List.ne_nil_of_mem ((p.claimValidators.mem_put ⟨claim, p.claimers claim ++ [a]⟩ _).mpr (Or.inl rfl))

theorem addClaim_listed {s : OracleState} (listed : ClaimantsListed k s p) {a : ValAddress}
    (member : a ∈ s.whiteList) (claim : String) : ClaimantsListed k s (p.addClaim k a claim) := by
  intro v bonded claimed
  by_cases own : v.operator = a
  · exact List.any_eq_true.mpr ⟨a, member, by simp [own]⟩
  · refine listed v bonded ?_
    have other : k.valAddressString a ≠ k.valAddressString v.operator :=
      fun equal => own (valAddressString_injective k equal).symm
    rw [Prophecy.claimOf, Prophecy.validatorClaims_addClaim, if_neg other] at claimed
    exact claimed

section Shares
variable {s : OracleState} {p : Prophecy}

theorem support_listed (recorded : p.Recorded k) (listed : ClaimantsListed k s p) (content : String) :
    p.support s.staking.getBondedValidatorsByPower content =
      s.listedPower (fun a => a ∈ p.claimers content) := by
  apply weigh_congr
  intro v member
  constructor
  · intro claimed
    refine ⟨listed v member ?_, claimed⟩
    obtain ⟨e, entry, _, inside⟩ := Prophecy.claimers_mem claimed
    exact (Prophecy.claimed_iff recorded v.operator).mp ⟨e, entry, inside⟩
  · exact And.right

theorem total_split (listed : ClaimantsListed k s p) :
    s.totalListed = p.claimed s.staking.getBondedValidatorsByPower k +
      s.listedPower (fun a => p.claimOf (k.valAddressString a) = "") := by
  apply weigh_disjoint
  · intro v member
    by_cases silent : p.claimOf (k.valAddressString v.operator) = ""
    · simp [silent]
    · simp [silent, listed v member silent]
  · rintro v _ ⟨claimed, _, silent⟩
    exact claimed silent

theorem potential_split (recorded : p.Recorded k) (content : String) :
    s.listedPower (fun a => a ∈ p.claimers content ∨ p.claimOf (k.valAddressString a) = "") =
      s.listedPower (fun a => a ∈ p.claimers content) +
        s.listedPower (fun a => p.claimOf (k.valAddressString a) = "") := by
  apply weigh_disjoint
  · intro v _
    constructor
    · rintro ⟨member, claimed | silent⟩
      · exact Or.inl ⟨member, claimed⟩
      · exact Or.inr ⟨member, silent⟩
    · rintro (⟨member, claimed⟩ | ⟨member, silent⟩)
      · exact ⟨member, Or.inl claimed⟩
      · exact ⟨member, Or.inr silent⟩
  · rintro v _ ⟨⟨_, claimed⟩, _, silent⟩
    obtain ⟨e, entry, _, inside⟩ := Prophecy.claimers_mem claimed
    exact (Prophecy.claimed_iff recorded v.operator).mp ⟨e, entry, inside⟩ silent

theorem support_bound {e : ClaimEntry} {roll : List Validator}
    (unbeaten : ∀ d ∈ p.claimValidators.rows, p.support roll d.content ≤ p.support roll e.content)
    (content : String) : p.support roll content ≤ p.support roll e.content := by
  cases found : p.claimValidators.get content with
  | some d =>
    obtain ⟨member, rfl⟩ := Table.get_mem found
    exact unbeaten d member
  | none =>
    have nobody : p.claimers content = [] := by simp [Prophecy.claimers, found]
    have nothing : p.support roll content = 0 := by simp [Prophecy.support, nobody, weigh]
    rw [nothing]
    exact Nat.zero_le _

theorem completion_quorum {order : MapOrder} (recorded : p.Recorded k)
    (some : p.claimValidators.rows ≠ []) (pending : p.status.text = .pending)
    (listed : ClaimantsListed k s p) {status : Status}
    (decided : status = (k.processCompletion order s p).status) :
    (status.text = .success → k.consensusNeeded * s.totalListed ≤
      s.listedPower (fun a => a ∈ p.claimers status.finalClaim)) ∧
    (status.text = .failed → ∀ content,
      s.listedPower (fun a => a ∈ p.claimers content ∨ p.claimOf (k.valAddressString a) = "") <
        k.consensusNeeded * s.totalListed) := by
  obtain ⟨e, _, unbeaten, outcome⟩ := processCompletion_outcome order s p recorded some
  rw [outcome] at decided
  have parts := total_split listed
  have nonneg : (0 : ℤ) ≤ s.totalListed := Int.natCast_nonneg _
  split at decided
  · rename_i enough
    subst decided
    refine ⟨fun _ => ?_, nofun⟩
    rw [← support_listed recorded listed]
    rcases (FloatRatio.div_ge nonneg).mp enough with ⟨_, reached⟩ | ⟨zero, _⟩
    · exact_mod_cast reached
    · rw [Int.natCast_eq_zero.mp zero]
      simp
  · split at decided
    · rename_i missed hopeless
      subst decided
      refine ⟨nofun, fun _ content => ?_⟩
      have bound := support_bound unbeaten content
      rw [support_listed recorded listed content] at bound
      rw [potential_split recorded content]
      rcases (FloatRatio.div_lt nonneg).mp hopeless with ⟨_, below⟩ | ⟨zero, negative⟩
      · have counted : (s.listedPower (fun a => a ∈ p.claimers content) +
            s.listedPower (fun a => p.claimOf (k.valAddressString a) = "") : ℤ) ≤
            p.support s.staking.getBondedValidatorsByPower e.content + (s.totalListed -
              p.claimed s.staking.getBondedValidatorsByPower k) := by
          omega
        refine lt_of_le_of_lt ?_ below
        exact_mod_cast counted
      · -- without any listed power there is no claimed power either
        omega
    · subst decided
      rw [pending]
      exact ⟨nofun, nofun⟩

end Shares

end FuryNode
