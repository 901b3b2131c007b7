import Mathlib.Algebra.Order.Ring.Int
import FuryNode.Library.GroupedSums

/-!
Votes with weights. A roll lists the voters, each of them once; what a set of voters weighs
is a sum over the roll, so that sets compare and split pointwise. A leader is found by
going over the candidates and keeping the best so far, replaced only by a better one: the
weight of the leader does not depend on the order, its name does when the lead is shared.
-/
namespace WeightedVotes
variable {V K C : Type}

section Weighing
variable (weight : V → ℕ)

def weigh (P : V → Prop) [DecidablePred P] (roll : List V) : ℕ :=
  (roll.map (fun v => if P v then weight v else 0)).sum

theorem weigh_cons (P : V → Prop) [DecidablePred P] (v : V) (roll : List V) :
    weigh weight P (v :: roll) = (if P v then weight v else 0) + weigh weight P roll := by
  simp [weigh]

theorem weigh_mono (P Q : V → Prop) [DecidablePred P] [DecidablePred Q] (roll : List V)
    (within : ∀ v ∈ roll, P v → Q v) : weigh weight P roll ≤ weigh weight Q roll := by
  refine List.sum_le_sum ?_
  intro v member
  by_cases voted : P v
  · simp [voted, within v member voted]
  · simp [voted]

theorem weigh_congr (P Q : V → Prop) [DecidablePred P] [DecidablePred Q] (roll : List V)
    (same : ∀ v ∈ roll, (P v ↔ Q v)) : weigh weight P roll = weigh weight Q roll :=
  Nat.le_antisymm (weigh_mono weight P Q roll (fun v member => (same v member).mp))
    (weigh_mono weight Q P roll (fun v member => (same v member).mpr))

theorem weigh_disjoint (P Q R : V → Prop) [DecidablePred P] [DecidablePred Q] [DecidablePred R]
    (roll : List V) (together : ∀ v ∈ roll, (R v ↔ P v ∨ Q v)) (apart : ∀ v ∈ roll, ¬(P v ∧ Q v)) :
    weigh weight R roll = weigh weight P roll + weigh weight Q roll := by
  induction roll with
  | nil => rfl
  | cons v rest ih =>
    have tail := ih (fun u member => together u (by simp [member]))
      (fun u member => apart u (by simp [member]))
    have here := together v (by simp)
    have once := apart v (by simp)
    rw [weigh_cons, weigh_cons, weigh_cons, tail]
    by_cases first : P v
    · have other : ¬Q v := fun second => once ⟨first, second⟩
      simp only [here, first, other, true_or, ↓reduceIte]
      omega
    · by_cases second : Q v
      · simp only [here, first, second, or_true, ↓reduceIte]
        omega
      · simp only [here, first, second, or_self, ↓reduceIte]
        omega

end Weighing

section Ballots
variable [DecidableEq K] (key : V → K) (weight : V → ℕ)

/-- The weight behind a name, nothing for a name that is not on the roll. -/
def weightAt (roll : List V) (k : K) : ℕ := ((roll.find? (fun v => key v = k)).map weight).getD 0

theorem weightAt_cons {v : V} {rest : List V} (absent : key v ∉ rest.map key) (k : K) :
    weightAt key weight (v :: rest) k =
      (if key v = k then weight v else 0) + weightAt key weight rest k := by
  unfold weightAt
  by_cases same : key v = k
  · subst same
    have nobody : rest.find? (fun u => key u = key v) = none := by
      refine List.find?_eq_none.mpr ?_
      intro u member equal
      exact absent (List.mem_map.mpr ⟨u, member, by simpa using equal⟩)
    simp [nobody]
  · simp [same]

theorem ballots_weigh {roll : List V} (distinct : (roll.map key).Nodup) {ballots : List K}
    (once : ballots.Nodup) :
    (ballots.map (weightAt key weight roll)).sum = weigh weight (fun v => key v ∈ ballots) roll := by
  induction roll with
  | nil =>
    have nothing : weightAt key weight [] = fun _ => 0 := rfl
    simp [nothing, weigh]
  | cons v rest ih =>
    obtain ⟨absent, others⟩ := List.nodup_cons.mp distinct
    rw [weigh_cons, ← ih others,
      List.map_congr_left (fun k _ => weightAt_cons key weight absent k), List.sum_map_add]
    congr 1
    by_cases voted : key v ∈ ballots
    · rw [if_pos voted]
      exact GroupedSums.sum_indicator once (weight v) voted
    · rw [if_neg voted]
      refine List.sum_eq_zero ?_
      intro n inside
      obtain ⟨k, member, rfl⟩ := List.mem_map.mp inside
      apply if_neg
      intro same
      exact voted (same ▸ member)

theorem boxes_weigh (roll : List V) {boxes : List (List K)}
    (apart : boxes.Pairwise (fun xs ys => ∀ k ∈ xs, k ∉ ys)) :
    (boxes.map (fun box => weigh weight (fun v => key v ∈ box) roll)).sum =
      weigh weight (fun v => ∃ box ∈ boxes, key v ∈ box) roll := by
  induction boxes with
  | nil => simp [weigh]
  | cons box rest ih =>
    obtain ⟨first, later⟩ := List.pairwise_cons.mp apart
    rw [List.map_cons, List.sum_cons, ih later]
    symm
    apply weigh_disjoint
    · intro v _
      simp
    · rintro v _ ⟨here, other, member, again⟩
      exact first other member _ here again

end Ballots

section Leading
variable (tally : C → ℤ)

def improve (best : C × ℤ) (c : C) : C × ℤ := if best.2 < tally c then (c, tally c) else best

def leader (start : C × ℤ) (candidates : List C) : C × ℤ := candidates.foldl (improve tally) start

theorem leader_cons (start : C × ℤ) (c : C) (rest : List C) :
    leader tally start (c :: rest) = leader tally (improve tally start c) rest := rfl

theorem improve_bounds (best : C × ℤ) (c : C) :
    best.2 ≤ (improve tally best c).2 ∧ tally c ≤ (improve tally best c).2 := by
  unfold improve
  split
  · rename_i better
    exact ⟨le_of_lt better, le_refl _⟩
  · rename_i kept
    exact ⟨le_refl _, not_lt.mp kept⟩

theorem leader_start (start : C × ℤ) (candidates : List C) :
    start.2 ≤ (leader tally start candidates).2 := by
  induction candidates generalizing start with
  | nil => exact le_refl _
  | cons c rest ih => exact (improve_bounds tally start c).1.trans (ih _)

theorem leader_bounds (start : C × ℤ) {candidates : List C} {c : C} (member : c ∈ candidates) :
    tally c ≤ (leader tally start candidates).2 := by
  induction candidates generalizing start with
  | nil => simp at member
  | cons d rest ih =>
    rw [leader_cons]
    rcases List.mem_cons.mp member with rfl | later
    · exact (improve_bounds tally start c).2.trans (leader_start tally _ rest)
    · exact ih _ later

theorem leader_cases (start : C × ℤ) (candidates : List C) :
    leader tally start candidates = start ∨
      ∃ c ∈ candidates, leader tally start candidates = (c, tally c) := by
  induction candidates generalizing start with
  | nil => exact Or.inl rfl
  | cons d rest ih =>
    rw [leader_cons]
    rcases ih (improve tally start d) with kept | ⟨c, member, found⟩
    · rw [kept]
      unfold improve
      split
      · exact Or.inr ⟨d, by simp, rfl⟩
      · exact Or.inl rfl
    · exact Or.inr ⟨c, by simp [member], found⟩

theorem leader_found (start : C × ℤ) {candidates : List C} {c : C} (member : c ∈ candidates)
    (better : start.2 < tally c) :
    ∃ d ∈ candidates, leader tally start candidates = (d, tally d) := by
  rcases leader_cases tally start candidates with none | found
  · have above := leader_bounds tally start member
    rw [none] at above
    omega
  · exact found

theorem leader_weight_le (start : C × ℤ) (xs ys : List C) (within : ∀ c ∈ xs, c ∈ ys) :
    (leader tally start xs).2 ≤ (leader tally start ys).2 := by
  rcases leader_cases tally start xs with none | ⟨c, member, found⟩
  · rw [none]
    exact leader_start tally start ys
  · rw [found]
    exact leader_bounds tally start (within c member)

theorem leader_weight_perm {start : C × ℤ} {xs ys : List C} (same : xs.Perm ys) :
    (leader tally start xs).2 = (leader tally start ys).2 :=
  le_antisymm (leader_weight_le tally start xs ys (fun _ member => same.mem_iff.mp member))
    (leader_weight_le tally start ys xs (fun _ member => same.mem_iff.mpr member))

theorem leader_first (start : C × ℤ) (c : C) (rest : List C) (better : start.2 < tally c)
    (unbeaten : ∀ d ∈ rest, tally d ≤ tally c) :
    leader tally start (c :: rest) = (c, tally c) := by
  rw [leader_cons, improve, if_pos better]
  clear better
  induction rest with
  | nil => rfl
  | cons d rest ih =>
    have below : ¬tally c < tally d := not_lt.mpr (unbeaten d (by simp))
    rw [leader_cons, improve, if_neg below]
    exact ih (fun e member => unbeaten e (by simp [member]))

end Leading
end WeightedVotes
