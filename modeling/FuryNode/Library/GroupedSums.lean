import Mathlib.Algebra.Order.Ring.Nat
import Mathlib.Algebra.BigOperators.Group.List.Basic
import Mathlib.Algebra.Order.BigOperators.Group.List
import Mathlib.Algebra.Order.Group.Nat
import Mathlib.Data.List.Nodup

/-!
Sums over a list split by a key: the part of each key, and that the parts of a list of
different keys add up to the sum over the elements those keys reach.
-/
namespace GroupedSums
variable {α κ : Type} [DecidableEq κ] (key : α → κ) (f : α → ℕ)

def sumFor (xs : List α) (k : κ) : ℕ := ((xs.filter (fun x => key x = k)).map f).sum

theorem sumFor_nil (k : κ) : sumFor key f [] k = 0 := rfl

theorem sumFor_cons (x : α) (xs : List α) (k : κ) :
    sumFor key f (x :: xs) k = (if key x = k then f x else 0) + sumFor key f xs k := by
  unfold sumFor
  by_cases same : key x = k
  · simp [same]
  · simp [same]

theorem sumFor_append (xs ys : List α) (k : κ) :
    sumFor key f (xs ++ ys) k = sumFor key f xs k + sumFor key f ys k := by
  simp [sumFor]

theorem sumFor_perm {xs ys : List α} (same : xs.Perm ys) (k : κ) :
    sumFor key f xs k = sumFor key f ys k :=
  ((same.filter _).map f).sum_eq

theorem sumFor_map {γ : Type} (g : γ → α) (xs : List γ) (k : κ) :
    sumFor key f (xs.map g) k = sumFor (key ∘ g) (f ∘ g) xs k := by
  simp [sumFor, List.filter_map, Function.comp_def]

/-- An element adds to the group of one key only. -/
theorem sum_indicator {keys : List κ} (distinct : keys.Nodup) {k : κ} (n : ℕ) (member : k ∈ keys) :
    (keys.map (fun l => if k = l then n else 0)).sum = n := by
  induction keys with
  | nil => simp at member
  | cons l rest ih =>
    obtain ⟨absent, others⟩ := List.nodup_cons.mp distinct
    rcases List.mem_cons.mp member with rfl | later
    · have nothing : (rest.map (fun l => if k = l then n else 0)).sum = 0 := by
        refine List.sum_eq_zero ?_
        intro m inside
        obtain ⟨l, found, rfl⟩ := List.mem_map.mp inside
        apply if_neg
        intro same
        exact absent (same ▸ found)
      simp [nothing]
    · have other : k ≠ l := fun same => absent (same ▸ later)
      simpa [other] using ih others later

theorem sum_sumFor {keys : List κ} (distinct : keys.Nodup) (xs : List α)
    (reached : ∀ x ∈ xs, key x ∈ keys) :
    (keys.map (fun k => sumFor key f xs k)).sum = (xs.map f).sum := by
  induction xs with
  | nil => simp [sumFor_nil]
  | cons x rest ih =>
    have tail := ih (fun y member => reached y (by simp [member]))
    have head := sum_indicator distinct (f x) (reached x (by simp))
    simp only [sumFor_cons, List.sum_map_add, head, tail, List.map_cons, List.sum_cons]

theorem sumFor_sublist (xs ys : List α) (part : xs.Sublist ys) (k : κ) :
    sumFor key f xs k ≤ sumFor key f ys k :=
  ((part.filter _).map f).sum_le_sum (fun _ _ => Nat.zero_le _)

end GroupedSums
