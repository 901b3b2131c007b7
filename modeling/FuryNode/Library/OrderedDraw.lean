import Mathlib.Algebra.Order.Ring.Nat
import Mathlib.Algebra.BigOperators.Group.List.Basic
import Mathlib.Tactic.Common

/-!
Drawing an amount from a list of entries in list order. Only some entries are eligible; each
of them gives as much as it holds of what the eligible entries before it left open.
-/
namespace OrderedDraw
variable {α : Type} (amount : α → ℕ) (eligible : α → Prop) [DecidablePred eligible]

def available (entries : List α) : ℕ := ((entries.filter eligible).map amount).sum

/-- What the entry at position `i` gives. -/
def given (wanted : ℕ) (entries : List α) (i : ℕ) (a : α) : ℕ :=
  if eligible a then min (amount a) (wanted - available amount eligible (entries.take i)) else 0

def drawn (lower : α → ℕ → α) (wanted : ℕ) (entries : List α) : List α :=
  entries.mapIdx (fun i a => lower a (given amount eligible wanted entries i a))

/-- An entry can be lowered: it loses the amount and stays eligible, or not, as it was. -/
structure Lowers (lower : α → ℕ → α) : Prop where
  amount_lower : ∀ a k, amount (lower a k) = amount a - k
  eligible_lower : ∀ a k, eligible (lower a k) ↔ eligible a
  lower_zero : ∀ a, lower a 0 = a

theorem available_cons (a : α) (rest : List α) :
    available amount eligible (a :: rest) =
      (if eligible a then amount a else 0) + available amount eligible rest := by
  unfold available
  by_cases chosen : eligible a
  · simp [chosen]
  · simp [chosen]

theorem available_all (entries : List α) (all : ∀ a ∈ entries, eligible a) :
    available amount eligible entries = (entries.map amount).sum := by
  rw [available, List.filter_eq_self.mpr (fun a member => by simpa using all a member)]

theorem available_filter_nonzero (entries : List α) :
    available amount eligible (entries.filter (fun a => amount a ≠ 0)) =
      available amount eligible entries := by
  induction entries with
  | nil => rfl
  | cons a rest ih =>
    rw [List.filter_cons, available_cons, ← ih]
    by_cases empty : amount a = 0
    · simp [empty]
    · simp [available_cons, empty]

theorem drawn_cons (lower : α → ℕ → α) (wanted : ℕ) (a : α) (rest : List α) :
    drawn amount eligible lower wanted (a :: rest) =
      lower a (if eligible a then min (amount a) wanted else 0) ::
        drawn amount eligible lower (wanted - if eligible a then amount a else 0) rest := by
  have first : given amount eligible wanted (a :: rest) 0 a =
      if eligible a then min (amount a) wanted else 0 := rfl
  have shifted : ∀ i b, given amount eligible wanted (a :: rest) (i + 1) b =
      given amount eligible (wanted - if eligible a then amount a else 0) rest i b := by
    intro i b
    unfold given
    rw [List.take_succ_cons, available_cons, Nat.sub_add_eq]
  unfold drawn
  rw [List.mapIdx_cons, first]
  simp only [shifted]

theorem mem_drawn {lower : α → ℕ → α} {wanted : ℕ} {entries : List α} {a : α}
    (member : a ∈ drawn amount eligible lower wanted entries) :
    ∃ b ∈ entries, ∃ k, a = lower b k := by
  obtain ⟨i, bound, rfl⟩ := List.mem_mapIdx.mp member
  exact ⟨entries[i], List.getElem_mem bound, _, rfl⟩

section Lowering
variable {amount eligible} {lower : α → ℕ → α} (lowers : Lowers amount eligible lower)
include lowers

theorem drawn_zero (entries : List α) : drawn amount eligible lower 0 entries = entries := by
  induction entries with
  | nil => rfl
  | cons a rest ih => simp [drawn_cons, ih, lowers.lower_zero]

theorem available_drawn (wanted : ℕ) (entries : List α) :
    available amount eligible (drawn amount eligible lower wanted entries) =
      available amount eligible entries - wanted := by
  induction entries generalizing wanted with
  | nil => simp [drawn, available]
  | cons a rest ih =>
    rw [drawn_cons, available_cons, available_cons, ih, lowers.amount_lower]
    simp only [lowers.eligible_lower]
    split
    · omega
    · omega

theorem sum_drawn (wanted : ℕ) (entries : List α) :
    ((drawn amount eligible lower wanted entries).map amount).sum +
        min wanted (available amount eligible entries) = (entries.map amount).sum := by
  induction entries generalizing wanted with
  | nil => simp [drawn, available]
  | cons a rest ih =>
    rw [drawn_cons, available_cons, List.map_cons, List.sum_cons, List.map_cons, List.sum_cons,
      lowers.amount_lower]
    have later := ih (wanted - if eligible a then amount a else 0)
    split
    · rename_i chosen
      simp only [chosen, ↓reduceIte] at later
      omega
    · rename_i refused
      simp only [refused, ↓reduceIte] at later
      omega

theorem ineligible_drawn (wanted : ℕ) (entries : List α) :
    (drawn amount eligible lower wanted entries).filter (fun a => ¬eligible a) =
      entries.filter (fun a => ¬eligible a) := by
  induction entries generalizing wanted with
  | nil => rfl
  | cons a rest ih =>
    rw [drawn_cons]
    by_cases chosen : eligible a
    · have still : eligible (lower a (min (amount a) wanted)) := (lowers.eligible_lower a _).mpr chosen
      simpa [chosen, still] using ih (wanted - amount a)
    · simpa [chosen, lowers.lower_zero] using ih wanted

end Lowering
end OrderedDraw
