import Mathlib.Data.List.Basic
import Mathlib.Tactic.Common

/-!
A cursor over numbered blocks. The items of the blocks from a first one up to the cursor are
done; the cursor may advance over a range whose items were done, and may go back at any time.
-/
namespace BlockCursor
variable {ι : Type*} (items : ℕ → List ι)

/-- The items of the blocks from `first` on and below `cursor` are all done. -/
def Covered (done : List ι) (first cursor : ℕ) : Prop :=
  ∀ b, first ≤ b → b < cursor → ∀ x ∈ items b, x ∈ done

/-- No block from `first` on and below `cursor` has an item. -/
def Idle (first cursor : ℕ) : Prop := ∀ b, first ≤ b → b < cursor → items b = []

instance (first cursor : ℕ) : Decidable (Idle items first cursor) :=
  decidable_of_iff (∀ b ∈ List.range' first (cursor - first), items b = []) (by
    constructor
    · intro empty b lower upper
      exact empty b (List.mem_range'_1.mpr ⟨lower, by omega⟩)
    · intro idle b member
      have range := List.mem_range'_1.mp member
      exact idle b range.1 (by omega))

/-- The items of a block that are not done yet. -/
def remaining [DecidableEq ι] (done : List ι) (b : ℕ) : List ι := (items b).filter (fun x => x ∉ done)

def scan (start stop : ℕ) : List ι := (List.range' start (stop + 1 - start)).flatMap items

variable {items}

theorem mem_scan {start stop : ℕ} {x : ι} :
    x ∈ scan items start stop ↔ ∃ b, start ≤ b ∧ b ≤ stop ∧ x ∈ items b := by
  simp only [scan, List.mem_flatMap, List.mem_range'_1]
  constructor
  · intro ⟨b, range, member⟩
    exact ⟨b, range.1, by omega, member⟩
  · intro ⟨b, lower, upper, member⟩
    exact ⟨b, ⟨lower, by omega⟩, member⟩

variable {done more : List ι} {first cursor next : ℕ}

theorem covered_zero : Covered items done first 0 := by
  intro b _ below
  omega

theorem covered_append (covered : Covered items done first cursor) :
    Covered items (done ++ more) first cursor := by
  intro b lower upper x member
  exact List.mem_append_left _ (covered b lower upper x member)

theorem covered_advance (covered : Covered items done first cursor)
    (reached : ∀ b, cursor ≤ b → b < next → ∀ x ∈ items b, x ∈ done) : Covered items done first next := by
  intro b lower upper x member
  by_cases passed : b < cursor
  · exact covered b lower passed x member
  · exact reached b (by omega) upper x member

theorem covered_of_idle [DecidableEq ι] (idle : Idle (remaining items done) first next) :
    Covered items done first next := by
  intro b lower upper x member
  by_contra missing
  have left : x ∈ remaining items done b := List.mem_filter.mpr ⟨member, by simpa using missing⟩
  rw [idle b lower upper] at left
  cases left

end BlockCursor
