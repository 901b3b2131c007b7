import Mathlib.Data.List.Nodup
import Mathlib.Logic.Function.Basic

/-!
A finite set kept as a list and a table that tells where each member stands. A member is removed
by moving the last one to its place. The table is never cleared, so an entry only counts if the
list agrees with it.
-/
namespace IndexedSet
variable {α : Type*} [DecidableEq α]

structure Indexed (α : Type*) where
  index : α → ℕ
  items : List α

def Sound (s : Indexed α) : Prop := ∀ i a, s.items[i]? = some a → s.index a = i

def contains (s : Indexed α) (a : α) : Bool := decide (s.items[s.index a]? = some a)

def push (s : Indexed α) (a : α) : Indexed α :=
  ⟨Function.update s.index a s.items.length, s.items ++ [a]⟩

def swapRemove (s : Indexed α) (a last : α) : Indexed α :=
  ⟨Function.update s.index last (s.index a), (s.items.set (s.index a) last).dropLast⟩

omit [DecidableEq α] in
theorem sound_empty (index : α → ℕ) : Sound ⟨index, []⟩ := by
  intro i a found
  simp at found

theorem contains_iff {s : Indexed α} (sound : Sound s) (a : α) :
    contains s a = true ↔ a ∈ s.items := by
  rw [contains, decide_eq_true_iff, List.mem_iff_getElem?]
  constructor
  · intro found
    exact ⟨s.index a, found⟩
  · intro listed
    obtain ⟨i, found⟩ := listed
    rw [sound i a found]
    exact found

omit [DecidableEq α] in
theorem sound_nodup (s : Indexed α) (sound : Sound s) : s.items.Nodup := by
  rw [List.nodup_iff_getElem?_ne_getElem?]
  intro i j less bound same
  have found : s.items[j]? = some s.items[j] := List.getElem?_eq_getElem bound
  have first := sound i _ (same.trans found)
  have second := sound j _ found
  omega

theorem push_sound {s : Indexed α} (sound : Sound s) (a : α) (absent : a ∉ s.items) :
    Sound (push s a) := by
  intro i b found
  dsimp only [push] at found ⊢
  rw [List.getElem?_append] at found
  split at found
  · have other : b ≠ a := by
      intro same
      exact absent (same ▸ List.mem_of_getElem? found)
    rw [Function.update_of_ne other]
    exact sound i b found
  · rename_i beyond
    rw [List.getElem?_singleton] at found
    split at found
    · cases found
      rw [Function.update_self]
      omega
    · cases found

omit [DecidableEq α] in
theorem dropLast_set (init : List α) (last : α) (k : ℕ) :
    ((init ++ [last]).set k last).dropLast = init.set k last := by
  rw [List.set_append]
  split
  · rw [List.dropLast_concat]
  · rename_i beyond
    rw [List.set_eq_of_length_le (by omega : init.length ≤ k)]
    cases k - init.length <;> simp

section Removal
variable (s : Indexed α) (sound : Sound s) (init : List α) (a last : α)
  (split : s.items = init ++ [last]) (present : a ∈ s.items)
include sound split

omit [DecidableEq α] in
theorem last_index : s.index last = init.length :=
  sound init.length last (by simp [split])

theorem swapRemove_sound : Sound (swapRemove s a last) := by
  intro i b found
  dsimp only [swapRemove] at found ⊢
  rw [split, dropLast_set, List.getElem?_set] at found
  have end_index := last_index s sound init last split
  by_cases moved : b = last
  · rw [moved, Function.update_self]
    by_cases here : s.index a = i
    · exact here
    · -- the last member stands behind the others, so it is not found among them
      rw [if_neg here] at found
      have bound := (List.getElem?_eq_some_iff.mp found).1
      have listed := sound i b (by rw [split, List.getElem?_append_left bound, found])
      rw [moved] at listed
      omega
  · rw [Function.update_of_ne moved]
    by_cases here : s.index a = i
    · rw [if_pos here] at found
      split at found
      · cases found
        exact absurd rfl moved
      · cases found
    · rw [if_neg here] at found
      have bound := (List.getElem?_eq_some_iff.mp found).1
      exact sound i b (by rw [split, List.getElem?_append_left bound, found])

include present in
theorem swapRemove_items (b : α) : b ∈ (swapRemove s a last).items ↔ b ∈ s.items ∧ b ≠ a := by
  have end_index := last_index s sound init last split
  have place : s.items[s.index a]? = some a := by
    simpa [contains] using (contains_iff sound a).mpr present
  have bound : s.index a < init.length + 1 := by
    have inside := (List.getElem?_eq_some_iff.mp place).1
    simpa [split] using inside
  dsimp only [swapRemove]
  rw [split, dropLast_set, List.mem_iff_getElem?]
  constructor
  · intro listed
    obtain ⟨i, found⟩ := listed
    rw [List.getElem?_set] at found
    by_cases here : s.index a = i
    · rw [if_pos here] at found
      split at found
      · rename_i inside
        cases found
        refine ⟨by simp, ?_⟩
        intro same
        rw [same] at end_index
        omega
      · cases found
    · rw [if_neg here] at found
      refine ⟨List.mem_append_left _ (List.mem_of_getElem? found), ?_⟩
      intro same
      have inside := (List.getElem?_eq_some_iff.mp found).1
      have listed := sound i b (by rw [split, List.getElem?_append_left inside, found])
      rw [same] at listed
      exact here listed
  · intro both
    obtain ⟨listed, other⟩ := both
    rcases List.mem_append.mp listed with early | final
    · obtain ⟨i, found⟩ := List.mem_iff_getElem?.mp early
      have inside := (List.getElem?_eq_some_iff.mp found).1
      have here := sound i b (by rw [split, List.getElem?_append_left inside, found])
      refine ⟨i, ?_⟩
      rw [List.getElem?_set, if_neg, found]
      intro same
      rw [same, split, List.getElem?_append_left inside, found] at place
      exact other (Option.some.inj place)
    · rw [List.mem_singleton] at final
      have earlier : s.index a < init.length := by
        by_contra late
        have same : s.index a = init.length := by omega
        rw [same, split, List.getElem?_concat_length] at place
        exact other (final.trans (Option.some.inj place))
      refine ⟨s.index a, ?_⟩
      rw [List.getElem?_set, if_pos rfl, if_pos earlier, final]

end Removal
end IndexedSet
