import Mathlib.Algebra.Order.Ring.Nat
import Mathlib.Data.List.Basic
import Mathlib.Tactic.Common

/-!
Paginated reading of a store in key order. The page ends at offset plus limit,
computed in 64 bits, and the reading stops on the entry after the last hit of
the page; both sums wrap. `hit` is told whether the entry lies on the page.
-/
namespace Pagination
variable {α : Type}

def uint64 (n : Nat) : Nat := n % 2 ^ 64

def filteredPaginateFrom (hit : Bool → α → Bool) (offset stop : Nat) : Nat → List α → List α
  | _, [] => []
  | numHits, a :: rest =>
      let accumulate := decide (offset ≤ numHits ∧ numHits < stop)
      let numHits' := if hit accumulate a then uint64 (numHits + 1) else numHits
      let found := if accumulate && hit accumulate a then [a] else []
      if numHits' = uint64 (stop + 1) then found
      else found ++ filteredPaginateFrom hit offset stop numHits' rest

def filteredPaginate (hit : Bool → α → Bool) (limit : Nat) (entries : List α) : List α :=
  filteredPaginateFrom hit 0 (uint64 limit) 0 entries

theorem filteredPaginateFrom_sublist (hit : Bool → α → Bool) (offset stop numHits : Nat)
    (entries : List α) :
    (filteredPaginateFrom hit offset stop numHits entries).Sublist
      (entries.filter (hit true)) := by
  induction entries generalizing numHits with
  | nil => exact List.Sublist.slnil
  | cons a rest ih =>
    have later : ∀ n, (filteredPaginateFrom hit offset stop n rest).Sublist
        ((a :: rest).filter (hit true)) := by
      intro n
      exact (ih n).trans ((List.sublist_cons_self a rest).filter _)
    simp only [filteredPaginateFrom]
    cases page : decide (offset ≤ numHits ∧ numHits < stop) with
    | false =>
      simp only [Bool.false_and, Bool.false_eq_true, ↓reduceIte, List.nil_append]
      generalize (if hit false a = true then uint64 (numHits + 1) else numHits) = n
      split
      · exact List.nil_sublist _
      · exact later n
    | true =>
      by_cases matching : hit true a
      · simp only [matching, Bool.and_self, ↓reduceIte, List.filter_cons_of_pos]
        split
        · exact (List.nil_sublist _).cons_cons a
        · exact (ih _).cons_cons a
      · simp only [matching, Bool.and_false, Bool.false_eq_true, ↓reduceIte, List.nil_append]
        split
        · exact List.nil_sublist _
        · exact later _

/-- No entry is read that is not a hit, and none is read twice. -/
theorem filteredPaginate_sublist {hit : Bool → α → Bool} {limit : Nat} {entries : List α} :
    (filteredPaginate hit limit entries).Sublist (entries.filter (hit true)) :=
  filteredPaginateFrom_sublist hit 0 (uint64 limit) 0 entries

theorem filteredPaginateFrom_wraps (p : α → Bool) (entries : List α) (stop numHits : Nat)
    (bounded : stop < 2 ^ 64) (wraps : uint64 (stop + 1) = 0) (counted : 0 < numHits)
    (within : numHits ≤ stop) :
    filteredPaginateFrom (fun _ => p) 0 stop numHits entries =
      (entries.filter p).take (stop - numHits) := by
  induction entries generalizing numHits with
  | nil => simp [filteredPaginateFrom]
  | cons a rest ih =>
    have more : numHits ≠ 0 := by omega
    simp only [filteredPaginateFrom, wraps, Nat.zero_le, true_and]
    by_cases hit : p a = true
    · by_cases full : numHits = stop
      · -- the counter wraps to where the reading stops
        subst full
        simp [hit, wraps]
      · have next : uint64 (numHits + 1) = numHits + 1 := Nat.mod_eq_of_lt (by omega)
        have less : numHits < stop := by omega
        have room : stop - numHits = stop - (numHits + 1) + 1 := by omega
        simp only [hit, next, less, decide_true, Bool.and_self, reduceIte, Nat.succ_ne_zero,
          List.filter_cons_of_pos, List.singleton_append]
        rw [ih (numHits + 1) (by omega) (by omega), room, List.take_succ_cons]
    · simp only [hit, Bool.and_false, Bool.false_eq_true, reduceIte, more, List.nil_append,
        not_false_eq_true, List.filter_cons_of_neg]
      exact ih numHits counted within

theorem filteredPaginateFrom_first {p : α → Bool} {entries : List α} {stop : Nat}
    (bounded : stop < 2 ^ 64) (wraps : uint64 (stop + 1) = 0) :
    filteredPaginateFrom (fun _ => p) 0 stop 0 entries =
      if ∀ a ∈ entries.head?, p a = true then (entries.filter p).take stop else [] := by
  have room : 1 ≤ stop := by
    by_contra none
    have zero : stop = 0 := by omega
    rw [zero] at wraps
    exact absurd wraps (by decide)
  have first : uint64 (0 + 1) = 1 := by decide
  cases entries with
  | nil => simp [filteredPaginateFrom]
  | cons a rest =>
    simp only [filteredPaginateFrom, wraps, first, List.head?_cons, Option.mem_def,
      Option.some.injEq, forall_eq']
    by_cases hit : p a = true
    · have open_page : 0 < stop := room
      have split : stop = stop - 1 + 1 := by omega
      have later := filteredPaginateFrom_wraps p rest stop 1 bounded wraps Nat.one_pos room
      simp only [hit, reduceIte, Nat.le_refl, open_page, and_self, decide_true, Bool.and_self,
        Nat.succ_ne_zero, later, List.filter_cons_of_pos, List.singleton_append]
      conv_rhs => rw [split]
      rw [List.take_succ_cons]
    · simp [hit]

theorem filteredPaginate_max (p : α → Bool) (entries : List α) :
    filteredPaginate (fun _ => p) (2 ^ 64 - 1) entries =
      if ∀ a ∈ entries.head?, p a = true then (entries.filter p).take (2 ^ 64 - 1) else [] := by
  have limit : uint64 (2 ^ 64 - 1) = 2 ^ 64 - 1 := by decide
  rw [filteredPaginate, limit]
  exact filteredPaginateFrom_first (by decide) (by decide)

end Pagination
