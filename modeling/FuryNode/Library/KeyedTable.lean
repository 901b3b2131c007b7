import Mathlib.Algebra.BigOperators.Group.List.Basic
import Mathlib.Data.List.Sort
import Mathlib.Tactic.Abel

/-!
Finite tables whose rows carry their own key. A key names at most one row, which
is part of the type, and a new row goes where the order of the keys puts it.
All facts about a write come from one permutation: after `put v` the rows are
`v` and the rows of the other keys.
-/
namespace KeyedTable
variable {κ ν M : Type}

class StoreOrder (κ : Type) where
  precedes : κ → κ → Bool

structure Table (key : ν → κ) where
  rows : List ν
  distinct : (rows.map key).Nodup

namespace Table
variable {key : ν → κ} [DecidableEq κ]

def empty : Table key := ⟨[], by simp⟩

def get (t : Table key) (k : κ) : Option ν := t.rows.find? (fun v => key v = k)

def delete (t : Table key) (k : κ) : Table key :=
  ⟨t.rows.filter (fun v => key v ≠ k), t.distinct.sublist (List.filter_sublist.map key)⟩

def putRows [StoreOrder κ] (key : ν → κ) (v : ν) (rows : List ν) : List ν :=
  if key v ∈ rows.map key then rows.map (fun r => if key r = key v then v else r)
  else rows.orderedInsert (fun a b => StoreOrder.precedes (key a) (key b)) v

theorem replaced_perm {v : ν} {rows : List ν} (distinct : (rows.map key).Nodup)
    (present : key v ∈ rows.map key) :
    (rows.map (fun r => if key r = key v then v else r)).Perm
      (v :: rows.filter (fun r => key r ≠ key v)) := by
  induction rows with
  | nil => simp at present
  | cons r rest ih =>
    simp only [List.map_cons, List.nodup_cons] at distinct
    by_cases same : key r = key v
    · have others : ∀ x ∈ rest, key x ≠ key v := by
        intro x member equal
        exact distinct.1 (same ▸ equal ▸ List.mem_map_of_mem member)
      have kept : rest.map (fun r => if key r = key v then v else r) = rest := by
        rw [List.map_congr_left (g := id) (by intro x member; simp [others x member]), List.map_id]
      have all : rest.filter (fun r => key r ≠ key v) = rest :=
        List.filter_eq_self.mpr (by simpa using others)
      rw [List.filter_cons_of_neg (by simpa using same), all]
      simp [same, kept]
    · have tail : key v ∈ rest.map key := by
        rcases List.mem_cons.mp present with first | later
        · exact absurd first.symm same
        · exact later
      simp only [List.map_cons, same, ↓reduceIte]
      rw [List.filter_cons_of_pos (by simpa using same)]
      exact ((ih distinct.2 tail).cons r).trans (List.Perm.swap _ _ _)

theorem putRows_perm [StoreOrder κ] (v : ν) {rows : List ν} (distinct : (rows.map key).Nodup) :
    (putRows key v rows).Perm (v :: rows.filter (fun r => key r ≠ key v)) := by
  unfold putRows
  split
  · rename_i present
    exact replaced_perm distinct present
  · rename_i absent
    have all : rows.filter (fun r => key r ≠ key v) = rows := by
      refine List.filter_eq_self.mpr ?_
      intro x member
      simp only [ne_eq, decide_not, Bool.not_eq_eq_eq_not, Bool.not_true, decide_eq_false_iff_not]
      intro equal
      exact absent (equal ▸ List.mem_map_of_mem member)
    rw [all]
    exact List.perm_orderedInsert _ _ _

theorem putRows_distinct [StoreOrder κ] (v : ν) {rows : List ν} (distinct : (rows.map key).Nodup) :
    ((putRows key v rows).map key).Nodup := by
  rw [((putRows_perm v distinct).map key).nodup_iff, List.map_cons, List.nodup_cons]
  constructor
  · simp
  · exact distinct.sublist (List.filter_sublist.map key)

def put [StoreOrder κ] (t : Table key) (v : ν) : Table key :=
  ⟨putRows key v t.rows, putRows_distinct v t.distinct⟩

theorem put_perm [StoreOrder κ] (t : Table key) (v : ν) :
    (t.put v).rows.Perm (v :: (t.delete (key v)).rows) :=
  putRows_perm v t.distinct

theorem keys_put_present [StoreOrder κ] {t : Table key} {v : ν} (present : key v ∈ t.rows.map key) :
    (t.put v).rows.map key = t.rows.map key := by
  simp only [put, putRows, present, if_true, List.map_map]
  apply List.map_congr_left
  intro r _
  by_cases same : key r = key v
  · simp [same]
  · simp [same]

theorem putRows_twice [StoreOrder κ] {a b : ν} (rows : List ν) (same : key a = key b) :
    putRows key b (putRows key a rows) = putRows key b rows := by
  by_cases present : key b ∈ rows.map key
  · have still : key b ∈ (rows.map (fun r => if key r = key a then a else r)).map key := by
      obtain ⟨r, member, equal⟩ := List.mem_map.mp present
      refine List.mem_map.mpr ⟨a, List.mem_map.mpr ⟨r, member, ?_⟩, same⟩
      simp [equal, same]
    have first : putRows key a rows = rows.map (fun r => if key r = key a then a else r) :=
      if_pos (by rw [same]; exact present)
    rw [first, putRows, putRows, if_pos still, if_pos present, List.map_map]
    refine List.map_congr_left ?_
    intro r _
    by_cases equal : key r = key b <;> simp [equal, same]
  · have absent : ∀ r ∈ rows, key r ≠ key b := by
      intro r member equal
      exact present (equal ▸ List.mem_map_of_mem member)
    have kept : rows.map (fun r => if key r = key b then b else r) = rows := by
      rw [List.map_congr_left (g := id) (by intro r member; simp [absent r member]), List.map_id]
    have inserted : key b ∈ (rows.orderedInsert
        (fun x y => StoreOrder.precedes (key x) (key y)) a).map key :=
      List.mem_map.mpr ⟨a, (List.mem_orderedInsert _).mpr (Or.inl rfl), same⟩
    have first : putRows key a rows = rows.orderedInsert
        (fun x y => StoreOrder.precedes (key x) (key y)) a :=
      if_neg (by rw [same]; exact present)
    have replaced := List.map_orderedInsert (r := fun x y => StoreOrder.precedes (key x) (key y))
      (s := fun x y => StoreOrder.precedes (key x) (key y)) (fun r => if key r = key b then b else r)
      rows a (by intro r member; simp [absent r member, same])
      (by intro r member; simp [absent r member, same])
    rw [first, putRows, putRows, if_pos inserted, if_neg present, replaced, kept]
    simp [same]

/-- A row written twice is the row written last. -/
theorem put_put [StoreOrder κ] {t : Table key} {a b : ν} (same : key a = key b) :
    (t.put a).put b = t.put b := by
  unfold put
  congr 1
  exact putRows_twice t.rows same

theorem get_some_iff (t : Table key) (k : κ) (v : ν) :
    t.get k = some v ↔ v ∈ t.rows ∧ key v = k := by
  constructor
  · intro found
    exact ⟨List.mem_of_find?_eq_some found, by simpa using List.find?_some found⟩
  · rintro ⟨member, rfl⟩
    cases found : t.get (key v) with
    | none =>
      have missing := List.find?_eq_none.mp found v member
      simp at missing
    | some w =>
      have same : key w = key v := by simpa using List.find?_some found
      exact congrArg some
        (List.inj_on_of_nodup_map t.distinct (List.mem_of_find?_eq_some found) member same)

theorem get_mem {t : Table key} {k : κ} {v : ν} (found : t.get k = some v) : v ∈ t.rows ∧ key v = k :=
  (t.get_some_iff k v).mp found

/-- A row is found under its own key. -/
theorem get_row {t : Table key} {v : ν} (member : v ∈ t.rows) : t.get (key v) = some v :=
  (t.get_some_iff _ v).mpr ⟨member, rfl⟩

theorem get_none_iff (t : Table key) (k : κ) : t.get k = none ↔ ∀ v ∈ t.rows, key v ≠ k := by
  simp [get, List.find?_eq_none]

theorem get_key (t : Table key) (k : κ) (v : ν) (found : t.get k = some v) : key v = k :=
  ((t.get_some_iff k v).mp found).2

theorem mem_delete (t : Table key) (k : κ) (x : ν) :
    x ∈ (t.delete k).rows ↔ x ∈ t.rows ∧ key x ≠ k := by
  simp [delete, List.mem_filter]

theorem mem_put [StoreOrder κ] (t : Table key) (v x : ν) :
    x ∈ (t.put v).rows ↔ x = v ∨ (x ∈ t.rows ∧ key x ≠ key v) := by
  rw [(t.put_perm v).mem_iff, List.mem_cons, mem_delete]

theorem get_put_same [StoreOrder κ] (t : Table key) (v : ν) : (t.put v).get (key v) = some v := by
  rw [get_some_iff, mem_put]
  exact ⟨Or.inl rfl, rfl⟩

theorem get_put_other [StoreOrder κ] (t : Table key) (v : ν) (k : κ) (other : key v ≠ k) :
    (t.put v).get k = t.get k := by
  ext x
  rw [get_some_iff, get_some_iff, mem_put]
  constructor
  · rintro ⟨rfl | ⟨member, _⟩, same⟩
    · exact absurd same other
    · exact ⟨member, same⟩
  · rintro ⟨member, same⟩
    exact ⟨Or.inr ⟨member, fun equal => other (equal ▸ same)⟩, same⟩

theorem get_put [StoreOrder κ] {t : Table key} {v : ν} {k : κ} :
    (t.put v).get k = if key v = k then some v else t.get k := by
  split
  · rename_i same
    exact same ▸ t.get_put_same v
  · rename_i other
    exact t.get_put_other v k other

theorem get_delete {t : Table key} {k l : κ} :
    (t.delete k).get l = if k = l then none else t.get l := by
  split
  · rename_i same
    subst same
    rw [get_none_iff]
    intro v member
    exact ((t.mem_delete k v).mp member).2
  · rename_i other
    ext x
    rw [get_some_iff, get_some_iff, mem_delete]
    constructor
    · rintro ⟨⟨member, _⟩, same⟩
      exact ⟨member, same⟩
    · rintro ⟨member, same⟩
      exact ⟨⟨member, fun equal => other (equal.symm.trans same)⟩, same⟩

theorem rows_perm_found (t : Table key) (k : κ) (v : ν) (found : t.get k = some v) :
    t.rows.Perm (v :: (t.delete k).rows) := by
  obtain ⟨member, same⟩ := (t.get_some_iff k v).mp found
  subst same
  have self : t.rows.map (fun r => if key r = key v then v else r) = t.rows := by
    conv => rhs; rw [← List.map_id t.rows]
    refine List.map_congr_left ?_
    intro r other
    split
    · rename_i equal
      exact List.inj_on_of_nodup_map t.distinct member other equal.symm
    · rfl
  have replaced := replaced_perm t.distinct (List.mem_map_of_mem member)
  rw [self] at replaced
  exact replaced

section Counting
variable (p : ν → Bool)

theorem countP_put_new [StoreOrder κ] {t : Table key} {v : ν} (fresh : t.get (key v) = none) :
    (t.put v).rows.countP p = t.rows.countP p + (if p v then 1 else 0) := by
  have untouched : (t.delete (key v)).rows = t.rows := by
    refine List.filter_eq_self.mpr ?_
    intro r member
    simpa using (t.get_none_iff (key v)).mp fresh r member
  rw [(t.put_perm v).countP_eq, untouched, List.countP_cons]

theorem countP_delete (t : Table key) (k : κ) (v : ν) (found : t.get k = some v) :
    (t.delete k).rows.countP p + (if p v then 1 else 0) = t.rows.countP p := by
  rw [(t.rows_perm_found k v found).countP_eq, List.countP_cons]

theorem countP_replace [StoreOrder κ] {t : Table key} {u v : ν} (found : t.get (key v) = some u)
    (same : p v = p u) : (t.put v).rows.countP p = t.rows.countP p := by
  rw [(t.put_perm v).countP_eq, List.countP_cons, same, countP_delete p t (key v) u found]

end Counting

section Totals
variable [AddCommMonoid M]

def total (f : ν → M) (t : Table key) : M := (t.rows.map f).sum

/-- What the row of a key adds to a total, nothing if there is no such row. -/
def valueAt (f : ν → M) (t : Table key) (k : κ) : M := ((t.get k).map f).getD 0

theorem valueAt_put [StoreOrder κ] (f : ν → M) (t : Table key) (v : ν) (k : κ) :
    valueAt f (t.put v) k = if key v = k then f v else valueAt f t k := by
  simp only [valueAt, get_put]
  split <;> rfl

theorem total_delete (f : ν → M) (t : Table key) (k : κ) :
    total f (t.delete k) + valueAt f t k = total f t := by
  cases found : t.get k with
  | none =>
    have all : (t.delete k).rows = t.rows := by
      refine List.filter_eq_self.mpr ?_
      intro v member
      simpa using (t.get_none_iff k).mp found v member
    simp [total, valueAt, found, all]
  | some v =>
    have sum := ((t.rows_perm_found k v found).map f).sum_eq
    simp only [total, valueAt, found, Option.map_some, Option.getD_some, sum, List.map_cons,
      List.sum_cons]
    exact add_comm _ _

theorem total_put [StoreOrder κ] (f : ν → M) (t : Table key) (v : ν) :
    total f (t.put v) + valueAt f t (key v) = total f t + f v := by
  have sum := ((t.put_perm v).map f).sum_eq
  rw [← total_delete f t (key v)]
  simp only [total, sum, List.map_cons, List.sum_cons]
  abel

theorem total_congr (f g : ν → M) (t u : Table key)
    (same : ∀ k, (t.get k).map f = (u.get k).map g) : total f t = total g u := by
  obtain ⟨n, size⟩ : ∃ n, t.rows.length = n := ⟨_, rfl⟩
  induction n generalizing t u with
  | zero =>
    have none : t.rows = [] := List.eq_nil_of_length_eq_zero size
    have others : u.rows = [] := by
      refine List.eq_nil_iff_forall_not_mem.mpr ?_
      intro v member
      have found : u.get (key v) = some v := (u.get_some_iff _ v).mpr ⟨member, rfl⟩
      have missing : t.get (key v) = .none := (t.get_none_iff _).mpr (by simp [none])
      simpa [found, missing] using same (key v)
    simp [total, none, others]
  | succ n ih =>
    obtain ⟨v, rest, rows⟩ := List.exists_cons_of_length_eq_add_one size
    have found : t.get (key v) = some v := (t.get_some_iff _ v).mpr ⟨by simp [rows], rfl⟩
    have value : valueAt f t (key v) = valueAt g u (key v) := by simp [valueAt, same (key v)]
    have smaller : (t.delete (key v)).rows.length = n := by
      have length := (t.rows_perm_found _ v found).length_eq
      simp only [List.length_cons] at length
      omega
    have deleted : total f (t.delete (key v)) = total g (u.delete (key v)) := by
      refine ih _ _ ?_ smaller
      intro k
      rw [get_delete, get_delete]
      split
      · rfl
      · exact same k
    rw [← total_delete f t (key v), ← total_delete g u (key v), deleted, value]

theorem total_update (f : ν → M) (t u : Table key) (k : κ)
    (same : ∀ l, k ≠ l → (t.get l).map f = (u.get l).map f) :
    total f u + valueAt f t k = total f t + valueAt f u k := by
  have deleted : total f (t.delete k) = total f (u.delete k) := by
    refine total_congr f f _ _ ?_
    intro l
    rw [get_delete, get_delete]
    split
    · rfl
    · rename_i other
      exact same l other
  rw [← total_delete f t k, ← total_delete f u k, deleted]
  abel

end Totals

def putAll [StoreOrder κ] (t : Table key) (rows : List ν) : Table key := rows.foldl put t

theorem mem_putAll [StoreOrder κ] (t : Table key) {rows : List ν} (distinct : (rows.map key).Nodup) (x : ν) :
    x ∈ (t.putAll rows).rows ↔ x ∈ rows ∨ (x ∈ t.rows ∧ key x ∉ rows.map key) := by
  induction rows generalizing t with
  | nil => simp [putAll]
  | cons v rest ih =>
    rw [List.map_cons, List.nodup_cons] at distinct
    have step := ih (t.put v) distinct.2
    rw [putAll, List.foldl_cons, ← putAll, step, mem_put]
    simp only [List.mem_cons, List.map_cons, not_or]
    constructor
    · intro member
      rcases member with later | ⟨same | ⟨old, apart⟩, absent⟩
      · exact Or.inl (Or.inr later)
      · exact Or.inl (Or.inl same)
      · exact Or.inr ⟨old, apart, absent⟩
    · intro member
      rcases member with (same | later) | ⟨old, apart, absent⟩
      · subst same
        exact Or.inr ⟨Or.inl rfl, distinct.1⟩
      · exact Or.inl later
      · exact Or.inr ⟨Or.inr ⟨old, apart⟩, absent⟩

theorem mem_reload [StoreOrder κ] {rows : List ν} (distinct : (rows.map key).Nodup) (x : ν) :
    x ∈ ((empty : Table key).putAll rows).rows ↔ x ∈ rows := by
  rw [mem_putAll empty distinct]
  simp [empty]

theorem get_congr (t u : Table key) (same : ∀ v, v ∈ t.rows ↔ v ∈ u.rows) (k : κ) : t.get k = u.get k := by
  ext v
  rw [get_some_iff, get_some_iff, same]

theorem mem_congr {t u : Table key} (same : ∀ k, t.get k = u.get k) {v : ν} : v ∈ t.rows ↔ v ∈ u.rows := by
  have left := t.get_some_iff (key v) v
  have right := u.get_some_iff (key v) v
  rw [same (key v)] at left
  simp only [and_true] at left right
  exact left.symm.trans right

theorem get_reload_iff [StoreOrder κ] {t : Table key} {rows : List ν} (some : rows.Sublist t.rows) :
    (∀ k, t.get k = ((empty : Table key).putAll rows).get k) ↔ rows = t.rows := by
  have distinct : (rows.map key).Nodup := t.distinct.sublist (some.map key)
  constructor
  · intro same
    apply some.eq_of_length_le
    have whole : t.rows.Nodup := List.Nodup.of_map key t.distinct
    have subset : t.rows ⊆ rows := by
      intro v member
      exact (mem_reload distinct v).mp ((mem_congr same).mp member)
    exact (List.subperm_of_subset whole subset).length_le
  · intro all k
    apply get_congr
    intro v
    rw [mem_reload distinct, all]

end Table
end KeyedTable
