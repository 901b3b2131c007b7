import Mathlib.Data.List.Induction
import FuryNode.Sdk.Chain

/-!
The relayer's table between denominations of the chain and symbols on Ethereum: a bidirectional
map, filled from a JSON object in whatever order Go visits it, and the identity on everything it
does not hold. The map is third-party code, known by what an insertion of a new key does.
-/
namespace FuryNode

/-- The bidirectional map. A key that is not held yet is inserted in both directions, and in the
    inverse one it takes over the value. -/
structure BiMapLibrary (M : Type) where
  newBiMap : M
  insert : M → String → String → M
  get : M → String → Option String
  getInverse : M → String → Option String
  get_new : ∀ k, get newBiMap k = none
  getInverse_new : ∀ v, getInverse newBiMap v = none
  get_insert : ∀ m k v j, get m k = none → get (insert m k v) j = if j = k then some v else get m j
  getInverse_insert : ∀ m k v u, get m k = none →
    getInverse (insert m k v) u = if u = v then some k else getInverse m u

/-- The JSON object as `json.Unmarshal` leaves it: one symbol for each denomination. -/
structure SymbolTable where
  entries : List (String × String)
  distinct : (entries.map Prod.fst).Nodup

namespace SymbolTranslator
variable {M : Type} (lib : BiMapLibrary M)

/-- `NewSymbolTranslatorFromJSONBytes` after the object was read. -/
def newSymbolTranslator (order : MapOrder) (table : SymbolTable) : M :=
  (order.arrange table.entries).foldl (fun m e => lib.insert m e.1 e.2) lib.newBiMap

def getWithDefault (m : M) (k defaultValue : String) : String := (lib.get m k).getD defaultValue

def getInverseWithDefault (m : M) (v defaultValue : String) : String :=
  (lib.getInverse m v).getD defaultValue

def furynetToEthereum (m : M) (denom : String) : String := getWithDefault lib m denom denom

def ethereumToFurynet (m : M) (symbol : String) : String := getInverseWithDefault lib m symbol symbol

theorem last_missing {rest : List (String × String)} {e : String × String}
    (distinct : ((rest ++ [e]).map Prod.fst).Nodup) :
    (rest.map Prod.fst).Nodup ∧ rest.find? (fun d => d.1 = e.1) = none := by
  rw [List.map_append, List.nodup_append] at distinct
  obtain ⟨earlier, _, apart⟩ := distinct
  refine ⟨earlier, List.find?_eq_none.mpr fun d member => ?_⟩
  simpa using apart d.1 (List.mem_map_of_mem member) e.1 (by simp)

theorem get_filled {entries : List (String × String)} (distinct : (entries.map Prod.fst).Nodup) (k : String) :
    lib.get (entries.foldl (fun m e => lib.insert m e.1 e.2) lib.newBiMap) k =
      (entries.find? (fun e => e.1 = k)).map Prod.snd := by
  -- entries are taken off the end, where the last insertion is
  induction entries using List.reverseRecOn generalizing k with
  | nil => exact lib.get_new k
  | append_singleton rest e ih =>
    obtain ⟨earlier, missing⟩ := last_missing distinct
    have fresh : lib.get (rest.foldl (fun m e => lib.insert m e.1 e.2) lib.newBiMap) e.1 = none := by
      rw [ih earlier, missing, Option.map_none]
    rw [List.foldl_concat, lib.get_insert _ _ _ _ fresh, List.find?_append]
    by_cases here : k = e.1
    · rw [if_pos here, here, missing]
      simp
    · rw [if_neg here, ih earlier]
      have missed : [e].find? (fun d => d.1 = k) = none := by
        simp [Ne.symm here]
      rw [missed, Option.or_none]

theorem getInverse_filled (entries : List (String × String)) (distinct : (entries.map Prod.fst).Nodup)
    (v : String) :
    lib.getInverse (entries.foldl (fun m e => lib.insert m e.1 e.2) lib.newBiMap) v =
      (entries.reverse.find? (fun e => e.2 = v)).map Prod.fst := by
  induction entries using List.reverseRecOn with
  | nil => exact lib.getInverse_new v
  | append_singleton rest e ih =>
    obtain ⟨earlier, missing⟩ := last_missing distinct
    have fresh : lib.get (rest.foldl (fun m e => lib.insert m e.1 e.2) lib.newBiMap) e.1 = none := by
      rw [get_filled lib earlier, missing, Option.map_none]
    rw [List.foldl_concat, lib.getInverse_insert _ _ _ _ fresh, List.reverse_concat, List.find?_cons]
    by_cases here : v = e.2
    · simp [here]
    · rw [if_neg here, ih earlier]
      simp [Ne.symm here]

section Orders
variable (table : SymbolTable)

def symbolOf (denom : String) : String :=
  ((table.entries.find? (fun e => e.1 = denom)).map Prod.snd).getD denom

def OwnSymbol (denom : String) : Prop :=
  ∀ e ∈ table.entries, e.2 = symbolOf table denom → e.1 = denom

instance (denom : String) : Decidable (OwnSymbol table denom) :=
  inferInstanceAs (Decidable (∀ e ∈ table.entries, _))

theorem entry_unique {d e : String × String} (first : d ∈ table.entries) (second : e ∈ table.entries)
    (same : d.1 = e.1) : d = e :=
  List.inj_on_of_nodup_map table.distinct first second same

theorem symbolOf_cases (denom : String) :
    (∃ e ∈ table.entries, e.1 = denom ∧ symbolOf table denom = e.2) ∨ symbolOf table denom = denom := by
  unfold symbolOf
  cases found : table.entries.find? (fun e => e.1 = denom) with
  | none => exact Or.inr rfl
  | some e => exact Or.inl ⟨e, List.mem_of_find?_eq_some found, by simpa using List.find?_some found, rfl⟩

theorem symbolOf_entry {e : String × String} (member : e ∈ table.entries) : symbolOf table e.1 = e.2 := by
  unfold symbolOf
  cases found : table.entries.find? (fun d => d.1 = e.1) with
  | none =>
    rw [List.find?_eq_none] at found
    exact absurd (by simp) (found e member)
  | some d =>
    have named : d.1 = e.1 := by simpa using List.find?_some found
    rw [entry_unique table (List.mem_of_find?_eq_some found) member named]
    rfl

theorem symbolOf_injective : Function.Injective (symbolOf table) ↔ ∀ denom, OwnSymbol table denom := by
  constructor
  · intro injective denom e member same
    apply injective
    rw [symbolOf_entry table member, same]
  · intro own a b same
    rcases symbolOf_cases table a with ⟨e, member, named, value⟩ | plain
    · rw [← named]
      exact own b e member (value.symm.trans same)
    · rcases symbolOf_cases table b with ⟨e, member, named, value⟩ | other
      · rw [← named]
        exact (own a e member (value.symm.trans same.symm)).symm
      · rw [← plain, same, other]

variable (order : MapOrder)

theorem arranged_distinct : ((order.arrange table.entries).map Prod.fst).Nodup :=
  ((order.perm table.entries).map Prod.fst).nodup_iff.mpr table.distinct

theorem furynetToEthereum_symbol (denom : String) :
    furynetToEthereum lib (newSymbolTranslator lib order table) denom = symbolOf table denom := by
  unfold furynetToEthereum getWithDefault newSymbolTranslator symbolOf
  rw [get_filled lib (arranged_distinct table order)]
  have members := order.perm table.entries
  cases found : table.entries.find? (fun e => e.1 = denom) with
  | none =>
    have none : (order.arrange table.entries).find? (fun e => e.1 = denom) = none := by
      rw [List.find?_eq_none] at found ⊢
      intro e member
      exact found e (members.mem_iff.mp member)
    rw [none]
  | some e =>
    have listed := List.mem_of_find?_eq_some found
    have named : e.1 = denom := by simpa using List.find?_some found
    cases other : (order.arrange table.entries).find? (fun e => e.1 = denom) with
    | none =>
      rw [List.find?_eq_none] at other
      exact absurd (by simpa using named) (other e (members.mem_iff.mpr listed))
    | some d =>
      have here : d.1 = denom := by simpa using List.find?_some other
      have there := members.mem_iff.mp (List.mem_of_find?_eq_some other)
      rw [entry_unique table there listed (here.trans named.symm)]

theorem ethereumToFurynet_cases (symbol : String) :
    (∃ e ∈ table.entries, e.2 = symbol ∧
      ethereumToFurynet lib (newSymbolTranslator lib order table) symbol = e.1) ∨
    ((∀ e ∈ table.entries, e.2 ≠ symbol) ∧
      ethereumToFurynet lib (newSymbolTranslator lib order table) symbol = symbol) := by
  unfold ethereumToFurynet getInverseWithDefault newSymbolTranslator
  rw [getInverse_filled lib _ (arranged_distinct table order)]
  have members := order.perm table.entries
  cases found : (order.arrange table.entries).reverse.find? (fun e => e.2 = symbol) with
  | none =>
    right
    refine ⟨?_, rfl⟩
    intro e member same
    rw [List.find?_eq_none] at found
    exact found e (List.mem_reverse.mpr (members.mem_iff.mpr member)) (by simpa using same)
  | some e =>
    left
    have listed := List.mem_reverse.mp (List.mem_of_find?_eq_some found)
    exact ⟨e, members.mem_iff.mp listed, by simpa using List.find?_some found, rfl⟩

def backwards : MapOrder := ⟨List.reverse, fun entries => entries.reverse_perm⟩

theorem only_hit {α : Type} {p : α → Bool} {xs : List α} (distinct : xs.Nodup)
    (same : xs.find? p = xs.reverse.find? p) {x : α} (member : x ∈ xs) (hit : p x = true) :
    xs.find? p = some x := by
  induction xs with
  | nil => cases member
  | cons a rest ih =>
    obtain ⟨fresh, later⟩ := List.nodup_cons.mp distinct
    rw [List.reverse_cons, List.find?_append] at same
    by_cases first : p a = true
    · rw [List.find?_cons_of_pos first] at same ⊢
      rcases List.mem_cons.mp member with here | there
      · rw [here]
      · -- a hit further on would be found first from the other end
        cases found : rest.reverse.find? p with
        | none =>
          rw [List.find?_eq_none] at found
          exact absurd hit (found x (List.mem_reverse.mpr there))
        | some b =>
          rw [found, Option.some_or] at same
          have listed := List.mem_reverse.mp (List.mem_of_find?_eq_some found)
          exact absurd (Option.some.inj same ▸ listed) fresh
    · rw [List.find?_cons_of_neg first] at same ⊢
      rw [List.find?_cons_of_neg first, List.find?_nil, Option.or_none] at same
      rcases List.mem_cons.mp member with here | there
      · rw [here] at hit
        exact absurd hit first
      · exact ih later same there

/-- Where two orders agree on a symbol, only one entry has it. -/
theorem symbol_unique {symbol : String}
    (agree : ethereumToFurynet lib (newSymbolTranslator lib .asWritten table) symbol =
      ethereumToFurynet lib (newSymbolTranslator lib backwards table) symbol)
    {d e : String × String} (first : d ∈ table.entries) (second : e ∈ table.entries)
    (here : d.2 = symbol) (there : e.2 = symbol) : d = e := by
  have forward := getInverse_filled lib table.entries table.distinct symbol
  have backward := getInverse_filled lib table.entries.reverse (arranged_distinct table backwards) symbol
  rw [List.reverse_reverse] at backward
  have same : table.entries.find? (fun x => x.2 = symbol) =
      table.entries.reverse.find? (fun x => x.2 = symbol) := by
    unfold ethereumToFurynet getInverseWithDefault newSymbolTranslator at agree
    change (lib.getInverse (table.entries.foldl _ _) symbol).getD symbol =
      (lib.getInverse (table.entries.reverse.foldl _ _) symbol).getD symbol at agree
    rw [forward, backward] at agree
    cases last : table.entries.reverse.find? (fun x => x.2 = symbol) with
    | none =>
      rw [List.find?_eq_none] at last
      exact absurd (by simpa using here) (last d (List.mem_reverse.mpr first))
    | some x =>
      cases start : table.entries.find? (fun x => x.2 = symbol) with
      | none =>
        rw [List.find?_eq_none] at start
        exact absurd (by simpa using here) (start d first)
      | some y =>
        rw [last, start] at agree
        have listed := List.mem_reverse.mp (List.mem_of_find?_eq_some last)
        rw [entry_unique table (List.mem_of_find?_eq_some start) listed agree.symm]
  have once := List.Nodup.of_map _ table.distinct
  have left := only_hit once same first (by simpa using here)
  have right := only_hit once same second (by simpa using there)
  exact Option.some.inj (left.symm.trans right)

end Orders

theorem round_trip_iff {M : Type} (lib : BiMapLibrary M) (table : SymbolTable) (denom : String) :
    (∀ order, ethereumToFurynet lib (newSymbolTranslator lib order table)
      (furynetToEthereum lib (newSymbolTranslator lib order table) denom) = denom) ↔
      OwnSymbol table denom := by
  constructor
  · intro returns e member same
    have forward := returns .asWritten
    have backward := returns backwards
    rw [furynetToEthereum_symbol] at forward backward
    rcases ethereumToFurynet_cases lib table .asWritten (symbolOf table denom) with found | ⟨none, _⟩
    · obtain ⟨d, listed, here, value⟩ := found
      have unique := symbol_unique lib table (forward.trans backward.symm) listed member here same
      rw [← unique, ← value]
      exact forward
    · exact absurd same (none e member)
  · intro own order
    rw [furynetToEthereum_symbol]
    rcases ethereumToFurynet_cases lib table order (symbolOf table denom) with found | ⟨none, value⟩
    · obtain ⟨e, listed, here, value⟩ := found
      rw [value]
      exact own e listed here
    · -- nothing has this symbol, so the denomination is not in the table either
      rw [value]
      rcases symbolOf_cases table denom with ⟨e, member, _, held⟩ | plain
      · exact absurd held.symm (none e member)
      · exact plain

theorem backward_order_iff {M : Type} (lib : BiMapLibrary M) (table : SymbolTable) :
    (∀ order order' symbol, ethereumToFurynet lib (newSymbolTranslator lib order table) symbol =
      ethereumToFurynet lib (newSymbolTranslator lib order' table) symbol) ↔
      (table.entries.map Prod.snd).Nodup := by
  have once := List.Nodup.of_map _ table.distinct
  constructor
  · intro agree
    apply once.map_on
    intro d first e second same
    exact symbol_unique lib table (agree .asWritten backwards e.2) first second same rfl
  · intro distinct order order' symbol
    rcases ethereumToFurynet_cases lib table order symbol with ⟨d, first, here, value⟩ | ⟨none, value⟩
    · rcases ethereumToFurynet_cases lib table order' symbol with ⟨e, second, there, other⟩ | ⟨none, _⟩
      · rw [value, other, List.inj_on_of_nodup_map distinct first second (here.trans there.symm)]
      · exact absurd here (none d first)
    · rcases ethereumToFurynet_cases lib table order' symbol with ⟨e, second, there, _⟩ | ⟨_, other⟩
      · exact absurd there (none e second)
      · rw [value, other]

/-- A denomination comes back in every order exactly if no other one of the table has its symbol.
    The way to Ethereum never depends on the order, the way back does unless the symbols of the
    table are distinct, and denominations share no symbol exactly if all of them come back. -/
theorem symbol_translation {M : Type} (lib : BiMapLibrary M) (table : SymbolTable) :
    (∀ denom, (∀ order, ethereumToFurynet lib (newSymbolTranslator lib order table)
      (furynetToEthereum lib (newSymbolTranslator lib order table) denom) = denom) ↔
        OwnSymbol table denom) ∧
    (∀ order, Function.Injective (furynetToEthereum lib (newSymbolTranslator lib order table)) ↔
      ∀ denom, OwnSymbol table denom) ∧
    (∀ order order' denom, furynetToEthereum lib (newSymbolTranslator lib order table) denom =
      furynetToEthereum lib (newSymbolTranslator lib order' table) denom) ∧
    ((∀ order order' symbol, ethereumToFurynet lib (newSymbolTranslator lib order table) symbol =
      ethereumToFurynet lib (newSymbolTranslator lib order' table) symbol) ↔
        (table.entries.map Prod.snd).Nodup) := by
  refine ⟨round_trip_iff lib table, ?_, ?_, backward_order_iff lib table⟩
  · intro order
    rw [funext (furynetToEthereum_symbol lib table order)]
    exact symbolOf_injective table
  · intro order order' denom
    rw [furynetToEthereum_symbol, furynetToEthereum_symbol]

def plainBiMap : BiMapLibrary ((String → Option String) × (String → Option String)) where
  newBiMap := (fun _ => none, fun _ => none)
  insert m k v := (fun j => if j = k then some v else m.1 j, fun u => if u = v then some k else m.2 u)
  get m k := m.1 k
  getInverse m v := m.2 v
  get_new _ := rfl
  getInverse_new _ := rfl
  get_insert _ _ _ _ _ := rfl
  getInverse_insert _ _ _ _ _ := rfl

def faceTable : SymbolTable := ⟨[("ibc/FEEDFACE", "Face")], by decide⟩

def sharedTable : SymbolTable := ⟨[("cusdc", "USD"), ("cusdt", "USD")], by decide⟩

/-- A denomination that is spelled like a symbol of the table comes back as another one and shares
    its symbol, and where two denominations share one, the order decides which of them comes back. -/
theorem symbol_taken :
    ethereumToFurynet plainBiMap (newSymbolTranslator plainBiMap .asWritten faceTable)
      (furynetToEthereum plainBiMap (newSymbolTranslator plainBiMap .asWritten faceTable) "Face") ≠ "Face" ∧
    furynetToEthereum plainBiMap (newSymbolTranslator plainBiMap .asWritten faceTable) "Face" =
      furynetToEthereum plainBiMap (newSymbolTranslator plainBiMap .asWritten faceTable) "ibc/FEEDFACE" ∧
    ethereumToFurynet plainBiMap (newSymbolTranslator plainBiMap .asWritten sharedTable)
      (furynetToEthereum plainBiMap (newSymbolTranslator plainBiMap .asWritten sharedTable) "cusdc") ≠ "cusdc" ∧
    ethereumToFurynet plainBiMap (newSymbolTranslator plainBiMap .asWritten sharedTable) "USD" ≠
      ethereumToFurynet plainBiMap (newSymbolTranslator plainBiMap backwards sharedTable) "USD" := by
  decide +kernel

end SymbolTranslator
end FuryNode
