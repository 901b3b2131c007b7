import Mathlib.Data.List.Sort
import Mathlib.Algebra.BigOperators.Group.List.Basic
import FuryNode.Library.KeyedTable
import FuryNode.Sdk.Numbers

/-!
What the modules use of the SDK besides arithmetic: coins, the bank, addresses
and denominations. The bank is a parameter. Its state is arbitrary, so it may
refuse any transfer, and only the documented effect of a call that succeeds is
assumed.
-/
namespace FuryNode
open StatefulProgram

structure AccAddress where
  bytes : List UInt8
  deriving DecidableEq, Repr

structure Coin where
  denom : String
  amount : ℕ
  deriving DecidableEq, Repr

abbrev Coins := List Coin

def amountOf (coins : Coins) (denom : String) : ℕ :=
  (coins.map (fun c => if c.denom = denom then c.amount else 0)).sum

namespace Coins

/-- `Coins.Add` of one coin: amounts of one denomination are merged, zeros dropped. -/
def add (coins : Coins) (c : Coin) : Fallible Coins :=
  if c.amount = 0 then .ok coins
  else match coins.find? (fun d => d.denom = c.denom) with
    | some d => do
        let merged ← Uint.add d.amount c.amount
        .ok (coins.map (fun e => if e.denom = c.denom then ⟨e.denom, merged⟩ else e))
    | none => .ok (coins.orderedInsert (fun a b => a.denom ≤ b.denom) c)

/-- `Coins.Add`. -/
def addAll (coins others : Coins) : Fallible Coins := others.foldlM add coins

/-- `coins[i]`. -/
def index (coins : Coins) (i : ℕ) : Fallible Coin :=
  match coins[i]? with
  | some c => .ok c
  | none => .error (.panic .indexOutOfRange)

end Coins

def sanitizeCoins (coins : List Coin) : Coins :=
  (coins.filter (fun c => c.amount ≠ 0)).insertionSort (fun a b => a.denom ≤ b.denom)

/-- `sdk.NewCoins`. -/
def newCoins (coins : List Coin) : Fallible Coins :=
  if ((sanitizeCoins coins).map Coin.denom).Nodup then .ok (sanitizeCoins coins)
  else .error (.panic .duplicateDenom)

inductive BankFailure where
  | refused
  | panicked
  deriving DecidableEq, Repr

def BankFailure.toFailure : BankFailure → Failure
  | .refused => .err .errBankRefused
  | .panicked => .panic .bankPanicked

/-- `amt` leaves `sender` and reaches `recipient`; nothing else moves. -/
def Moves (before after : AccAddress → String → ℕ) (sender recipient : AccAddress)
    (amt : String → ℕ) : Prop :=
  ∀ a d, after a d + (if a = sender then amt d else 0) =
    before a d + (if a = recipient then amt d else 0)

structure BankKeeper (β : Type) where
  moduleAddress : String → AccAddress
  burners : List String
  getBalance : β → AccAddress → String → ℕ
  sendCoinsFromModuleToAccount : β → String → AccAddress → Coins → Except BankFailure β
  sendCoinsFromAccountToModule : β → AccAddress → String → Coins → Except BankFailure β
  mintCoins : β → String → Coins → Except BankFailure β
  burnCoins : β → String → Coins → Except BankFailure β
  fromModule_moves : ∀ b b' senderModule recipient amt,
    sendCoinsFromModuleToAccount b senderModule recipient amt = .ok b' →
      Moves (getBalance b) (getBalance b') (moduleAddress senderModule) recipient (amountOf amt)
  toModule_moves : ∀ b b' sender recipientModule amt,
    sendCoinsFromAccountToModule b sender recipientModule amt = .ok b' →
      Moves (getBalance b) (getBalance b') sender (moduleAddress recipientModule) (amountOf amt)
  /-- Module accounts are blocked recipients. -/
  fromModule_blocked : ∀ b b' senderModule recipientModule amt,
    sendCoinsFromModuleToAccount b senderModule (moduleAddress recipientModule) amt ≠ .ok b'
  mint_adds : ∀ b b' moduleName amt, mintCoins b moduleName amt = .ok b' → ∀ a d,
    getBalance b' a d =
      getBalance b a d + (if a = moduleAddress moduleName then amountOf amt d else 0)
  burn_removes : ∀ b b' moduleName amt, burnCoins b moduleName amt = .ok b' → ∀ a d,
    getBalance b' a d + (if a = moduleAddress moduleName then amountOf amt d else 0) =
      getBalance b a d
  burn_succeeds : ∀ b moduleName amt, moduleName ∈ burners →
    (∀ d, amountOf amt d ≤ getBalance b (moduleAddress moduleName) d) →
      ∃ b', burnCoins b moduleName amt = .ok b'

/-- `ModuleName` of x/clp, the account that holds the coins of all pools. -/
def clpModuleName : String := "clp"

/-- `NativeSymbol`, and `GetSettlementAsset` of both modules. -/
def nativeSymbol : String := "fury"

structure Env (β : Type) where
  bank : BankKeeper β
  accAddressFromBech32 : String → Option AccAddress
  addressString : AccAddress → String
  validateDenom : String → Bool
  /-- Some key signs for the address. -/
  canSign : AccAddress → Bool
  /-- `Dec.MustFloat64`, the float64 read back as a rational. -/
  mustFloat64 : Dec → ℚ
  /-- `math.Pow(math.E, -1 * rate * blocks)`, formatted and read back as a decimal. -/
  decay : Dec → ℤ → Dec
  decode_string : ∀ s a, accAddressFromBech32 s = some a →
    accAddressFromBech32 (addressString a) = some a
  module_cannot_sign : ∀ moduleName, canSign (bank.moduleAddress moduleName) = false
  native_denom : validateDenom nativeSymbol = true
  float_nonneg : ∀ d, 0 ≤ d.raw → 0 ≤ mustFloat64 d
  clp_burner : clpModuleName ∈ bank.burners

variable {β : Type} (env : Env β)

/-- `sdk.NewCoin`. -/
def newCoin (env : Env β) (denom : String) (amount : ℕ) : Fallible Coin :=
  if env.validateDenom denom then .ok ⟨denom, amount⟩ else .error (.panic .invalidDenom)

/-- `Coins.IsValid`: proper denominations in strictly ascending order, no zero. -/
def Coins.isValid (env : Env β) (coins : Coins) : Bool :=
  coins.all (fun c => env.validateDenom c.denom && decide (0 < c.amount)) &&
    decide ((coins.map Coin.denom).Pairwise (· < ·))

/-- `Coins.IsAllPositive`. -/
def Coins.isAllPositive (coins : Coins) : Bool :=
  !coins.isEmpty && coins.all (fun c => decide (0 < c.amount))

/-- `k.ParseToInt` on the digits of a `Uint`. -/
def parseToInt (n : ℕ) : Fallible ℕ :=
  if n < 2 ^ 256 then .ok n else .error (.err .errUnableToParseInt)

def moduleAddress (env : Env β) : AccAddress := env.bank.moduleAddress clpModuleName

def decodeAddress (env : Env β) (s : String) : Fallible AccAddress :=
  match env.accAddressFromBech32 s with
  | some a => .ok a
  | none => .error (.err .errInvalidAddress)

/-- `GetSigners`, which panics on a malformed address. -/
def getSigner (env : Env β) (s : String) : Fallible AccAddress :=
  match env.accAddressFromBech32 s with
  | some a => .ok a
  | none => .error (.panic .invalidAddress)

/-- `unicode.IsSpace`. -/
def isSpace (c : Char) : Bool :=
  c.toNat ∈ [0x09, 0x0a, 0x0b, 0x0c, 0x0d, 0x20, 0x85, 0xa0, 0x1680, 0x2028, 0x2029, 0x202f,
    0x205f, 0x3000] || (0x2000 ≤ c.toNat && c.toNat ≤ 0x200a)

/-- `strings.TrimSpace`. -/
def trimSpace (s : String) : String :=
  String.ofList (((s.toList.dropWhile isSpace).reverse.dropWhile isSpace).reverse)

def maxSymbolLength : ℕ := 71

def verifyRange (num low high : ℕ) : Bool := low < num && num < high

/-- `Asset.Validate`: the coin built on the way panics on a malformed denomination. -/
def assetValidate (env : Env β) (symbol : String) : Fallible Bool :=
  if verifyRange (trimSpace symbol).utf8ByteSize 0 maxSymbolLength then
    (newCoin env symbol 1).map (fun _ => true)
  else .ok false

/-- The order in which one `range` over a map visits its entries. -/
structure MapOrder where
  arrange : {α : Type} → List α → List α
  perm : ∀ {α : Type} (entries : List α), (arrange entries).Perm entries

def MapOrder.asWritten : MapOrder := ⟨fun entries => entries, fun _ => List.Perm.refl _⟩

instance : KeyedTable.StoreOrder String := ⟨fun a b => decide (a ≤ b)⟩

def int64 (n : ℕ) : ℤ := Int.bmod n (2 ^ 64)
def wrapInt64 (i : ℤ) : ℤ := Int.bmod i (2 ^ 64)
def uint64OfInt (i : ℤ) : ℕ := (i % 2 ^ 64).toNat

theorem wrapInt64_of_range (i : ℤ) (low : -2 ^ 63 ≤ i) (high : i < 2 ^ 63) : wrapInt64 i = i := by
  unfold wrapInt64
  rw [Int.bmod_eq_of_le]
  · omega
  · omega

theorem int64_of_lt (n : ℕ) (small : n < 2 ^ 63) : int64 n = n :=
  wrapInt64_of_range n (by omega) (by omega)

theorem uint64OfInt_small (i : ℤ) (nonneg : 0 ≤ i) (small : i < 2 ^ 64) : uint64OfInt i = i.toNat := by
  rw [uint64OfInt, Int.emod_eq_of_lt nonneg small]

theorem amountOf_nil (d : String) : amountOf [] d = 0 := rfl

theorem amountOf_cons (c : Coin) (coins : Coins) (d : String) :
    amountOf (c :: coins) d = (if c.denom = d then c.amount else 0) + amountOf coins d := by
  simp [amountOf]

theorem amountOf_perm {cs ds : Coins} (same : cs.Perm ds) (d : String) :
    amountOf cs d = amountOf ds d :=
  (same.map _).sum_eq

theorem amountOf_filter_nonzero (cs : Coins) (d : String) :
    amountOf (cs.filter (fun c => c.amount ≠ 0)) d = amountOf cs d := by
  induction cs with
  | nil => rfl
  | cons c rest ih =>
    by_cases zero : c.amount = 0
    · rw [List.filter_cons_of_neg (by simpa using zero), ih, amountOf_cons, zero]
      simp
    · rw [List.filter_cons_of_pos (by simpa using zero), amountOf_cons, amountOf_cons, ih]

theorem newCoins_amounts (cs coins : Coins) (made : newCoins cs = .ok coins) (d : String) :
    amountOf coins d = amountOf cs d := by
  unfold newCoins at made
  split at made
  · cases made
    rw [sanitizeCoins, amountOf_perm (List.perm_insertionSort _ _), amountOf_filter_nonzero]
  · cases made

theorem newCoin_succeeds (denom : String) (amount : ℕ) {c : Coin} :
    newCoin env denom amount = .ok c ↔ env.validateDenom denom = true ∧ c = ⟨denom, amount⟩ := by
  unfold newCoin
  split
  · rename_i valid
    simp only [Except.ok.injEq, valid, true_and]
    exact eq_comm
  · rename_i invalid
    simp only [reduceCtorEq, invalid, false_and]

theorem parseToInt_succeeds {n m : ℕ} : parseToInt n = .ok m ↔ n < 2 ^ 256 ∧ m = n := by
  unfold parseToInt
  split
  · rename_i small
    simp only [Except.ok.injEq, small, true_and, eq_comm]
  · rename_i large
    simp only [reduceCtorEq, large, false_and]

theorem decodeAddress_succeeds {s : String} {a : AccAddress} :
    decodeAddress env s = .ok a ↔ env.accAddressFromBech32 s = some a := by
  unfold decodeAddress
  split <;> simp_all

theorem getSigner_succeeds {s : String} {a : AccAddress} :
    getSigner env s = .ok a ↔ env.accAddressFromBech32 s = some a := by
  unfold getSigner
  split <;> simp_all

theorem amountOf_replaced {coins : Coins} {denom : String} (merged : ℕ)
    (distinct : (coins.map Coin.denom).Nodup) {old : Coin} (present : old ∈ coins)
    (same : old.denom = denom) (d : String) :
    amountOf (coins.map (fun e => if e.denom = denom then ⟨e.denom, merged⟩ else e)) d +
        (if denom = d then old.amount else 0) =
      amountOf coins d + (if denom = d then merged else 0) := by
  induction coins with
  | nil => simp at present
  | cons c rest ih =>
    simp only [List.map_cons, List.nodup_cons] at distinct
    rcases List.mem_cons.mp present with rfl | later
    · have others : rest.map (fun e => if e.denom = denom then ⟨e.denom, merged⟩ else e) = rest := by
        conv => rhs; rw [← List.map_id rest]
        refine List.map_congr_left ?_
        intro e member
        have other : e.denom ≠ denom := by
          intro equal
          exact distinct.1 (same ▸ equal ▸ List.mem_map_of_mem member)
        simp only [other, ↓reduceIte, id_eq]
      rw [List.map_cons, others]
      simp only [same, ↓reduceIte, amountOf_cons]
      split <;> omega
    · have other : c.denom ≠ denom := by
        intro equal
        exact distinct.1 (equal ▸ same ▸ List.mem_map_of_mem later)
      have tail := ih distinct.2 later
      simp only [List.map_cons, other, ↓reduceIte, amountOf_cons] at tail ⊢
      omega

theorem coins_add_amounts (coins result : Coins) (c : Coin)
    (distinct : (coins.map Coin.denom).Nodup) (added : Coins.add coins c = .ok result)
    (d : String) :
    amountOf result d = amountOf coins d + (if c.denom = d then c.amount else 0) := by
  unfold Coins.add at added
  by_cases zero : c.amount = 0
  · simp only [zero, ↓reduceIte, Except.ok.injEq] at added
    simp [added, zero]
  · simp only [zero, ↓reduceIte] at added
    cases found : coins.find? (fun d => d.denom = c.denom) with
    | none =>
      simp only [found, Except.ok.injEq] at added
      subst added
      rw [amountOf_perm (List.perm_orderedInsert _ _ _), amountOf_cons]
      exact Nat.add_comm _ _
    | some old =>
      simp only [found, except_bind_succeeds, Uint.add_succeeds, Except.ok.injEq] at added
      obtain ⟨merged, ⟨_, total⟩, rfl⟩ := added
      have same : old.denom = c.denom := by simpa using List.find?_some found
      have replaced := amountOf_replaced merged distinct (List.mem_of_find?_eq_some found) same d
      subst total
      split at replaced <;> simp_all; omega

theorem coins_add_distinct (coins result : Coins) (c : Coin)
    (distinct : (coins.map Coin.denom).Nodup) (added : Coins.add coins c = .ok result) :
    (result.map Coin.denom).Nodup := by
  unfold Coins.add at added
  by_cases zero : c.amount = 0
  · simp only [zero, ↓reduceIte, Except.ok.injEq] at added
    exact added ▸ distinct
  · simp only [zero, ↓reduceIte] at added
    cases found : coins.find? (fun d => d.denom = c.denom) with
    | none =>
      simp only [found, Except.ok.injEq] at added
      subst added
      rw [((List.perm_orderedInsert _ c coins).map Coin.denom).nodup_iff, List.map_cons,
        List.nodup_cons]
      refine ⟨?_, distinct⟩
      intro member
      obtain ⟨e, inside, equal⟩ := List.mem_map.mp member
      exact absurd equal (by simpa using List.find?_eq_none.mp found e inside)
    | some old =>
      simp only [found, except_bind_succeeds, Except.ok.injEq] at added
      obtain ⟨merged, _, rfl⟩ := added
      have denoms : (coins.map (fun e => if e.denom = c.denom then ⟨e.denom, merged⟩ else e)).map
          Coin.denom = coins.map Coin.denom := by
        rw [List.map_map]
        refine List.map_congr_left ?_
        intro e _
        simp only [Function.comp_apply]
        split <;> rfl
      exact denoms ▸ distinct

theorem coins_addAll_amounts (coins others result : Coins)
    (distinct : (coins.map Coin.denom).Nodup) (added : Coins.addAll coins others = .ok result) :
    (result.map Coin.denom).Nodup ∧ ∀ d, amountOf result d = amountOf coins d + amountOf others d := by
  unfold Coins.addAll at added
  induction others generalizing coins with
  | nil =>
    obtain rfl := except_pure_succeeds.mp added
    exact ⟨distinct, fun d => rfl⟩
  | cons c rest ih =>
    rw [List.foldlM_cons, except_bind_succeeds] at added
    obtain ⟨next, first, later⟩ := added
    obtain ⟨unique, amounts⟩ := ih next (coins_add_distinct coins next c distinct first) later
    refine ⟨unique, ?_⟩
    intro d
    rw [amounts d, coins_add_amounts coins next c distinct first d, amountOf_cons, Nat.add_assoc]

theorem isValid_distinct (coins : Coins) (valid : Coins.isValid env coins = true) :
    (coins.map Coin.denom).Nodup := by
  simp only [Coins.isValid, Bool.and_eq_true, decide_eq_true_eq] at valid
  refine List.Pairwise.imp ?_ valid.2
  intro a b ascending same
  exact String.lt_irrefl b (same ▸ ascending)

end FuryNode
