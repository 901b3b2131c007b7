import FuryNode.Library.EventRuns
import FuryNode.EthBridge.Relaying

/-!
The blacklist of Ethereum receivers. An administrator replaces the list as a whole, and a transfer
to a listed receiver is rejected. The list holds texts and is searched as such, whereas the
validation of a message and the relayer read a receiver as an address in hex digits.
-/
namespace FuryNode
open StatefulProgram StatefulProgram.Prog
variable {β : Type}

structure MsgSetBlacklist where
  sender : String
  addresses : List String
  deriving DecidableEq, Repr

inductive BlacklistErr where
  | errBech32
  | errNotAdminAccount
  deriving DecidableEq, Repr

namespace TransferKeeper

/-- The listed texts that a new list leaves out. The key of the empty text is just the name of the list
    and is passed over. -/
def removals (blacklist addresses : List String) : List String :=
  blacklist.filter (fun address => decide (address ≠ "" ∧ address ∉ addresses))

/-- `store.Set` of one key. -/
def listed (blacklist : List String) (address : String) : List String :=
  if address ∈ blacklist then blacklist else address :: blacklist

def replaceBlacklist (blacklist addresses : List String) : List String :=
  addresses.foldl listed
    ((removals blacklist addresses).foldl (fun left address => left.filter (· ≠ address)) blacklist)

def setBlacklist (env : TransferEnv β) (isAdminAccount : AccAddress → Bool) (m : MsgSetBlacklist) :
    Prog (TransferState β) BlacklistErr Unit := do
  let sender ← ofExcept ((env.chain.accAddressFromBech32 m.sender).elim (.error .errBech32) .ok)
  require (isAdminAccount sender = true) .errNotAdminAccount
  modify (fun s => { s with blacklist := replaceBlacklist s.blacklist m.addresses })

/-- What `ProcessLock` and `ProcessBurn` do for a receiver that is not listed. -/
def transferCoins (env : TransferEnv β) (sender : AccAddress) (m : TransferMsg) : TransferAction β Unit := do
  let coins ← payGas env sender m
  onBank (fun b => env.chain.bank.sendCoinsFromAccountToModule b sender BridgeKeeper.ethbridgeModuleName coins)
  let coin ← ofExcept (coinOf env m.transfer.symbol m.transfer.amount.value)
  let burned ← ofExcept (coinsOf [coin])
  onBank (fun b => env.chain.bank.burnCoins b BridgeKeeper.ethbridgeModuleName burned)

/-! The list after a message. -/

theorem mem_removed (gone blacklist : List String) (a : String) :
    a ∈ gone.foldl (fun left address => left.filter (· ≠ address)) blacklist ↔ a ∈ blacklist ∧ a ∉ gone := by
  induction gone generalizing blacklist with
  | nil => simp
  | cons g rest ih =>
    rw [List.foldl_cons, ih, List.mem_filter, List.mem_cons, decide_eq_true_iff]
    tauto

theorem mem_listed (addresses blacklist : List String) (a : String) :
    a ∈ addresses.foldl listed blacklist ↔ a ∈ addresses ∨ a ∈ blacklist := by
  induction addresses generalizing blacklist with
  | nil => simp
  | cons b rest ih =>
    have one : a ∈ listed blacklist b ↔ a = b ∨ a ∈ blacklist := by
      unfold listed
      split
      · rename_i present
        constructor
        · exact Or.inr
        · intro either
          rcases either with rfl | old
          · exact present
          · exact old
      · exact List.mem_cons
    rw [List.foldl_cons, ih, one, List.mem_cons]
    tauto

theorem mem_replaceBlacklist {blacklist addresses : List String} {a : String} (nonempty : a ≠ "") :
    a ∈ replaceBlacklist blacklist addresses ↔ a ∈ addresses := by
  unfold replaceBlacklist
  rw [mem_listed, mem_removed, removals, List.mem_filter, decide_eq_true_iff]
  tauto

example : replaceBlacklist ["", "a", "b"] ["b", "c"] = ["c", "", "b"] := by decide +kernel

theorem setBlacklist_accepted {env : TransferEnv β} {isAdminAccount : AccAddress → Bool} {m : MsgSetBlacklist}
    {admin : AccAddress} (decodes : env.chain.accAddressFromBech32 m.sender = some admin)
    (isAdmin : isAdminAccount admin = true) (s : TransferState β) :
    transact (setBlacklist env isAdminAccount m) s =
      { s with blacklist := replaceBlacklist s.blacklist m.addresses } := by
  apply transact_ok (a := ())
  simp [setBlacklist, bind, Prog.ofExcept, decodes, require, isAdmin, pure, Prog.modify]

/-! What the list does to a transfer. -/

section Transfers
variable {env : TransferEnv β} {sender : AccAddress} {m : TransferMsg} {s : TransferState β}

variable (env sender) in
theorem process_listed (member : m.transfer.ethereumReceiver ∈ s.blacklist) :
    (process env sender m).run s = (.error .errInvalidEthAddress, s) := by
  simp [process, bind, Prog.read, require, member, fail]

variable (env sender) in
theorem process_unlisted (absent : m.transfer.ethereumReceiver ∉ s.blacklist) :
    (process env sender m).run s = (transferCoins env sender m).run s := by
  have unlisted : (require (m.transfer.ethereumReceiver ∉ s.blacklist) .errInvalidEthAddress :
      TransferAction β Unit) = pure () := if_pos absent
  exact run_then rfl (by rw [unlisted]; rfl)

def NotReceiver (e : TransferErr) : Prop := e ≠ .errInvalidEthAddress

theorem coinOf_failsOnly {symbol : String} {amount : ℤ} : FailsOnly (coinOf env symbol amount) NotReceiver := by
  intro e failed
  unfold coinOf at failed
  split at failed
  · cases failed
    simp [NotReceiver]
  · split at failed
    · cases failed
    · cases failed
      simp [NotReceiver]

theorem coinsOf_failsOnly {coins : List Coin} : FailsOnly (coinsOf coins) NotReceiver := by
  intro e failed
  unfold coinsOf at failed
  split at failed
  · cases failed
  · cases failed
    simp [NotReceiver]

theorem onBank_fails {call : β → Except BankFailure β} : Fails (onBank call) s NotReceiver := by
  apply fails_read_then
  split
  · exact fails_modify
  · exact fails_fail (by simp [NotReceiver])
  · exact fails_fail (by simp [NotReceiver])

theorem singleCoin_fails {symbol : String} {amount : ℤ} :
    Fails (do
      let coin ← ofExcept (coinOf env symbol amount)
      ofExcept (coinsOf [coin]) : TransferAction β Coins) s NotReceiver := by
  refine fails_ofExcept_then coinOf_failsOnly ?_
  intro coin _
  exact fails_ofExcept coinsOf_failsOnly

theorem addInt_failsOnly {a b : SdkInt} : FailsOnly (addInt a b) NotReceiver := by
  intro e failed
  unfold addInt at failed
  split at failed
  · cases failed
  · cases failed
    simp [NotReceiver]

theorem payGas_fails : Fails (payGas env sender m) s NotReceiver := by
  apply fails_read_then
  split
  · refine fails_ofExcept_then coinOf_failsOnly ?_
    intro gas _
    refine fails_ofExcept_then coinsOf_failsOnly ?_
    intro coins _
    refine fails_bind onBank_fails ?_
    intro _ t _
    exact singleCoin_fails
  · split
    · refine fails_ofExcept_then addInt_failsOnly ?_
      intro total _
      exact singleCoin_fails
    · refine fails_ofExcept_then coinOf_failsOnly ?_
      intro coin _
      refine fails_ofExcept_then coinOf_failsOnly ?_
      intro gas _
      exact fails_ofExcept coinsOf_failsOnly

theorem transferCoins_fails : Fails (transferCoins env sender m) s NotReceiver := by
  refine fails_bind payGas_fails ?_
  intro coins r _
  refine fails_bind onBank_fails ?_
  intro _ t _
  refine fails_ofExcept_then coinOf_failsOnly ?_
  intro coin _
  refine fails_ofExcept_then coinsOf_failsOnly ?_
  intro burned _
  exact onBank_fails

theorem handle_listed (member : m.transfer.ethereumReceiver ∈ s.blacklist) :
    ∃ e, (handle env m).run s = (.error e, s) := by
  have fails : Meets (handle env m) s (fun _ _ => False) (fun _ t => t = s) := by
    apply meets_read_then
    refine meets_require_then ?_ (fun _ => rfl)
    intro _
    refine meets_ofExcept_then ?_ (fun _ _ => rfl)
    intro _ _
    refine meets_ofExcept_then ?_ (fun _ _ => rfl)
    intro sender _
    refine meets_ofExcept_then ?_ (fun _ _ => rfl)
    intro sequence _
    have rejected : Meets (process env sender m) s (fun _ _ => False) (fun _ t => t = s) := by
      constructor
      · intro _ t ran
        rw [process_listed _ _ member] at ran
        cases ran
      · intro e t ran
        rw [process_listed _ _ member] at ran
        cases ran
        rfl
    exact meets_bind rejected (fun _ _ impossible => impossible.elim)
  rcases ran : (handle env m).run s with ⟨outcome, t⟩
  cases outcome with
  | ok event => exact (fails.ok event t ran).elim
  | error e => exact ⟨e, by rw [fails.error e t ran]⟩

end Transfers

end TransferKeeper
open TransferKeeper

def AddressListed (geth : Geth) (addresses : List String) (receiver : String) : Prop :=
  ∃ a ∈ addresses, geth.isHexAddress a = true ∧ geth.hexToAddress a = geth.hexToAddress receiver

/-- A transfer is rejected over its receiver, in the keeper as in the handler. -/
def RejectedReceiver (env : TransferEnv β) (m : TransferMsg) (t : TransferState β) : Prop :=
  (∀ sender, (process env sender m).run t = (.error .errInvalidEthAddress, t)) ∧
    ∃ e, (handle env m).run t = (.error e, t)

/-- The list has no part in the outcome of a transfer. -/
def AdmittedReceiver (env : TransferEnv β) (m : TransferMsg) (t : TransferState β) : Prop :=
  ∀ sender, (process env sender m).run t = (transferCoins env sender m).run t

/-- The state of the blacklist `addresses` covers the receiver of a message under every spelling. -/
def CoversReceiver (env : TransferEnv β) (addresses : List String) (m : TransferMsg) (t : TransferState β) : Prop :=
  (AddressListed env.geth addresses m.transfer.ethereumReceiver → RejectedReceiver env m t) ∧
    (¬AddressListed env.geth addresses m.transfer.ethereumReceiver → AdmittedReceiver env m t)

theorem validateBasic_receiver {geth : Geth} {m : TransferMsg} (valid : m.validateBasic geth = .ok ()) :
    m.transfer.ethereumReceiver ≠ "" ∧ geth.isHexAddress m.transfer.ethereumReceiver = true := by
  obtain ⟨kind, transfer⟩ := m
  cases kind with
  | lock =>
    simp only [TransferMsg.validateBasic, Transfer.validateLock, except_bind_succeeds, check_succeeds] at valid
    obtain ⟨_, _, _, _, _, receiver, _, hex, _⟩ := valid
    exact ⟨receiver, hex⟩
  | burn =>
    simp only [TransferMsg.validateBasic, Transfer.validateBurn, except_bind_succeeds, check_succeeds] at valid
    obtain ⟨_, _, _, _, _, receiver, _, hex, _⟩ := valid
    exact ⟨receiver, hex⟩

/-- After messages of which the last one is accepted, its list decides by the text of the receiver. -/
theorem covers_receiver_iff (env : TransferEnv β) (isAdminAccount : AccAddress → Bool)
    (earlier : List MsgSetBlacklist) (last : MsgSetBlacklist) (admin : AccAddress)
    (decodes : env.chain.accAddressFromBech32 last.sender = some admin) (isAdmin : isAdminAccount admin = true)
    (m : TransferMsg) (valid : m.validateBasic env.geth = .ok ()) (s : TransferState β) :
    CoversReceiver env last.addresses m
        (EventRuns.run (fun m => transact (setBlacklist env isAdminAccount m)) (earlier ++ [last]) s) ↔
      (AddressListed env.geth last.addresses m.transfer.ethereumReceiver →
        m.transfer.ethereumReceiver ∈ last.addresses) := by
  let t := EventRuns.run (fun m => transact (setBlacklist env isAdminAccount m)) (earlier ++ [last]) s
  obtain ⟨nonempty, hex⟩ := validateBasic_receiver valid
  have entries : m.transfer.ethereumReceiver ∈ t.blacklist ↔
      m.transfer.ethereumReceiver ∈ last.addresses := by
    dsimp only [t]
    rw [EventRuns.run_snoc, setBlacklist_accepted decodes isAdmin]
    exact mem_replaceBlacklist nonempty
  constructor
  · intro covers named
    by_contra absent
    -- an unlisted text passes, although its address is listed
    have rejected := (covers.1 named).1 admin
    rw [process_unlisted _ _ (fun member => absent (entries.mp member))] at rejected
    exact transferCoins_fails _ _ rejected rfl
  · intro spelled
    constructor
    · intro named
      have member := entries.mpr (spelled named)
      exact ⟨fun _ => process_listed _ _ member, handle_listed member⟩
    · intro unnamed sender
      apply process_unlisted
      intro member
      exact unnamed ⟨_, entries.mp member, hex, rfl⟩

namespace PlainBlacklist

def hexLetters (letter : Char) : String := String.ofList ('0' :: 'x' :: List.replicate 40 letter)

def listLower : MsgSetBlacklist := ⟨"carol", [hexLetters 'a']⟩

def isAdminAccount (a : AccAddress) : Bool := a = ⟨[3]⟩

theorem five_fits : 5 < 2 ^ 256 := by decide

def burnTo (receiver : String) : TransferMsg :=
  ⟨.burn, { (PlainTransfers.burn 5 five_fits).transfer with ethereumReceiver := receiver }⟩

def listedState : TransferState LedgerBank.Balances :=
  EventRuns.run (fun m => transact (setBlacklist PlainTransfers.bridge isAdminAccount m)) [listLower]
    PlainTransfers.start

end PlainBlacklist

theorem listed_spelling_covered :
    CoversReceiver PlainTransfers.bridge PlainBlacklist.listLower.addresses
      (PlainBlacklist.burnTo (PlainBlacklist.hexLetters 'a')) PlainBlacklist.listedState :=
  (covers_receiver_iff PlainTransfers.bridge PlainBlacklist.isAdminAccount [] PlainBlacklist.listLower ⟨[3]⟩
    rfl rfl (PlainBlacklist.burnTo (PlainBlacklist.hexLetters 'a')) (by decide +kernel)
    PlainTransfers.start).mpr (fun _ => List.mem_singleton.mpr rfl)

/-- With `0xaa..` listed, a burn to `0xAA..` passes validation and is carried out. -/
theorem other_spelling_passes :
    let m := PlainBlacklist.burnTo (PlainBlacklist.hexLetters 'A')
    m.validateBasic PlainTransfers.bridge.geth = .ok () ∧
      AddressListed PlainTransfers.bridge.geth PlainBlacklist.listLower.addresses m.transfer.ethereumReceiver ∧
      ((handle PlainTransfers.bridge m).run PlainBlacklist.listedState).1.isOk = true ∧
      ¬CoversReceiver PlainTransfers.bridge PlainBlacklist.listLower.addresses m PlainBlacklist.listedState := by
  intro m
  have named : AddressListed PlainTransfers.bridge.geth PlainBlacklist.listLower.addresses
      m.transfer.ethereumReceiver :=
    ⟨PlainBlacklist.hexLetters 'a', by decide +kernel, by decide +kernel, by decide +kernel⟩
  have carried : ((handle PlainTransfers.bridge m).run PlainBlacklist.listedState).1.isOk = true := by
    decide +kernel
  refine ⟨by decide +kernel, named, carried, ?_⟩
  intro covers
  obtain ⟨e, failed⟩ := (covers.1 named).2
  rw [failed] at carried
  cases carried

end FuryNode
