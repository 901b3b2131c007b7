import Mathlib.Data.Finset.Basic
import FuryNode.Contracts.Valset
import FuryNode.Library.IndexedSet

/-!
The Blocklist contract: a list of addresses with the index of each, from which its owner adds
and removes, one address or a batch at a time. It is compared with a plain set of addresses.
-/
namespace FuryNode
open StatefulProgram StatefulProgram.Prog

structure BlocklistState where
  owner : Address
  userIndex : Address → ℕ
  userList : List Address

abbrev BlocklistAction (α : Type) := Prog BlocklistState String α

namespace Blocklist

def onlyOwner (sender : Caller) : BlocklistAction Unit := do
  let s ← read
  require (sender.address = s.owner) "Ownable: caller is not the owner"

/-- An index out of bounds is no member, as it can be after the list was shrunk. -/
def isBlocklisted (s : BlocklistState) (account : Address) : Bool :=
  if s.userList.length = 0 then false
  else if s.userList.length ≤ s.userIndex account then false
  else decide (s.userList[s.userIndex account]? = some account)

def getFullList (s : BlocklistState) : List Address := s.userList

/-- `_addToBlocklist`. -/
def addAccount (account : Address) : BlocklistAction Unit := do
  let s ← read
  require (isBlocklisted s account = false) "Already in blocklist"
  modify (fun s => { s with
    userIndex := Function.update s.userIndex account s.userList.length
    userList := s.userList ++ [account] })

/-- `_removeFromBlocklist`; an access out of bounds would revert. -/
def removeAccount (account : Address) : BlocklistAction Unit := do
  let s ← read
  require (isBlocklisted s account = true) "Not in blocklist"
  let rowToDelete := s.userIndex account
  let keyToMove ← ofExcept ((s.userList[s.userList.length - 1]?).elim (.error "invalid opcode") .ok)
  require (rowToDelete < s.userList.length) "invalid opcode"
  modify (fun s => { s with
    userIndex := Function.update s.userIndex keyToMove rowToDelete
    userList := (s.userList.set rowToDelete keyToMove).dropLast })

def addToBlocklist (sender : Caller) (account : Address) : BlocklistAction Unit := do
  onlyOwner sender
  addAccount account

def batchAddToBlocklist (sender : Caller) (accounts : List Address) : BlocklistAction Unit := do
  onlyOwner sender
  forEach addAccount accounts

def removeFromBlocklist (sender : Caller) (account : Address) : BlocklistAction Unit := do
  onlyOwner sender
  removeAccount account

def batchRemoveFromBlocklist (sender : Caller) (accounts : List Address) : BlocklistAction Unit := do
  onlyOwner sender
  forEach removeAccount accounts

def deployed (owner : Caller) : BlocklistState := ⟨owner.address, fun _ => 0, []⟩

end Blocklist

inductive BlocklistCall where
  | addToBlocklist (account : Address)
  | batchAddToBlocklist (accounts : List Address)
  | removeFromBlocklist (account : Address)
  | batchRemoveFromBlocklist (accounts : List Address)
  deriving DecidableEq, Repr

namespace BlocklistCall

def action (sender : Caller) : BlocklistCall → BlocklistAction Unit
  | .addToBlocklist account => Blocklist.addToBlocklist sender account
  | .batchAddToBlocklist accounts => Blocklist.batchAddToBlocklist sender accounts
  | .removeFromBlocklist account => Blocklist.removeFromBlocklist sender account
  | .batchRemoveFromBlocklist accounts => Blocklist.batchRemoveFromBlocklist sender accounts

def step (sender : Caller) (call : BlocklistCall) (s : BlocklistState) : BlocklistState :=
  transact (call.action sender) s

def Reverts (sender : Caller) (call : BlocklistCall) (s : BlocklistState) : Prop :=
  ∃ e t, (call.action sender).run s = (.error e, t)

/-- A call adds no address that is present and removes none that is absent, where a repeated
    address of a batch is present, or absent, from its second occurrence on. -/
def Permitted (S : Finset Address) : BlocklistCall → Prop
  | .addToBlocklist account => account ∉ S
  | .batchAddToBlocklist accounts => accounts.Nodup ∧ ∀ a ∈ accounts, a ∉ S
  | .removeFromBlocklist account => account ∈ S
  | .batchRemoveFromBlocklist accounts => accounts.Nodup ∧ ∀ a ∈ accounts, a ∈ S

instance (S : Finset Address) : (call : BlocklistCall) → Decidable (call.Permitted S)
  | .addToBlocklist account => inferInstanceAs (Decidable (account ∉ S))
  | .batchAddToBlocklist accounts => inferInstanceAs (Decidable (accounts.Nodup ∧ ∀ a ∈ accounts, a ∉ S))
  | .removeFromBlocklist account => inferInstanceAs (Decidable (account ∈ S))
  | .batchRemoveFromBlocklist accounts => inferInstanceAs (Decidable (accounts.Nodup ∧ ∀ a ∈ accounts, a ∈ S))

def applied (S : Finset Address) : BlocklistCall → Finset Address
  | .addToBlocklist account => insert account S
  | .batchAddToBlocklist accounts => S ∪ accounts.toFinset
  | .removeFromBlocklist account => S.erase account
  | .batchRemoveFromBlocklist accounts => S \ accounts.toFinset

def onSet (call : BlocklistCall) (S : Finset Address) : Finset Address :=
  if call.Permitted S then call.applied S else S

end BlocklistCall

section Representation
open IndexedSet Blocklist

def BlocklistState.indexed (s : BlocklistState) : Indexed Address := ⟨s.userIndex, s.userList⟩

structure Represents (owner : Caller) (s : BlocklistState) (S : Finset Address) : Prop where
  owned : s.owner = owner.address
  sound : Sound s.indexed
  members : ∀ a, a ∈ s.userList ↔ a ∈ S

theorem isBlocklisted_contains (s : BlocklistState) (a : Address) :
    isBlocklisted s a = contains s.indexed a := by
  unfold isBlocklisted contains BlocklistState.indexed
  split
  · rename_i empty
    rw [List.length_eq_zero_iff] at empty
    simp [empty]
  · split
    · rename_i beyond
      rw [List.getElem?_eq_none beyond]
      rfl
    · rfl

variable {owner : Caller} {s : BlocklistState} {S : Finset Address}

theorem isBlocklisted_iff (holds : Represents owner s S) (a : Address) :
    isBlocklisted s a = true ↔ a ∈ S := by
  rw [isBlocklisted_contains, contains_iff holds.sound]
  exact holds.members a

theorem deployed_represents (owner : Caller) : Represents owner (deployed owner) ∅ where
  owned := rfl
  sound := sound_empty _
  members a := by simp [deployed]

/-- A private function of the contract does to the list what it should do to the set, and
    reverts exactly if it should not be called. -/
def TracksSet (owner : Caller) (act : Address → BlocklistAction Unit)
    (allowed : Finset Address → Address → Prop)
    (after : Address → Finset Address → Finset Address) : Prop :=
  ∀ s S a, Represents owner s S →
    (allowed S a → ∃ t, (act a).run s = (.ok (), t) ∧ Represents owner t (after a S)) ∧
    (¬allowed S a → ∃ e t, (act a).run s = (.error e, t))

theorem addAccount_tracks (owner : Caller) :
    TracksSet owner addAccount (fun S a => a ∉ S) (fun a S => insert a S) := by
  intro s S a holds
  have listed := isBlocklisted_iff holds a
  constructor
  · intro absent
    have unlisted : isBlocklisted s a = false := by
      rw [← Bool.not_eq_true, listed]
      exact absent
    refine ⟨{ s with
      userIndex := Function.update s.userIndex a s.userList.length
      userList := s.userList ++ [a] }, ?_, holds.owned, ?_, ?_⟩
    · simp [addAccount, unlisted, bind, Prog.read, require, pure, Prog.modify]
    · apply push_sound holds.sound a
      exact fun member => absent ((holds.members a).mp member)
    · intro b
      rw [List.mem_append, List.mem_singleton, holds.members, Finset.mem_insert]
      exact or_comm
  · intro present
    have already : isBlocklisted s a = true := listed.mpr (not_not.mp present)
    exact ⟨"Already in blocklist", s, by simp [addAccount, already, bind, Prog.read, require, fail]⟩

theorem removeAccount_tracks (owner : Caller) :
    TracksSet owner removeAccount (fun S a => a ∈ S) (fun a S => S.erase a) := by
  intro s S a holds
  have listed := isBlocklisted_iff holds a
  constructor
  · intro present
    have member : a ∈ s.userList := (holds.members a).mpr present
    obtain ⟨init, last, split⟩ := List.eq_nil_or_concat s.userList |>.resolve_left
      (List.ne_nil_of_mem member)
    rw [List.concat_eq_append] at split
    have final : s.userList[s.userList.length - 1]? = some last := by simp [split]
    have place : s.userList[s.userIndex a]? = some a :=
      of_decide_eq_true ((contains_iff holds.sound a).mpr member)
    have bound := (List.getElem?_eq_some_iff.mp place).1
    refine ⟨{ s with
      userIndex := Function.update s.userIndex last (s.userIndex a)
      userList := (s.userList.set (s.userIndex a) last).dropLast }, ?_, holds.owned, ?_, ?_⟩
    · simp [removeAccount, listed.mpr present, final, bound, bind, Prog.read, require, pure,
        Prog.modify, Prog.ofExcept]
    · exact swapRemove_sound s.indexed holds.sound init a last split
    · intro b
      rw [Finset.mem_erase, ← holds.members, and_comm]
      exact swapRemove_items s.indexed holds.sound init a last split member b
  · intro absent
    have unlisted : isBlocklisted s a = false := by
      rw [← Bool.not_eq_true, listed]
      exact absent
    exact ⟨"Not in blocklist", s, by simp [removeAccount, unlisted, bind, Prog.read, require, fail]⟩

theorem batch_tracks {act : Address → BlocklistAction Unit}
    {allowed : Finset Address → Address → Prop} {after : Address → Finset Address → Finset Address}
    (tracks : TracksSet owner act allowed after) (accounts : List Address) (s : BlocklistState)
    (S : Finset Address) (holds : Represents owner s S) :
    (EventRuns.Guarded after allowed accounts S → ∃ t, (forEach act accounts).run s = (.ok (), t) ∧
      Represents owner t (EventRuns.run after accounts S)) ∧
    (¬EventRuns.Guarded after allowed accounts S → ∃ e t, (forEach act accounts).run s = (.error e, t)) := by
  induction accounts generalizing s S with
  | nil =>
    constructor
    · intro _
      exact ⟨s, rfl, holds⟩
    · intro refused
      exact absurd trivial refused
  | cons a rest ih =>
    obtain ⟨does, reverts⟩ := tracks s S a holds
    by_cases permitted : allowed S a
    · obtain ⟨t, ran, next⟩ := does permitted
      obtain ⟨goes, stops⟩ := ih t (after a S) next
      have onward : (forEach act (a :: rest)).run s = (forEach act rest).run t := run_then ran rfl
      rw [onward]
      constructor
      · intro all
        exact goes all.2
      · intro refused
        exact stops (fun later => refused ⟨permitted, later⟩)
    · constructor
      · intro all
        exact absurd all.1 permitted
      · intro _
        obtain ⟨e, t, ran⟩ := reverts permitted
        exact ⟨e, t, stop_then ran⟩

/-- Each account of a batch is refused from its second occurrence on, and the others are as before. -/
theorem batch_allowed {allowed : Finset Address → Address → Prop}
    {after : Address → Finset Address → Finset Address}
    (next : ∀ S a b, allowed (after a S) b ↔ b ≠ a ∧ allowed S b) (accounts : List Address)
    (S : Finset Address) :
    EventRuns.Guarded after allowed accounts S ↔ accounts.Nodup ∧ ∀ a ∈ accounts, allowed S a := by
  induction accounts generalizing S with
  | nil => simp [EventRuns.Guarded]
  | cons a rest ih =>
    rw [EventRuns.Guarded, ih, List.nodup_cons]
    simp only [next, List.mem_cons, forall_eq_or_imp]
    constructor
    · intro parts
      obtain ⟨first, distinct, others⟩ := parts
      exact ⟨⟨fun member => (others a member).1 rfl, distinct⟩, first, fun b member => (others b member).2⟩
    · intro parts
      obtain ⟨⟨fresh, distinct⟩, first, others⟩ := parts
      exact ⟨first, distinct, fun b member => ⟨fun same => fresh (same ▸ member), others b member⟩⟩

theorem batchAdd_result (accounts : List Address) (S : Finset Address) :
    EventRuns.run (fun a S => insert a S) accounts S = S ∪ accounts.toFinset := by
  induction accounts generalizing S with
  | nil => simp [EventRuns.run]
  | cons a rest ih =>
    have next : EventRuns.run (fun a S => insert a S) (a :: rest) S =
        EventRuns.run (fun a S => insert a S) rest (insert a S) := rfl
    rw [next, ih]
    ext b
    simp only [Finset.mem_union, Finset.mem_insert, List.toFinset_cons]
    tauto

theorem batchRemove_result (accounts : List Address) (S : Finset Address) :
    EventRuns.run (fun a S => Finset.erase S a) accounts S = S \ accounts.toFinset := by
  induction accounts generalizing S with
  | nil => simp [EventRuns.run]
  | cons a rest ih =>
    have next : EventRuns.run (fun a S => Finset.erase S a) (a :: rest) S =
        EventRuns.run (fun a S => Finset.erase S a) rest (S.erase a) := rfl
    rw [next, ih]
    ext b
    simp only [Finset.mem_sdiff, Finset.mem_erase, List.toFinset_cons, Finset.mem_insert]
    tauto

end Representation

section Calls
open Blocklist
variable {owner : Caller} {s : BlocklistState} {S : Finset Address}

theorem onlyOwner_passes (holds : Represents owner s S) {act : BlocklistAction Unit} :
    (onlyOwner owner >>= fun _ => act).run s = act.run s := by
  have passed : (onlyOwner owner).run s = (.ok (), s) := by
    simp [onlyOwner, bind, Prog.read, require, holds.owned, pure]
  exact run_then passed rfl

theorem call_outcome (call : BlocklistCall) (holds : Represents owner s S) :
    (call.Permitted S → ∃ t, (call.action owner).run s = (.ok (), t) ∧
      Represents owner t (call.applied S)) ∧
    (¬call.Permitted S → ∃ e t, (call.action owner).run s = (.error e, t)) := by
  cases call with
  | addToBlocklist a =>
    have passed : ((BlocklistCall.addToBlocklist a).action owner).run s = (addAccount a).run s :=
      onlyOwner_passes holds
    rw [passed]
    exact addAccount_tracks owner s S a holds
  | removeFromBlocklist a =>
    have passed : ((BlocklistCall.removeFromBlocklist a).action owner).run s = (removeAccount a).run s :=
      onlyOwner_passes holds
    rw [passed]
    exact removeAccount_tracks owner s S a holds
  | batchAddToBlocklist accounts =>
    have passed : ((BlocklistCall.batchAddToBlocklist accounts).action owner).run s =
        (forEach addAccount accounts).run s := onlyOwner_passes holds
    have batch := batch_tracks (addAccount_tracks owner) accounts s S holds
    rw [batch_allowed (by simp), batchAdd_result] at batch
    rw [passed]
    exact batch
  | batchRemoveFromBlocklist accounts =>
    have passed : ((BlocklistCall.batchRemoveFromBlocklist accounts).action owner).run s =
        (forEach removeAccount accounts).run s := onlyOwner_passes holds
    have batch := batch_tracks (removeAccount_tracks owner) accounts s S holds
    rw [batch_allowed (by simp), batchRemove_result] at batch
    rw [passed]
    exact batch

theorem reverts_iff (call : BlocklistCall) (holds : Represents owner s S) :
    call.Reverts owner s ↔ ¬call.Permitted S := by
  obtain ⟨goes, stops⟩ := call_outcome call holds
  constructor
  · intro reverted permitted
    obtain ⟨e, t, failed⟩ := reverted
    obtain ⟨_, ran, _⟩ := goes permitted
    rw [failed] at ran
    cases ran
  · intro refused
    exact stops refused

theorem step_represents (call : BlocklistCall) (holds : Represents owner s S) :
    Represents owner (call.step owner s) (call.onSet S) := by
  obtain ⟨goes, stops⟩ := call_outcome call holds
  unfold BlocklistCall.step BlocklistCall.onSet
  by_cases permitted : call.Permitted S
  · obtain ⟨t, ran, next⟩ := goes permitted
    rw [transact_ok ran, if_pos permitted]
    exact next
  · obtain ⟨e, t, failed⟩ := stops permitted
    rw [transact_error failed, if_neg permitted]
    exact holds

theorem run_represents (calls : List BlocklistCall) (s : BlocklistState) (S : Finset Address)
    (holds : Represents owner s S) :
    Represents owner (EventRuns.run (BlocklistCall.step owner) calls s)
      (EventRuns.run BlocklistCall.onSet calls S) := by
  induction calls generalizing s S with
  | nil => exact holds
  | cons call rest ih => exact ih _ _ (step_represents call holds)

end Calls

/-- After any calls of the owner, the contract answers as the plain set does that went through the
    same calls, lists its members once each, and reverts exactly on the calls that the set refuses. -/
theorem blocklist_refines_set (owner : Caller) (calls : List BlocklistCall) :
    let s := EventRuns.run (BlocklistCall.step owner) calls (Blocklist.deployed owner)
    let S := EventRuns.run BlocklistCall.onSet calls ∅
    (∀ a, Blocklist.isBlocklisted s a = true ↔ a ∈ S) ∧
      (Blocklist.getFullList s).Nodup ∧ (∀ a, a ∈ Blocklist.getFullList s ↔ a ∈ S) ∧
      ∀ call : BlocklistCall, call.Reverts owner s ↔ ¬call.Permitted S := by
  have holds := run_represents calls _ _ (deployed_represents owner)
  exact ⟨isBlocklisted_iff holds, IndexedSet.sound_nodup _ holds.sound, holds.members,
    fun call => reverts_iff call holds⟩

/-- A removal from the front, from the back, and a batch that names an address twice. -/
example : Blocklist.getFullList (EventRuns.run (BlocklistCall.step ⟨7, operator_nonzero⟩)
    [.batchAddToBlocklist [1, 2, 3], .removeFromBlocklist 1, .removeFromBlocklist 2,
      .batchAddToBlocklist [4, 4], .addToBlocklist 1] (Blocklist.deployed ⟨7, operator_nonzero⟩)) =
    [3, 1] := by
  decide +kernel

end FuryNode
