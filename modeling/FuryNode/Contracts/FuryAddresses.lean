import FuryNode.Library.Bech32
import FuryNode.Contracts.BridgeBank

/-!
The recipients of the BridgeBank contract against the account addresses of the chain. The contract
looks at the length and at the first three bytes of a recipient.
-/
namespace FuryNode
open StatefulProgram StatefulProgram.Prog
variable {H τ : Type}

/-- `AccountAddressPrefix`: `fury`. -/
def accountAddressPrefix : List UInt8 := [102, 117, 114, 121]

namespace BridgeBank

/-- `furyInHex` of `verifyFuryPrefix`, which spells `sif`. -/
def furyInHex : List UInt8 := [0x73, 0x69, 0x66]

section Check
variable (recipient : List UInt8) (s : BridgeBankState τ)

theorem validFuryAddress_passes (len : recipient.length = 42) (first : recipient.take 3 = furyInHex) :
    (validFuryAddress recipient).run s = (.ok (), s) := by
  unfold furyInHex at first
  simp [validFuryAddress, bind, require, len, first, pure]

theorem validFuryAddress_rejects (wrong : ¬(recipient.length = 42 ∧ recipient.take 3 = furyInHex)) :
    ∃ reason, (validFuryAddress recipient).run s = (.error reason, s) := by
  by_cases len : recipient.length = 42
  · have first : recipient.take 3 ≠ [0x73, 0x69, 0x66] := fun same => wrong ⟨len, same⟩
    exact ⟨"Invalid fury address", by simp [validFuryAddress, bind, require, len, first, pure, fail]⟩
  · exact ⟨"Invalid len", by simp [validFuryAddress, bind, require, len, fail]⟩

/-- `lock` goes no further than its check of the recipient. -/
theorem lock_rejects (env : TokenWorld H τ) (sender : Caller) (value : ℕ) (token : Address) (amount : ℕ)
    (wrong : ¬(recipient.length = 42 ∧ recipient.take 3 = furyInHex)) :
    ∃ reason, (lock env sender value recipient token amount).run s = (.error reason, s) := by
  obtain ⟨reason, failed⟩ := validFuryAddress_rejects recipient s wrong
  by_cases listed : s.ethereumTokenWhiteList token = true
  · exact ⟨reason, by simp [lock, bind, Prog.read, require, listed, pure, failed]⟩
  · exact ⟨_, by simp [lock, bind, Prog.read, require, listed, fail]; rfl⟩

end Check

end BridgeBank

open BridgeBank

/-- Contract and chain agree on an address: with the prefix of the chain it passes, with any other
    prefix it is rejected. -/
def AddressAgrees (checksum : Bech32.Checksum) (hrp : List UInt8) (account : Vector UInt8 20)
    (s : BridgeBankState τ) : Prop :=
  let run := (validFuryAddress (Bech32.encode checksum hrp account.toList)).run s
  (hrp = accountAddressPrefix → run = (.ok (), s)) ∧
    (hrp ≠ accountAddressPrefix → ∃ reason, run = (.error reason, s))

/-- The addresses of 20 bytes that pass are those of the prefix `sif`. -/
theorem passes_iff_spelled (checksum : Bech32.Checksum) (hrp : List UInt8) (account : Vector UInt8 20) :
    ((Bech32.encode checksum hrp account.toList).length = 42 ∧
      (Bech32.encode checksum hrp account.toList).take 3 = furyInHex) ↔ hrp = furyInHex := by
  have len := Bech32.encode_length checksum hrp account.toList
  rw [Vector.length_toList] at len
  have first := Bech32.encode_hrp checksum hrp account.toList
  constructor
  · intro passes
    have three : hrp.length = 3 := by omega
    rw [three] at first
    exact first.symm.trans passes.2
  · intro same
    subst same
    exact ⟨len, first⟩

theorem address_agrees_iff (checksum : Bech32.Checksum) (hrp : List UInt8) (account : Vector UInt8 20)
    (s : BridgeBankState τ) :
    AddressAgrees checksum hrp account s ↔ hrp ≠ accountAddressPrefix ∧ hrp ≠ furyInHex := by
  have passes := passes_iff_spelled checksum hrp account
  constructor
  · intro agrees
    by_cases chain : hrp = accountAddressPrefix
    · -- an address of the chain is rejected
      have other : ¬hrp = furyInHex := by
        rw [chain]
        decide
      obtain ⟨reason, failed⟩ := validFuryAddress_rejects _ s (fun both => other (passes.mp both))
      have passed := agrees.1 chain
      rw [failed] at passed
      cases passed
    · refine ⟨chain, ?_⟩
      intro same
      have both := passes.mpr same
      obtain ⟨reason, failed⟩ := agrees.2 chain
      have passed := validFuryAddress_passes _ s both.1 both.2
      rw [failed] at passed
      cases passed
  · intro apart
    exact ⟨fun chain => absurd chain apart.1,
      fun _ => validFuryAddress_rejects _ s (fun both => apart.2 (passes.mp both))⟩

theorem chain_recipients_rejected (checksum : Bech32.Checksum) (account : Vector UInt8 20)
    (env : TokenWorld H τ) (sender : Caller) (value : ℕ) (token : Address) (amount : ℕ) (s : BridgeBankState τ) :
    ∃ reason, (lock env sender value (Bech32.encode checksum accountAddressPrefix account.toList) token
      amount).run s = (.error reason, s) := by
  apply lock_rejects
  intro both
  have same := (passes_iff_spelled checksum accountAddressPrefix account).mp both
  exact absurd same (by decide)

def idleBank : BridgeBankState Unit :=
  ⟨1, 2, fun _ => true, fun _ => 0, fun _ => [], 0, false, false, fun _ => false, ()⟩

def sixLetters : Bech32.Checksum := fun _ _ => Vector.replicate 6 113

def zeroAccount : Vector UInt8 20 := Vector.replicate 20 0

/-- The zero account with the prefix of the chain is rejected, and with the prefix `sif` it passes. -/
theorem chain_address_rejected :
    ((validFuryAddress (Bech32.encode sixLetters accountAddressPrefix zeroAccount.toList)).run idleBank).1 =
        .error "Invalid len" ∧
      ((validFuryAddress (Bech32.encode sixLetters furyInHex zeroAccount.toList)).run idleBank).1 = .ok () ∧
      ¬AddressAgrees sixLetters accountAddressPrefix zeroAccount idleBank ∧
      ¬AddressAgrees sixLetters furyInHex zeroAccount idleBank := by
  have rejected : ((validFuryAddress (Bech32.encode sixLetters accountAddressPrefix zeroAccount.toList)).run
      idleBank).1 = .error "Invalid len" := by decide +kernel
  have passed : ((validFuryAddress (Bech32.encode sixLetters furyInHex zeroAccount.toList)).run idleBank).1 =
      .ok () := by decide +kernel
  refine ⟨rejected, passed, ?_, ?_⟩
  · intro agrees
    rw [agrees.1 rfl] at rejected
    cases rejected
  · intro agrees
    obtain ⟨reason, failed⟩ := agrees.2 (by decide)
    rw [failed] at passed
    cases passed

end FuryNode
