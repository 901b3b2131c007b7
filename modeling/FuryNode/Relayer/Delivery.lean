import FuryNode.EthBridge.PlainBridge
import FuryNode.EthBridge.Relaying
import FuryNode.Relayer.Cosmos
import FuryNode.Relayer.Ethereum

/-!
Whether a relayer loses events. Both move and store their cursor whatever became of the events they
pass, and both skip blocks when they start without a cursor, so nothing is lost only in the runs
in which everything that is passed was relayed.
-/
namespace FuryNode
open BlockCursor
variable {β : Type}

/-- Every burn and lock below the stored cursor, from the first eligible block on, was relayed. -/
def EthereumSub.NothingLost (sub : EthereumSub β) (chain : EthereumChain) (s : State) : Prop :=
  ∀ first ∈ s.firstEligible, ∀ cursor ∈ s.db, ∀ b, first ≤ b → b < cursor →
    ∀ log ∈ chain.logs b, sub.isBurnLock log = true → ∃ sent ∈ s.relayed, sent.log = log

/-- Every burn and lock up to the stored cursor, from the first block seen on, was relayed. -/
def CosmosSub.NothingLost (chain : CosmosChain) (s : State) : Prop :=
  ∀ first ∈ s.firstSeen, ∀ last ∈ s.db, ∀ b, first ≤ b → b ≤ last →
    ∀ entry ∈ chain.events b, (getOracleClaimType entry.1.type).isSome → ∃ sent ∈ s.relayed, sent.place = place b entry

theorem EthereumSub.sound_nothingLost {sub : EthereumSub β} {chain : EthereumChain} {s : State}
    (sound : sub.Sound chain s) : sub.NothingLost chain s := by
  intro first eligible cursor saved b lower upper log member burnLock
  have covered := sound.stored first eligible
  rw [Option.mem_def.mp saved] at covered
  have relayed := covered b lower upper log (List.mem_filter.mpr ⟨member, burnLock⟩)
  exact List.mem_map.mp relayed

theorem CosmosSub.sound_nothingLost {chain : CosmosChain} {s : State} (sound : Sound chain s) :
    NothingLost chain s := by
  intro first seen last saved b lower upper entry member burnLock
  have covered := sound.stored first seen last saved
  have relayed := covered b lower (by omega) (place b entry)
    (List.mem_map.mpr ⟨entry, List.mem_filter.mpr ⟨member, burnLock⟩, rfl⟩)
  exact List.mem_map.mp relayed

namespace PlainRelayers

def hexDigit (n : ℕ) : Char := (PlainBridge.hexDigits[n]?).getD '0'

def hex (a : EthereumAddress) : String :=
  String.ofList ('0' :: 'x' :: a.bytes.flatMap (fun b => [hexDigit (b.toNat / 16), hexDigit (b.toNat % 16)]))

def locked : UnpackedEvent := ⟨"alice", "eth", 10, 1, Relayer.zeroAddress, Relayer.zeroAddress, by decide⟩

def sub : EthereumSub LedgerBank.Balances where
  bridge := PlainBridge.env
  clientChainID := 1
  bridgeBankAddress := Relayer.zeroAddress
  eventLogBurnSignature := "burn"
  eventLogLockSignature := "lock"
  unpackIntoInterface log := if log.data = [] then none else some locked
  ethereumToFurynet symbol := symbol
  hex := hex
  toLower := String.toLower
  int64 n := (n : ℤ).bmod (2 ^ 64)
  int64_small n small := by
    apply Int.bmod_eq_of_le
    · omega
    · omega

def lockLog : EthLog := ⟨100, 0, ["lock"], [1]⟩

def ethereum : EthereumChain where
  logs b := if b = 100 then [lockLog] else []
  numbered b log member := by
    split at member
    · rename_i here
      rw [List.mem_singleton.mp member, here]
      rfl
    · cases member
  indexed b := by
    split <;> simp

def fine : EthereumSub.Answers := ⟨true, some "val", .returned true, true⟩

def unqueried : EthereumSub.Answers := { fine with queried := false }

def refused : EthereumSub.Answers := { fine with broadcast := .failed }

def burnEvent : AbciEvent := ⟨"burn", [("cosmos_sender", "alice"), ("cosmos_sender_sequence", "7"),
  ("ethereum_receiver", nullAddress), ("symbol", "cusd"), ("amount", "5")]⟩

def cosmos (heights : List ℕ) : CosmosChain := ⟨fun b => if b ∈ heights then [[burnEvent]] else []⟩

def mined (status : Bool) : CosmosSub.RelayAttempt := ⟨true, fun k => if k < 2 then none else some status⟩

def unsent : CosmosSub.RelayAttempt := ⟨false, fun _ => none⟩

def answered (status : Bool) : CosmosSub.MsgAnswers :=
  ⟨fun i => 0 < i, true, fun i => if i = 0 then unsent else mined status⟩

/-- Early and failed heads, a head that is seen twice, one that goes back and a restart. -/
def steadyHeads : List EthereumSub.Event :=
  [.start true, .head 40 fine, .head 149 unqueried, .head 150 fine, .head 150 refused, .head 140 fine,
    .stop, .start true, .head 152 fine]

/-- No event in the first block; the block with one is asked for twice, around a restart. -/
def steadyBlocks : List CosmosSub.Event :=
  [.start true, .newBlock (some 7), .newBlock (some 9), .queryFails, .blockResults (fun _ => answered true) true,
    .stop, .start true, .newBlock (some 9), .blockResults (fun _ => answered true) true]

def refusedHeads : List EthereumSub.Event := [.start true, .head 150 refused]

def restartedHeads : List EthereumSub.Event :=
  [.start true, .head 150 unqueried, .stop, .start true, .head 160 fine]

def twoBlocks : List CosmosSub.Event :=
  [.start true, .newBlock (some 7), .newBlock (some 8), .blockResults (fun _ => answered true) true]

def revertedBlocks : List CosmosSub.Event :=
  [.start true, .newBlock (some 7), .newBlock (some 8), .blockResults (fun _ => answered false) true]

end PlainRelayers

theorem EthereumSub.lost {sub : EthereumSub β} {chain : EthereumChain} {s : State} {first cursor b : ℕ} {log : EthLog}
    (eligible : s.firstEligible = some first) (saved : s.db = some cursor) (lower : first ≤ b) (upper : b < cursor)
    (member : log ∈ chain.logs b) (burnLock : sub.isBurnLock log = true)
    (missing : log ∉ s.relayed.map Sent.log) : ¬sub.NothingLost chain s := by
  intro nothing
  exact missing (List.mem_map.mpr (nothing first eligible cursor saved b lower upper log member burnLock))

theorem CosmosSub.lost {chain : CosmosChain} {s : State} {first last b : ℕ} {entry : AbciEvent × ℕ}
    (seen : s.firstSeen = some first) (saved : s.db = some last) (lower : first ≤ b) (upper : b ≤ last)
    (member : entry ∈ chain.events b) (burnLock : (getOracleClaimType entry.1.type).isSome)
    (missing : place b entry ∉ s.relayed.map Sent.place) : ¬NothingLost chain s := by
  intro nothing
  exact missing (List.mem_map.mpr (nothing first seen last saved b lower upper entry member burnLock))

end FuryNode
