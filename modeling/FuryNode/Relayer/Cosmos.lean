import FuryNode.EthBridge.Transfers
import FuryNode.Library.BlockCursor
import FuryNode.Library.EventRuns

/-!
The relayer to Ethereum. At every new block it asks for the results of the blocks after its
cursor, one after the other and again until it has them, sends a prophecy claim for every burn and
lock it can read, and stores the cursor after each block.
-/
namespace FuryNode
open StatefulProgram BlockCursor

/-- `abci.Event`. -/
structure AbciEvent where
  type : String
  attributes : List (String × String)
  deriving DecidableEq, Repr

structure CosmosChain where
  txsResults : ℕ → List (List AbciEvent)

def CosmosChain.events (chain : CosmosChain) (height : ℕ) : List (AbciEvent × ℕ) :=
  (chain.txsResults height).flatten.zipIdx

namespace CosmosSub

/-- `getOracleClaimType`; none is `Unsupported`. -/
def getOracleClaimType (eventType : String) : Option TransferKind :=
  if eventType = "burn" then some .burn
  else if eventType = "lock" then some .lock
  else none

/-- One call of `RelayProphecyClaimToEthereum`: whether the transaction was sent, and the answers to
    the queries for its receipt. -/
structure RelayAttempt where
  sent : Bool
  receipt : ℕ → Option Bool

inductive RelayFailure where
  | newProphecyClaim
  | hitMaxReceiptRetries
  deriving DecidableEq, Repr

def maxReceiptRetries : ℕ := 60

/-- `RelayProphecyClaimToEthereum`. A receipt is a success whatever its status, which is returned
    here. -/
def relayProphecyClaimToEthereum (attempt : RelayAttempt) : Except RelayFailure Bool :=
  if attempt.sent then
    match (List.range maxReceiptRetries).findSome? attempt.receipt with
    | none => .error .hitMaxReceiptRetries
    | some status => .ok status
  else .error .newProphecyClaim

structure MsgAnswers where
  initRelayConfig : ℕ → Bool
  newCosmosBridge : Bool
  attempts : ℕ → RelayAttempt

def maxRetries : ℕ := 5

def tryInitRelayConfig (answers : MsgAnswers) : Bool := (List.range maxRetries).any answers.initRelayConfig

/-- `handleBurnLockMsg`: whether the claim took effect. A failure is only logged. -/
def handleBurnLockMsg (answers : MsgAnswers) : Bool :=
  if tryInitRelayConfig answers then
    if answers.newCosmosBridge then
      ((List.range maxRetries).findSome?
        (fun i => (relayProphecyClaimToEthereum (answers.attempts i)).toOption)).getD false
    else false
  else false

structure Place where
  height : ℕ
  index : ℕ
  deriving DecidableEq, Repr

structure Sent where
  place : Place
  msg : CosmosMsg
  deriving DecidableEq

def handleEvent (relayer : Relayer) (answers : MsgAnswers) (place : Place) (event : AbciEvent) : Option Sent :=
  match getOracleClaimType event.type with
  | none => none
  | some claimType =>
    match relayer.burnLockEventToCosmosMsg ⟨claimType, event.attributes⟩ with
    | .error _ => none
    | .ok cosmosMsg => if handleBurnLockMsg answers then some ⟨place, cosmosMsg⟩ else none

def handleBlock (relayer : Relayer) (chain : CosmosChain) (height : ℕ) (answers : ℕ → MsgAnswers) : List Sent :=
  (chain.events height).filterMap
    (fun entry => handleEvent relayer (answers entry.2) ⟨height, entry.2⟩ entry.1)

/-- The loop of a running relayer: its cursor, and the blocks it still has to ask for, the last
    one included. -/
structure Loop where
  lastProcessedBlock : ℕ
  scan : Option (ℕ × ℕ)

/-- What is seen of a relayer: its database, its loop while it runs, the first block it was told of,
    and what it brought to the other chain. -/
structure State where
  db : Option ℕ
  loop : Option Loop
  firstSeen : Option ℕ
  relayed : List Sent

def fresh : State := ⟨none, none, none, []⟩

def nextBlock (lastProcessedBlock blockHeight : ℕ) : Loop :=
  ⟨lastProcessedBlock, if lastProcessedBlock + 1 ≤ blockHeight then some (lastProcessedBlock + 1, blockHeight) else none⟩

inductive Event where
  /-- The process starts, and the database can be read or not. -/
  | start (read : Bool)
  | stop
  /-- A new block is received, or something else, at which the process ends. -/
  | newBlock (blockHeight : Option ℕ)
  | queryFails
  | blockResults (answers : ℕ → MsgAnswers) (saved : Bool)

/-- A new block is received only after the blocks of the one before are done. -/
def onNewBlock (blockHeight : Option ℕ) (s : State) : State :=
  match s.loop, blockHeight with
  | some ⟨lastProcessedBlock, none⟩, some blockHeight =>
    let lastProcessedBlock := if lastProcessedBlock = 0 then blockHeight else lastProcessedBlock
    { s with
      loop := some (nextBlock lastProcessedBlock blockHeight)
      firstSeen := some (s.firstSeen.getD blockHeight) }
  | some ⟨_, none⟩, none => { s with loop := none }
  | _, _ => s

def onBlockResults (relayer : Relayer) (chain : CosmosChain) (answers : ℕ → MsgAnswers) (saved : Bool) (s : State) :
    State :=
  match s.loop with
  | some ⟨_, some (blockNumber, blockHeight)⟩ =>
    let s := { s with relayed := s.relayed ++ handleBlock relayer chain blockNumber answers }
    if saved then { s with db := some blockNumber, loop := some (nextBlock blockNumber blockHeight) }
    else { s with loop := none }
  | _ => s

def step (relayer : Relayer) (chain : CosmosChain) : Event → State → State
  | .start read, s => { s with loop := some ⟨if read then s.db.getD 0 else 0, none⟩ }
  | .stop, s => { s with loop := none }
  | .newBlock blockHeight, s => onNewBlock blockHeight s
  | .queryFails, s => s
  | .blockResults answers saved, s => onBlockResults relayer chain answers saved s

def RelayAttempt.Lands (attempt : RelayAttempt) (status : Bool) : Prop :=
  attempt.sent = true ∧ ∃ k < maxReceiptRetries, attempt.receipt k = some status ∧ ∀ l < k, attempt.receipt l = none

def RelayAttempt.Fails (attempt : RelayAttempt) : Prop :=
  attempt.sent = true → ∀ k < maxReceiptRetries, attempt.receipt k = none

/-- The relayer gets through to Ethereum, and the first attempt with a receipt took effect. -/
def MsgAnswers.Deliver (answers : MsgAnswers) : Prop :=
  (∃ i < maxRetries, answers.initRelayConfig i = true) ∧ answers.newCosmosBridge = true ∧
    ∃ i < maxRetries, (answers.attempts i).Lands true ∧ ∀ j < i, (answers.attempts j).Fails

instance (attempt : RelayAttempt) (status : Bool) : Decidable (attempt.Lands status) :=
  inferInstanceAs (Decidable (_ ∧ _))

instance (attempt : RelayAttempt) : Decidable attempt.Fails := inferInstanceAs (Decidable (_ = _ → _))

instance (answers : MsgAnswers) : Decidable answers.Deliver := inferInstanceAs (Decidable (_ ∧ _))

theorem first_returned {α : Type} (f : ℕ → Option α) {n i : ℕ} (a : α) (below : i < n) (found : f i = some a)
    (earlier : ∀ j < i, f j = none) : (List.range n).findSome? f = some a := by
  induction n with
  | zero => omega
  | succ n ih =>
    rw [List.range_succ, List.findSome?_append]
    by_cases before : i < n
    · rw [ih before]
      rfl
    · obtain rfl : i = n := by omega
      have missed : (List.range i).findSome? f = none := by
        apply List.findSome?_eq_none_iff.mpr
        intro j member
        exact earlier j (List.mem_range.mp member)
      simp [missed, found]

theorem lands_returns {attempt : RelayAttempt} {status : Bool} (lands : attempt.Lands status) :
    relayProphecyClaimToEthereum attempt = .ok status := by
  obtain ⟨sent, k, below, found, earlier⟩ := lands
  have receipt := first_returned attempt.receipt status below found earlier
  simp [relayProphecyClaimToEthereum, sent, receipt]

theorem fails_retried (attempt : RelayAttempt) (fails : attempt.Fails) :
    (relayProphecyClaimToEthereum attempt).toOption = none := by
  unfold relayProphecyClaimToEthereum
  by_cases sent : attempt.sent = true
  · have missed : (List.range maxReceiptRetries).findSome? attempt.receipt = none := by
      apply List.findSome?_eq_none_iff.mpr
      intro k member
      exact fails sent k (List.mem_range.mp member)
    simp [sent, missed, Except.toOption]
  · simp [sent, Except.toOption]

theorem deliver_handled (answers : MsgAnswers) (deliver : answers.Deliver) : handleBurnLockMsg answers = true := by
  obtain ⟨⟨k, tries, connected⟩, instanced, i, below, lands, earlier⟩ := deliver
  have init : tryInitRelayConfig answers = true := by
    apply List.any_eq_true.mpr
    exact ⟨k, List.mem_range.mpr tries, connected⟩
  have relayed := first_returned (fun i => (relayProphecyClaimToEthereum (answers.attempts i)).toOption)
    true below (by simp [lands_returns lands, Except.toOption])
    (fun j before => fails_retried _ (earlier j before))
  simp [handleBurnLockMsg, init, instanced, relayed]

def place (height : ℕ) (entry : AbciEvent × ℕ) : Place := ⟨height, entry.2⟩

def burnLocks (chain : CosmosChain) (height : ℕ) : List Place :=
  ((chain.events height).filter (fun entry => (getOracleClaimType entry.1.type).isSome)).map (place height)

def Relayable (relayer : Relayer) (answers : ℕ → MsgAnswers) (entry : AbciEvent × ℕ) : Prop :=
  ∀ claimType ∈ getOracleClaimType entry.1.type,
    (relayer.burnLockEventToCosmosMsg ⟨claimType, entry.1.attributes⟩).isOk = true ∧ (answers entry.2).Deliver

def done (s : State) : List Place := s.relayed.map Sent.place

/-- A new block loses nothing if no burn or lock is skipped that was not relayed, where the relayer
    has no cursor, and the results of a block if all that was not relayed can be. -/
def Lossless (relayer : Relayer) (chain : CosmosChain) (s : State) : Event → Prop
  | .newBlock (some blockHeight) => ∀ loop ∈ s.loop, loop.scan = none → loop.lastProcessedBlock = 0 →
      Idle (remaining (burnLocks chain) (done s)) (s.firstSeen.getD blockHeight) (blockHeight + 1)
  | .blockResults answers _ => ∀ loop ∈ s.loop, ∀ range ∈ loop.scan, ∀ entry ∈ chain.events range.1,
      place range.1 entry ∉ done s → Relayable relayer answers entry
  | _ => True

instance (relayer : Relayer) (answers : ℕ → MsgAnswers) (entry : AbciEvent × ℕ) :
    Decidable (Relayable relayer answers entry) := inferInstanceAs (Decidable (∀ _ ∈ _, _))

instance (relayer : Relayer) (chain : CosmosChain) (s : State) : (e : Event) → Decidable (Lossless relayer chain s e)
  | .newBlock (some _) | .blockResults _ _ => inferInstanceAs (Decidable (∀ _ ∈ _, _))
  | .newBlock none | .start _ | .stop | .queryFails => inferInstanceAs (Decidable True)

/-- Everything up to either cursor is relayed, a block is asked for right after the cursor, and there
    is no cursor before a block was seen. -/
structure Sound (chain : CosmosChain) (s : State) : Prop where
  stored : ∀ first ∈ s.firstSeen, ∀ last ∈ s.db, Covered (burnLocks chain) (done s) first (last + 1)
  running : ∀ first ∈ s.firstSeen, ∀ loop ∈ s.loop, loop.lastProcessedBlock ≠ 0 →
    Covered (burnLocks chain) (done s) first (loop.lastProcessedBlock + 1)
  scanning : ∀ loop ∈ s.loop, ∀ range ∈ loop.scan,
    loop.lastProcessedBlock ≠ 0 ∧ range.1 = loop.lastProcessedBlock + 1
  unseen : s.firstSeen = none → s.db = none ∧ ∀ loop ∈ s.loop, loop.lastProcessedBlock = 0

section Rounds
variable {relayer : Relayer} {chain : CosmosChain} {s : State}

theorem handleBlock_relayable {height : ℕ} {answers : ℕ → MsgAnswers}
    (relayable : ∀ entry ∈ chain.events height, place height entry ∉ done s → Relayable relayer answers entry) :
    ∀ p ∈ burnLocks chain height,
      p ∈ done s ∨ p ∈ (handleBlock relayer chain height answers).map Sent.place := by
  intro p member
  obtain ⟨entry, burnLock, rfl⟩ := List.mem_map.mp member
  by_cases before : place height entry ∈ done s
  · exact Or.inl before
  right
  obtain ⟨inside, kind⟩ := List.mem_filter.mp burnLock
  obtain ⟨claimType, typed⟩ := Option.isSome_iff_exists.mp kind
  obtain ⟨readable, deliver⟩ := relayable entry inside before claimType typed
  have handled := deliver_handled _ deliver
  cases read : relayer.burnLockEventToCosmosMsg ⟨claimType, entry.1.attributes⟩ with
  | error e =>
    rw [read] at readable
    cases readable
  | ok cosmosMsg =>
    apply List.mem_map.mpr
    refine ⟨⟨place height entry, cosmosMsg⟩, ?_, rfl⟩
    apply List.mem_filterMap.mpr
    exact ⟨entry, inside, by simp [handleEvent, typed, read, handled, place]⟩

theorem nextBlock_scan {last blockHeight : ℕ} : ∀ range ∈ (nextBlock last blockHeight).scan,
    range.1 = last + 1 ∧ last + 1 ≤ blockHeight := by
  intro range member
  simp only [nextBlock] at member
  split at member
  · cases member
    exact ⟨rfl, by assumption⟩
  · cases member

theorem stop_sound (sound : Sound chain s) : Sound chain { s with loop := none } where
  stored := sound.stored
  running := by simp
  scanning := by simp
  unseen never := ⟨(sound.unseen never).1, by simp⟩

theorem start_sound (read : Bool) (sound : Sound chain s) :
    Sound chain { s with loop := some ⟨if read then s.db.getD 0 else 0, none⟩ } where
  stored := sound.stored
  running := by
    intro first seen loop running
    obtain rfl := Option.some.inj running
    cases read with
    | false => simp
    | true =>
      cases saved : s.db with
      | none => simp
      | some last => exact fun _ => sound.stored first seen last saved
  scanning := by
    intro loop running
    obtain rfl := Option.some.inj running
    simp
  unseen := by
    intro never
    have unsaved := (sound.unseen never).1
    refine ⟨unsaved, ?_⟩
    intro loop running
    obtain rfl := Option.some.inj running
    simp [unsaved]

theorem received_sound {last blockHeight : ℕ} (running : s.loop = some ⟨last, none⟩) (sound : Sound chain s)
    (idle : last = 0 → Idle (remaining (burnLocks chain) (done s)) (s.firstSeen.getD blockHeight) (blockHeight + 1)) :
    Sound chain { s with
      loop := some (nextBlock (if last = 0 then blockHeight else last) blockHeight)
      firstSeen := some (s.firstSeen.getD blockHeight) } where
  stored := by
    intro first seen saved found
    obtain rfl := Option.some.inj seen
    cases told : s.firstSeen with
    | none =>
      have unsaved := (sound.unseen told).1
      rw [unsaved] at found
      cases found
    | some f => exact sound.stored f told saved found
  running := by
    intro first seen loop started
    obtain rfl := Option.some.inj seen
    obtain rfl := Option.some.inj started
    intro _
    by_cases unset : last = 0
    · simp only [unset, if_true, nextBlock]
      exact covered_of_idle (idle unset)
    · simp only [unset, if_false, nextBlock]
      cases told : s.firstSeen with
      | none => exact absurd ((sound.unseen told).2 _ running) unset
      | some f => exact sound.running f told _ running unset
  scanning := by
    intro loop started range scanned
    obtain rfl := Option.some.inj started
    obtain ⟨next, below⟩ := nextBlock_scan range scanned
    refine ⟨?_, next⟩
    by_cases unset : last = 0
    · simp only [unset, if_true] at below
      omega
    · simp [unset, nextBlock]
  unseen := by
    intro never
    cases never

theorem onNewBlock_sound {blockHeight : Option ℕ} (lossless : Lossless relayer chain s (.newBlock blockHeight))
    (sound : Sound chain s) : Sound chain (onNewBlock blockHeight s) := by
  unfold onNewBlock
  split
  · rename_i last height running
    exact received_sound running sound (lossless _ running rfl)
  · exact stop_sound sound
  · exact sound

section Results
variable {answers : ℕ → MsgAnswers} {saved : Bool} {last blockNumber blockHeight : ℕ}

theorem block_reached (running : s.loop = some ⟨last, some (blockNumber, blockHeight)⟩)
    (lossless : Lossless relayer chain s (.blockResults answers saved)) (sound : Sound chain s) (first : ℕ)
    (seen : first ∈ s.firstSeen) : Covered (burnLocks chain)
      ((s.relayed ++ handleBlock relayer chain blockNumber answers).map Sent.place) first (blockNumber + 1) := by
  obtain ⟨set, next⟩ := sound.scanning _ running (blockNumber, blockHeight) rfl
  have handled := handleBlock_relayable (lossless _ running (blockNumber, blockHeight) rfl)
  rw [List.map_append]
  apply covered_advance (covered_append (sound.running first seen _ running set))
  intro b lower upper p member
  obtain rfl : b = blockNumber := by
    simp only at next lower
    omega
  exact List.mem_append.mpr (handled p member)

theorem scanning_seen (running : s.loop = some ⟨last, some (blockNumber, blockHeight)⟩) (sound : Sound chain s) :
    s.firstSeen ≠ none := by
  intro never
  exact (sound.scanning _ running (blockNumber, blockHeight) rfl).1 ((sound.unseen never).2 _ running)

theorem moved_sound {relayed : List Sent} (positive : blockNumber ≠ 0) (seen : s.firstSeen ≠ none)
    (reached : ∀ first ∈ s.firstSeen, Covered (burnLocks chain) (relayed.map Sent.place) first (blockNumber + 1)) :
    Sound chain { s with
      relayed := relayed, db := some blockNumber, loop := some (nextBlock blockNumber blockHeight) } where
  stored := by
    intro first told last stored
    obtain rfl := Option.some.inj stored
    exact reached first told
  running := by
    intro first told loop started
    obtain rfl := Option.some.inj started
    exact fun _ => reached first told
  scanning := by
    intro loop started range scanned
    obtain rfl := Option.some.inj started
    exact ⟨positive, (nextBlock_scan range scanned).1⟩
  unseen never := absurd never seen

theorem unsaved_sound (more : List Sent) (seen : s.firstSeen ≠ none) (sound : Sound chain s) :
    Sound chain { s with relayed := s.relayed ++ more, loop := none } where
  stored := by
    intro first told last stored
    change Covered _ (List.map _ (_ ++ _)) _ _
    rw [List.map_append]
    exact covered_append (sound.stored first told last stored)
  running := by simp
  scanning := by simp
  unseen never := absurd never seen

theorem onBlockResults_sound (lossless : Lossless relayer chain s (.blockResults answers saved))
    (sound : Sound chain s) : Sound chain (onBlockResults relayer chain answers saved s) := by
  unfold onBlockResults
  split
  · rename_i last blockNumber blockHeight running
    have seen := scanning_seen running sound
    cases saved with
    | true =>
      have next := (sound.scanning _ running (blockNumber, blockHeight) rfl).2
      exact moved_sound (by simp only at next; omega) seen (block_reached running lossless sound)
    | false => exact unsaved_sound _ seen sound
  · exact sound

end Results

theorem step_sound (e : Event) (lossless : Lossless relayer chain s e) (sound : Sound chain s) :
    Sound chain (step relayer chain e s) := by
  cases e with
  | start read => exact start_sound read sound
  | stop => exact stop_sound sound
  | newBlock blockHeight => exact onNewBlock_sound lossless sound
  | queryFails => exact sound
  | blockResults answers saved => exact onBlockResults_sound lossless sound

/-- In a run from a fresh database in which no step loses anything, every burn and lock up to the
    stored cursor, from the first block seen on, was relayed. -/
theorem run_sound (events : List Event)
    (lossless : EventRuns.Guarded (step relayer chain) (Lossless relayer chain) events fresh) :
    Sound chain (EventRuns.run (step relayer chain) events fresh) := by
  apply EventRuns.run_preserves (step relayer chain) (Lossless relayer chain) (Sound chain) _ events fresh lossless
  · exact ⟨by simp [fresh], by simp [fresh], by simp [fresh], fun _ => ⟨rfl, by simp [fresh]⟩⟩
  · intro s e met now
    exact step_sound e met now

end Rounds

end CosmosSub
end FuryNode
