import FuryNode.EthBridge.Keeper
import FuryNode.Library.BlockCursor
import FuryNode.Library.EventRuns

/-!
The relayer from Ethereum. It follows the heads of the chain fifty blocks behind, reads the logs
of the bridge bank from its cursor on, broadcasts a claim for every burn and lock it can read, and
stores its cursor. What the node, the database and the other chain answer is part of each event of
a run.
-/
namespace FuryNode
open StatefulProgram BlockCursor
variable {β : Type}

/-- `ctypes.Log`. -/
structure EthLog where
  blockNumber : ℕ
  index : ℕ
  topics : List String
  data : List UInt8
  deriving DecidableEq, Repr

/-- The logs of the bridge bank, block by block. A log is known by its block and index. -/
structure EthereumChain where
  logs : ℕ → List EthLog
  numbered : ∀ b, ∀ log ∈ logs b, log.blockNumber = b
  indexed : ∀ b, ((logs b).map EthLog.index).Nodup

/-- The fields of `EthereumEvent` that are unpacked from the data of a log. -/
structure UnpackedEvent where
  to' : String
  symbol : String
  value : ℕ
  nonce : ℕ
  from' : EthereumAddress
  token : EthereumAddress
  value_fits : value < 2 ^ 256
  deriving DecidableEq

structure EthereumEvent extends UnpackedEvent where
  ethereumChainID : ℕ
  bridgeContractAddress : EthereumAddress
  claimType : ClaimType
  deriving DecidableEq

/-- What the relayer is run with: the bridge it relays to, the contract it watches, the decoder of
    its ABI, the symbol table, and the functions of Go and go-ethereum it calls. -/
structure EthereumSub (β : Type) where
  bridge : BridgeEnv β
  clientChainID : ℕ
  bridgeBankAddress : EthereumAddress
  eventLogBurnSignature : String
  eventLogLockSignature : String
  unpackIntoInterface : EthLog → Option UnpackedEvent
  ethereumToFurynet : String → String
  hex : EthereumAddress → String
  toLower : String → String
  int64 : ℕ → ℤ
  int64_small : ∀ n < 2 ^ 63, int64 n = n

inductive LogFailure where
  /-- `cLog.Topics[0]` on a log without topics. -/
  | panic
  | unpack
  deriving DecidableEq, Repr

inductive ConvertFailure where
  | recipient
  | emptyRecipient
  | ethTokenAddress
  deriving DecidableEq, Repr

namespace EthereumSub
variable (sub : EthereumSub β)

def trailingBlocks : ℕ := 50

def claimTypeOf (topic : String) : Option ClaimType :=
  if topic = sub.eventLogBurnSignature then some .burn
  else if topic = sub.eventLogLockSignature then some .lock
  else none

/-- `logToEvent`: no event if the log is neither a burn nor a lock. -/
def logToEvent (cLog : EthLog) : Except LogFailure (Option EthereumEvent) :=
  match cLog.topics with
  | [] => .error .panic
  | topic :: _ =>
    match sub.claimTypeOf topic with
    | none => .ok none
    | some claimType =>
      match sub.unpackIntoInterface cLog with
      | none => .error .unpack
      | some event => .ok (some ⟨event, sub.clientChainID, sub.bridgeBankAddress, claimType⟩)

/-- `ethbridge.NewEthereumAddress(a.Hex()).String()`. -/
def addressText (a : EthereumAddress) : String := sub.hex (sub.bridge.geth.hexToAddress (sub.hex a))

def claimSymbol (event : EthereumEvent) : Except ConvertFailure String :=
  match event.claimType with
  | .lock =>
    if sub.toLower event.symbol = "eth" ∧ event.token ≠ sub.bridge.geth.hexToAddress nullAddress then
      .error .ethTokenAddress
    else .ok (sub.toLower event.symbol)
  | .burn => .ok (sub.ethereumToFurynet event.symbol)
  | .unspecified => .ok event.symbol

def ethereumEventToEthBridgeClaim (valAddr : String) (event : EthereumEvent) : Except ConvertFailure EthBridgeClaim := do
  let recipient ← (sub.bridge.chain.accAddressFromBech32 event.to').elim (.error .recipient) .ok
  check (recipient.bytes ≠ []) .emptyRecipient
  let symbol ← sub.claimSymbol event
  pure {
    ethereumChainId := sub.int64 event.ethereumChainID
    bridgeContractAddress := sub.addressText event.bridgeContractAddress
    nonce := sub.int64 event.nonce
    symbol := symbol
    tokenContractAddress := sub.addressText event.token
    ethereumSender := sub.addressText event.from'
    cosmosReceiver := sub.bridge.chain.addressString recipient
    validatorAddress := valAddr
    amount := event.value
    claimType := event.claimType }

structure Sent where
  log : EthLog
  claim : EthBridgeClaim
  deriving DecidableEq

/-- The answer to a broadcast. One that is returned is not looked into, so a transaction that
    was rejected passes for one that was delivered. -/
inductive Broadcast where
  | failed
  | returned (delivered : Bool)
  deriving DecidableEq, Repr

/-- `RelayToCosmos`: claims that fail their own check are left out, the others go into one
    transaction. Returned are those that reached the chain. -/
def relayToCosmos (claims : List Sent) (broadcast : Broadcast) : Except Unit (List Sent) :=
  let messages := claims.filter (fun sent => sent.claim.validateBasic sub.bridge = .ok ())
  match broadcast with
  | .failed => .error ()
  | .returned delivered => .ok (if delivered then messages else [])

def convert (valAddr : String) (entry : EthLog × EthereumEvent) : Option Sent :=
  match sub.ethereumEventToEthBridgeClaim valAddr entry.2 with
  | .error _ => none
  | .ok claim => some ⟨entry.1, claim⟩

/-- `handleEthereumEvent`, with the address the keyring has for the validator. -/
def handleEthereumEvent (valAddr : Option String) (broadcast : Broadcast) (events : List (EthLog × EthereumEvent)) :
    Except Unit (List Sent) :=
  match valAddr with
  | none => .error ()
  | some valAddr =>
    let prophecyClaims := events.filterMap (sub.convert valAddr)
    if events = [] then .ok [] else sub.relayToCosmos prophecyClaims broadcast

def collectEvent (events : List (EthLog × EthereumEvent)) (ethLog : EthLog) :
    Except LogFailure (List (EthLog × EthereumEvent)) :=
  match sub.logToEvent ethLog with
  | .error .panic => .error .panic
  | .error .unpack => .ok events
  | .ok none => .ok events
  | .ok (some event) => .ok (events ++ [(ethLog, event)])

/-- What is seen of a relayer: its database, its cursor while it runs, the first block it found
    eligible, and what it brought to the other chain. -/
structure State where
  db : Option ℕ
  lastProcessedBlock : Option ℕ
  firstEligible : Option ℕ
  relayed : List Sent

def fresh : State := ⟨none, none, none, []⟩

structure Answers where
  queried : Bool
  valAddr : Option String
  broadcast : Broadcast
  saved : Bool

/-- The cursor of a round: the default is replaced by the last eligible block. -/
def cursor (lastProcessedBlock endingBlock : ℕ) : ℕ :=
  if lastProcessedBlock = 0 then endingBlock else lastProcessedBlock

/-- What a round leaves at the other chain. A failure is only logged. -/
def deliver (events : List (EthLog × EthereumEvent)) (answers : Answers) : List Sent :=
  if events = [] then []
  else (sub.handleEthereumEvent answers.valAddr answers.broadcast events).toOption.getD []

def save (s : State) (endingBlock : ℕ) (saved : Bool) : State :=
  if saved then { s with db := some (endingBlock + 1), lastProcessedBlock := some (endingBlock + 1) }
  else { s with lastProcessedBlock := none }

/-- A round of the loop in `Start` at a new head. -/
def onHead (chain : EthereumChain) (number : ℕ) (answers : Answers) (s : State) : State :=
  match s.lastProcessedBlock with
  | none => s
  | some lastProcessedBlock =>
    if number < trailingBlocks then s
    else
      let endingBlock := number - trailingBlocks
      let start := cursor lastProcessedBlock endingBlock
      let s := { s with
        lastProcessedBlock := some start
        firstEligible := some (s.firstEligible.getD endingBlock) }
      if answers.queried then
        match (scan chain.logs start endingBlock).foldlM sub.collectEvent [] with
        | .error _ => { s with lastProcessedBlock := none }
        | .ok events => save { s with relayed := s.relayed ++ sub.deliver events answers } endingBlock answers.saved
      else s

inductive Event where
  /-- The process starts, and the database can be read or not. -/
  | start (read : Bool)
  | stop
  | head (number : ℕ) (answers : Answers)

def step (chain : EthereumChain) : Event → State → State
  | .start read, s => { s with lastProcessedBlock := some (if read then s.db.getD 0 else 0) }
  | .stop, s => { s with lastProcessedBlock := none }
  | .head number answers, s => sub.onHead chain number answers s

def isBurnLock (log : EthLog) : Bool := log.topics.head?.any (fun topic => (sub.claimTypeOf topic).isSome)

def burnLocks (chain : EthereumChain) (b : ℕ) : List EthLog := (chain.logs b).filter sub.isBurnLock

/-- The log can be read and its claim passes its check; the keyring has the validator and the
    broadcast is delivered. -/
def Relayable (answers : Answers) (log : EthLog) : Prop :=
  answers.broadcast = .returned true ∧ ∃ valAddr ∈ answers.valAddr, ∃ found, sub.logToEvent log = .ok found ∧
    ∃ event ∈ found, ∃ claim, sub.ethereumEventToEthBridgeClaim valAddr event = .ok claim ∧
      claim.validateBasic sub.bridge = .ok ()

def done (s : State) : List EthLog := s.relayed.map Sent.log

/-- The burns and locks of a block that were not relayed yet. -/
def pending (chain : EthereumChain) (s : State) (b : ℕ) : List EthLog := remaining (sub.burnLocks chain) (done s) b

/-- A head loses nothing if no pending burn or lock is skipped where the relayer has no cursor, and
    all those that a query returns can be relayed. -/
def Lossless (chain : EthereumChain) (s : State) : Event → Prop
  | .head number answers => trailingBlocks ≤ number → ∀ last ∈ s.lastProcessedBlock,
      (last = 0 → Idle (sub.pending chain s) (s.firstEligible.getD (number - trailingBlocks)) (number - trailingBlocks)) ∧
      (answers.queried = true → ∀ log ∈ scan (sub.pending chain s) (cursor last (number - trailingBlocks))
        (number - trailingBlocks), sub.Relayable answers log)
  | _ => True

instance (answers : Answers) (log : EthLog) : Decidable (sub.Relayable answers log) :=
  inferInstanceAs (Decidable (_ ∧ _))

instance (chain : EthereumChain) (s : State) : (e : Event) → Decidable (sub.Lossless chain s e)
  | .head _ _ => inferInstanceAs (Decidable (_ ≤ _ → _))
  | .start _ | .stop => inferInstanceAs (Decidable True)

/-- Everything before either cursor is relayed, and there is no cursor before a block was seen. -/
structure Sound (chain : EthereumChain) (s : State) : Prop where
  stored : ∀ first ∈ s.firstEligible, Covered (sub.burnLocks chain) (done s) first (s.db.getD 0)
  running : ∀ first ∈ s.firstEligible,
    Covered (sub.burnLocks chain) (done s) first (s.lastProcessedBlock.getD 0)
  unseen : s.firstEligible = none → s.db = none ∧ s.lastProcessedBlock.getD 0 = 0

section Rounds
variable {sub} {chain : EthereumChain} {s : State} {answers : Answers} {endingBlock : ℕ}

theorem collect_all (logs : List EthLog) (before events : List (EthLog × EthereumEvent))
    (collected : logs.foldlM sub.collectEvent before = .ok events) :
    (∀ entry ∈ before, entry ∈ events) ∧
      ∀ log ∈ logs, ∀ event, sub.logToEvent log = .ok (some event) → (log, event) ∈ events := by
  induction logs generalizing before with
  | nil =>
    obtain rfl := except_pure_succeeds.mp collected
    simp
  | cons log rest ih =>
    rw [List.foldlM_cons, except_bind_succeeds] at collected
    obtain ⟨next, first, later⟩ := collected
    obtain ⟨kept, found⟩ := ih next later
    have grows : ∀ entry ∈ before, entry ∈ next := by
      unfold collectEvent at first
      intro entry member
      split at first
      · cases first
      · cases first
        exact member
      · cases first
        exact member
      · cases first
        exact List.mem_append_left _ member
    constructor
    · intro entry member
      exact kept entry (grows entry member)
    · intro other member event read
      rcases List.mem_cons.mp member with same | after
      · subst same
        apply kept
        simp only [collectEvent, read, Except.ok.injEq] at first
        subst first
        simp
      · exact found other after event read

theorem deliver_relayable {logs : List EthLog} {events : List (EthLog × EthereumEvent)}
    (collected : logs.foldlM sub.collectEvent [] = .ok events) {log : EthLog} (member : log ∈ logs)
    (relayable : sub.Relayable answers log) : log ∈ (sub.deliver events answers).map Sent.log := by
  obtain ⟨delivered, valAddr, keyring, found, read, event, isEvent, claim, converted, valid⟩ := relayable
  obtain rfl := Option.mem_def.mp isEvent
  have inside := (collect_all logs [] events collected).2 log member event read
  have nonempty : events ≠ [] := List.ne_nil_of_mem inside
  have sent : sub.convert valAddr (log, event) = some ⟨log, claim⟩ := by
    simp [convert, converted]
  apply List.mem_map.mpr
  refine ⟨⟨log, claim⟩, ?_, rfl⟩
  simp only [deliver, nonempty, handleEthereumEvent, Option.mem_def.mp keyring, relayToCosmos, delivered, if_true,
    if_false, Except.toOption, Option.getD_some, List.mem_filter, List.mem_filterMap, decide_eq_true_eq]
  exact ⟨⟨(log, event), inside, sent⟩, valid⟩

def begun (s : State) (last endingBlock : ℕ) : State :=
  { s with
    lastProcessedBlock := some (cursor last endingBlock)
    firstEligible := some (s.firstEligible.getD endingBlock) }

theorem onHead_cases (number : ℕ) : sub.onHead chain number answers s = s ∨ ∃ last ∈ s.lastProcessedBlock,
    trailingBlocks ≤ number ∧ (sub.onHead chain number answers s = begun s last (number - trailingBlocks) ∨
      sub.onHead chain number answers s = { begun s last (number - trailingBlocks) with lastProcessedBlock := none } ∨
      ∃ events, answers.queried = true ∧ (scan chain.logs (cursor last (number - trailingBlocks))
          (number - trailingBlocks)).foldlM sub.collectEvent [] = .ok events ∧
        sub.onHead chain number answers s = save { begun s last (number - trailingBlocks) with
          relayed := s.relayed ++ sub.deliver events answers } (number - trailingBlocks) answers.saved) := by
  unfold onHead
  cases process : s.lastProcessedBlock with
  | none => exact Or.inl rfl
  | some last =>
    by_cases early : number < trailingBlocks
    · exact Or.inl (if_pos early)
    · right
      refine ⟨last, rfl, not_lt.mp early, ?_⟩
      simp only [early, if_false]
      by_cases queried : answers.queried = true
      · simp only [queried, if_true]
        cases collected : (scan chain.logs (cursor last (number - trailingBlocks))
            (number - trailingBlocks)).foldlM sub.collectEvent [] with
        | error _ => exact Or.inr (Or.inl rfl)
        | ok events => exact Or.inr (Or.inr ⟨events, trivial, rfl, rfl⟩)
      · exact Or.inl (if_neg queried)

theorem begun_sound {last : ℕ} (running : s.lastProcessedBlock = some last) (sound : sub.Sound chain s)
    (idle : last = 0 → Idle (sub.pending chain s) (s.firstEligible.getD endingBlock) endingBlock) :
    sub.Sound chain (begun s last endingBlock) := by
  have seen (first : ℕ) (noted : first ∈ (begun s last endingBlock).firstEligible) :
      s.firstEligible.getD endingBlock = first := Option.some.inj noted
  constructor
  case stored =>
    intro first noted
    cases eligible : s.firstEligible with
    | none =>
      have unsaved := (sound.unseen eligible).1
      simp only [begun, unsaved, Option.getD_none]
      exact covered_zero
    | some f =>
      rw [← seen first noted, eligible]
      exact sound.stored f eligible
  case running =>
    intro first noted
    change Covered _ _ _ (cursor last endingBlock)
    rw [← seen first noted]
    by_cases none : last = 0
    · simp only [cursor, none, if_true]
      exact covered_of_idle (idle none)
    · simp only [cursor, none, if_false]
      cases eligible : s.firstEligible with
      | none =>
        have unset := (sound.unseen eligible).2
        rw [running] at unset
        exact absurd unset none
      | some f =>
        have reached := sound.running f eligible
        rwa [running] at reached
  case unseen =>
    intro never
    cases never

theorem stop_sound (sound : sub.Sound chain s) : sub.Sound chain { s with lastProcessedBlock := none } :=
  ⟨sound.stored, fun _ _ => covered_zero, fun never => ⟨(sound.unseen never).1, rfl⟩⟩

theorem start_sound (read : Bool) (sound : sub.Sound chain s) :
    sub.Sound chain { s with lastProcessedBlock := some (if read then s.db.getD 0 else 0) } := by
  cases read with
  | false => exact ⟨sound.stored, fun _ _ => covered_zero, fun never => ⟨(sound.unseen never).1, rfl⟩⟩
  | true =>
    refine ⟨sound.stored, sound.stored, ?_⟩
    intro never
    have unsaved := (sound.unseen never).1
    exact ⟨unsaved, by simp [unsaved]⟩

theorem save_sound (saved : Bool) (more : List Sent) (seen : s.firstEligible.isSome) (sound : sub.Sound chain s)
    (reached : ∀ first ∈ s.firstEligible, Covered (sub.burnLocks chain) ((s.relayed ++ more).map Sent.log) first
      (endingBlock + 1)) : sub.Sound chain (save { s with relayed := s.relayed ++ more } endingBlock saved) := by
  have kept (c : ℕ) (first : ℕ) (covered : Covered (sub.burnLocks chain) (done s) first c) :
      Covered (sub.burnLocks chain) ((s.relayed ++ more).map Sent.log) first c := by
    rw [List.map_append]
    exact covered_append covered
  have noted (never : s.firstEligible = none) : False := by
    rw [never] at seen
    cases seen
  cases saved with
  | true => exact ⟨reached, reached, fun never => (noted never).elim⟩
  | false =>
    exact ⟨fun first found => kept _ first (sound.stored first found), fun _ _ => covered_zero,
      fun never => (noted never).elim⟩

theorem onHead_sound {number : ℕ} (lossless : sub.Lossless chain s (.head number answers))
    (sound : sub.Sound chain s) : sub.Sound chain (sub.onHead chain number answers s) := by
  rcases onHead_cases number with same | ⟨last, running, late, ended⟩
  · rwa [same]
  · obtain ⟨idle, relayable⟩ := lossless late last running
    have begins := begun_sound running sound idle
    rcases ended with unanswered | crashed | ⟨events, queried, collected, finished⟩
    · rwa [unanswered]
    · rw [crashed]
      exact stop_sound begins
    · rw [finished]
      apply save_sound answers.saved (sub.deliver events answers) rfl begins
      intro first noted
      rw [List.map_append]
      apply covered_advance (covered_append (begins.running first noted))
      intro b lower upper log member
      by_cases before : log ∈ done s
      · exact List.mem_append_left _ before
      -- the block lies in the range that was queried
      have scanned : log ∈ scan chain.logs (cursor last (number - trailingBlocks)) (number - trailingBlocks) :=
        mem_scan.mpr ⟨b, lower, by omega, (List.mem_filter.mp member).1⟩
      have left : log ∈ scan (sub.pending chain s) (cursor last (number - trailingBlocks))
          (number - trailingBlocks) :=
        mem_scan.mpr ⟨b, lower, by omega, List.mem_filter.mpr ⟨member, by simpa using before⟩⟩
      apply List.mem_append_right
      exact deliver_relayable collected scanned (relayable queried log left)

theorem step_sound (e : Event) (lossless : sub.Lossless chain s e) (sound : sub.Sound chain s) :
    sub.Sound chain (sub.step chain e s) := by
  cases e with
  | start read => exact start_sound read sound
  | stop => exact stop_sound sound
  | head number answers => exact onHead_sound lossless sound

/-- In a run from a fresh database in which no round loses anything, every burn and lock below
    the stored cursor, from the first eligible block on, was relayed. -/
theorem run_sound (events : List Event)
    (lossless : EventRuns.Guarded (sub.step chain) (sub.Lossless chain) events fresh) :
    sub.Sound chain (EventRuns.run (sub.step chain) events fresh) := by
  apply EventRuns.run_preserves (sub.step chain) (sub.Lossless chain) (sub.Sound chain) _ events fresh lossless
  · exact ⟨by simp [fresh], by simp [fresh], fun _ => ⟨rfl, rfl⟩⟩
  · intro s e met now
    exact step_sound e met now

end Rounds

end EthereumSub
end FuryNode
