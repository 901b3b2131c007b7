import FuryNode.EthBridge.PlainBridge
import FuryNode.EthBridge.Transfers
import Mathlib.Data.List.Dedup

/-!
Which transfers the contract can tell apart. Within a transaction all events of a sender carry
one sequence, and it has gone up in every later one, so only messages of one transaction can
be relayed as the same claim.
-/
namespace FuryNode
open StatefulProgram StatefulProgram.Prog TransferKeeper
variable {β : Type} {env : TransferEnv β}

def Relayer.relayedSymbol (relayer : Relayer) (m : TransferMsg) : String :=
  match m.kind with
  | .lock => relayer.furynetToEthereum m.transfer.symbol
  | .burn => Relayer.afterPrefix m.transfer.symbol

def Relayer.claimOf (relayer : Relayer) (m : TransferMsg) (sequence : ℕ) : CosmosMsg where
  claimType := m.kind
  cosmosSender := m.transfer.cosmosSender
  cosmosSenderSequence := some (sequence : ℤ)
  ethereumReceiver := relayer.geth.hexToAddress m.transfer.ethereumReceiver
  symbol := relayer.relayedSymbol m
  amount := some m.transfer.amount

theorem isHexAddress_agree {geth geth' : Geth} {text : String} (accepted : geth.isHexAddress text = true) :
    geth'.isHexAddress text = true :=
  (geth'.isHexAddress_iff text).mpr ((geth.isHexAddress_iff text).mp accepted)

theorem validateBasic_relayable {geth : Geth} (relayer : Relayer) {m : TransferMsg}
    (accepted : m.validateBasic geth = .ok ()) :
    relayer.geth.isHexAddress m.transfer.ethereumReceiver = true ∧
      relayer.translate m.kind m.transfer.symbol = .ok (relayer.relayedSymbol m) := by
  obtain ⟨kind, m⟩ := m
  cases kind with
  | lock =>
    simp only [TransferMsg.validateBasic, Transfer.validateLock, except_bind_succeeds, check_succeeds] at accepted
    obtain ⟨_, _, _, _, _, _, _, hex, _⟩ := accepted
    exact ⟨isHexAddress_agree hex, rfl⟩
  | burn =>
    simp only [TransferMsg.validateBasic, Transfer.validateBurn, except_bind_succeeds, check_succeeds] at accepted
    obtain ⟨_, _, _, _, _, _, _, hex, _, _, _, _, _, start, _⟩ := accepted
    refine ⟨isHexAddress_agree hex, ?_⟩
    have pegged : Relayer.defaultFurynetPrefix ∈ m.symbol.toList :=
      List.mem_of_mem_take (start ▸ (by decide : 'c' ∈ BridgeKeeper.peggedCoinPrefix.toList))
    simp [Relayer.translate, Relayer.relayedSymbol, pegged]

example : Relayer.afterPrefix "ceth" = "eth" := by decide +kernel

section Attributes
variable (relayer : Relayer) (p : Relayer.Parsed)

theorem read_sender (text : String) : relayer.readAttribute p ("cosmos_sender", text) =
    .ok ⟨{ p.msg with cosmosSender := text }, p.attributeNumber + 1⟩ := rfl

theorem read_sequence (n : ℕ) : relayer.readAttribute p ("cosmos_sender_sequence", toString n) =
    .ok ⟨{ p.msg with cosmosSenderSequence := some (n : ℤ) }, p.attributeNumber + 1⟩ := by
  simp only [Relayer.readAttribute, String.reduceEq, reduceIte, relayer.setString_print]

theorem read_receiver (text : String) (hex : relayer.geth.isHexAddress text = true) :
    relayer.readAttribute p ("ethereum_receiver", text) =
      .ok ⟨{ p.msg with ethereumReceiver := relayer.geth.hexToAddress text }, p.attributeNumber + 1⟩ := by
  simp only [Relayer.readAttribute, String.reduceEq, reduceIte, hex]

theorem read_symbol {text symbol : String}
    (translated : relayer.translate p.msg.claimType text = .ok symbol) :
    relayer.readAttribute p ("symbol", text) =
      .ok ⟨{ p.msg with symbol := symbol }, p.attributeNumber + 1⟩ := by
  simp only [Relayer.readAttribute, String.reduceEq, reduceIte, translated]

theorem read_amount (i : SdkInt) : relayer.readAttribute p ("amount", toString i.value) =
    .ok ⟨{ p.msg with amount := some i }, p.attributeNumber + 1⟩ := by
  simp only [Relayer.readAttribute, String.reduceEq, reduceIte, relayer.newInt_print]

end Attributes

theorem relayed_event (geth : Geth) (relayer : Relayer) (m : TransferMsg) (sequence : ℕ)
    (accepted : m.validateBasic geth = .ok ()) :
    relayer.burnLockEventToCosmosMsg (eventOf m sequence) = .ok (relayer.claimOf m sequence) := by
  obtain ⟨hex, translated⟩ := validateBasic_relayable relayer accepted
  have chainId : ∀ p, relayer.readAttribute p ("ethereum_chain_id", toString m.transfer.ethereumChainId) =
      .ok p := fun _ => rfl
  have gas : ∀ p, relayer.readAttribute p ("ceth_amount", toString m.transfer.cethAmount.value) =
      .ok p := fun _ => rfl
  have parsed : (eventOf m sequence).attributes.foldlM relayer.readAttribute (Relayer.blank m.kind) =
      .ok ⟨relayer.claimOf m sequence, 5⟩ := by
    simp only [eventOf, List.foldlM_cons, List.foldlM_nil, chainId, read_sender, read_sequence,
      read_receiver relayer _ _ hex, read_amount, gas, bind, Except.bind]
    rw [read_symbol relayer _ translated]
    rfl
  simp only [Relayer.burnLockEventToCosmosMsg, except_bind_succeeds]
  exact ⟨_, parsed, rfl⟩

/-! The handlers leave the accounts alone. -/

theorem onBank_scope {call : β → Except BankFailure β} :
    Preserves (fun s : TransferState β => s.accounts) (onBank call) := by
  refine preserves_read_then (fun s => ?_)
  split
  · exact preserves_modify (fun _ => rfl)
  · exact preserves_fail
  · exact preserves_fail

theorem payGas_scope (sender : AccAddress) (m : TransferMsg) :
    Preserves (fun s : TransferState β => s.accounts) (payGas env sender m) := by
  refine preserves_read_then (fun s => ?_)
  split
  · refine preserves_ofExcept_then (fun _ => preserves_ofExcept_then (fun _ => ?_))
    refine preserves_bind onBank_scope (fun _ => preserves_ofExcept_then (fun _ => ?_))
    exact preserves_ofExcept
  · apply preserves_ite
    · exact preserves_ofExcept_then (fun _ => preserves_bind preserves_ofExcept
        (fun _ => preserves_ofExcept))
    · exact preserves_ofExcept_then (fun _ => preserves_bind preserves_ofExcept
        (fun _ => preserves_ofExcept))

theorem process_scope (sender : AccAddress) (m : TransferMsg) :
    Preserves (fun s : TransferState β => s.accounts) (process env sender m) := by
  refine preserves_read_then (fun s => preserves_require_then (fun _ => ?_))
  refine preserves_bind (payGas_scope sender m) (fun _ => preserves_bind onBank_scope (fun _ => ?_))
  refine preserves_ofExcept_then (fun _ => preserves_ofExcept_then (fun _ => ?_))
  exact onBank_scope

def senderSequence (env : TransferEnv β) (accounts : AccAddress → Option ℕ) (m : TransferMsg) : Option ℕ :=
  (env.chain.accAddressFromBech32 m.transfer.cosmosSender).bind accounts

theorem handle_emits {m : TransferMsg} {s t : TransferState β} {event : TransferEvent}
    (run : (handle env m).run s = (.ok event, t)) :
    t.accounts = s.accounts ∧ ∃ n, senderSequence env s.accounts m = some n ∧ event = eventOf m n := by
  simp only [handle, read_then, require_then, ofExcept_then] at run
  obtain ⟨_, _, _, sender, decoded, sequence, found, tail⟩ := run
  obtain ⟨_, r, processed, last⟩ := bind_ok tail
  obtain ⟨rfl, rfl⟩ := pure_succeeds.mp last
  have kept := @process_scope β env sender m s
  rw [processed] at kept
  refine ⟨kept, sequence, ?_, rfl⟩
  have address : env.chain.accAddressFromBech32 m.transfer.cosmosSender = some sender := by
    cases decode : env.chain.accAddressFromBech32 m.transfer.cosmosSender with
    | none => simp [decode] at decoded
    | some a => simpa [decode] using decoded
  rw [senderSequence, address, Option.bind_some]
  cases account : s.accounts sender with
  | none => simp [account] at found
  | some n => simpa [account] using found

theorem handleAll_emits (msgs : List TransferMsg) (s t : TransferState β) (events result : List TransferEvent)
    (run : (accumulate (fun events m => do
      let event ← handle env m
      pure (events ++ [event])) events msgs : TransferAction β _).run s = (.ok result, t)) :
    t.accounts = s.accounts ∧
      result = events ++ msgs.map (fun m => eventOf m ((senderSequence env s.accounts m).getD 0)) := by
  induction msgs generalizing s events with
  | nil =>
    obtain ⟨rfl, rfl⟩ := pure_succeeds.mp run
    simp
  | cons m rest ih =>
    obtain ⟨next, r, round, later⟩ := bind_ok run
    obtain ⟨event, q, handled, last⟩ := bind_ok round
    obtain ⟨rfl, rfl⟩ := pure_succeeds.mp last
    obtain ⟨kept, n, sequence, rfl⟩ := handle_emits handled
    obtain ⟨same, emitted⟩ := ih q _ later
    rw [kept] at same emitted
    refine ⟨same, ?_⟩
    rw [emitted, List.map_cons, sequence, Option.getD_some, List.append_assoc, List.singleton_append]

/-! Before the handlers, the sequence of every signer goes up by one. -/

theorem incrementSequence_succeeds {a : AccAddress} {s t : TransferState β} {u : Unit} :
    (incrementSequence a).run s = (.ok u, t) ↔ ∃ n, s.accounts a = some n ∧
      { s with accounts := Function.update s.accounts a (some (n + 1)) } = t := by
  simp only [incrementSequence, read_then, ofExcept_then, modify_succeeds]
  cases s.accounts a <;> simp

theorem incrementAll (signers : List AccAddress) (distinct : signers.Nodup) (s t : TransferState β) (u : Unit)
    (run : (forEach incrementSequence signers).run s = (.ok u, t)) (a : AccAddress) :
    (a ∈ signers → ∃ n, s.accounts a = some n ∧ t.accounts a = some (n + 1)) ∧
      (a ∉ signers → t.accounts a = s.accounts a) := by
  induction signers generalizing s with
  | nil =>
    obtain ⟨_, rfl⟩ := pure_succeeds.mp run
    exact ⟨nofun, fun _ => rfl⟩
  | cons b rest ih =>
    obtain ⟨absent, others⟩ := List.nodup_cons.mp distinct
    obtain ⟨_, r, first, later⟩ := bind_ok run
    obtain ⟨n, found, rfl⟩ := incrementSequence_succeeds.mp first
    obtain ⟨inside, outside⟩ := ih others _ later
    by_cases same : a = b
    · subst same
      refine ⟨fun _ => ⟨n, found, ?_⟩, fun no => absurd (by simp) no⟩
      rw [outside absent]
      exact Function.update_self ..
    · have before : Function.update s.accounts b (some (n + 1)) a = s.accounts a :=
        Function.update_of_ne same ..
      refine ⟨fun member => ?_, fun no => ?_⟩
      · rw [← before]
        exact inside ((List.mem_cons.mp member).resolve_left same)
      · rw [← before]
        exact outside (fun member => no (by simp [member]))

/-- Sequences do not fall. -/
def Grown (before after : AccAddress → Option ℕ) : Prop :=
  ∀ a n, before a = some n → ∃ k, after a = some k ∧ n ≤ k

theorem anteHandler_raises {msgs : List TransferMsg} {s t : TransferState β} {u : Unit}
    (run : (anteHandler env msgs).run s = (.ok u, t)) :
    Grown s.accounts t.accounts ∧ (∀ m ∈ msgs, m.validateBasic env.geth = .ok ()) ∧
      ∀ m ∈ msgs, ∃ a n, env.chain.accAddressFromBech32 m.transfer.cosmosSender = some a ∧
        s.accounts a = some n ∧ t.accounts a = some (n + 1) := by
  simp only [anteHandler, ofExcept_then] at run
  obtain ⟨_, checked, signers, signed, raised⟩ := run
  have raises := incrementAll signers.dedup (List.nodup_dedup _) s t u raised
  refine ⟨fun a n found => ?_, forM_succeeds checked, fun m member => ?_⟩
  · by_cases signer : a ∈ signers.dedup
    · obtain ⟨k, before, after⟩ := (raises a).1 signer
      rw [found] at before
      cases before
      exact ⟨n + 1, after, by omega⟩
    · exact ⟨n, ((raises a).2 signer).trans found, le_rfl⟩
  · obtain ⟨a, inside, decoded⟩ := (mapM_succeeds _ _ _ signed).1 m member
    obtain ⟨n, before, after⟩ := (raises a).1 (List.mem_dedup.mpr inside)
    refine ⟨a, n, ?_, before, after⟩
    cases decode : env.chain.accAddressFromBech32 m.transfer.cosmosSender with
    | none => simp [TransferKeeper.getSigner, decode] at decoded
    | some b => simpa [TransferKeeper.getSigner, decode] using decoded

structure Executed (env : TransferEnv β) (msgs : List TransferMsg) (s t : TransferState β) : Prop where
  valid : ∀ m ∈ msgs, m.validateBasic env.geth = .ok ()
  raised : ∀ m ∈ msgs, ∃ a n, env.chain.accAddressFromBech32 m.transfer.cosmosSender = some a ∧
    s.accounts a = some n ∧ t.accounts a = some (n + 1)

theorem deliverTx_cases (msgs : List TransferMsg) (s : TransferState β) :
    Grown s.accounts (deliverTx env msgs s).1.accounts ∧
      ((deliverTx env msgs s).2 = [] ∨ Executed env msgs s (deliverTx env msgs s).1 ∧
        (deliverTx env msgs s).2 = msgs.map (fun m =>
          eventOf m ((senderSequence env (deliverTx env msgs s).1.accounts m).getD 0))) := by
  rcases ante : (anteHandler env msgs).run s with ⟨outcome, t⟩
  cases outcome with
  | error e =>
    simp only [deliverTx, ante]
    exact ⟨fun a n found => ⟨n, found, le_rfl⟩, .inl trivial⟩
  | ok u =>
    obtain ⟨grown, valid, raised⟩ := anteHandler_raises ante
    rcases handled : (handleAll env msgs).run t with ⟨result, v⟩
    cases result with
    | error e =>
      simp only [deliverTx, ante, handled]
      exact ⟨grown, .inl trivial⟩
    | ok events =>
      obtain ⟨same, emitted⟩ := handleAll_emits msgs t v [] events handled
      simp only [deliverTx, ante, handled, same]
      exact ⟨grown, .inr ⟨⟨valid, same ▸ raised⟩, emitted⟩⟩

theorem step_grown (e : OutgoingEvent β) (s : TransferState β) :
    Grown s.accounts (e.step env s).accounts := by
  cases e with
  | deliverTx msgs => exact (deliverTx_cases msgs s).1
  | elsewhere next =>
    intro a n found
    show ∃ k, laterSequence (s.accounts a) (next.accounts a) = some k ∧ n ≤ k
    rw [found]
    cases next.accounts a with
    | none => exact ⟨n, rfl, le_rfl⟩
    | some later => exact ⟨max n later, rfl, le_max_left _ _⟩

def Relayer.outline (relayer : Relayer) (m : TransferMsg) :
    TransferKind × String × EthereumAddress × String × SdkInt :=
  (m.kind, m.transfer.cosmosSender, relayer.geth.hexToAddress m.transfer.ethereumReceiver,
    relayer.relayedSymbol m, m.transfer.amount)

def OutgoingEvent.Distinct (relayer : Relayer) : OutgoingEvent β → Prop
  | .deliverTx msgs => (msgs.map relayer.outline).Nodup
  | .elsewhere _ => True

theorem claimOf_outline {relayer : Relayer} {m k : TransferMsg} {i j : ℕ}
    (same : relayer.claimOf m i = relayer.claimOf k j) : relayer.outline m = relayer.outline k := by
  simp only [Relayer.claimOf, CosmosMsg.mk.injEq, Option.some.injEq] at same
  obtain ⟨kind, sender, _, receiver, symbol, amount⟩ := same
  rw [Relayer.outline, kind, sender, receiver, symbol, amount, Relayer.outline]

/-- The claims that the relayer makes of the events of one step, each with the sequence that
    its sender has after it and did not have before. -/
theorem step_claims (relayer : Relayer) (e : OutgoingEvent β) (s : TransferState β)
    (distinct : e.Distinct relayer) :
    ∃ claims : List CosmosMsg,
      (e.emitted env s).map relayer.burnLockEventToCosmosMsg = claims.map .ok ∧ claims.Nodup ∧
      ∀ c ∈ claims, ∃ a n, env.chain.accAddressFromBech32 c.cosmosSender = some a ∧
        s.accounts a = some n ∧ (e.step env s).accounts a = some (n + 1) ∧
        c.cosmosSenderSequence = some ((n + 1 : ℕ) : ℤ) := by
  cases e with
  | elsewhere next => exact ⟨[], rfl, List.nodup_nil, nofun⟩
  | deliverTx msgs =>
    rcases (@deliverTx_cases β env msgs s).2 with none | ⟨executed, events⟩
    · exact ⟨[], by simp [OutgoingEvent.emitted, none], List.nodup_nil, nofun⟩
    · refine ⟨msgs.map (fun m => relayer.claimOf m
        ((senderSequence env (deliverTx env msgs s).1.accounts m).getD 0)), ?_, ?_, ?_⟩
      · show (deliverTx env msgs s).2.map _ = _
        rw [events, List.map_map, List.map_map]
        exact List.map_congr_left (fun m member => relayed_event env.geth relayer m _ (executed.valid m member))
      · apply List.pairwise_map.mpr
        apply (List.pairwise_map.mp distinct).imp
        intro m k differ same
        exact differ (claimOf_outline same)
      · intro c member
        obtain ⟨m, inside, rfl⟩ := List.mem_map.mp member
        obtain ⟨a, n, decoded, before, after⟩ := executed.raised m inside
        refine ⟨a, n, decoded, before, after, ?_⟩
        rw [Relayer.claimOf, senderSequence, decoded, Option.bind_some, after, Option.getD_some]

theorem run_claims (relayer : Relayer) (events : List (OutgoingEvent β)) (s : TransferState β)
    (distinct : ∀ e ∈ events, e.Distinct relayer) :
    ∃ claims : List CosmosMsg,
      (emittedIn env events s).map relayer.burnLockEventToCosmosMsg = claims.map .ok ∧ claims.Nodup ∧
      ∀ c ∈ claims, ∀ a n, env.chain.accAddressFromBech32 c.cosmosSender = some a → s.accounts a = some n →
        ∃ k : ℕ, c.cosmosSenderSequence = some (k : ℤ) ∧ n < k := by
  induction events generalizing s with
  | nil => exact ⟨[], rfl, List.nodup_nil, nofun⟩
  | cons e rest ih =>
    obtain ⟨now, relayed, nodup, current⟩ := @step_claims β env relayer e s (distinct e (by simp))
    obtain ⟨later, relayedLater, nodupLater, above⟩ := ih (e.step env s)
      (fun d member => distinct d (by simp [member]))
    refine ⟨now ++ later, ?_, ?_, ?_⟩
    · rw [emittedIn, List.map_append, relayed, relayedLater, List.map_append]
    · refine List.nodup_append.mpr ⟨nodup, nodupLater, ?_⟩
      rintro c member d memberLater rfl
      -- the sender of a claim has its sequence after the step, and later claims are above it
      obtain ⟨a, n, decoded, _, after, sequence⟩ := current c member
      obtain ⟨k, sequenceLater, greater⟩ := above c memberLater a (n + 1) decoded after
      rw [sequence, Option.some.injEq] at sequenceLater
      omega
    · intro c member a n decoded account
      rcases List.mem_append.mp member with first | second
      · obtain ⟨b, k, decodedNow, before, _, sequence⟩ := current c first
        rw [decoded] at decodedNow
        cases decodedNow
        rw [account] at before
        cases before
        exact ⟨n + 1, sequence, Nat.lt_succ_self n⟩
      · obtain ⟨k, after, atLeast⟩ := @step_grown β env e s a n account
        obtain ⟨j, sequence, greater⟩ := above c second a k decoded after
        exact ⟨j, sequence, lt_of_le_of_lt atLeast greater⟩

/-- **Transfers told apart.** If the messages of each transaction differ in more than the
    sequence, every executed message is relayed, no two of them as the same claim, and their
    prophecies differ as long as encoding and hash have no collisions. -/
theorem transfers_told_apart (env : TransferEnv β) (relayer : Relayer) (events : List (OutgoingEvent β))
    (s : TransferState β) (distinct : ∀ e ∈ events, e.Distinct relayer) :
    ∃ claims : List CosmosMsg,
      (emittedIn env events s).map relayer.burnLockEventToCosmosMsg = claims.map .ok ∧ claims.Nodup ∧
      ∀ {H : Type} (encode : CosmosMsg → List UInt8) (keccak256 : List UInt8 → H),
        Function.Injective encode → Function.Injective keccak256 →
        (claims.map (fun c => keccak256 (encode c))).Nodup := by
  obtain ⟨claims, relayed, nodup, _⟩ := @run_claims β env relayer events s distinct
  refine ⟨claims, relayed, nodup, fun encode keccak256 injective collisionFree => ?_⟩
  exact nodup.map (collisionFree.comp injective)

/-! Transfers of alice over the plain bridge. -/
namespace PlainTransfers

def readDecimal (text : String) : ℤ :=
  match text.toList with
  | '-' :: rest => -(Nat.ofDigitChars 10 rest 0 : ℤ)
  | digits => (Nat.ofDigitChars 10 digits 0 : ℤ)

theorem readDecimal_nat (n : ℕ) : readDecimal (toString n) = n := by
  have digits : (toString n).toList = Nat.toDigits 10 n := by
    rw [show toString n = n.repr from rfl, Nat.repr_eq_ofList_toDigits, String.toList_ofList]
  rw [readDecimal, digits]
  split
  next rest minus =>
    have sign := Nat.isDigit_of_mem_toDigits (b := 10) (n := n) (c := '-') (by decide) (by decide)
      (by rw [minus]; simp)
    exact absurd sign (by decide)
  next => rw [Nat.ofDigitChars_ten_toDigits]

theorem readDecimal_int (i : ℤ) : readDecimal (toString i) = i := by
  cases i with
  | ofNat n => exact readDecimal_nat n
  | negSucc n =>
    have text : (toString (Int.negSucc n)).toList = '-' :: Nat.toDigits 10 n.succ := by
      rw [show toString (Int.negSucc n) = "-" ++ n.succ.repr from rfl, String.toList_append,
        Nat.repr_eq_ofList_toDigits, String.toList_ofList, String.toList_ofList]
      rfl
    rw [readDecimal, text]
    show -((Nat.ofDigitChars 10 (Nat.toDigits 10 n.succ) 0 : ℕ) : ℤ) = _
    rw [Nat.ofDigitChars_ten_toDigits]
    rfl

example : readDecimal "-120" = -120 := by decide +kernel

def relayer : Relayer where
  geth := PlainBridge.geth
  symbolTable _ := none
  setString text := some (readDecimal text)
  newIntFromString text :=
    if fits : (readDecimal text).natAbs < 2 ^ 256 then some ⟨readDecimal text, fits⟩ else none
  setString_print n := congrArg some (readDecimal_nat n)
  newInt_print i := by
    simp only [readDecimal_int, i.fits, dite_true]

def bridge : TransferEnv LedgerBank.Balances where
  toBridgeEnv := PlainBridge.env
  sendCoins b sender recipient coins := LedgerBank.transfer b sender recipient coins

def start : TransferState LedgerBank.Balances where
  bank a d := if a = ⟨[1]⟩ ∧ (d = "cusd" ∨ d = "ceth") then 10 ^ 20 else 0
  accounts a := if a = ⟨[1]⟩ then some 7 else none
  peggyTokens := ["cusd", "ceth"]
  oracle := PlainOracle.genesis
  paused := false
  blacklist := []
  cethReceiverAccount := none

def burn (amount : ℕ) (small : amount < 2 ^ 256) : TransferMsg :=
  ⟨.burn, ⟨1, "alice", nullAddress, ⟨amount, by simpa using small⟩, "cusd", ⟨burnGasCost, by decide⟩⟩⟩

end PlainTransfers

/-- Two burns of different amounts in one transaction. -/
theorem transfers_told_apart_amounts :
    let events := [OutgoingEvent.deliverTx [PlainTransfers.burn 5 (by decide), PlainTransfers.burn 6 (by decide)]]
    (emittedIn PlainTransfers.bridge events PlainTransfers.start).length = 2 ∧
    ∃ claims : List CosmosMsg,
      (emittedIn PlainTransfers.bridge events PlainTransfers.start).map
        PlainTransfers.relayer.burnLockEventToCosmosMsg = claims.map .ok ∧ claims.Nodup := by
  intro events
  refine ⟨by decide +kernel, ?_⟩
  obtain ⟨claims, relayed, nodup, _⟩ := transfers_told_apart PlainTransfers.bridge PlainTransfers.relayer
    events PlainTransfers.start (by
      intro e member
      cases List.mem_singleton.mp member
      show (List.map PlainTransfers.relayer.outline _).Nodup
      decide +kernel)
  exact ⟨claims, relayed, nodup⟩

/-- Alice burns five twice in one transaction: ten are burned, and both events are the same
    claim. A burn of another amount in the transaction passes for processed, too. -/
theorem repeated_burn_swallowed :
    let five := PlainTransfers.burn 5 (by decide)
    let six := PlainTransfers.burn 6 (by decide)
    let events := [OutgoingEvent.deliverTx [five, five]]
    let after := OutgoingEvent.step PlainTransfers.bridge (.deliverTx [five, five]) PlainTransfers.start
    PlainTransfers.start.bank ⟨[1]⟩ "cusd" = after.bank ⟨[1]⟩ "cusd" + 10 ∧
    (emittedIn PlainTransfers.bridge events PlainTransfers.start).map
      PlainTransfers.relayer.burnLockEventToCosmosMsg =
        [.ok (PlainTransfers.relayer.claimOf five 8), .ok (PlainTransfers.relayer.claimOf five 8)] ∧
    Relayer.messageProcessed (PlainTransfers.relayer.claimOf six 8) [("alice", 8)] = true := by
  intro five six events after
  have emitted : emittedIn PlainTransfers.bridge events PlainTransfers.start = [eventOf five 8, eventOf five 8] := by
    decide +kernel
  refine ⟨by decide +kernel, ?_, by decide +kernel⟩
  rw [emitted, List.map_cons, List.map_cons, List.map_nil,
    relayed_event PlainBridge.geth PlainTransfers.relayer five 8 (by decide +kernel)]

end FuryNode
