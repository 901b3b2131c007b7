import FuryNode.Dispensation.Keeper

/-!
What the events of x/dispensation can do. A creation is a chain of merged records, a run a
chain of settled ones; everything proved about whole histories goes through these chains and
never looks into a handler.
-/
namespace FuryNode.Dispensation
open StatefulProgram StatefulProgram.Prog KeyedTable KeyedTable.Table
variable {β : Type} (env : DispensationEnv β)
variable {s t : Store β} {r : DistributionRecord} {u : Unit} {status : DistributionStatus}

theorem tryBank_succeeds {call : β → Except BankFailure β} {done : Bool} :
    (tryBank call).run s = (.ok done, t) ↔
      (done = true ∧ ∃ b, call s.bank = .ok b ∧ t = { s with bank := b }) ∨
        (done = false ∧ call s.bank = .error .refused ∧ t = s) := by
  rw [tryBank, read_then]
  cases called : call s.bank with
  | ok b =>
    simp only [modify_then, pure_succeeds]
    constructor
    · rintro ⟨rfl, rfl⟩
      exact Or.inl ⟨rfl, b, rfl, rfl⟩
    · rintro (⟨rfl, b', same, rfl⟩ | ⟨_, impossible, _⟩)
      · cases same
        exact ⟨rfl, rfl⟩
      · cases impossible
  | error failure =>
    cases failure with
    | refused =>
      simp only [pure_succeeds]
      constructor
      · rintro ⟨rfl, rfl⟩
        exact Or.inr ⟨rfl, trivial, rfl⟩
      · rintro (⟨_, b, impossible, _⟩ | ⟨rfl, _, rfl⟩)
        · cases impossible
        · exact ⟨rfl, rfl⟩
    | panicked => simp [fail_succeeds]

theorem wrapped_ok {α : Type} {outer : Err} {p : DispensationAction β α} {a : α} :
    (wrapped outer p).run s = (.ok a, t) ↔ p.run s = (.ok a, t) := by
  simp only [wrapped, bind_succeeds, attempt_succeeds]
  constructor
  · rintro ⟨outcome, r, run, rest⟩
    cases outcome with
    | ok b =>
      obtain ⟨rfl, rfl⟩ := pure_succeeds.mp rest
      exact run
    | error e => exact absurd rest (by simp [fail_succeeds])
  · intro run
    exact ⟨.ok a, t, run, by simp [pure]⟩

theorem setDistributionRecord_succeeds :
    (setDistributionRecord env r).run s = (.ok u, t) ↔
      r.validate env = true ∧ { s with records := s.records.put r } = t := by
  rw [setDistributionRecord, require_then, modify_succeeds]

theorem deleteDistributionRecord_succeeds {name recipient : String} {type : DistributionType} :
    (deleteDistributionRecord name recipient status type).run s = (.ok u, t) ↔
      (s.records.get (getDistributionRecordKey status name recipient type)).isSome = true ∧
        { s with records :=
            s.records.delete (getDistributionRecordKey status name recipient type) } = t := by
  rw [deleteDistributionRecord, read_then, require_then, modify_succeeds]

theorem requireSignature_succeeds {signer : String}
    (run : (requireSignature env signer).run s = (.ok u, t)) :
    t = s ∧ ∀ a, env.accAddressFromBech32 signer = some a → ∀ m, a ≠ env.bank.moduleAddress m := by
  rw [requireSignature, ofExcept_then] at run
  obtain ⟨address, decoded, rest⟩ := run
  obtain ⟨signs, rfl⟩ := require_succeeds.mp rest
  refine ⟨rfl, ?_⟩
  intro a found m same
  rw [(getSigner_succeeds _).mp decoded] at found
  cases found
  rw [same, env.module_cannot_sign] at signs
  cases signs

def settled (records : Table DistributionRecord.key) (r : DistributionRecord) (height : ℤ)
    (status : DistributionStatus) : Table DistributionRecord.key :=
  (records.put { r with distributionStatus := status, distributionCompletedHeight := height }).delete
    r.key

theorem changeRecordStatus_runs (height : ℤ) (status : DistributionStatus)
    (stored : s.records.get r.key = some r) (valid : r.validate env = true) :
    (changeRecordStatus env r height status).run s =
      (.ok (), { s with records := settled s.records r height status }) := by
  rw [changeRecordStatus, bind_succeeds]
  refine ⟨(), { s with records := s.records.put { r with
    distributionStatus := status, distributionCompletedHeight := height } }, ?_, ?_⟩
  · exact wrapped_ok.mpr ((setDistributionRecord_succeeds _).mpr ⟨valid, rfl⟩)
  · refine wrapped_ok.mpr (deleteDistributionRecord_succeeds.mpr ⟨?_, rfl⟩)
    dsimp only
    rw [get_put]
    split
    · rfl
    · exact Option.isSome_iff_exists.mpr ⟨r, stored⟩

inductive DropEffect (env : DispensationEnv β) (height : ℤ) (runner : String)
    (r : DistributionRecord) (s : Store β) : Store β → Prop
  | skipped (undecodable : env.accAddressFromBech32 r.recipientAddress = none) :
      DropEffect env height runner r s s
  | refused :
      DropEffect env height runner r s { s with records := settled s.records r height .failed }
  | paid (recipient : AccAddress) (b : β) (claims : Table UserClaim.key)
      (decoded : env.accAddressFromBech32 r.recipientAddress = some recipient)
      (sent : env.bank.sendCoinsFromModuleToAccount s.bank moduleName recipient r.coins = .ok b) :
      DropEffect env height runner r s { s with
        bank := b
        records := settled s.records r height .completed
        claims := claims
        payouts := s.payouts ++ [⟨r, runner⟩] }

theorem completeDrop_effect (height : ℤ) (recipient : AccAddress) (r : DistributionRecord)
    (s t : Store β) (u : Unit) (stored : s.records.get r.key = some r)
    (valid : r.validate env = true)
    (run : (completeDrop env height recipient r).run s = (.ok u, t)) : ∃ claims, t = { s with
      records := settled s.records r height .completed
      claims := claims } := by
  rw [completeDrop, bind_succeeds] at run
  obtain ⟨outcome, middle, attempted, rest⟩ := run
  rw [attempt_succeeds, changeRecordStatus_runs env height .completed stored valid] at attempted
  cases attempted
  rcases when_succeeds.mp rest with ⟨_, deleted⟩ | ⟨_, rfl⟩
  · exact ⟨_, (modify_succeeds.mp deleted).symm⟩
  · exact ⟨s.claims, rfl⟩

theorem distributeDrop_effect (height : ℤ) (runner : String) (r : DistributionRecord)
    (s t : Store β) (u : Unit) (stored : s.records.get r.key = some r)
    (valid : r.validate env = true)
    (run : (distributeDrop env height runner r).run s = (.ok u, t)) :
    DropEffect env height runner r s t := by
  unfold distributeDrop at run
  cases decoded : env.accAddressFromBech32 r.recipientAddress with
  | none =>
    rw [decoded] at run
    obtain ⟨_, rfl⟩ := pure_succeeds.mp run
    exact .skipped decoded
  | some recipient =>
    rw [decoded] at run
    obtain ⟨done, middle, called, rest⟩ := bind_ok run
    rcases tryBank_succeeds.mp called with ⟨rfl, b, sent, rfl⟩ | ⟨rfl, _, rfl⟩
    · have logged := modify_then.mp rest
      obtain ⟨claims, rfl⟩ := completeDrop_effect env height recipient r
        { s with bank := b, payouts := s.payouts ++ [⟨r, runner⟩] } t u stored valid logged
      exact .paid recipient b claims decoded sent
    · obtain ⟨outcome, last, attempted, marked⟩ := bind_ok rest
      rw [attempt_succeeds, changeRecordStatus_runs env height .failed stored valid] at attempted
      cases attempted
      obtain ⟨_, rfl⟩ := pure_succeeds.mp marked
      exact .refused

theorem settled_get_pending {records : Table DistributionRecord.key} {q : DistributionRecord}
    {height : ℤ} (leaves : status.leading ≠ DistributionStatus.pending.leading)
    (pending : q.distributionStatus = .pending) (other : r.key ≠ q.key) :
    (settled records r height status).get q.key = records.get q.key := by
  have apart : DistributionRecord.key { r with
      distributionStatus := status, distributionCompletedHeight := height } ≠ q.key := by
    intro same
    have bytes := congrArg RecordKey.leading same
    simp only [DistributionRecord.key, getDistributionRecordKey, pending] at bytes
    exact leaves bytes
  rw [settled, get_delete, if_neg other, get_put, if_neg apart]

theorem dropEffect_get_pending (height : ℤ) (runner : String) (r q : DistributionRecord)
    (s t : Store β) (effect : DropEffect env height runner r s t)
    (pending : q.distributionStatus = .pending) (other : r.key ≠ q.key) :
    t.records.get q.key = s.records.get q.key := by
  cases effect with
  | skipped => rfl
  | refused => exact settled_get_pending (by decide) pending other
  | paid => exact settled_get_pending (by decide) pending other

structure Payable (env : DispensationEnv β) (s : Store β) (r : DistributionRecord) : Prop where
  stored : s.records.get r.key = some r
  valid : r.validate env = true
  pending : r.distributionStatus = .pending

inductive Drops (env : DispensationEnv β) (height : ℤ) (runner : String) :
    List DistributionRecord → Store β → Store β → Prop
  | done (s : Store β) : Drops env height runner [] s s
  | next (r : DistributionRecord) (rest : List DistributionRecord) (s t u : Store β)
      (payable : Payable env s r) (effect : DropEffect env height runner r s t)
      (later : Drops env height runner rest t u) : Drops env height runner (r :: rest) s u

theorem drops_of_run (height : ℤ) (runner : String) (selected : List DistributionRecord)
    (s t : Store β) (u : Unit) (distinct : (selected.map DistributionRecord.key).Nodup)
    (payable : ∀ r ∈ selected, Payable env s r)
    (run : (forEach (distributeDrop env height runner) selected).run s = (.ok u, t)) :
    Drops env height runner selected s t := by
  induction selected generalizing s with
  | nil =>
    obtain ⟨_, rfl⟩ := pure_succeeds.mp run
    exact .done s
  | cons r rest ih =>
    obtain ⟨_, middle, first, later⟩ := bind_ok run
    rw [List.map_cons, List.nodup_cons] at distinct
    have now := payable r (by simp)
    have effect := distributeDrop_effect env height runner r s middle _ now.stored now.valid first
    refine .next r rest s middle t now effect (ih middle distinct.2 ?_ later)
    -- the records still to come are other ones, and pending
    intro q member
    have waits := payable q (by simp [member])
    have other : r.key ≠ q.key := by
      intro same
      exact distinct.1 (same ▸ List.mem_map_of_mem member)
    refine ⟨?_, waits.valid, waits.pending⟩
    rw [dropEffect_get_pending env height runner r q s middle effect waits.pending other]
    exact waits.stored

theorem selected_sublist (s : Store β) (name runner : String) (type : DistributionType)
    (status : DistributionStatus) (count : ℤ) :
    (getLimitedRecordsForRunner s name runner type status count).Sublist s.records.rows := by
  unfold getLimitedRecordsForRunner
  dsimp only
  split
  · exact List.filter_sublist.trans List.filter_sublist
  · exact (List.take_sublist _ _).trans (List.filter_sublist.trans List.filter_sublist)

theorem selected_matches {name runner : String} {type : DistributionType} {count : ℤ}
    (member : r ∈ getLimitedRecordsForRunner s name runner type status count) :
    r.distributionName = name ∧ r.distributionStatus = .pending ∧ r.authorizedRunner = runner ∧
      r.distributionType = type := by
  unfold getLimitedRecordsForRunner at member
  dsimp only at member
  split at member
  · exact of_decide_eq_true (List.mem_filter.mp member).2
  · exact of_decide_eq_true (List.mem_filter.mp (List.mem_of_mem_take member)).2

structure Selected (m : MsgRunDistribution) (s : Store β) (r : DistributionRecord) : Prop where
  stored : r ∈ s.records.rows
  name : r.distributionName = m.distributionName
  pending : r.distributionStatus = .pending
  runner : r.authorizedRunner = m.authorizedRunner
  type : r.distributionType = m.distributionType

theorem runDistribution_effect {m : MsgRunDistribution}
    (valid : ∀ r ∈ s.records.rows, r.validate env = true) (run : (m.run env).run s = (.ok u, t)) :
    ∃ selected, Drops env s.height m.authorizedRunner selected s t ∧
      ∀ r ∈ selected, Selected m s r := by
  rw [MsgRunDistribution.run, ofExcept_then] at run
  obtain ⟨_, _, rest⟩ := run
  obtain ⟨_, middle, signed, handled⟩ := bind_ok rest
  obtain ⟨rfl, _⟩ := requireSignature_succeeds env signed
  rw [runDistribution, read_then, distributeDrops, read_then] at handled
  have part := selected_sublist middle m.distributionName m.authorizedRunner m.distributionType
    .pending m.distributionCount
  have own : ∀ r ∈ getLimitedRecordsForRunner middle m.distributionName m.authorizedRunner
      m.distributionType .pending m.distributionCount, Selected m middle r := by
    intro r member
    obtain ⟨name, pending, runner, type⟩ := selected_matches member
    exact ⟨part.subset member, name, pending, runner, type⟩
  refine ⟨_, drops_of_run env _ _ _ _ _ _ (middle.records.distinct.sublist (part.map _)) ?_ handled,
    own⟩
  intro r member
  have chosen := own r member
  exact ⟨get_row chosen.stored, valid r chosen.stored, chosen.pending⟩

/-- The coins of a new record: its own, and those of a pending record under its key. -/
def MergedCoins (records : Table DistributionRecord.key) (record : DistributionRecord)
    (coins : Coins) : Prop :=
  match records.get record.key with
  | some oldRecord => record.coins.addAll oldRecord.coins = .ok coins
  | none => coins = record.coins

def Store.withRecord (s : Store β) (r : DistributionRecord) : Store β :=
  { s with records := s.records.put r }

inductive Deposits (env : DispensationEnv β) (name : String) (type : DistributionType)
    (runner : String) : List Output → Store β → Store β → Prop
  | done (s : Store β) : Deposits env name type runner [] s s
  | next (out : Output) (rest : List Output) (s u : Store β) (coins : Coins)
      (merged : MergedCoins s.records
        (newDistributionRecord type name out.address out.coins s.height runner) coins)
      (valid : (newDistributionRecord type name out.address coins s.height runner).validate env
        = true)
      (later : Deposits env name type runner rest
        (s.withRecord (newDistributionRecord type name out.address coins s.height runner)) u) :
      Deposits env name type runner (out :: rest) s u

theorem createDrop_effect (name : String) (type : DistributionType) (runner : String) (out : Output)
    (s t : Store β) (u : Unit) (run : (createDrop env name type runner out).run s = (.ok u, t)) :
    ∃ coins, MergedCoins s.records
        (newDistributionRecord type name out.address out.coins s.height runner) coins ∧
      (newDistributionRecord type name out.address coins s.height runner).validate env = true ∧
      t = s.withRecord (newDistributionRecord type name out.address coins s.height runner) := by
  rw [createDrop, read_then, ofExcept_then] at run
  obtain ⟨record, made, set⟩ := run
  rw [wrapped_ok, setDistributionRecord_succeeds] at set
  obtain ⟨valid, rfl⟩ := set
  unfold mergedRecord at made
  unfold MergedCoins
  cases found : s.records.get
      (newDistributionRecord type name out.address out.coins s.height runner).key with
  | none =>
    rw [found] at made
    cases made
    exact ⟨out.coins, rfl, valid, rfl⟩
  | some oldRecord =>
    rw [found] at made
    obtain ⟨coins, added, rest⟩ := except_bind_succeeds.mp made
    obtain rfl := except_pure_succeeds.mp rest
    exact ⟨coins, added, valid, rfl⟩

theorem deposits_of_run (name : String) (type : DistributionType) (runner : String)
    (output : List Output) (s t : Store β) (u : Unit)
    (run : (createDrops env output name type runner).run s = (.ok u, t)) :
    Deposits env name type runner output s t := by
  unfold createDrops at run
  induction output generalizing s with
  | nil =>
    obtain ⟨_, rfl⟩ := pure_succeeds.mp run
    exact .done s
  | cons out rest ih =>
    obtain ⟨_, middle, first, later⟩ := bind_ok run
    obtain ⟨coins, merged, valid, rfl⟩ := createDrop_effect env name type runner out s middle _ first
    exact .next out rest s t coins merged valid (ih _ later)

/-- A creation writes records only. -/
theorem deposits_frame (name : String) (type : DistributionType) (runner : String)
    (output : List Output) (s t : Store β) (deposits : Deposits env name type runner output s t) :
    t = { s with records := t.records } := by
  induction deposits with
  | done s => rfl
  | next out rest s u coins merged valid later ih => exact ih

/-- What an accepted creation did: the total of its outputs came from the distributor, who is
    no module, and the records were written. -/
structure CreationEffect (env : DispensationEnv β) (m : MsgCreateDistribution)
    (output : List Output) (s t : Store β) : Prop where
  unused : s.distributions.get (getDistributionsKey (distributionName s.height m.distributor)
    m.distributionType m.authorizedRunner) = none
  deposits : ∃ address total b, (∀ moduleName, address ≠ env.bank.moduleAddress moduleName) ∧
    totalOutput output = .ok total ∧
    env.bank.sendCoinsFromAccountToModule s.bank address moduleName total = .ok b ∧
    Deposits env (distributionName s.height m.distributor) m.distributionType m.authorizedRunner
      output { s with
        bank := b
        distributions := s.distributions.put ⟨m.distributionType,
          distributionName s.height m.distributor, m.authorizedRunner⟩ } t

theorem createDistribution_effect {m : MsgCreateDistribution} (run : (m.run env).run s = (.ok u, t)) :
    ∃ output, m.validateBasic env = .ok output ∧ CreationEffect env m output s t := by
  rw [MsgCreateDistribution.run, ofExcept_then] at run
  obtain ⟨output, validated, rest⟩ := run
  obtain ⟨_, middle, signed, handled⟩ := bind_ok rest
  obtain ⟨rfl, signer⟩ := requireSignature_succeeds env signed
  refine ⟨output, validated, ?_⟩
  rw [createDistribution, read_then] at handled
  obtain ⟨_, verified, set, funded⟩ := bind_ok handled
  rw [verifyAndSetDistribution, read_then, require_then, require_then, modify_succeeds] at set
  obtain ⟨unused, _, rfl⟩ := set
  obtain ⟨total, totalled, accumulated⟩ := ofExcept_then.mp funded
  obtain ⟨_, collected, paid, created⟩ := bind_ok accumulated
  rw [accumulateDrops, ofExcept_then] at paid
  obtain ⟨address, decoded, transfer⟩ := paid
  obtain ⟨sent, after, called, checked⟩ := bind_ok transfer
  obtain ⟨rfl, rfl⟩ := require_succeeds.mp checked
  rcases tryBank_succeeds.mp called with ⟨_, b, moved, rfl⟩ | ⟨impossible, _⟩
  · exact ⟨unused, address, total, b, signer address ((decodeAddress_succeeds _).mp decoded),
      totalled, moved, deposits_of_run env _ _ _ _ _ _ _ created⟩
  · cases impossible

def balance (env : DispensationEnv β) (b : β) (d : String) : ℕ :=
  env.bank.getBalance b (env.bank.moduleAddress moduleName) d

theorem balance_sent (b b' : β) (recipient : AccAddress) (amt : Coins)
    (sent : env.bank.sendCoinsFromModuleToAccount b moduleName recipient amt = .ok b')
    (d : String) : balance env b' d + amountOf amt d = balance env b d := by
  have other : env.bank.moduleAddress moduleName ≠ recipient := by
    intro same
    exact env.bank.fromModule_blocked b b' moduleName moduleName amt (same ▸ sent)
  have moved := env.bank.fromModule_moves b b' _ recipient amt sent
    (env.bank.moduleAddress moduleName) d
  rwa [if_pos rfl, if_neg other, Nat.add_zero] at moved

theorem balance_received {b b' : β} {sender : AccAddress} {amt : Coins}
    (other : sender ≠ env.bank.moduleAddress moduleName)
    (sent : env.bank.sendCoinsFromAccountToModule b sender moduleName amt = .ok b') (d : String) :
    balance env b' d = balance env b d + amountOf amt d := by
  have moved := env.bank.toModule_moves b b' sender _ amt sent
    (env.bank.moduleAddress moduleName) d
  rwa [if_pos rfl, if_neg other.symm, Nat.add_zero] at moved

/-- What distributions are about; blocks and claims do not touch it. -/
def Store.books (s : Store β) :
    Table DistributionRecord.key × Table Distribution.key × List Payout :=
  (s.records, s.distributions, s.payouts)

theorem tryBank_books {call : β → Except BankFailure β} :
    Preserves Store.books (tryBank call) := by
  unfold tryBank
  refine preserves_read_then ?_
  intro s
  split
  · exact preserves_bind (preserves_modify (fun _ => rfl)) (fun _ => preserves_pure _)
  · exact preserves_pure _
  · exact preserves_fail

theorem addMintAmount_scope {τ : Type} (obs : Store β → τ) (coin : Coin)
    (blind : ∀ s c, obs { s with mintController := c } = obs s) :
    Preserves obs (addMintAmount coin) := by
  unfold addMintAmount
  refine preserves_read_then ?_
  intro s
  split
  · exact preserves_pure _
  · exact preserves_ofExcept_then (fun _ => preserves_modify (fun _ => blind _ _))

theorem mintTo_books (pool : AccAddress) (coins : Coins) :
    Preserves Store.books (mintTo env pool coins) := by
  refine preserves_bind tryBank_books (fun _ => preserves_when ?_)
  refine preserves_bind tryBank_books (fun _ => preserves_ofExcept_then ?_)
  intro coin
  exact addMintAmount_scope _ coin (fun _ _ => rfl)

theorem nextBlock_books (blockTime : Timestamp) :
    Preserves Store.books (nextBlock env blockTime) := by
  refine preserves_bind (preserves_modify (fun _ => rfl)) (fun _ => preserves_read_then ?_)
  intro s
  refine preserves_ofExcept_then (fun _ => preserves_when ?_)
  split
  · exact preserves_pure _
  · refine preserves_ofExcept_then (fun _ => preserves_ofExcept_then ?_)
    intro coins
    refine preserves_when ?_
    split
    · exact preserves_pure _
    · exact mintTo_books env _ coins

theorem createUserClaim_books (m : MsgCreateUserClaim) :
    Preserves (fun s => (s.books, s.bank)) (m.run env) := by
  refine preserves_ofExcept_then (fun _ => preserves_bind ?_ (fun _ => ?_))
  · exact preserves_ofExcept_then (fun _ => preserves_require)
  · refine preserves_read_then (fun s => preserves_require_then ?_)
    intro _
    refine preserves_ofExcept_then (fun _ => preserves_require_then ?_)
    intro _
    exact preserves_modify (fun _ => rfl)

theorem mintTo_balance (pool : AccAddress) (coins : Coins) (s t : Store β) (u : Unit)
    (run : (mintTo env pool coins).run s = (.ok u, t)) (d : String) :
    balance env s.bank d ≤ balance env t.bank d := by
  obtain ⟨minted, middle, called, rest⟩ := bind_ok run
  rcases when_succeeds.mp rest with ⟨rfl, passed⟩ | ⟨not_minted, rfl⟩
  · rcases tryBank_succeeds.mp called with ⟨_, b, mint, rfl⟩ | ⟨impossible, _⟩
    · have more := env.bank.mint_adds _ b moduleName coins mint (env.bank.moduleAddress moduleName) d
      rw [if_pos rfl] at more
      obtain ⟨sent, after, passing, counted⟩ := bind_ok passed
      obtain ⟨coin, _, added⟩ := ofExcept_then.mp counted
      have same := addMintAmount_scope Store.bank coin (fun _ _ => rfl) after
      rw [added] at same
      dsimp only at same
      rw [same]
      rcases tryBank_succeeds.mp passing with ⟨_, b', send, rfl⟩ | ⟨_, _, rfl⟩
      · have less := balance_sent env b b' pool coins send d
        unfold balance at less ⊢
        dsimp only
        omega
      · unfold balance
        dsimp only
        omega
    · cases impossible
  · rcases tryBank_succeeds.mp called with ⟨rfl, _⟩ | ⟨_, _, rfl⟩
    · exact absurd rfl not_minted
    · exact Nat.le_refl _

theorem nextBlock_balance {blockTime : Timestamp}
    (run : (nextBlock env blockTime).run s = (.ok u, t)) (d : String) :
    balance env s.bank d ≤ balance env t.bank d := by
  rw [nextBlock, modify_then, beginBlocker, read_then] at run
  obtain ⟨mintable, _, rest⟩ := ofExcept_then.mp run
  rcases when_succeeds.mp rest with ⟨_, taken⟩ | ⟨_, rfl⟩
  · split at taken
    · obtain ⟨_, rfl⟩ := pure_succeeds.mp taken
      exact Nat.le_refl _
    · obtain ⟨_, _, made⟩ := ofExcept_then.mp taken
      obtain ⟨coins, _, checked⟩ := ofExcept_then.mp made
      rcases when_succeeds.mp checked with ⟨_, sound⟩ | ⟨_, rfl⟩
      · split at sound
        · obtain ⟨_, rfl⟩ := pure_succeeds.mp sound
          exact Nat.le_refl _
        · exact mintTo_balance env _ coins _ t u sound d
      · exact Nat.le_refl _
  · exact Nat.le_refl _

def MsgCreateDistribution.distribution (m : MsgCreateDistribution) (height : ℤ) : Distribution :=
  ⟨m.distributionType, distributionName height m.distributor, m.authorizedRunner⟩

def MsgRunDistribution.distribution (m : MsgRunDistribution) : Distribution :=
  ⟨m.distributionType, m.distributionName, m.authorizedRunner⟩

structure Creation where
  distribution : Distribution
  output : List Output
  deriving DecidableEq, Repr

def DispensationEvent.creation (env : DispensationEnv β) :
    DispensationEvent → Store β → Option Creation
  | .createDistribution m, s =>
      match m.validateBasic env, ((m.run env).run s).1 with
      | .ok output, .ok _ => some ⟨m.distribution s.height, output⟩
      | _, _ => none
  | _, _ => none

def creations (env : DispensationEnv β) (events : List DispensationEvent) (s : Store β) :
    List Creation :=
  EventRuns.outputs (DispensationEvent.step env) (DispensationEvent.creation env) events s

inductive StepEffect (env : DispensationEnv β) (s : Store β) :
    DispensationEvent → Option Creation → Store β → Prop
  | idle (e : DispensationEvent) (t : Store β) (same : t.books = s.books)
      (funded : ∀ d, balance env s.bank d ≤ balance env t.bank d) :
      StepEffect env s e none t
  | created (m : MsgCreateDistribution) (output : List Output) (t : Store β)
      (validated : m.validateBasic env = .ok output) (effect : CreationEffect env m output s t) :
      StepEffect env s (.createDistribution m) (some ⟨m.distribution s.height, output⟩) t
  | ran (m : MsgRunDistribution) (selected : List DistributionRecord) (t : Store β)
      (drops : Drops env s.height m.authorizedRunner selected s t)
      (own : ∀ r ∈ selected, Selected m s r) :
      StepEffect env s (.runDistribution m) none t

theorem creation_failed {e : DispensationEvent} {failure : Failure}
    (run : (e.run env).run s = (.error failure, t)) : e.creation env s = none := by
  cases e with
  | createDistribution m =>
    change (m.run env).run s = _ at run
    simp only [DispensationEvent.creation, run]
    split <;> simp_all
  | beginBlock => rfl
  | runDistribution => rfl
  | createUserClaim => rfl

theorem step_effect (e : DispensationEvent) (s : Store β)
    (valid : ∀ r ∈ s.records.rows, r.validate env = true) :
    StepEffect env s e (e.creation env s) (e.step env s) := by
  rcases run : (e.run env).run s with ⟨outcome, t⟩
  unfold DispensationEvent.step
  cases outcome with
  | error failure =>
    rw [transact_error run, creation_failed env run]
    exact .idle e s rfl (fun _ => Nat.le_refl _)
  | ok u =>
    rw [transact_ok run]
    cases e with
    | beginBlock blockTime =>
      have same := nextBlock_books env blockTime s
      rw [show (nextBlock env blockTime).run s = _ from run] at same
      exact .idle _ t same (nextBlock_balance env run)
    | createUserClaim m =>
      have same := createUserClaim_books env m s
      rw [show (m.run env).run s = _ from run] at same
      obtain ⟨books, bank⟩ := Prod.mk.inj same
      exact .idle _ t books (fun d => bank ▸ Nat.le_refl _)
    | createDistribution m =>
      obtain ⟨output, validated, effect⟩ := createDistribution_effect env run
      have made : DispensationEvent.creation env (.createDistribution m) s =
          some ⟨m.distribution s.height, output⟩ := by
        simp only [DispensationEvent.creation, validated, show (m.run env).run s = _ from run]
      rw [made]
      exact .created m output t validated effect
    | runDistribution m =>
      obtain ⟨selected, drops, own⟩ := runDistribution_effect env valid run
      exact .ran m selected t drops own

end FuryNode.Dispensation
