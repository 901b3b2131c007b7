import FuryNode.Dispensation.Effects

/-!
Solvency of x/dispensation. Pending and failed records are promises on the module account.
A creation adds the same amounts to the account and to the promises, a payout takes the same
from both, and merging or overwriting a record never adds a promise.
-/
namespace FuryNode.Dispensation
open StatefulProgram StatefulProgram.Prog KeyedTable KeyedTable.Table
variable {β : Type} (env : DispensationEnv β)

/-- What a record still promises to recipients among `who`: one address, or all the spellings
    of one account. -/
def promised (who : String → Bool) (d : String) (r : DistributionRecord) : ℕ :=
  if (r.distributionStatus = .pending ∨ r.distributionStatus = .failed) ∧
      who r.recipientAddress = true then amountOf r.coins d else 0

/-- The coins of all pending and failed records for recipients among `who`. -/
def outstanding (s : Store β) (who : String → Bool) (d : String) : ℕ :=
  total (promised who d) s.records

def paidTo (s : Store β) (who : String → Bool) (d : String) : ℕ :=
  (s.payouts.map (fun p =>
    if who p.record.recipientAddress = true then amountOf p.record.coins d else 0)).sum

def outputsFor (who : String → Bool) (d : String) (output : List Output) : ℕ :=
  (output.map (fun out => if who out.address = true then amountOf out.coins d else 0)).sum

/-- The outputs that a history has created for recipients among `who`. -/
def createdFor (made : List Creation) (who : String → Bool) (d : String) : ℕ :=
  (made.map (fun c => outputsFor who d c.output)).sum

def everyone : String → Bool := fun _ => true

theorem leading_pending (status : DistributionStatus)
    (same : status.leading = DistributionStatus.pending.leading) : status = .pending := by
  cases status with
  | pending => rfl
  | unspecified => cases same
  | completed => cases same
  | failed => cases same

theorem joined_tail (name : String) (type : DistributionType) {address : String}
    (plain : '_' ∉ address.toList) :
    (joined name type address).toList.reverse.takeWhile (fun c => decide (c ≠ '_')) =
      address.toList.reverse := by
  have all : ∀ c ∈ address.toList.reverse, decide (c ≠ '_') = true := by
    intro c member
    rw [List.mem_reverse] at member
    refine decide_eq_true ?_
    rintro rfl
    exact plain member
  simp only [joined, String.toList_append, List.reverse_append]
  rw [List.takeWhile_append_of_pos all]
  simp

variable {type : DistributionType} {output : List Output} {r : DistributionRecord}
  {records : Table DistributionRecord.key} {runner : String} {made : List Creation} {s t : Store β}

theorem joined_address {name name' : String} {type' : DistributionType} {address address' : String}
    (plain : '_' ∉ address.toList) (plain' : '_' ∉ address'.toList)
    (same : joined name type address = joined name' type' address') : address = address' := by
  have tail := joined_tail name type plain
  rw [same, joined_tail name' type' plain'] at tail
  exact (String.ext_iff.mpr (List.reverse_injective tail)).symm

theorem validated_outputs {m : MsgCreateDistribution} (validated : m.validateBasic env = .ok output) :
    ∀ out ∈ output, (out.coins.map Coin.denom).Nodup ∧ '_' ∉ out.address.toList := by
  simp only [MsgCreateDistribution.validateBasic, except_bind_succeeds] at validated
  obtain ⟨_, _, _, _, _, _, _, _, mapped⟩ := validated
  intro out member
  obtain ⟨raw, _, checked⟩ := (mapM_succeeds _ _ _ mapped).2 out member
  simp only [MsgOutput.validate, except_bind_succeeds, check_succeeds, except_pure_succeeds]
    at checked
  obtain ⟨_, decodes, _, _, _, valid, rfl⟩ := checked
  obtain ⟨address, decoded⟩ := Option.isSome_iff_exists.mp decodes
  exact ⟨isValid_distinct env.toEnv _ valid, env.address_plain raw.address address decoded⟩

theorem total_amounts (outs : List Output) (start total : Coins)
    (distinct : (start.map Coin.denom).Nodup)
    (totalled : outs.foldlM (fun total (out : Output) => total.addAll out.coins) start = .ok total)
    (d : String) : amountOf total d = amountOf start d + outputsFor everyone d outs := by
  induction outs generalizing start with
  | nil =>
    obtain rfl := except_pure_succeeds.mp totalled
    simp [outputsFor]
  | cons out rest ih =>
    rw [List.foldlM_cons, except_bind_succeeds] at totalled
    obtain ⟨next, first, later⟩ := totalled
    obtain ⟨unique, amounts⟩ := coins_addAll_amounts start out.coins next distinct first
    rw [ih next unique later, amounts d]
    simp only [outputsFor, everyone, List.map_cons, List.sum_cons, ↓reduceIte]
    omega

theorem totalOutput_amounts {total : Coins}
    (distinct : ∀ out ∈ output, (out.coins.map Coin.denom).Nodup)
    (totalled : totalOutput output = .ok total) (d : String) :
    amountOf total d = outputsFor everyone d output := by
  cases output with
  | nil => cases totalled
  | cons first rest =>
    rw [total_amounts rest first.coins total (distinct first (by simp)) totalled d]
    simp [outputsFor, everyone]

section Promises
variable (who : String → Bool) (d : String)

theorem promised_pending (pending : r.distributionStatus = .pending) :
    promised who d r = if who r.recipientAddress = true then amountOf r.coins d else 0 := by
  simp [promised, pending]

section Settling
variable (records : Table DistributionRecord.key) (r : DistributionRecord) (height : ℤ)
  (stored : records.get r.key = some r) (pending : r.distributionStatus = .pending)
include stored pending

/-- Settling a record replaces its promise by that of its new status, and may overwrite an
    older record of that status. -/
theorem total_settled (status : DistributionStatus)
    (leaves : status.leading ≠ DistributionStatus.pending.leading) :
    total (promised who d) (settled records r height status) + promised who d r ≤
      total (promised who d) records + promised who d { r with
        distributionStatus := status, distributionCompletedHeight := height } := by
  have apart : DistributionRecord.key { r with
      distributionStatus := status, distributionCompletedHeight := height } ≠ r.key := by
    intro same
    have bytes := congrArg RecordKey.leading same
    simp only [DistributionRecord.key, getDistributionRecordKey, pending] at bytes
    exact leaves bytes
  have added := total_put (promised who d) records { r with
    distributionStatus := status, distributionCompletedHeight := height }
  have removed := total_delete (promised who d) (records.put { r with
    distributionStatus := status, distributionCompletedHeight := height }) r.key
  have value : valueAt (promised who d) (records.put { r with
      distributionStatus := status, distributionCompletedHeight := height }) r.key =
      promised who d r := by
    rw [valueAt_put, if_neg apart]
    simp [valueAt, stored]
  unfold settled
  omega

theorem outstanding_completed :
    total (promised who d) (settled records r height .completed) +
        (if who r.recipientAddress = true then amountOf r.coins d else 0) ≤
      total (promised who d) records := by
  have settles := total_settled who d records r height stored pending .completed (by decide)
  rw [promised_pending who d pending] at settles
  simpa [promised] using settles

theorem outstanding_failed :
    total (promised who d) (settled records r height .failed) ≤ total (promised who d) records := by
  have settles := total_settled who d records r height stored pending .failed (by decide)
  have same : promised who d { r with
      distributionStatus := .failed, distributionCompletedHeight := height } =
      promised who d r := by
    simp [promised, pending]
  omega

end Settling

theorem promised_merged {name : String} {out : Output} {start : ℤ} {coins : Coins}
    (plain : ∀ r ∈ records.rows, '_' ∉ r.recipientAddress.toList)
    (distinct : (out.coins.map Coin.denom).Nodup) (address : '_' ∉ out.address.toList)
    (merged : MergedCoins records
      (newDistributionRecord type name out.address out.coins start runner) coins) :
    promised who d (newDistributionRecord type name out.address coins start runner) =
      (if who out.address = true then amountOf out.coins d else 0) +
        valueAt (promised who d) records
          (newDistributionRecord type name out.address out.coins start runner).key := by
  unfold MergedCoins at merged
  rw [promised_pending who d rfl]
  cases found : records.get
      (newDistributionRecord type name out.address out.coins start runner).key with
  | none =>
    rw [found] at merged
    subst merged
    simp only [valueAt, found, Option.map_none, Option.getD_none, Nat.add_zero]
    rfl
  | some old =>
    rw [found] at merged
    obtain ⟨member, same⟩ := get_mem found
    have status : old.distributionStatus = .pending :=
      leading_pending _ (congrArg RecordKey.leading same)
    have recipient : old.recipientAddress = out.address :=
      joined_address (plain old member) address (congrArg RecordKey.text same)
    have amounts := (coins_addAll_amounts _ _ _ distinct merged).2 d
    simp only [valueAt, found, Option.map_some, Option.getD_some,
      promised_pending who d status, recipient]
    by_cases chosen : who out.address = true
    · simp only [newDistributionRecord, chosen, ↓reduceIte]
      exact amounts
    · simp [newDistributionRecord, chosen]

end Promises

/-- Stored records passed their validation, and their recipients are proper addresses. -/
def WellFormed (env : DispensationEnv β) (records : Table DistributionRecord.key) : Prop :=
  ∀ r ∈ records.rows, r.validate env = true ∧ '_' ∉ r.recipientAddress.toList

theorem wellFormed_put (formed : WellFormed env records) (valid : r.validate env = true)
    (plain : '_' ∉ r.recipientAddress.toList) : WellFormed env (records.put r) := by
  intro q member
  rcases (mem_put _ _ _).mp member with rfl | ⟨before, _⟩
  · exact ⟨valid, plain⟩
  · exact formed q before

theorem wellFormed_settled {height : ℤ} {status : DistributionStatus}
    (formed : WellFormed env records) (stored : records.get r.key = some r) :
    WellFormed env (settled records r height status) := by
  obtain ⟨valid, plain⟩ := formed r (get_mem stored).1
  intro q member
  have before := ((mem_delete _ _ _).mp member).1
  rcases (mem_put _ _ _).mp before with rfl | ⟨stays, _⟩
  · exact ⟨valid, plain⟩
  · exact formed q stays

structure Solvent (env : DispensationEnv β) (made : List Creation) (s : Store β) : Prop where
  formed : WellFormed env s.records
  covered : ∀ d, outstanding s everyone d ≤ balance env s.bank d
  accounted : ∀ who d, paidTo s who d + outstanding s who d ≤ createdFor made who d

theorem paidTo_snoc (payouts : List Payout) (p : Payout) (who : String → Bool) (d : String) :
    ((payouts ++ [p]).map (fun p =>
      if who p.record.recipientAddress = true then amountOf p.record.coins d else 0)).sum =
      (payouts.map (fun p =>
        if who p.record.recipientAddress = true then amountOf p.record.coins d else 0)).sum +
      if who p.record.recipientAddress = true then amountOf p.record.coins d else 0 := by
  simp

theorem drop_solvent {height : ℤ} (payable : Payable env s r)
    (effect : DropEffect env height runner r s t) (solvent : Solvent env made s) :
    Solvent env made t := by
  cases effect with
  | skipped => exact solvent
  | refused =>
    have fewer := fun who d =>
      outstanding_failed who d s.records r height payable.stored payable.pending
    refine ⟨wellFormed_settled env solvent.formed payable.stored, ?_, ?_⟩
    · intro d
      exact (fewer everyone d).trans (solvent.covered d)
    · intro who d
      exact (Nat.add_le_add_left (fewer who d) _).trans (solvent.accounted who d)
  | paid recipient b claims decoded sent =>
    have fewer := fun who d =>
      outstanding_completed who d s.records r height payable.stored payable.pending
    refine ⟨wellFormed_settled env solvent.formed payable.stored, ?_, ?_⟩
    · intro d
      have left := balance_sent env s.bank b recipient r.coins sent d
      have promise := fewer everyone d
      have enough := solvent.covered d
      simp only [everyone, ↓reduceIte] at promise enough
      simp only [outstanding] at enough ⊢
      omega
    · intro who d
      have promise := fewer who d
      have account := solvent.accounted who d
      simp only [outstanding, paidTo, paidTo_snoc] at account ⊢
      omega

theorem drops_solvent {height : ℤ} {selected : List DistributionRecord}
    (drops : Drops env height runner selected s t) (solvent : Solvent env made s) :
    Solvent env made t := by
  induction drops with
  | done s => exact solvent
  | next r rest s t u payable effect later ih =>
    exact ih (drop_solvent env payable effect solvent)

theorem deposits_promise {name : String} (deposits : Deposits env name type runner output s t)
    (proper : ∀ out ∈ output, (out.coins.map Coin.denom).Nodup ∧ '_' ∉ out.address.toList)
    (formed : WellFormed env s.records) : WellFormed env t.records ∧
      ∀ who d, outstanding t who d = outstanding s who d + outputsFor who d output := by
  induction deposits with
  | done s => exact ⟨formed, fun who d => by simp [outputsFor]⟩
  | next out rest s u coins merged valid later ih =>
    obtain ⟨distinct, address⟩ := proper out (by simp)
    obtain ⟨kept, promises⟩ := ih (fun o member => proper o (by simp [member]))
      (wellFormed_put env formed valid address)
    refine ⟨kept, ?_⟩
    intro who d
    have added := total_put (promised who d) s.records
      (newDistributionRecord type name out.address coins s.height runner)
    have promise := promised_merged who d
      (fun r member => (formed r member).2) distinct address merged
    have same : (newDistributionRecord type name out.address coins s.height runner).key =
      (newDistributionRecord type name out.address out.coins s.height runner).key := rfl
    rw [promises who d]
    simp only [outstanding, Store.withRecord, outputsFor, List.map_cons, List.sum_cons]
    rw [same] at added
    omega

theorem createdFor_snoc (made : List Creation) (c : Creation) (who : String → Bool) (d : String) :
    createdFor (made ++ [c]) who d = createdFor made who d + outputsFor who d c.output := by
  simp [createdFor]

theorem created_solvent {m : MsgCreateDistribution} (validated : m.validateBasic env = .ok output)
    (effect : CreationEffect env m output s t) (solvent : Solvent env made s) :
    Solvent env (made ++ [⟨m.distribution s.height, output⟩]) t := by
  have proper := validated_outputs env validated
  obtain ⟨address, total, b, outsider, totalled, sent, deposits⟩ := effect.deposits
  have frame := deposits_frame env _ _ _ _ _ _ deposits
  obtain ⟨formed, promises⟩ := deposits_promise env deposits proper solvent.formed
  refine ⟨formed, ?_, ?_⟩
  · intro d
    have collected := balance_received env (outsider _) sent d
    rw [totalOutput_amounts (fun out member => (proper out member).1) totalled d]
      at collected
    have bank : t.bank = b := congrArg Store.bank frame
    rw [promises everyone d, bank, collected]
    exact Nat.add_le_add_right (solvent.covered d) _
  · intro who d
    have payouts : paidTo t who d = paidTo s who d := by
      rw [paidTo, congrArg Store.payouts frame]
      rfl
    have account := solvent.accounted who d
    rw [createdFor_snoc, payouts, promises who d, ← Nat.add_assoc]
    exact Nat.add_le_add_right account _

theorem step_solvent (e : DispensationEvent) (solvent : Solvent env made s) :
    Solvent env (made ++ (e.creation env s).toList) (e.step env s) := by
  have effect := step_effect env e s (fun r member => (solvent.formed r member).1)
  generalize e.creation env s = creation at effect ⊢
  generalize e.step env s = t at effect ⊢
  cases effect with
  | idle e t same funded =>
    obtain ⟨records, _, payouts⟩ : t.records = s.records ∧ t.distributions = s.distributions ∧
        t.payouts = s.payouts := by
      simpa [Store.books] using same
    rw [Option.toList_none, List.append_nil]
    refine ⟨records ▸ solvent.formed, ?_, ?_⟩
    · intro d
      rw [outstanding, records]
      exact (solvent.covered d).trans (funded d)
    · intro who d
      rw [outstanding, records, paidTo, payouts]
      exact solvent.accounted who d
  | created m output t validated effect =>
    exact created_solvent env validated effect solvent
  | ran m selected t drops own =>
    rw [Option.toList_none, List.append_nil]
    exact drops_solvent env drops solvent

theorem run_solvent {start : Store β} (events : List DispensationEvent)
    (no_records : start.records.rows = []) (no_payouts : start.payouts = []) :
    Solvent env (creations env events start)
      (EventRuns.run (DispensationEvent.step env) events start) := by
  refine EventRuns.run_history (DispensationEvent.step env) (fun _ _ => True) start
    (fun past s => Solvent env (creations env past start) s) ?_ events ?_ ?_
  · intro past e _ now
    have next := step_solvent env e now
    rwa [creations, ← EventRuns.outputs_snoc] at next
  · exact EventRuns.guarded_all _ (fun _ => True) events start (fun _ _ => trivial)
  · refine ⟨?_, ?_, ?_⟩
    · intro r member
      rw [no_records] at member
      cases member
    · intro d
      simp [outstanding, total, no_records]
    · intro who d
      simp [outstanding, paidTo, total, no_records, no_payouts]

/-- In every history from a store without records the module account holds at least the coins
    of all pending and failed records, and no group of recipients is paid more than the
    outputs created for it. -/
theorem dispensation_solvent (env : DispensationEnv β) (start : Store β)
    (events : List DispensationEvent) (no_records : start.records.rows = [])
    (no_payouts : start.payouts = []) :
    (∀ d, outstanding (EventRuns.run (DispensationEvent.step env) events start) everyone d ≤
        balance env (EventRuns.run (DispensationEvent.step env) events start).bank d) ∧
      ∀ who d, paidTo (EventRuns.run (DispensationEvent.step env) events start) who d ≤
        createdFor (creations env events start) who d := by
  have solvent := run_solvent env events no_records no_payouts
  refine ⟨solvent.covered, ?_⟩
  intro who d
  exact (Nat.le_add_right _ _).trans (solvent.accounted who d)

/-- An airdrop with a repeated recipient, of which the runner has paid one record. -/
def airdrop : List DispensationEvent :=
  [.createDistribution ⟨"carol", "bob", .airdrop,
    [⟨"alice", [⟨"fury", 7⟩]⟩, ⟨"bob", [⟨"fury", 2⟩, ⟨"ceth", 3⟩]⟩, ⟨"alice", [⟨"fury", 1⟩]⟩]⟩,
   .beginBlock ⟨5, 0⟩,
   .runDistribution ⟨"bob", "1_carol", .airdrop, 1⟩]

theorem dispensation_solvent_airdrop :
    (paidTo (EventRuns.run (DispensationEvent.step PlainDispensation.env) airdrop
        PlainDispensation.start) (fun address => address == "alice") "fury" = 8 ∧
      outstanding (EventRuns.run (DispensationEvent.step PlainDispensation.env) airdrop
        PlainDispensation.start) everyone "fury" = 2) ∧
    (∀ d, outstanding (EventRuns.run (DispensationEvent.step PlainDispensation.env) airdrop
        PlainDispensation.start) everyone d ≤
      balance PlainDispensation.env (EventRuns.run (DispensationEvent.step PlainDispensation.env)
        airdrop PlainDispensation.start).bank d) ∧
    ∀ who d, paidTo (EventRuns.run (DispensationEvent.step PlainDispensation.env) airdrop
        PlainDispensation.start) who d ≤
      createdFor (creations PlainDispensation.env airdrop PlainDispensation.start) who d :=
  ⟨by decide +kernel,
    dispensation_solvent PlainDispensation.env PlainDispensation.start airdrop rfl rfl⟩

end FuryNode.Dispensation
