import FuryNode.Dispensation.Effects

/-!
Distributions side by side. A distribution is named by its name, type and runner, but a record
only by name, type and recipient. As long as no creation uses the key text of a record that is
already stored, every record belongs to one distribution, and events of the others leave it
alone.
-/
namespace FuryNode.Dispensation
open StatefulProgram StatefulProgram.Prog KeyedTable KeyedTable.Table
variable {β : Type}

def DistributionRecord.distribution (r : DistributionRecord) : Distribution :=
  ⟨r.distributionType, r.distributionName, r.authorizedRunner⟩

def DispensationEvent.distribution : DispensationEvent → Store β → Option Distribution
  | .createDistribution m, s => some (m.distribution s.height)
  | .runDistribution m, _ => some m.distribution
  | .beginBlock _, _ => none
  | .createUserClaim _, _ => none

/-- A distribution created the record: one of its outputs goes to the recipient of the record,
    which has its name and type. -/
def CreatedBy (made : List Creation) (D : Distribution) (r : DistributionRecord) : Prop :=
  ∃ c ∈ made, c.distribution = D ∧ D.distributionName = r.distributionName ∧
    D.distributionType = r.distributionType ∧ ∃ out ∈ c.output, out.address = r.recipientAddress

instance (made : List Creation) (D : Distribution) (r : DistributionRecord) :
    Decidable (CreatedBy made D r) :=
  inferInstanceAs (Decidable (∃ c ∈ made, _))

/-- After a history, an event changes no record that a distribution created for which the event
    does not speak, and all records paid so far were paid by the runner who was named when they
    were created. -/
structure Undisturbed (env : DispensationEnv β) (start : Store β)
    (events : List DispensationEvent) (e : DispensationEvent) : Prop where
  keeps : ∀ D r, r ∈ (EventRuns.run (DispensationEvent.step env) events start).records.rows →
    CreatedBy (creations env events start) D r →
    e.distribution (EventRuns.run (DispensationEvent.step env) events start) ≠ some D →
    r ∈ (e.step env (EventRuns.run (DispensationEvent.step env) events start)).records.rows
  pays : ∀ p ∈ (e.step env (EventRuns.run (DispensationEvent.step env) events start)).payouts,
    (∃ D, CreatedBy (creations env (events ++ [e]) start) D p.record) ∧
      ∀ D, CreatedBy (creations env (events ++ [e]) start) D p.record → D.runner = p.runner

def Separate (s : Store β) : DispensationEvent → Prop
  | .createDistribution m => ∀ out ∈ m.output, ∀ r ∈ s.records.rows,
      r.key.text ≠ joined (distributionName s.height m.distributor) m.distributionType out.address
  | _ => True

instance (s : Store β) (e : DispensationEvent) : Decidable (Separate s e) :=
  match e with
  | .createDistribution m => inferInstanceAs (Decidable (∀ out ∈ m.output, _))
  | .beginBlock _ => inferInstanceAs (Decidable True)
  | .runDistribution _ => inferInstanceAs (Decidable True)
  | .createUserClaim _ => inferInstanceAs (Decidable True)

def OnePerText (records : Table DistributionRecord.key) : Prop :=
  ∀ r ∈ records.rows, ∀ q ∈ records.rows, r.key.text = q.key.text → r = q

def Holds (records : Table DistributionRecord.key) (text : String) (D : Distribution) : Prop :=
  ∃ r ∈ records.rows, r.key.text = text ∧ r.distribution = D

variable {records : Table DistributionRecord.key} {D : Distribution} {r : DistributionRecord}
  {s t : Store β} {m : MsgCreateDistribution}

theorem holds_unique (one : OnePerText records) {text : String} {E : Distribution}
    (first : Holds records text D) (second : Holds records text E) : D = E := by
  obtain ⟨r, stored, same, rfl⟩ := first
  obtain ⟨q, present, equal, rfl⟩ := second
  rw [one r stored q present (same.trans equal.symm)]

section Settling
variable (records : Table DistributionRecord.key) (q : DistributionRecord) (height : ℤ)
  (status : DistributionStatus)

theorem mem_settled {x : DistributionRecord} :
    x ∈ (settled records q height status).rows ↔
      (x = { q with distributionStatus := status, distributionCompletedHeight := height } ∨
        x ∈ records.rows ∧ x.key ≠ DistributionRecord.key { q with
          distributionStatus := status, distributionCompletedHeight := height }) ∧
      x.key ≠ q.key := by
  rw [settled, mem_delete, mem_put]

theorem settled_keeps (r : DistributionRecord) (stored : r ∈ records.rows)
    (other : r.key.text ≠ q.key.text) : r ∈ (settled records q height status).rows := by
  rw [mem_settled]
  refine ⟨Or.inr ⟨stored, ?_⟩, ?_⟩
  · intro same
    have texts := congrArg RecordKey.text same
    exact other texts
  · intro same
    exact other (congrArg RecordKey.text same)

theorem settled_one (one : OnePerText records) (present : q ∈ records.rows) :
    OnePerText (settled records q height status) := by
  -- a row besides the settled record would have been the record itself
  have alone : ∀ x ∈ records.rows, x.key.text = q.key.text → x.key ≠ q.key → False := by
    intro x stored same other
    exact other (congrArg DistributionRecord.key (one x stored q present same))
  intro x left y right same
  obtain ⟨left, apart⟩ := (mem_settled records q height status).mp left
  obtain ⟨right, apart'⟩ := (mem_settled records q height status).mp right
  rcases left with rfl | ⟨before, _⟩
  · rcases right with rfl | ⟨before', _⟩
    · rfl
    · exact absurd apart' (fun other => alone y before' same.symm other)
  · rcases right with rfl | ⟨before', _⟩
    · exact absurd apart (fun other => alone x before same other)
    · exact one x before y before' same

theorem settled_holds (one : OnePerText records) (present : q ∈ records.rows)
    (pending : q.distributionStatus = .pending)
    (leaves : status.leading ≠ DistributionStatus.pending.leading) {text : String}
    (held : Holds records text D) : Holds (settled records q height status) text D := by
  obtain ⟨r, stored, same, owner⟩ := held
  by_cases own : r.key.text = q.key.text
  · obtain rfl := one r stored q present own
    refine ⟨{ r with distributionStatus := status, distributionCompletedHeight := height }, ?_,
      same, owner⟩
    rw [mem_settled]
    refine ⟨Or.inl rfl, ?_⟩
    intro equal
    have bytes := congrArg RecordKey.leading equal
    simp only [DistributionRecord.key, getDistributionRecordKey, pending] at bytes
    exact leaves bytes
  · exact ⟨r, settled_keeps records q height status r stored own, same, owner⟩

end Settling

section Depositing
variable (name : String) (type : DistributionType) (runner : String)

/-- The only records under the texts of the outputs are pending ones of the same distribution. -/
structure Prepared (records : Table DistributionRecord.key) (output : List Output) : Prop where
  one : OnePerText records
  own : ∀ r ∈ records.rows, ∀ out ∈ output, r.key.text = joined name type out.address →
    r.distributionStatus = .pending ∧ r.distribution = ⟨type, name, runner⟩

theorem prepared_next {out : Output} {rest : List Output} (coins : Coins) {start : ℤ}
    (prepared : Prepared name type runner records (out :: rest)) :
    Prepared name type runner
      (records.put (newDistributionRecord type name out.address coins start runner)) rest := by
  -- a stored record with the text of the new one is pending, so it is the one replaced
  have replaced : ∀ x ∈ records.rows, x.key.text = joined name type out.address →
      x.key = (newDistributionRecord type name out.address coins start runner).key := by
    intro x stored same
    have pending := (prepared.own x stored out (by simp) same).1
    refine RecordKey.mk.injEq .. |>.mpr ⟨?_, same⟩
    exact congrArg DistributionStatus.leading pending
  constructor
  · intro x left y right same
    rcases (mem_put _ _ _).mp left with rfl | ⟨before, other⟩
    · rcases (mem_put _ _ _).mp right with rfl | ⟨before', other'⟩
      · rfl
      · exact absurd (replaced y before' same.symm) other'
    · rcases (mem_put _ _ _).mp right with rfl | ⟨before', _⟩
      · exact absurd (replaced x before same) other
      · exact prepared.one x before y before' same
  · intro x stored later member same
    rcases (mem_put _ _ _).mp stored with rfl | ⟨before, _⟩
    · exact ⟨rfl, rfl⟩
    · exact prepared.own x before later (by simp [member]) same

theorem put_holds {out : Output} {rest : List Output} (coins : Coins) {start : ℤ}
    (prepared : Prepared name type runner records (out :: rest)) {text : String}
    (held : Holds records text D) :
    Holds (records.put (newDistributionRecord type name out.address coins start runner)) text D := by
  obtain ⟨r, stored, same, owner⟩ := held
  by_cases equal : r.key = (newDistributionRecord type name out.address coins start runner).key
  · have texts : r.key.text = joined name type out.address := congrArg RecordKey.text equal
    refine ⟨newDistributionRecord type name out.address coins start runner,
      (mem_put _ _ _).mpr (Or.inl rfl), ?_, ?_⟩
    · exact texts.symm.trans same
    · exact (prepared.own r stored out (by simp) texts).2.symm.trans owner
  · exact ⟨r, (mem_put _ _ _).mpr (Or.inr ⟨stored, equal⟩), same, owner⟩

variable (env : DispensationEnv β) (output : List Output) (s t : Store β)

theorem deposits_hold (deposits : Deposits env name type runner output s t)
    (prepared : Prepared name type runner s.records output) :
    OnePerText t.records ∧ (∀ text D, Holds s.records text D → Holds t.records text D) ∧
      ∀ out ∈ output, Holds t.records (joined name type out.address) ⟨type, name, runner⟩ := by
  induction deposits with
  | done s => exact ⟨prepared.one, fun _ _ held => held, nofun⟩
  | next out rest s u coins merged valid later ih =>
    obtain ⟨one, stays, made⟩ := ih (prepared_next name type runner coins prepared)
    refine ⟨one, ?_, ?_⟩
    · intro text D held
      exact stays text D (put_holds name type runner coins prepared held)
    · intro o member
      rcases List.mem_cons.mp member with rfl | inside
      · exact stays _ _ ⟨_, (mem_put _ _ _).mpr (Or.inl rfl), rfl, rfl⟩
      · exact made o inside

theorem deposits_rows (deposits : Deposits env name type runner output s t)
    (stored : r ∈ t.records.rows) :
    r ∈ s.records.rows ∨ r.validate env = true ∧ r.distribution = ⟨type, name, runner⟩ ∧
      ∃ out ∈ output, out.address = r.recipientAddress := by
  induction deposits with
  | done s => exact Or.inl stored
  | next out rest s u coins merged valid later ih =>
    rcases ih stored with before | ⟨sound, owner, o, member, address⟩
    · rcases (mem_put _ _ _).mp before with rfl | ⟨old, _⟩
      · exact Or.inr ⟨valid, rfl, out, by simp, rfl⟩
      · exact Or.inl old
    · exact Or.inr ⟨sound, owner, o, by simp [member], address⟩

theorem deposits_keep (deposits : Deposits env name type runner output s t)
    (r : DistributionRecord) (stored : r ∈ s.records.rows)
    (other : ∀ out ∈ output, r.key.text ≠ joined name type out.address) :
    r ∈ t.records.rows := by
  induction deposits with
  | done s => exact stored
  | next out rest s u coins merged valid later ih =>
    refine ih ((mem_put _ _ _).mpr (Or.inr ⟨stored, ?_⟩)) (fun o member => other o (by simp [member]))
    intro same
    exact other out (by simp) (congrArg RecordKey.text same)

end Depositing

section Attribution

theorem createdBy_later {made later : List Creation} (created : CreatedBy made D r) :
    CreatedBy (made ++ later) D r := by
  obtain ⟨c, member, rest⟩ := created
  exact ⟨c, List.mem_append_left _ member, rest⟩

/-- Every record belongs to the distribution whose runner it names, which created it, and every
    payout was made by the runner of its record. -/
structure Attributed (env : DispensationEnv β) (made : List Creation) (s : Store β) : Prop where
  valid : ∀ r ∈ s.records.rows, r.validate env = true
  one : OnePerText s.records
  owned : ∀ c ∈ made, ∀ out ∈ c.output, Holds s.records
    (joined c.distribution.distributionName c.distribution.distributionType out.address)
    c.distribution
  origin : ∀ r ∈ s.records.rows, CreatedBy made r.distribution r
  paid : ∀ p ∈ s.payouts, p.record.authorizedRunner = p.runner ∧
    CreatedBy made p.record.distribution p.record

variable (env : DispensationEnv β) (made : List Creation)

theorem createdBy_holds (attributed : Attributed env made s) (created : CreatedBy made D r) :
    Holds s.records r.key.text D := by
  obtain ⟨c, member, rfl, name, type, out, inside, address⟩ := created
  have held := attributed.owned c member out inside
  rwa [name, type, address] at held

theorem creator_unique (attributed : Attributed env made s) {E : Distribution}
    (created : CreatedBy made D r) (again : CreatedBy made E r) : D = E :=
  holds_unique attributed.one (createdBy_holds env made attributed created)
    (createdBy_holds env made attributed again)

theorem settled_attributed {q : DistributionRecord} (height : ℤ) (status : DistributionStatus)
    (payable : Payable env s q) (leaves : status.leading ≠ DistributionStatus.pending.leading)
    (attributed : Attributed env made s) :
    Attributed env made { s with records := settled s.records q height status } := by
  have present := (get_mem payable.stored).1
  refine ⟨?_, settled_one _ q height status attributed.one present, ?_, ?_, attributed.paid⟩
  · intro r stored
    rcases ((mem_settled _ _ _ _).mp stored).1 with rfl | ⟨before, _⟩
    · exact payable.valid
    · exact attributed.valid r before
  · intro c member out inside
    exact settled_holds _ q height status attributed.one present payable.pending leaves
      (attributed.owned c member out inside)
  · intro r stored
    rcases ((mem_settled _ _ _ _).mp stored).1 with rfl | ⟨before, _⟩
    · exact attributed.origin q present
    · exact attributed.origin r before

theorem drop_attributed {height : ℤ} {runner : String} {q : DistributionRecord}
    (payable : Payable env s q) (own : q.authorizedRunner = runner)
    (effect : DropEffect env height runner q s t) (attributed : Attributed env made s) :
    Attributed env made t := by
  cases effect with
  | skipped => exact attributed
  | refused => exact settled_attributed env made height .failed payable (by decide) attributed
  | paid recipient b claims decoded sent =>
    have marked := settled_attributed env made height .completed payable (by decide) attributed
    refine ⟨marked.valid, marked.one, marked.owned, marked.origin, ?_⟩
    intro p member
    rcases List.mem_append.mp member with before | new
    · exact attributed.paid p before
    · obtain rfl := List.mem_singleton.mp new
      exact ⟨own, attributed.origin q (get_mem payable.stored).1⟩

theorem drops_attributed {height : ℤ} {runner : String} {selected : List DistributionRecord}
    (drops : Drops env height runner selected s t)
    (own : ∀ q ∈ selected, q.authorizedRunner = runner) (attributed : Attributed env made s) :
    Attributed env made t := by
  induction drops with
  | done s => exact attributed
  | next q rest s t u payable effect later ih =>
    refine ih (fun p member => own p (by simp [member])) ?_
    exact drop_attributed env made payable (own q (by simp)) effect attributed

theorem drops_keep {height : ℤ} {runner : String} {selected : List DistributionRecord}
    (drops : Drops env height runner selected s t) (stored : r ∈ s.records.rows)
    (other : ∀ q ∈ selected, r.key.text ≠ q.key.text) : r ∈ t.records.rows := by
  induction drops with
  | done s => exact stored
  | next q rest s t u payable effect later ih =>
    have apart := other q (by simp)
    refine ih ?_ (fun p member => other p (by simp [member]))
    cases effect with
    | skipped => exact stored
    | refused => exact settled_keeps _ q height .failed r stored apart
    | paid => exact settled_keeps _ q height .completed r stored apart

theorem validated_addresses {output : List Output} (validated : m.validateBasic env = .ok output)
    {out : Output} (member : out ∈ output) : ∃ raw ∈ m.output, raw.address = out.address := by
  simp only [MsgCreateDistribution.validateBasic, except_bind_succeeds] at validated
  obtain ⟨_, _, _, _, _, _, _, _, mapped⟩ := validated
  obtain ⟨raw, inside, checked⟩ := (mapM_succeeds _ _ _ mapped).2 out member
  simp only [MsgOutput.validate, except_bind_succeeds, except_pure_succeeds] at checked
  obtain ⟨_, _, _, _, _, _, rfl⟩ := checked
  exact ⟨raw, inside, rfl⟩

theorem separate_texts {output : List Output} (validated : m.validateBasic env = .ok output)
    (separate : Separate s (.createDistribution m)) (r : DistributionRecord)
    (stored : r ∈ s.records.rows) (out : Output) (member : out ∈ output) :
    r.key.text ≠ joined (distributionName s.height m.distributor) m.distributionType
      out.address := by
  obtain ⟨raw, inside, address⟩ := validated_addresses env validated member
  have apart := separate raw inside r stored
  rwa [address] at apart

theorem created_attributed {output : List Output} (validated : m.validateBasic env = .ok output)
    (effect : CreationEffect env m output s t) (separate : Separate s (.createDistribution m))
    (attributed : Attributed env made s) :
    Attributed env (made ++ [⟨m.distribution s.height, output⟩]) t := by
  have apart := separate_texts env validated separate
  obtain ⟨_, _, b, _, _, _, deposits⟩ := effect.deposits
  have prepared : Prepared (distributionName s.height m.distributor) m.distributionType
      m.authorizedRunner s.records output :=
    ⟨attributed.one, fun r stored out member same => absurd same (apart r stored out member)⟩
  obtain ⟨one, stays, new⟩ := deposits_hold _ _ _ env output _ t deposits prepared
  have frame := deposits_frame env _ _ _ _ _ _ deposits
  refine ⟨?_, one, ?_, ?_, ?_⟩
  · intro r stored
    rcases deposits_rows _ _ _ env output _ t deposits stored with before | ⟨sound, _⟩
    · exact attributed.valid r before
    · exact sound
  · intro c member out inside
    rcases List.mem_append.mp member with before | last
    · exact stays _ _ (attributed.owned c before out inside)
    · obtain rfl := List.mem_singleton.mp last
      exact new out inside
  · intro r stored
    rcases deposits_rows _ _ _ env output _ t deposits stored with before | ⟨_, owner, receives⟩
    · exact createdBy_later (attributed.origin r before)
    · refine ⟨⟨m.distribution s.height, output⟩, by simp, owner.symm, rfl, rfl, receives⟩
  · intro p member
    have payouts := congrArg Store.payouts frame
    rw [payouts] at member
    obtain ⟨own, created⟩ := attributed.paid p member
    exact ⟨own, createdBy_later created⟩

theorem step_attributed (e : DispensationEvent) (s : Store β) (separate : Separate s e)
    (attributed : Attributed env made s) :
    Attributed env (made ++ (e.creation env s).toList) (e.step env s) := by
  have effect := step_effect env e s attributed.valid
  generalize e.creation env s = creation at effect ⊢
  generalize e.step env s = t at effect ⊢
  cases effect with
  | idle e t same funded =>
    obtain ⟨records, _, payouts⟩ : t.records = s.records ∧ t.distributions = s.distributions ∧
        t.payouts = s.payouts := by
      simpa [Store.books] using same
    rw [Option.toList_none, List.append_nil]
    exact ⟨records ▸ attributed.valid, records ▸ attributed.one, records ▸ attributed.owned,
      records ▸ attributed.origin, payouts ▸ attributed.paid⟩
  | created m output t validated effect =>
    exact created_attributed env made validated effect separate attributed
  | ran m selected t drops own =>
    rw [Option.toList_none, List.append_nil]
    exact drops_attributed env made drops (fun q member => (own q member).runner) attributed

theorem step_keeps {e : DispensationEvent} (separate : Separate s e)
    (attributed : Attributed env made s) (stored : r ∈ s.records.rows)
    (other : e.distribution s ≠ some r.distribution) : r ∈ (e.step env s).records.rows := by
  have effect := step_effect env e s attributed.valid
  generalize e.creation env s = creation at effect
  generalize e.step env s = t at effect ⊢
  cases effect with
  | idle e t same funded =>
    have records : t.records = s.records := congrArg Prod.fst same
    rwa [records]
  | created m output t validated effect =>
    obtain ⟨_, _, b, _, _, _, deposits⟩ := effect.deposits
    exact deposits_keep _ _ _ env output _ t deposits r stored
      (separate_texts env validated separate r stored)
  | ran m selected t drops own =>
    refine drops_keep env drops stored ?_
    intro q member same
    have chosen := own q member
    obtain rfl := attributed.one r stored q chosen.stored same
    refine other (congrArg some ?_)
    rw [MsgRunDistribution.distribution, DistributionRecord.distribution, chosen.type, chosen.name,
      chosen.runner]

end Attribution

theorem run_attributed (env : DispensationEnv β) (start : Store β)
    (events : List DispensationEvent) (no_records : start.records.rows = [])
    (no_payouts : start.payouts = [])
    (separate : EventRuns.Guarded (DispensationEvent.step env) Separate events start) :
    Attributed env (creations env events start)
      (EventRuns.run (DispensationEvent.step env) events start) := by
  refine EventRuns.run_history (DispensationEvent.step env) Separate start
    (fun past s => Attributed env (creations env past start) s) ?_ events separate ?_
  · intro past e apart now
    have next := step_attributed env _ e _ apart now
    rwa [creations, ← EventRuns.outputs_snoc] at next
  · constructor
    · intro r stored
      rw [no_records] at stored
      cases stored
    · intro r stored
      rw [no_records] at stored
      cases stored
    · exact nofun
    · intro r stored
      rw [no_records] at stored
      cases stored
    · intro p member
      rw [no_payouts] at member
      cases member

/-- In every history from a store without records whose creations use no key text of a stored
    record, each event leaves the records of other distributions alone, and each payout was
    made by the runner named at the creation of its record. -/
theorem separate_undisturbed (env : DispensationEnv β) (start : Store β)
    (events : List DispensationEvent) (e : DispensationEvent)
    (no_records : start.records.rows = []) (no_payouts : start.payouts = [])
    (separate : EventRuns.Guarded (DispensationEvent.step env) Separate (events ++ [e]) start) :
    Undisturbed env start events e := by
  obtain ⟨before, last⟩ := (EventRuns.guarded_append _).mp separate
  have now := run_attributed env start events no_records no_payouts before
  constructor
  · intro D r stored created other
    refine step_keeps env _ last.1 now stored ?_
    rw [creator_unique env _ now (now.origin r stored) created]
    exact other
  · have after := run_attributed env start (events ++ [e]) no_records no_payouts separate
    rw [EventRuns.run_snoc] at after
    intro p member
    obtain ⟨runner, created⟩ := after.paid p member
    refine ⟨⟨_, created⟩, ?_⟩
    intro D again
    rw [creator_unique env _ after again created]
    exact runner

/-- One distributor, one block and one type: an airdrop that alice may run, and one that bob
    may run, to different recipients. -/
def apartAirdrops : List DispensationEvent :=
  [.createDistribution ⟨"carol", "alice", .airdrop, [⟨"bob", [⟨"fury", 5⟩]⟩]⟩,
   .createDistribution ⟨"carol", "bob", .airdrop, [⟨"alice", [⟨"fury", 3⟩]⟩]⟩]

theorem separate_undisturbed_apart :
    ((EventRuns.run (DispensationEvent.step PlainDispensation.env)
        (apartAirdrops ++ [.runDistribution ⟨"bob", "1_carol", .airdrop, 20⟩])
        PlainDispensation.start).payouts.map (fun p => (p.record.recipientAddress, p.runner)) =
      [("alice", "bob")]) ∧
    Undisturbed PlainDispensation.env PlainDispensation.start apartAirdrops
      (.runDistribution ⟨"bob", "1_carol", .airdrop, 20⟩) :=
  ⟨by decide +kernel,
    separate_undisturbed PlainDispensation.env PlainDispensation.start apartAirdrops _ rfl rfl
      (by decide +kernel)⟩

/-- The same with one recipient: the second creation takes the record of the first over, and
    bob pays out what alice was to run. -/
def sharedAirdrops : List DispensationEvent :=
  [.createDistribution ⟨"carol", "alice", .airdrop, [⟨"bob", [⟨"fury", 5⟩]⟩]⟩,
   .createDistribution ⟨"carol", "bob", .airdrop, [⟨"bob", [⟨"fury", 3⟩]⟩]⟩]

theorem shared_recipient_taken_over :
    ((creations PlainDispensation.env sharedAirdrops PlainDispensation.start).map
        (fun c => c.distribution.runner) = ["alice", "bob"]) ∧
    ¬Undisturbed PlainDispensation.env PlainDispensation.start (sharedAirdrops.take 1)
      (.createDistribution ⟨"carol", "bob", .airdrop, [⟨"bob", [⟨"fury", 3⟩]⟩]⟩) ∧
    ¬Undisturbed PlainDispensation.env PlainDispensation.start sharedAirdrops
      (.runDistribution ⟨"bob", "1_carol", .airdrop, 20⟩) := by
  refine ⟨by decide +kernel, ?_, ?_⟩
  · intro undisturbed
    have kept := undisturbed.keeps ⟨.airdrop, "1_carol", "alice"⟩
      (newDistributionRecord .airdrop "1_carol" "bob" [⟨"fury", 5⟩] 1 "alice")
      (by decide +kernel) (by decide +kernel) (by decide +kernel)
    revert kept
    decide +kernel
  · intro undisturbed
    have runner := (undisturbed.pays
      ⟨newDistributionRecord .airdrop "1_carol" "bob" [⟨"fury", 8⟩] 1 "bob", "bob"⟩
      (by decide +kernel)).2 ⟨.airdrop, "1_carol", "alice"⟩ (by decide +kernel)
    exact absurd runner (by decide)

end FuryNode.Dispensation
