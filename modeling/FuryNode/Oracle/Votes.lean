import FuryNode.Oracle.Keeper

/-!
What a claim does to the stored prophecies: the record of its own prophecy is replaced, all
others stay, and a decided prophecy takes no claim. The two maps of a prophecy say the same
in every state that claims, updates of the list and changes of the stake can reach.
-/
namespace FuryNode
open StatefulProgram StatefulProgram.Prog KeyedTable OracleKeeper
variable {k : OracleKeeper}

theorem valAddressString_injective (k : OracleKeeper) : Function.Injective k.valAddressString := by
  intro a b same
  have decoded := k.decode_string a
  rw [same, k.decode_string b] at decoded
  exact (Option.some.inj decoded).symm

variable {p : Prophecy} {a : ValAddress} {s t : OracleState} {order : MapOrder} {c : Claim}

namespace Prophecy

theorem claimers_addClaim (p : Prophecy) (a : ValAddress) (claim content : String) :
    (p.addClaim k a claim).claimers content =
      if claim = content then p.claimers claim ++ [a] else p.claimers content := by
  simp only [claimers, addClaim, Table.get_put]
  split <;> rfl

theorem validatorClaims_addClaim (p : Prophecy) (a : ValAddress) (claim v : String) :
    (p.addClaim k a claim).validatorClaims.get v =
      if k.valAddressString a = v then some ⟨k.valAddressString a, claim⟩
      else p.validatorClaims.get v := by
  simp only [addClaim, Table.get_put]

structure Recorded (k : OracleKeeper) (p : Prophecy) : Prop where
  named : ∀ vote ∈ p.validatorClaims.rows,
    vote.content ≠ "" ∧ ∃ a, vote.validator = k.valAddressString a
  agrees : ∀ a content, a ∈ p.claimers content ↔
    p.validatorClaims.get (k.valAddressString a) = some ⟨k.valAddressString a, content⟩
  once : ∀ content, (p.claimers content).Nodup

theorem recorded_new (id : String) : Recorded k (.new id) where
  named := by
    intro vote member
    simp [new, Table.empty] at member
  agrees := by
    intro a content
    simp [new, claimers, Table.empty, Table.get]
  once := by
    intro content
    simp [new, claimers, Table.empty, Table.get]

theorem claimOf_empty (recorded : Recorded k p) (v : String) :
    p.claimOf v = "" ↔ p.validatorClaims.get v = none := by
  unfold claimOf
  cases found : p.validatorClaims.get v with
  | none => simp
  | some vote =>
    have member := (Table.get_mem found).1
    simpa using (recorded.named vote member).1

theorem recorded_addClaim (recorded : Recorded k p) {claim : String} (some : claim ≠ "")
    (fresh : p.claimOf (k.valAddressString a) = "") :
    Recorded k (p.addClaim k a claim) where
  named := by
    intro vote member
    rcases (p.validatorClaims.mem_put _ vote).mp member with rfl | ⟨old, _⟩
    · exact ⟨some, a, rfl⟩
    · exact recorded.named vote old
  agrees := by
    intro b content
    have missing := (claimOf_empty recorded _).mp fresh
    rw [claimers_addClaim, validatorClaims_addClaim]
    by_cases same : a = b
    · subst same
      by_cases claimed : claim = content
      · simp [claimed]
      · simp [claimed, recorded.agrees a content, missing]
    · have others : k.valAddressString a ≠ k.valAddressString b :=
        fun equal => same (valAddressString_injective k equal)
      rw [if_neg others, ← recorded.agrees b content]
      split
      · rename_i claimed
        simp [claimed, Ne.symm same]
      · rfl
  once := by
    intro content
    rw [claimers_addClaim]
    split
    · have absent : a ∉ p.claimers claim := by
        intro member
        have missing := (claimOf_empty recorded _).mp fresh
        rw [(recorded.agrees a claim).mp member] at missing
        cases missing
      rw [List.nodup_append]
      refine ⟨recorded.once claim, by simp, ?_⟩
      intro b member c last
      rw [List.mem_singleton] at last
      intro same
      exact absent (last ▸ same ▸ member)
    · exact recorded.once content

end Prophecy

section Completion
variable (order : MapOrder) (s : OracleState) (p : Prophecy)

theorem processCompletion_id : (k.processCompletion order s p).id = p.id := by
  unfold processCompletion
  dsimp only
  split
  · rfl
  · split <;> rfl

theorem processCompletion_claimValidators :
    (k.processCompletion order s p).claimValidators = p.claimValidators := by
  unfold processCompletion
  dsimp only
  split
  · rfl
  · split <;> rfl

theorem processCompletion_validatorClaims :
    (k.processCompletion order s p).validatorClaims = p.validatorClaims := by
  unfold processCompletion
  dsimp only
  split
  · rfl
  · split <;> rfl

theorem processCompletion_claimers (content : String) :
    (k.processCompletion order s p).claimers content = p.claimers content := by
  rw [Prophecy.claimers, processCompletion_claimValidators]
  rfl

theorem processCompletion_claimOf (v : String) :
    (k.processCompletion order s p).claimOf v = p.claimOf v := by
  rw [Prophecy.claimOf, processCompletion_validatorClaims]
  rfl

theorem recorded_processCompletion (recorded : p.Recorded k) :
    (k.processCompletion order s p).Recorded k where
  named := by
    rw [processCompletion_validatorClaims]
    exact recorded.named
  agrees := by
    intro a content
    rw [processCompletion_claimers, processCompletion_validatorClaims]
    exact recorded.agrees a content
  once := by
    intro content
    rw [processCompletion_claimers]
    exact recorded.once content

end Completion

namespace OracleKeeper

def current (k : OracleKeeper) (s : OracleState) (id : String) : Prophecy :=
  (k.getProphecy s id).getD (.new id)

def decided (k : OracleKeeper) (order : MapOrder) (c : Claim) (s : OracleState) (a : ValAddress) :
    Prophecy :=
  k.processCompletion order s ((k.current s c.id).addClaim k a c.content)

theorem deserialize_serialize {db : DBProphecy} (written : p.serializeForDB k = .ok db) :
    db.deserializeFromDB k = some p := by
  unfold Prophecy.serializeForDB at written
  cases claims : k.claimValidatorsJSON.marshal p.claimValidators with
  | none => simp [claims, bind, Except.bind] at written
  | some claimText =>
    cases votes : k.validatorClaimsJSON.marshal p.validatorClaims with
    | none => simp [claims, votes, bind, Except.bind] at written
    | some voteText =>
      simp only [claims, votes, Option.elim_some, bind, Except.bind, Except.ok.injEq] at written
      subst written
      simp [DBProphecy.deserializeFromDB, k.claimValidatorsJSON.lossless _ _ claims,
        k.validatorClaimsJSON.lossless _ _ votes]

theorem serialize_id {db : DBProphecy} (written : p.serializeForDB k = .ok db) : db.id = p.id := by
  have read := deserialize_serialize written
  simp only [DBProphecy.deserializeFromDB, Option.bind_eq_bind, Option.bind_eq_some_iff,
    Option.some.injEq] at read
  obtain ⟨_, _, _, _, same⟩ := read
  exact congrArg Prophecy.id same

theorem getProphecy_id {id : String} (found : k.getProphecy s id = some p) : p.id = id := by
  simp only [getProphecy, DBProphecy.deserializeFromDB, Option.bind_eq_bind,
    Option.bind_eq_some_iff, Option.some.injEq] at found
  obtain ⟨db, stored, _, _, _, _, rfl⟩ := found
  exact s.prophecies.get_key id db stored

theorem current_id (s : OracleState) (id : String) : (k.current s id).id = id := by
  unfold current
  cases found : k.getProphecy s id with
  | none => rfl
  | some p => exact getProphecy_id found

/-- A claim of `a` that was taken: the checks it passed and the record it left. -/
structure Taken (k : OracleKeeper) (order : MapOrder) (c : Claim) (s : OracleState)
    (status : Status) (t : OracleState) (a : ValAddress) : Prop where
  address : c.validatorAddress = k.valAddressString a
  listed : a ∈ s.whiteList
  active : checkActiveValidator s a = true
  content : c.content ≠ ""
  pending : (k.current s c.id).status.text = .pending
  fresh : (k.current s c.id).claimOf (k.valAddressString a) = ""
  status : status = (decided k order c s a).status
  stored : ∃ db, (decided k order c s a).serializeForDB k = .ok db ∧
    { s with prophecies := s.prophecies.put db } = t

theorem setProphecy_succeeds {u : Unit} :
    (k.setProphecy p).run s = (.ok u, t) ↔
      ∃ db, p.serializeForDB k = .ok db ∧ { s with prophecies := s.prophecies.put db } = t := by
  simp only [setProphecy, ofExcept_then, modify_succeeds]

theorem processClaim_taken {status : Status}
    (run : (k.processClaim order c).run s = (.ok status, t)) :
    ∃ a, Taken k order c s status t a := by
  simp only [processClaim, read_then, require_then, ofExcept_then] at run
  obtain ⟨listed, a, decoded, active, _, content, pending, fresh, tail⟩ := run
  obtain ⟨_, r, stored, last⟩ := bind_ok tail
  obtain ⟨rfl, rfl⟩ := pure_succeeds.mp last
  obtain ⟨b, member, same⟩ := List.any_eq_true.mp listed
  have text : k.valAddressString b = c.validatorAddress := by simpa using same
  have address : a = b := by
    rw [← text, k.decode_string b] at decoded
    exact (Except.ok.inj decoded).symm
  subst address
  exact ⟨a, text.symm, member, active, content, pending, text ▸ fresh, rfl,
    setProphecy_succeeds.mp stored⟩

section Storing
variable {order : MapOrder} {c : Claim} {s t : OracleState} {status : Status} {a : ValAddress}

theorem decided_id : (decided k order c s a).id = c.id := by
  rw [decided, processCompletion_id]
  exact current_id s c.id

theorem taken_own (taken : Taken k order c s status t a) :
    k.getProphecy t c.id = some (decided k order c s a) := by
  obtain ⟨db, written, rfl⟩ := taken.stored
  have own : db.id = c.id := (serialize_id written).trans decided_id
  rw [getProphecy, Table.get_put, if_pos own]
  exact deserialize_serialize written

theorem taken_others (taken : Taken k order c s status t a) (id : String) (other : c.id ≠ id) :
    t.prophecies.get id = s.prophecies.get id := by
  obtain ⟨db, written, rfl⟩ := taken.stored
  have own : db.id = c.id := (serialize_id written).trans decided_id
  exact s.prophecies.get_put_other db id (own ▸ other)

theorem taken_staking (taken : Taken k order c s status t a) :
    t.whiteList = s.whiteList ∧ t.staking = s.staking := by
  obtain ⟨db, _, rfl⟩ := taken.stored
  exact ⟨rfl, rfl⟩

end Storing

def Sound (k : OracleKeeper) (s : OracleState) : Prop :=
  ∀ id db, s.prophecies.get id = some db → ∃ p, db.deserializeFromDB k = some p ∧ p.Recorded k

theorem sound_getProphecy (sound : Sound k s) {id : String} (found : k.getProphecy s id = some p) :
    p.Recorded k := by
  obtain ⟨db, stored, read⟩ := Option.bind_eq_some_iff.mp found
  obtain ⟨q, readable, recorded⟩ := sound id db stored
  cases read.symm.trans readable
  exact recorded

theorem sound_current (sound : Sound k s) (id : String) : (k.current s id).Recorded k := by
  unfold current
  cases found : k.getProphecy s id with
  | none => exact Prophecy.recorded_new id
  | some p => exact sound_getProphecy sound found

theorem taken_recorded {status : Status} (sound : Sound k s) (taken : Taken k order c s status t a) :
    (decided k order c s a).Recorded k :=
  recorded_processCompletion order s _
    (Prophecy.recorded_addClaim (sound_current sound c.id) taken.content taken.fresh)

theorem taken_sound {status : Status} (sound : Sound k s) (taken : Taken k order c s status t a) :
    Sound k t := by
  intro id db stored
  by_cases own : c.id = id
  · subst own
    refine ⟨decided k order c s a, ?_, taken_recorded sound taken⟩
    have found := taken_own taken
    rw [getProphecy, stored] at found
    exact found
  · rw [taken_others taken id own] at stored
    exact sound id db stored

theorem updateWhiteList_prophecies {sender : AccAddress} {validator : ValAddress}
    {operationtype : String} :
    (transact (processUpdateWhiteListValidator sender validator operationtype) s).prophecies =
      s.prophecies := by
  apply preserves_transact
  refine preserves_read_then (fun _ => preserves_require_then (fun _ => ?_))
  refine preserves_ite (preserves_modify (fun _ => rfl)) ?_
  exact preserves_ite (preserves_modify (fun _ => rfl)) preserves_fail

theorem step_cases (e : OracleEvent) (s : OracleState) :
    (e.step k s).prophecies = s.prophecies ∨
      ∃ order c status a, e = .claim order c ∧
        (k.processClaim order c).run s = (.ok status, e.step k s) ∧
          Taken k order c s status (e.step k s) a := by
  cases e with
  | claim order c =>
    rcases transact_cases (k.processClaim order c) s with same | ⟨status, run⟩
    · exact Or.inl (congrArg OracleState.prophecies same)
    · obtain ⟨a, taken⟩ := processClaim_taken run
      exact Or.inr ⟨order, c, status, a, rfl, run, taken⟩
  | updateWhiteList sender validator operationtype =>
    exact Or.inl updateWhiteList_prophecies
  | restake staking => exact Or.inl rfl

theorem step_sound (e : OracleEvent) (s : OracleState) (sound : Sound k s) : Sound k (e.step k s) := by
  rcases step_cases e s with same | ⟨order, c, status, a, _, _, taken⟩
  · intro id db stored
    rw [same] at stored
    exact sound id db stored
  · exact taken_sound sound taken

theorem step_final (e : OracleEvent) {id : String} (found : k.getProphecy s id = some p)
    (final : p.status.text ≠ .pending) : (e.step k s).prophecies.get id = s.prophecies.get id := by
  rcases step_cases e s with same | ⟨order, c, status, a, _, _, taken⟩
  · rw [same]
  · apply taken_others taken
    intro own
    have pending := taken.pending
    rw [own, current, found] at pending
    exact final pending

theorem empty_sound (s : OracleState) (start : s.prophecies = .empty) : Sound k s := by
  intro id db stored
  rw [start] at stored
  simp [Table.empty, Table.get] at stored

theorem run_sound (events : List OracleEvent) (s : OracleState) (sound : Sound k s) :
    Sound k (runOracle k events s) :=
  EventRuns.run_preserves _ (fun _ _ => True) (Sound k) (fun s e _ now => step_sound e s now) events s
    (EventRuns.guarded_all _ (fun _ => True) events s (fun _ _ => trivial)) sound

end OracleKeeper
end FuryNode
