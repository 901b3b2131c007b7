import Mathlib.Data.List.Perm.Subperm
import FuryNode.Margin.WellFormed

/-!
The counters and the numbers of positions. A position is written several times in a block and
may be destroyed in between; nothing writes it after that. So the open count is exact, and since
a new position gets a number above all those before, a destroyed one never comes back.
-/
namespace FuryNode
open StatefulProgram StatefulProgram.Prog KeyedTable KeyedTable.Table ClpKeeper MarginKeeper
  MarginMsgServer EventRuns
variable {β : Type}

def Stored (w : World β) (k : MtpKey) : Prop := k ∈ w.mtps.rows.map MTP.key

instance (w : World β) (k : MtpKey) : Decidable (Stored w k) := inferInstanceAs (Decidable (_ ∈ _))

/-- The counters agree with the stored positions; the count is a `uint64`. -/
structure CountersAgree (w : World β) : Prop where
  opened : w.openMtpCount = w.mtps.rows.length
  distinct : (w.mtps.rows.map MTP.id).Nodup
  numbered : ∀ m ∈ w.mtps.rows, 1 ≤ m.id ∧ m.id ≤ w.mtpCount
  counted : w.mtpCount < 2 ^ 64

/-- The counters agree and no position was added since. -/
structure NoneAdded (before w : World β) : Prop where
  agree : CountersAgree w
  count : w.mtpCount = before.mtpCount
  old : ∀ k, Stored w k → Stored before k

structure Waiting (w : World β) (ms : List MTP) : Prop where
  distinct : (ms.map MTP.key).Nodup
  stored : ∀ m ∈ ms, m.id ≠ 0 ∧ Stored w m.key

section Keys
variable {w w' before : World β} {ms : List MTP}

theorem agree_of_keys (agree : CountersAgree w)
    (keys : w'.mtps.rows.map MTP.key = w.mtps.rows.map MTP.key)
    (opened : w'.openMtpCount = w.openMtpCount) (count : w'.mtpCount = w.mtpCount) :
    CountersAgree w' := by
  have ids : w'.mtps.rows.map MTP.id = w.mtps.rows.map MTP.id := by
    have mapped := congrArg (List.map MtpKey.id) keys
    rw [List.map_map, List.map_map] at mapped
    exact mapped
  have lengths : w'.mtps.rows.length = w.mtps.rows.length := by
    simpa using congrArg List.length keys
  refine ⟨by rw [opened, lengths, agree.opened], ids ▸ agree.distinct, ?_, count ▸ agree.counted⟩
  intro m member
  have listed : m.id ∈ w.mtps.rows.map MTP.id := ids ▸ List.mem_map_of_mem member
  obtain ⟨old, inside, same⟩ := List.mem_map.mp listed
  rw [← same, count]
  exact agree.numbered old inside

theorem noneAdded_of_keys (now : NoneAdded before w)
    (keys : w'.mtps.rows.map MTP.key = w.mtps.rows.map MTP.key)
    (opened : w'.openMtpCount = w.openMtpCount) (count : w'.mtpCount = w.mtpCount) :
    NoneAdded before w' :=
  ⟨agree_of_keys now.agree keys opened count, count.trans now.count,
    fun k stored => now.old k (by unfold Stored; rw [← keys]; exact stored)⟩

theorem waiting_of_keys (waiting : Waiting w ms)
    (keys : w'.mtps.rows.map MTP.key = w.mtps.rows.map MTP.key) : Waiting w' ms :=
  ⟨waiting.distinct, fun m member => ⟨(waiting.stored m member).1, by
    unfold Stored
    rw [keys]
    exact (waiting.stored m member).2⟩⟩

theorem length_le_count (agree : CountersAgree w) : w.mtps.rows.length ≤ w.mtpCount := by
  have inside : w.mtps.rows.map MTP.id ⊆ List.range' 1 w.mtpCount := by
    intro id member
    obtain ⟨m, stored, rfl⟩ := List.mem_map.mp member
    have bounds := agree.numbered m stored
    rw [List.mem_range'_1]
    omega
  simpa using (agree.distinct.subperm inside).length_le

theorem stored_delete {k l : MtpKey} :
    l ∈ (w.mtps.delete k).rows.map MTP.key ↔ Stored w l ∧ l ≠ k := by
  constructor
  · intro member
    obtain ⟨m, inside, rfl⟩ := List.mem_map.mp member
    obtain ⟨stored, other⟩ := (mem_delete _ _ m).mp inside
    exact ⟨List.mem_map_of_mem stored, other⟩
  · rintro ⟨stored, other⟩
    obtain ⟨m, inside, rfl⟩ := List.mem_map.mp stored
    exact List.mem_map_of_mem ((mem_delete _ _ m).mpr ⟨inside, other⟩)

theorem destroyed_agree (k : MtpKey) (stored : Stored w k) (agree : CountersAgree w) :
    CountersAgree { w with
      mtps := w.mtps.delete k
      openMtpCount := uint64OfInt ((w.openMtpCount : ℤ) - 1) } := by
  obtain ⟨m, inside, key⟩ := List.mem_map.mp stored
  have fewer := (w.mtps.rows_perm_found k m ((get_some_iff _ _ _).mpr ⟨inside, key⟩)).length_eq
  have most := length_le_count agree
  have range := agree.counted
  have opened := agree.opened
  rw [List.length_cons] at fewer
  refine ⟨?_, agree.distinct.sublist (List.filter_sublist.map _), ?_, range⟩
  · dsimp only [uint64OfInt]
    omega
  · intro m member
    exact agree.numbered m ((mem_delete _ _ m).mp member).1

end Keys

section Events
variable {before : World β}

theorem waiting_steps (rest : List MTP) :
    StepInvariant (fun f : Frame β => NoneAdded before f.world ∧ Waiting f.world (f.mtp :: rest))
      (fun f => NoneAdded before f.world ∧ Waiting f.world rest) where
  pooled := fun f now => ⟨noneAdded_of_keys now.1 rfl rfl rfl, waiting_of_keys now.2 rfl⟩
  dropped := fun f e now => now
  numbered := fun f now => (now.2.stored f.mtp (by simp)).1
  mtp := by
    intro f m same now
    have key : m.key = f.mtp.key := by simp [MTP.key, same.address, same.id]
    refine ⟨now.1, by simpa [key] using now.2.distinct, ?_⟩
    intro x member
    rcases List.mem_cons.mp member with rfl | later
    · have own := now.2.stored f.mtp (by simp)
      rw [key, same.id]
      exact own
    · exact now.2.stored x (by simp [later])
  grown := fun f s field n more now => now
  shrunk := fun f s field n other now => now
  returned := fun f s n positive now => now
  bank := fun f b now => ⟨noneAdded_of_keys now.1 rfl rfl rfl, waiting_of_keys now.2 rfl⟩
  stored := by
    intro f now
    have keys := keys_put_present (now.2.stored f.mtp (by simp)).2
    exact ⟨noneAdded_of_keys now.1 keys rfl rfl, waiting_of_keys now.2 keys⟩
  destroyed := by
    intro f now
    have unseen := List.nodup_cons.mp now.2.distinct
    refine ⟨⟨destroyed_agree _ (now.2.stored f.mtp (by simp)).2 now.1.agree, now.1.count, ?_⟩, unseen.2, ?_⟩
    · intro k stored
      exact now.1.old k (stored_delete.mp stored).1
    · intro m member
      obtain ⟨numbered, stored⟩ := now.2.stored m (by simp [member])
      refine ⟨numbered, stored_delete.mpr ⟨stored, ?_⟩⟩
      intro same
      exact unseen.1 (same ▸ List.mem_map_of_mem member)
  kept := fun f now => ⟨now.1, (List.nodup_cons.mp now.2.distinct).2,
    fun m member => now.2.stored m (by simp [member])⟩
  after := {
    pooled := fun f now => ⟨noneAdded_of_keys now.1 rfl rfl rfl, waiting_of_keys now.2 rfl⟩
    dropped := fun f e now => now }

theorem waiting_events : EventInvariant (NoneAdded before) (fun _ => True) Waiting
    (fun rest f => NoneAdded before f.world ∧ Waiting f.world (f.mtp :: rest))
    (fun rest f => NoneAdded before f.world ∧ Waiting f.world rest) where
  steps := waiting_steps
  enter := fun w m rest p now queued _ => ⟨now, queued⟩
  leave := fun rest f kept => ⟨kept.1, kept.2, trivial⟩
  listed := by
    intro w ms now sublist
    refine ⟨w.mtps.distinct.sublist (sublist.map _), ?_⟩
    intro m member
    have stored := sublist.subset member
    have bounds := now.agree.numbered m stored
    exact ⟨by omega, List.mem_map_of_mem stored⟩
  pools := fun _ _ _ _ => trivial
  pooled := fun w p now _ => noneAdded_of_keys now rfl rfl rfl
  shortfall := fun w begins now => noneAdded_of_keys now rfl rfl rfl
  reset := fun _ _ => trivial
  computed := fun _ _ _ _ _ => trivial

end Events

/-- The counters agree, and what was added since has a number above those before. -/
structure Later (before w : World β) : Prop where
  agree : CountersAgree w
  count : before.mtpCount ≤ w.mtpCount
  fresh : ∀ k, Stored w k → Stored before k ∨ before.mtpCount < k.id

section Runs
variable {env : Env β} {w w' w'' : World β}

theorem later_trans (first : Later w w') (second : Later w' w'') : Later w w'' := by
  refine ⟨second.agree, first.count.trans second.count, ?_⟩
  intro k stored
  rcases second.fresh k stored with old | new
  · exact first.fresh k old
  · exact Or.inr (first.count.trans_lt new)

theorem open_later (c : BlockContext) (m : MsgOpen) (agree : CountersAgree w) :
    Later w (MarginEvent.step env (.message c (.open' m)) w) := by
  rcases open_step c m agree.counted with same | ⟨t, b, opened, some, small, stepped⟩
  · rw [same]
    exact ⟨agree_of_keys agree rfl rfl rfl, Nat.le_refl _, fun k stored => Or.inl stored⟩
  · have count : ((w.within c).opened b (t.mtp m (w.mtpCount + 1)) (t.poolAfter m)).mtpCount =
        w.mtpCount + 1 := Nat.mod_eq_of_lt small
    have free : ∀ v ∈ w.mtps.rows, v.id ≠ w.mtpCount + 1 := by
      intro v stored same
      have bounds := agree.numbered v stored
      omega
    have unchanged : (w.mtps.delete (t.mtp m (w.mtpCount + 1)).key).rows = w.mtps.rows := by
      refine List.filter_eq_self.mpr ?_
      intro v stored
      have other : v.key ≠ (t.mtp m (w.mtpCount + 1)).key :=
        fun same => free v stored (congrArg MtpKey.id same)
      simpa using other
    have added := w.mtps.put_perm (t.mtp m (w.mtpCount + 1))
    rw [unchanged] at added
    have most := length_le_count agree
    have open_ := agree.opened
    rw [stepped]
    refine ⟨⟨?_, ?_, ?_, count.symm ▸ small⟩, by rw [count]; omega, ?_⟩
    · show (w.openMtpCount + 1) % 2 ^ 64 = (w.mtps.put (t.mtp m (w.mtpCount + 1))).rows.length
      rw [added.length_eq, List.length_cons]
      omega
    · show ((w.mtps.put (t.mtp m (w.mtpCount + 1))).rows.map MTP.id).Nodup
      rw [(added.map MTP.id).nodup_iff, List.map_cons, List.nodup_cons]
      refine ⟨?_, agree.distinct⟩
      intro taken
      obtain ⟨v, stored, same⟩ := List.mem_map.mp taken
      exact free v stored same
    · intro v member
      rw [count]
      rcases List.mem_cons.mp (added.mem_iff.mp member) with rfl | old
      · exact ⟨Nat.le_add_left _ _, Nat.le_refl _⟩
      · have bounds := agree.numbered v old
        omega
    · intro k stored
      obtain ⟨v, member, rfl⟩ := List.mem_map.mp stored
      rcases List.mem_cons.mp (added.mem_iff.mp member) with rfl | old
      · exact Or.inr (Nat.lt_succ_self _)
      · exact Or.inl (List.mem_map_of_mem old)

theorem step_later (e : MarginEvent) (agree : CountersAgree w) : Later w (e.step env w) := by
  by_cases opening : ∃ c m, e = .message c (.open' m)
  · obtain ⟨c, m, rfl⟩ := opening
    exact open_later c m agree
  · have start : NoneAdded w (w.within e.context) :=
      ⟨agree_of_keys agree rfl rfl rfl, rfl, fun k stored => stored⟩
    have after := transact_preserves _ (e.action env) _
      (event_keeps waiting_events env e (fun c m same => opening ⟨c, m, same⟩) start).ok start
    exact ⟨after.agree, after.count.ge, fun k stored => Or.inl (after.old k stored)⟩

variable (env) in
theorem run_later (events : List MarginEvent) (agree : CountersAgree w) :
    Later w (runMargin env events w) :=
  run_preserves (MarginEvent.step env) (fun _ _ => True) (Later w)
    (fun _ e _ now => later_trans now (step_later e now.agree)) events w
    (guarded_all _ _ events w fun _ _ => trivial)
    ⟨agree, Nat.le_refl _, fun _ stored => Or.inl stored⟩

end Runs

/-- In every run the counters agree with the stored positions, the count of positions never falls,
    and what was destroyed is not stored again. -/
theorem position_counters_exact (env : Env β) (w : World β) (start : CountersAgree w)
    (events middle later : List MarginEvent) :
    CountersAgree (runMargin env events w) ∧
    (runMargin env events w).mtpCount ≤ (runMargin env (events ++ middle) w).mtpCount ∧
    ∀ k, Stored (runMargin env events w) k → ¬Stored (runMargin env (events ++ middle) w) k →
      ¬Stored (runMargin env (events ++ middle ++ later) w) k := by
  have first := run_later env events start
  have second := run_later env middle first.agree
  have third := run_later env later second.agree
  have joined : ∀ past next, runMargin env (past ++ next) w = runMargin env next (runMargin env past w) :=
    fun past next => run_append _ past next w
  rw [joined (events ++ middle) later, joined events middle]
  refine ⟨first.agree, second.count, ?_⟩
  intro k stored destroyed again
  rcases third.fresh k again with still | new
  · exact destroyed still
  · obtain ⟨m, member, rfl⟩ := List.mem_map.mp stored
    have bounds := (first.agree.numbered m member).2
    have count := second.count
    have above : (runMargin env middle (runMargin env events w)).mtpCount < m.id := new
    omega

def closingRun : List MarginEvent := [.message (LedgerBank.block 4) (.close ⟨"bob", 1⟩)]

/-- Bob closes the position that was opened, and opens another one. -/
theorem closed_position_stays_away :
    Stored (runMargin LedgerBank.env (openingRun "fury" "ceth") LedgerBank.pooled) ⟨"bob", 1⟩ ∧
    ¬Stored (runMargin LedgerBank.env (openingRun "fury" "ceth" ++ closingRun) LedgerBank.pooled)
      ⟨"bob", 1⟩ ∧
    ¬Stored (runMargin LedgerBank.env (openingRun "fury" "ceth" ++ closingRun ++
      openingRun "fury" "ceth") LedgerBank.pooled) ⟨"bob", 1⟩ := by
  have opened : Stored (runMargin LedgerBank.env (openingRun "fury" "ceth") LedgerBank.pooled)
      ⟨"bob", 1⟩ := by
    decide +kernel
  have closed : ¬Stored (runMargin LedgerBank.env (openingRun "fury" "ceth" ++ closingRun)
      LedgerBank.pooled) ⟨"bob", 1⟩ := by
    decide +kernel
  have start : CountersAgree LedgerBank.pooled := ⟨rfl, List.nodup_nil, nofun, by decide⟩
  exact ⟨opened, closed, (position_counters_exact _ _ start _ _ _).2.2 _ opened closed⟩

end FuryNode
