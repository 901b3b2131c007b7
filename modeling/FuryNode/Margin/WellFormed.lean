import FuryNode.Margin.Effects
import FuryNode.Clp.Solvency

/-!
The assets of a position. A pool has fury on one side, so a position should have fury on
exactly one side too, and the pool of its other asset. Nothing in the validation of `Open`
demands it; where every `Open` of a run does, every stored position can be traced to the
`Open` that wrote it and to the one pool that this `Open` changed.
-/
namespace FuryNode
open StatefulProgram StatefulProgram.Prog KeyedTable KeyedTable.Table ClpKeeper MarginKeeper
  MarginMsgServer EventRuns
variable {β : Type}

def OneFurySide (a b : String) : Prop :=
  (a = nativeSymbol ∧ b ≠ nativeSymbol) ∨ (a ≠ nativeSymbol ∧ b = nativeSymbol)

instance (a b : String) : Decidable (OneFurySide a b) := inferInstanceAs (Decidable (_ ∨ _))

def Pool.balances (p : Pool) : ℕ × ℕ := (p.nativeAssetBalance, p.externalAssetBalance)

def BalancesChanged (w w' : World β) (asset : String) : Prop :=
  (w.pools.get ⟨asset⟩).map Pool.balances ≠ (w'.pools.get ⟨asset⟩).map Pool.balances

instance (w w' : World β) (asset : String) : Decidable (BalancesChanged w w' asset) :=
  inferInstanceAs (Decidable (_ ≠ _))

/-- An `Open` of the run wrote the position: its key was free before and taken after, and the
    only pool whose balances it changed is that of the asset other than fury. -/
def WrittenBy (env : Env β) (start : World β) (events : List MarginEvent) (m : MTP) : Prop :=
  ∃ past c msg rest, events = past ++ .message c (.open' msg) :: rest ∧
    ((runMargin env past start).within c).mtps.get m.key = none ∧
    (MarginEvent.step env (.message c (.open' msg)) (runMargin env past start)).mtps.get m.key ≠ none ∧
    ∀ asset, BalancesChanged ((runMargin env past start).within c)
      (MarginEvent.step env (.message c (.open' msg)) (runMargin env past start)) asset ↔
        asset = externalAssetOf m.collateralAsset m.custodyAsset

def WellFormed (env : Env β) (start : World β) (events : List MarginEvent) (m : MTP) : Prop :=
  OneFurySide m.collateralAsset m.custodyAsset ∧ WrittenBy env start events m

def OpensOneFurySide : MarginEvent → Prop
  | .message _ (.open' m) => OneFurySide m.collateralAsset m.borrowAsset
  | _ => True

variable {w : World β} {events : List MarginEvent}

section Opening
variable {env : Env β}

theorem sides_differ {a b : String} (one : OneFurySide a b) : sideOf b = (sideOf a).other := by
  rcases one with ⟨rfl, other⟩ | ⟨other, rfl⟩
  · simp [sideOf, other, Side.other]
  · simp [sideOf, other, Side.other]

theorem amount_balance {p q : Pool} {s : Side} (same : p.balances = q.balances) :
    p.amount s .balance = q.amount s .balance := by
  simp only [Pool.balances, Prod.mk.injEq] at same
  cases s
  · exact same.1
  · exact same.2

theorem poolAfter_collateral (t : OpenTerms) (m : MsgOpen)
    (one : OneFurySide m.collateralAsset m.borrowAsset) :
    (t.poolAfter m).amount (sideOf m.collateralAsset) .balance =
      t.pool.amount (sideOf m.collateralAsset) .balance + m.collateralAmount := by
  have differ : sideOf m.borrowAsset ≠ sideOf m.collateralAsset := by
    rw [sides_differ one]
    cases sideOf m.collateralAsset <;> decide
  simp [OpenTerms.poolAfter, OpenTerms.borrowedPool, Pool.takenIn, Pool.borrowed, amount_set, differ]

theorem poolAfter_key (t : OpenTerms) (m : MsgOpen) : (t.poolAfter m).key = t.pool.key := by
  unfold OpenTerms.poolAfter
  rw [takenIn_key]
  exact borrowed_key

/-- An `Open` with one fury side changes the pool of the other asset, and no other pool. -/
theorem opened_changes {m : MsgOpen} {t : OpenTerms} {b : β} (mtp : MTP)
    (opened : Opened env m w t b) (some : m.collateralAmount ≠ 0)
    (one : OneFurySide m.collateralAsset m.borrowAsset) (asset : String) :
    BalancesChanged w (w.opened b mtp (t.poolAfter m)) asset ↔
      asset = externalAssetOf m.collateralAsset m.borrowAsset := by
  have key : (t.poolAfter m).key = ⟨externalAssetOf m.collateralAsset m.borrowAsset⟩ :=
    (poolAfter_key t m).trans (w.pools.get_key _ _ opened.found)
  unfold BalancesChanged World.opened
  simp only [get_put, key, PoolKey.mk.injEq]
  constructor
  · intro changed
    by_contra other
    exact changed (by rw [if_neg (Ne.symm other)])
  · rintro rfl
    rw [if_pos rfl, opened.found]
    simp only [Option.map_some, ne_eq, Option.some.injEq]
    intro same
    have grown := poolAfter_collateral t m one
    rw [← amount_balance same] at grown
    omega

/-- An `Open` that fails adds nothing; one that succeeds writes the next position. -/
theorem open_step (c : BlockContext) (m : MsgOpen) (counter : w.mtpCount < 2 ^ 64) :
    MarginEvent.step env (.message c (.open' m)) w = w.within c ∨
      ∃ t b, Opened env m (w.within c) t b ∧ m.collateralAmount ≠ 0 ∧ w.mtpCount + 1 < 2 ^ 64 ∧
        MarginEvent.step env (.message c (.open' m)) w =
          (w.within c).opened b (t.mtp m (w.mtpCount + 1)) (t.poolAfter m) := by
  rcases transact_cases (MarginEvent.action env (.message c (.open' m))) (w.within c) with
    same | ⟨dropped, ran⟩
  · exact Or.inl same
  · obtain ⟨valid, _, handled⟩ := action_succeeds _ _ _ _ ran
    obtain ⟨t, b, opened, _, after⟩ := open_succeeds handled
    simp only [MarginMsg.validateBasic, MsgOpen.validateBasic, except_bind_succeeds,
      check_succeeds] at valid
    obtain ⟨_, _, _, _, _, _, _, some, _⟩ := valid
    have numbered : (w.mtpCount + 1) % 2 ^ 64 ≠ 0 := opened.numbered
    have small : w.mtpCount + 1 < 2 ^ 64 := by omega
    have next : ((w.within c).mtpCount + 1) % 2 ^ 64 = w.mtpCount + 1 := Nat.mod_eq_of_lt small
    rw [next] at after
    exact Or.inr ⟨t, b, opened, some, small, after⟩

end Opening

section Tracing
variable {env : Env β} {start : World β}

structure Traced (env : Env β) (start : World β) (events : List MarginEvent) (n : ℕ) (m : MTP) :
    Prop where
  numbered : m.id ≠ 0
  counted : m.id ≤ n
  wellFormed : WellFormed env start events m

theorem wellFormed_identity {m m' : MTP} (same : SameIdentity m m')
    (formed : WellFormed env start events m) : WellFormed env start events m' := by
  have key : m'.key = m.key := by simp [MTP.key, same.address, same.id]
  unfold WellFormed WrittenBy at *
  rw [key, same.collateralAsset, same.custodyAsset]
  exact formed

theorem traced_rows (events : List MarginEvent) (n : ℕ) :
    RowInvariant (Traced env start events n) (fun _ => True) where
  numbered := fun _ traced => traced.numbered
  amounts := fun _ _ same traced => ⟨same.id ▸ traced.numbered, same.id ▸ traced.counted,
    wellFormed_identity same traced.wellFormed⟩
  grown := fun _ _ _ _ _ _ => trivial
  shrunk := fun _ _ _ _ _ _ => trivial
  returned := fun _ _ _ _ _ => trivial
  computed := fun _ _ _ _ _ => trivial

theorem traced_later (e : MarginEvent) {n n' : ℕ} {m : MTP} (more : n ≤ n')
    (traced : Traced env start events n m) : Traced env start (events ++ [e]) n' m := by
  obtain ⟨one, past, c, msg, rest, rfl, written⟩ := traced.wellFormed
  exact ⟨traced.numbered, traced.counted.trans more, one, past, c, msg, rest ++ [e], by simp, written⟩

structure TracedRun (env : Env β) (start : World β) (events : List MarginEvent) (w : World β) :
    Prop where
  rows : Rows (Traced env start events w.mtpCount) (fun _ => True) w.mtpCount w
  counter : w.mtpCount < 2 ^ 64

theorem tracedRun_later (e : MarginEvent) {w' : World β} (same : w'.mtpCount = w.mtpCount)
    (run : TracedRun env start events w)
    (rows : Rows (Traced env start events w.mtpCount) (fun _ => True) w.mtpCount w') :
    TracedRun env start (events ++ [e]) w' := by
  refine ⟨⟨rfl, ?_, fun _ _ => trivial⟩, same ▸ run.counter⟩
  intro m member
  exact traced_later e same.ge (rows.mtps m member)

/-- `Open` writes a position under a new number. -/
theorem open_traced {c : BlockContext} {m : MsgOpen} (reached : w = runMargin env events start)
    (one : OneFurySide m.collateralAsset m.borrowAsset) (run : TracedRun env start events w) :
    TracedRun env start (events ++ [.message c (.open' m)])
      (MarginEvent.step env (.message c (.open' m)) w) := by
  rcases open_step c m run.counter with same | ⟨t, b, opened, some, small, stepped⟩
  · refine tracedRun_later _ (by rw [same]; rfl) run ?_
    rw [same]
    exact ⟨rfl, run.rows.mtps, fun _ _ => trivial⟩
  · have changes := opened_changes (t.mtp m (w.mtpCount + 1)) opened some one
    have free : (w.within c).mtps.get (t.mtp m (w.mtpCount + 1)).key = none := by
      rw [get_none_iff]
      intro v stored same
      have number := (run.rows.mtps v stored).counted
      have id : v.id = w.mtpCount + 1 := congrArg MtpKey.id same
      omega
    have taken : ((w.within c).opened b (t.mtp m (w.mtpCount + 1)) (t.poolAfter m)).mtps.get
        (t.mtp m (w.mtpCount + 1)).key ≠ none := by
      show (put _ _).get _ ≠ none
      rw [get_put_same]
      simp
    have count : (MarginEvent.step env (.message c (.open' m)) w).mtpCount = w.mtpCount + 1 := by
      rw [stepped]
      exact Nat.mod_eq_of_lt small
    refine ⟨⟨rfl, ?_, fun _ _ => trivial⟩, count.symm ▸ small⟩
    rw [← stepped] at changes taken
    rw [count, stepped]
    intro row member
    rcases (mem_put _ _ row).mp member with rfl | ⟨old, _⟩
    · subst reached
      exact ⟨Nat.succ_ne_zero _, Nat.le_refl _, one, events, c, m, [], rfl, free, taken, changes⟩
    · exact traced_later _ (by omega) (run.rows.mtps row old)

theorem step_traced {e : MarginEvent} (met : OpensOneFurySide e)
    (run : TracedRun env start events (runMargin env events start)) :
    TracedRun env start (events ++ [e]) (e.step env (runMargin env events start)) := by
  by_cases opening : ∃ c m, e = .message c (.open' m)
  · obtain ⟨c, m, rfl⟩ := opening
    exact open_traced rfl met run
  · have before : Rows (Traced env start events (runMargin env events start).mtpCount)
        (fun _ => True) (runMargin env events start).mtpCount
        ((runMargin env events start).within e.context) :=
      ⟨rfl, run.rows.mtps, fun _ _ => trivial⟩
    have after := transact_preserves _ (e.action env) _
      (event_keeps (rows_events (traced_rows events _) _) env e (fun c m same => opening ⟨c, m, same⟩) before).ok before
    exact tracedRun_later e after.counted run after

end Tracing

/-- In a run whose `Open` messages have one fury side each, every stored position is well formed. -/
theorem positions_well_formed {env : Env β} {w : World β} (noPositions : w.mtps = .empty)
    (counter : w.mtpCount < 2 ^ 64) (events : List MarginEvent)
    (opens : ∀ e ∈ events, OpensOneFurySide e) :
    ∀ m ∈ (runMargin env events w).mtps.rows, WellFormed env w events m := by
  have traced : TracedRun env w events (runMargin env events w) := by
    refine run_history (MarginEvent.step env) (fun _ => OpensOneFurySide) w (TracedRun env w)
      (fun past e met now => step_traced met now) events
      (guarded_all _ _ events w opens) ⟨⟨rfl, ?_, fun _ _ => trivial⟩, counter⟩
    intro m member
    rw [noPositions] at member
    exact absurd member (List.not_mem_nil)
  intro m member
  exact (traced.rows.mtps m member).wellFormed

/-- A block and an `Open` of bob with 10^16 of one asset against another. -/
def openingRun (collateralAsset borrowAsset : String) : List MarginEvent :=
  [.beginBlock (LedgerBank.block 3), .message (LedgerBank.block 3)
    (.open' ⟨"bob", collateralAsset, 10 ^ 16, borrowAsset, .long, ⟨2 * 10 ^ 18⟩⟩)]

theorem fury_position_well_formed :
    (runMargin LedgerBank.env (openingRun "fury" "ceth") LedgerBank.pooled).mtps.rows ≠ [] ∧
    ∀ m ∈ (runMargin LedgerBank.env (openingRun "fury" "ceth") LedgerBank.pooled).mtps.rows,
      WellFormed LedgerBank.env LedgerBank.pooled (openingRun "fury" "ceth") m := by
  refine ⟨by decide +kernel, positions_well_formed rfl (by decide) _ ?_⟩
  intro e member
  simp only [openingRun, List.mem_cons, List.not_mem_nil, or_false] at member
  rcases member with rfl | rfl
  · trivial
  · show OneFurySide "fury" "ceth"
    decide

/-- Two external assets are accepted: the position has no fury side. -/
theorem external_position_stored :
    ∃ m ∈ (runMargin LedgerBank.env (openingRun "ceth" "cusd") LedgerBank.pooled).mtps.rows,
      ¬OneFurySide m.collateralAsset m.custodyAsset := by
  decide +kernel

end FuryNode
