import FuryNode.Margin.Failures
import FuryNode.Margin.WellFormed

/-!
The books of margin. A pool's liabilities and custody are sums over its positions: those
of a position stand on the sides of its collateral and of its custody. Every step that
succeeds changes a position and the pool in memory by the same amounts, also within a
block, where the list of positions was read before the loop.
-/
namespace FuryNode
open StatefulProgram StatefulProgram.Prog KeyedTable KeyedTable.Table ClpKeeper MarginKeeper
  MarginMsgServer EventRuns
variable {β : Type}

def MTP.poolKey (m : MTP) : PoolKey := ⟨externalAssetOf m.collateralAsset m.custodyAsset⟩

def owed (k : PoolKey) (s : Side) (m : MTP) : ℕ :=
  if m.poolKey = k ∧ sideOf m.collateralAsset = s then m.liabilities else 0

def held (k : PoolKey) (s : Side) (m : MTP) : ℕ :=
  if m.poolKey = k ∧ sideOf m.custodyAsset = s then m.custodyAmount else 0

structure Balanced (mtps : Table MTP.key) (p : Pool) : Prop where
  liabilities : ∀ s, p.amount s .liabilities = total (owed p.key s) mtps
  custody : ∀ s, p.amount s .custody = total (held p.key s) mtps

def BooksBalance (w : World β) : Prop := ∀ p ∈ w.pools.rows, Balanced w.mtps p

section Rows
variable {mtps mtps' : Table MTP.key}

theorem balanced_update (k : MtpKey) (p p' : Pool) (key : p'.key = p.key)
    (others : ∀ l, k ≠ l → mtps'.get l = mtps.get l)
    (liabilities : ∀ s, p'.amount s .liabilities + valueAt (owed p.key s) mtps k =
      p.amount s .liabilities + valueAt (owed p.key s) mtps' k)
    (custody : ∀ s, p'.amount s .custody + valueAt (held p.key s) mtps k =
      p.amount s .custody + valueAt (held p.key s) mtps' k)
    (balanced : Balanced mtps p) : Balanced mtps' p' := by
  constructor
  · intro s
    have updated := total_update (owed p.key s) mtps mtps' k (fun l other => by rw [others l other])
    have before := balanced.liabilities s
    have change := liabilities s
    rw [key]
    omega
  · intro s
    have updated := total_update (held p.key s) mtps mtps' k (fun l other => by rw [others l other])
    have before := balanced.custody s
    have change := custody s
    rw [key]
    omega

theorem valueAt_otherPool {k : MtpKey} {pool : PoolKey} (s : Side)
    (other : ∀ m, mtps.get k = some m → m.poolKey ≠ pool) :
    valueAt (owed pool s) mtps k = 0 ∧ valueAt (held pool s) mtps k = 0 := by
  unfold valueAt
  cases found : mtps.get k with
  | none => exact ⟨rfl, rfl⟩
  | some m => simp [owed, held, other m found]

theorem balanced_otherPool {k : MtpKey} {q : Pool}
    (others : ∀ l, k ≠ l → mtps'.get l = mtps.get l)
    (before : ∀ m, mtps.get k = some m → m.poolKey ≠ q.key)
    (after : ∀ m, mtps'.get k = some m → m.poolKey ≠ q.key)
    (balanced : Balanced mtps q) : Balanced mtps' q := by
  refine balanced_update k q q rfl others ?_ ?_ balanced
  · intro s
    rw [(valueAt_otherPool s before).1, (valueAt_otherPool s after).1]
  · intro s
    rw [(valueAt_otherPool s before).2, (valueAt_otherPool s after).2]

end Rows

/-- The frame's pool is balanced as it is in memory, the other pools as they are stored. -/
structure FrameBooks (f : Frame β) : Prop where
  mine : Balanced f.world.mtps f.pool
  others : ∀ q ∈ f.world.pools.rows, q.key ≠ f.pool.key → Balanced f.world.mtps q

/-- The position in memory agrees with the stored one, and the pool is its pool. -/
structure Current (f : Frame β) : Prop where
  row : ∃ m, f.world.mtps.get f.mtp.key = some m ∧ SameIdentity m f.mtp ∧
    m.liabilities = f.mtp.liabilities ∧ m.custodyAmount = f.mtp.custodyAmount
  pool : f.pool.key = f.mtp.poolKey
  one : OneFurySide f.mtp.collateralAsset f.mtp.custodyAsset
  numbered : f.mtp.id ≠ 0

structure Apart (f g : Frame β) : Prop where
  pools : ∀ k, k ≠ f.pool.key → g.world.pools.get k = f.world.pools.get k
  mtps : ∀ k, k ≠ f.mtp.key → g.world.mtps.get k = f.world.mtps.get k
  pool : g.pool.key = f.pool.key
  mtp : g.mtp.key = f.mtp.key
  context : g.world.height = f.world.height ∧ g.world.margin = f.world.margin

theorem apart_refl {f : Frame β} : Apart f f := ⟨fun _ _ => rfl, fun _ _ => rfl, rfl, rfl, rfl, rfl⟩

variable {k : PoolKey} {g : Frame β} {env : Env β} {before w : World β} {p : Pool}

theorem apart_trans {f h : Frame β} (first : Apart f g) (second : Apart g h) : Apart f h where
  pools := fun k other => (second.pools k (first.pool ▸ other)).trans (first.pools k other)
  mtps := fun k other => (second.mtps k (first.mtp ▸ other)).trans (first.mtps k other)
  pool := second.pool.trans first.pool
  mtp := second.mtp.trans first.mtp
  context := ⟨second.context.1.trans first.context.1, second.context.2.trans first.context.2⟩

section Frames
variable {f : Frame β}

theorem poolKey_identity {m m' : MTP} (same : SameIdentity m m') : m'.poolKey = m.poolKey := by
  simp [MTP.poolKey, same.collateralAsset, same.custodyAsset]

theorem key_identity {m m' : MTP} (same : SameIdentity m m') : m'.key = m.key := by
  simp [MTP.key, same.address, same.id]

theorem current_values (current : Current f) (s : Side) :
    valueAt (owed f.pool.key s) f.world.mtps f.mtp.key =
        (if sideOf f.mtp.collateralAsset = s then f.mtp.liabilities else 0) ∧
      valueAt (held f.pool.key s) f.world.mtps f.mtp.key =
        (if sideOf f.mtp.custodyAsset = s then f.mtp.custodyAmount else 0) := by
  obtain ⟨m, found, same, liabilities, custody⟩ := current.row
  have pool : m.poolKey = f.pool.key := by
    rw [current.pool, poolKey_identity same]
  simp [valueAt, found, owed, held, pool, ← same.collateralAsset, ← same.custodyAsset, liabilities,
    custody]

theorem frame_update (books : FrameBooks f) (current : Current f) (apart : Apart f g)
    (after : ∀ m, g.world.mtps.get f.mtp.key = some m → m.poolKey = f.pool.key)
    (liabilities : ∀ s, g.pool.amount s .liabilities +
      (if sideOf f.mtp.collateralAsset = s then f.mtp.liabilities else 0) =
        f.pool.amount s .liabilities + valueAt (owed f.pool.key s) g.world.mtps f.mtp.key)
    (custody : ∀ s, g.pool.amount s .custody +
      (if sideOf f.mtp.custodyAsset = s then f.mtp.custodyAmount else 0) =
        f.pool.amount s .custody + valueAt (held f.pool.key s) g.world.mtps f.mtp.key) :
    FrameBooks g := by
  have others : ∀ l, f.mtp.key ≠ l → g.world.mtps.get l = f.world.mtps.get l :=
    fun l other => apart.mtps l (Ne.symm other)
  constructor
  · refine balanced_update f.mtp.key f.pool g.pool apart.pool others ?_ ?_ books.mine
    · intro s
      rw [(current_values current s).1]
      exact liabilities s
    · intro s
      rw [(current_values current s).2]
      exact custody s
  · intro q member other
    rw [apart.pool] at other
    have stored : f.world.pools.get q.key = some q := by
      rw [← apart.pools q.key other]
      exact get_row member
    refine balanced_otherPool others ?_ ?_ (books.others q (get_mem stored).1 other)
    · intro m found
      obtain ⟨row, present, same, _⟩ := current.row
      obtain rfl : row = m := Option.some.inj (present.symm.trans found)
      rw [← poolKey_identity same, ← current.pool]
      exact Ne.symm other
    · intro m found
      rw [after m found]
      exact Ne.symm other

theorem setMtp_books (h : MTP → MTP) (same : SameIdentity f.mtp (h f.mtp))
    (liabilities : (h f.mtp).liabilities = f.mtp.liabilities)
    (custody : (h f.mtp).custodyAmount = f.mtp.custodyAmount) (books : FrameBooks f)
    (current : Current f) :
    FrameBooks { f with mtp := h f.mtp } ∧ Current { f with mtp := h f.mtp } ∧
      Apart f { f with mtp := h f.mtp } := by
  have key : (h f.mtp).key = f.mtp.key := key_identity same
  refine ⟨⟨books.mine, books.others⟩, ⟨?_, ?_, ?_, ?_⟩, ⟨fun _ _ => rfl, fun _ _ => rfl, rfl, key, rfl,
    rfl⟩⟩
  · obtain ⟨m, found, identity, owes, holds⟩ := current.row
    refine ⟨m, ?_, ⟨same.address.trans identity.address, same.id.trans identity.id,
      same.collateralAsset.trans identity.collateralAsset,
      same.custodyAsset.trans identity.custodyAsset, same.position.trans identity.position⟩,
      owes.trans liabilities.symm, holds.trans custody.symm⟩
    rw [key]
    exact found
  · exact current.pool.trans (poolKey_identity same).symm
  · show OneFurySide (h f.mtp).collateralAsset (h f.mtp).custodyAsset
    rw [same.collateralAsset, same.custodyAsset]
    exact current.one
  · show (h f.mtp).id ≠ 0
    rw [same.id]
    exact current.numbered

theorem onlyHealth_books (only : OnlyHealth f g) (books : FrameBooks f) (current : Current f) :
    FrameBooks g ∧ Current g ∧ Apart f g := by
  obtain ⟨health, rfl⟩ := only
  exact setMtp_books (fun m => { m with mtpHealth := health }) ⟨rfl, rfl, rfl, rfl, rfl⟩ rfl rfl books
    current

theorem stored_books (books : FrameBooks f) (current : Current f) :
    FrameBooks { f with world := { f.world with mtps := f.world.mtps.put f.mtp } } ∧
      Current { f with world := { f.world with mtps := f.world.mtps.put f.mtp } } ∧
      Apart f { f with world := { f.world with mtps := f.world.mtps.put f.mtp } } := by
  have apart : Apart f { f with world := { f.world with mtps := f.world.mtps.put f.mtp } } :=
    ⟨fun _ _ => rfl, fun k other => get_put_other _ _ _ (Ne.symm other), rfl, rfl, rfl, rfl⟩
  have pool := current.pool
  refine ⟨frame_update books current apart ?_ ?_ ?_, ⟨⟨f.mtp, get_put_same _ _,
    ⟨rfl, rfl, rfl, rfl, rfl⟩, rfl, rfl⟩, pool, current.one, current.numbered⟩, apart⟩
  · intro m found
    rw [get_put_same] at found
    rw [← Option.some.inj found, pool]
  · intro s
    rw [valueAt_put]
    simp [owed, pool]
  · intro s
    rw [valueAt_put]
    simp [held, pool]

theorem interestPaid_books {split : PaymentSplit} {take : ℕ} {b : β}
    (made : PaymentMade env f split take b) (books : FrameBooks f) (current : Current f) :
    FrameBooks (interestPaid f split take b) ∧ Current (interestPaid f split take b) ∧
      Apart f (interestPaid f split take b) := by
  have key : (f.pool.released (sideOf f.mtp.custodyAsset) split.custody (split.custody - take)).key =
      f.pool.key := released_key
  have pool : (f.mtp.charged split).poolKey = f.pool.key := current.pool.symm
  have apart : Apart f (interestPaid f split take b) :=
    ⟨fun k other => get_put_other _ _ _ (by rw [key]; exact Ne.symm other),
      fun k other => get_put_other _ _ _ (Ne.symm other), key, rfl, rfl, rfl⟩
  have row : (interestPaid f split take b).world.mtps.get f.mtp.key = some (f.mtp.charged split) :=
    get_put_same _ _
  have inPosition := made.inPosition
  have inPool := made.inPool
  refine ⟨frame_update books current apart ?_ ?_ ?_, ⟨⟨_, row, ⟨rfl, rfl, rfl, rfl, rfl⟩, rfl, rfl⟩,
    key.trans current.pool, current.one, current.numbered⟩, apart⟩
  · intro m found
    rw [row] at found
    rw [← Option.some.inj found, pool]
  · intro s
    simp only [valueAt, row, Option.map_some, Option.getD_some, owed, pool, true_and]
    by_cases side : sideOf f.mtp.collateralAsset = s
    · simp [interestPaid, released_liabilities, MTP.charged, side]
    · simp [interestPaid, released_liabilities, MTP.charged, side]
  · intro s
    simp only [valueAt, row, Option.map_some, Option.getD_some, held, pool, true_and]
    by_cases side : sideOf f.mtp.custodyAsset = s
    · subst side
      simp only [interestPaid, Pool.released, amount_set, MTP.charged, reduceCtorEq, and_false,
        and_self, ↓reduceIte]
      omega
    · simp [interestPaid, Pool.released, amount_set, MTP.charged, side]

theorem closed_books {repayAmount : ℕ} (health : Dec) (b : β)
    (enough : f.mtp.custodyAmount ≤ f.pool.amount (sideOf f.mtp.custodyAsset) .custody)
    (repayable : Repayable f.released repayAmount) (books : FrameBooks f) (current : Current f) :
    FrameBooks (repaidFrame f.released repayAmount health b) ∧
      Apart f (repaidFrame f.released repayAmount health b) := by
  have liabilities : f.mtp.liabilities ≤ f.pool.amount (sideOf f.mtp.collateralAsset) .liabilities := by
    simpa [Frame.released, Frame.stored, released_liabilities] using repayable.liabilities
  have apart : Apart f (repaidFrame f.released repayAmount health b) := by
    refine ⟨?_, ?_, ?_, rfl, rfl, rfl⟩
    · intro k other
      refine (get_put_other _ _ _ ?_).trans (get_put_other _ _ _ ?_)
      · simpa [Frame.released, Frame.stored] using Ne.symm other
      · simpa using Ne.symm other
    · intro k other
      exact get_delete.trans (if_neg (Ne.symm other))
    · simp [repaidFrame, Frame.released, Frame.stored]
  have gone : (repaidFrame f.released repayAmount health b).world.mtps.get f.mtp.key = none :=
    get_delete.trans (if_pos rfl)
  refine ⟨frame_update books current apart ?_ ?_ ?_, apart⟩
  · intro m found
    rw [gone] at found
    cases found
  · intro s
    simp only [valueAt, gone, Option.map_none, Option.getD_none]
    by_cases side : sideOf f.mtp.collateralAsset = s
    · subst side
      simp only [repaidFrame, Frame.released, Frame.stored, Pool.repaid, Pool.released, amount_set,
        reduceCtorEq, and_false, and_self, ↓reduceIte]
      omega
    · simp [repaidFrame, Frame.released, Frame.stored, Pool.repaid, Pool.released, amount_set, side]
  · intro s
    simp only [valueAt, gone, Option.map_none, Option.getD_none]
    by_cases side : sideOf f.mtp.custodyAsset = s
    · subst side
      simp only [repaidFrame, Frame.released, Frame.stored, Pool.repaid, Pool.released, amount_set,
        reduceCtorEq, and_false, and_self, ↓reduceIte]
      omega
    · simp [repaidFrame, Frame.released, Frame.stored, Pool.repaid, Pool.released, amount_set, side]

theorem counted_books (s : Side) (n : ℕ) (books : FrameBooks f) (current : Current f) :
    FrameBooks (f.counted s n) ∧ Current (f.counted s n) ∧ Apart f (f.counted s n) := by
  have key : (f.counted s n).pool.key = f.pool.key := set_key
  have apart : Apart f (f.counted s n) := ⟨fun _ _ => rfl, fun _ _ => rfl, key, rfl, rfl, rfl⟩
  refine ⟨⟨⟨?_, ?_⟩, ?_⟩, ⟨current.row, key.trans current.pool, current.one, current.numbered⟩, apart⟩
  · intro t
    rw [key]
    simpa [Frame.counted, amount_set] using books.mine.liabilities t
  · intro t
    rw [key]
    simpa [Frame.counted, amount_set] using books.mine.custody t
  · intro q member other
    rw [key] at other
    exact books.others q member other

theorem chargeInterest_books {epochPosition epochLength : ℤ} {u : Unit} (books : FrameBooks f)
    (current : Current f) (run : (chargeInterest env epochPosition epochLength).run f = (.ok u, g))
    (clean : g.dropped = []) : FrameBooks g ∧ Current g ∧ Apart f g := by
  obtain ⟨interestPayment, actual, h, _, handled, rfl⟩ := chargeInterest_succeeds run
  have before : FrameBooks h ∧ Current h ∧ Apart f h := by
    cases handled with
    | deferred disabled =>
      exact setMtp_books (fun m => { m with interestUnpaidCollateral := interestPayment })
        ⟨rfl, rfl, rfl, rfl, rfl⟩ rfl rfl books current
    | paid enabled actual h ran =>
      obtain ⟨_, split, take, b, _, _, made, _, rfl⟩ :=
        incrementalInterestPayment_succeeds current.numbered ran
      exact interestPaid_books made books current
    | dropped enabled e h ran => simp [Frame.counted] at clean
  obtain ⟨booked, now, apart⟩ := before
  obtain ⟨counted, still, rest⟩ := counted_books (sideOf f.mtp.collateralAsset).other actual booked now
  exact ⟨counted, still, apart_trans apart rest⟩

theorem chargeWithinEpoch_books {u : Unit} (books : FrameBooks f) (current : Current f)
    (run : (chargeWithinEpoch env).run f = (.ok u, g)) (clean : g.dropped = []) :
    FrameBooks g ∧ Current g ∧ Apart f g := by
  rcases chargeWithinEpoch_succeeds _ run with ⟨_, rfl⟩ | ⟨h, charged, only⟩
  · exact ⟨books, current, apart_refl⟩
  · have same : g.dropped = h.dropped := by
      obtain ⟨_, rfl⟩ := only
      rfl
    obtain ⟨booked, now, apart⟩ := chargeInterest_books books current charged (same ▸ clean)
    obtain ⟨last, still, rest⟩ := onlyHealth_books only booked now
    exact ⟨last, still, apart_trans apart rest⟩

theorem closePosition_books {takeFund : Bool} {repayAmount : ℕ} (books : FrameBooks f)
    (current : Current f) (run : (closePosition env takeFund).run f = (.ok repayAmount, g)) :
    FrameBooks g ∧ Apart f g ∧ g.dropped = f.dropped ∧
      g.world.pools.get f.pool.key = some g.pool := by
  obtain ⟨health, b, enough, _, repayable, _, rfl⟩ := closePosition_succeeds run
  obtain ⟨booked, apart⟩ := closed_books health b enough repayable books current
  refine ⟨booked, apart, rfl, ?_⟩
  rw [← apart.pool]
  exact get_put_same _ _

theorem admits_unhealthy : Admits (· ≠ .err .errMTPHealthy) :=
  ⟨fun _ other same => other (by simpa using same), fun _ _ same => by cases same⟩

theorem tryForceClose_books (env : Env β) (books : FrameBooks f) (current : Current f)
    (start : getEpochPosition f.world.height f.world.margin.epochLength ≤ 0) :
    Meets (tryForceClose env) f (fun _ g => g.dropped = [] → FrameBooks g ∧ Apart f g)
      (fun _ _ => True) := by
  unfold tryForceClose
  refine meets_bind (P := fun result g => (∀ repaid, result = .ok repaid → FrameBooks g ∧ Apart f g) ∧
    (result = .error .errMTPHealthy → g = f)) (meets_outcome ⟨?_, ?_⟩) ?_
  · intro repayAmount g run
    rw [forceCloseLong_start env start, require_then] at run
    obtain ⟨booked, apart, _⟩ := closePosition_books books current run.2
    exact ⟨fun _ _ => ⟨booked, apart⟩, nofun⟩
  · intro e g run
    cases e with
    | panic p => trivial
    | err e =>
      refine ⟨nofun, ?_⟩
      rintro ⟨⟩
      rw [forceCloseLong_start env start] at run
      rcases bind_fails.mp run with refused | ⟨_, h, _, failed⟩
      · unfold require at refused
        split at refused
        · simp [pure] at refused
        · simp only [fail, Prod.mk.injEq, true_and] at refused
          exact refused.symm
      · exact absurd rfl (closePosition_fails admits_unhealthy (Or.inr (by simp)) _ _ failed)
  · intro result g effect
    split
    · exact meets_pure (fun _ => effect.1 _ rfl)
    · obtain rfl := effect.2 rfl
      exact meets_pure (fun _ => ⟨books, apart_refl⟩)
    · exact meets_modify (fun clean => by simp at clean)

end Frames

structure Recorded (n : ℕ) (m : MTP) : Prop where
  numbered : m.id ≠ 0
  counted : m.id ≤ n
  one : OneFurySide m.collateralAsset m.custodyAsset

/-- A stored pool has an asset that `SetPool` accepts, and it is not fury. -/
structure Listed (env : Env β) (p : Pool) : Prop where
  valid : assetValidate env p.externalAsset = .ok true
  external : p.externalAsset ≠ nativeSymbol

theorem listed_asset (env : Env β) (p q : Pool) (same : q.externalAsset = p.externalAsset)
    (listed : Listed env p) : Listed env q :=
  ⟨same ▸ listed.valid, same ▸ listed.external⟩

theorem recorded_rows (env : Env β) (n : ℕ) : RowInvariant (Recorded n) (Listed env) where
  numbered := fun _ recorded => recorded.numbered
  amounts := fun _ _ same recorded => ⟨same.id ▸ recorded.numbered, same.id ▸ recorded.counted,
    same.collateralAsset ▸ same.custodyAsset ▸ recorded.one⟩
  grown := fun p _ _ _ _ listed => listed_asset env p _ (set_asset _ _ _ _) listed
  shrunk := fun p _ _ _ _ listed => listed_asset env p _ (set_asset _ _ _ _) listed
  returned := fun p _ _ _ listed => listed_asset env p _ (set_asset _ _ _ _) listed
  computed := fun p _ _ _ listed => listed_asset env p _ rfl listed

section Blocks
variable {env : Env β} {f : Frame β} {n : ℕ}

theorem logged_books (books : FrameBooks f) (current : Current f)
    (rows : FrameRows (Recorded n) (Listed env) n [] f) :
    Meets (logged setMTP) f
      (fun _ g => FrameRows (Recorded n) (Listed env) n [] g ∧
        (g.dropped ≠ [] ∨ (FrameBooks g ∧ Current g ∧ Apart f g))) (fun _ _ => True) := by
  have inv := rows_steps (β := β) (recorded_rows env n) n []
  have kept := logged_keeps inv.toLasting (setMTP_keeps inv rows)
  have booked : Meets (logged setMTP) f (fun _ g =>
      g.dropped ≠ [] ∨ (FrameBooks g ∧ Current g ∧ Apart f g)) (fun _ _ => True) := by
    unfold logged
    refine meets_bind (P := fun result g => ∀ u, result = .ok u →
      FrameBooks g ∧ Current g ∧ Apart f g) (meets_outcome ⟨?_, ?_⟩) ?_
    · intro u g run
      obtain ⟨_, rfl⟩ := (setMTP_numbered current.numbered).mp run
      exact fun _ _ => stored_books books current
    · intro e g _
      cases e with
      | panic p => trivial
      | err e =>
        intro u same
        cases same
    · intro result g effect
      cases result with
      | ok u => exact meets_pure (Or.inr (effect u rfl))
      | error e => exact meets_modify (Or.inl (by simp))
  exact meets_mono _ (meets_and kept booked) (fun _ _ both => both) (fun _ _ _ => trivial)

theorem processMTP_books (books : FrameBooks f) (current : Current f)
    (rows : FrameRows (Recorded n) (Listed env) n [] f)
    (start : getEpochPosition f.world.height f.world.margin.epochLength ≤ 0) :
    Meets (processMTP env) f (fun _ g => g.dropped = [] → FrameBooks g ∧ Apart f g)
      (fun _ _ => True) := by
  have inv := rows_steps (β := β) (recorded_rows env n) n
  unfold processMTP
  refine meets_read_then ?_
  split
  · exact meets_fail trivial
  · exact meets_modify (fun clean => by simp at clean)
  · rename_i health _
    obtain ⟨booked, now, apart⟩ := onlyHealth_books ⟨health, rfl⟩ books current
    have frame := onlyHealth_keeps (inv []) ⟨health, rfl⟩ rows
    refine meets_modify_then (meets_bind (P := fun u g =>
      (chargeInterest env 0 0).run { f with mtp := { f.mtp with mtpHealth := health } } = (.ok u, g))
      ⟨fun _ _ run => run, fun _ _ _ => trivial⟩ ?_)
    intro u g charged
    have kept := (chargeInterest_keeps (inv []) env 0 0 frame).ok u g charged
    -- a failure that was dropped stays in the list, so the books are not asked for
    have noted : ∀ h : Frame β, FrameRows (Recorded n) (Listed env) n [] h → h.dropped ≠ [] →
        Meets (tryForceClose env) h (fun _ i => i.dropped = [] → FrameBooks i ∧ Apart f i)
          (fun _ _ => True) := by
      intro h inside failed
      refine meets_mono _ (tryForceClose_keeps (inv h.dropped) env
        ⟨inside.world, inside.mtp, inside.pool, List.prefix_rfl⟩) ?_ (fun _ _ _ => trivial)
      intro _ i later clean
      have none := later.noted
      rw [clean] at none
      exact absurd (List.prefix_nil.mp none) failed
    by_cases clean : g.dropped = []
    · obtain ⟨paid, still, charge⟩ := chargeInterest_books booked now charged clean
      refine meets_bind (logged_books paid still kept) ?_
      rintro _ h ⟨inside, failed | ⟨written, last, store⟩⟩
      · exact noted h inside failed
      · have between := apart_trans apart (apart_trans charge store)
        refine meets_mono _ (tryForceClose_books env written last ?_) ?_ (fun _ _ _ => trivial)
        · rw [between.context.1, between.context.2]
          exact start
        · intro _ i effect clean
          obtain ⟨final, rest⟩ := effect clean
          exact ⟨final, apart_trans between rest⟩
    · refine meets_bind (P := fun _ h => FrameRows (Recorded n) (Listed env) n g.dropped h)
        (meets_mono _ (logged_keeps (inv g.dropped).toLasting (setMTP_keeps (inv g.dropped)
          ⟨kept.world, kept.mtp, kept.pool, List.prefix_rfl⟩))
          (fun _ _ inside => inside) (fun _ _ _ => trivial)) ?_
      intro _ h inside
      refine noted h ⟨inside.world, inside.mtp, inside.pool, List.nil_prefix⟩ ?_
      intro none
      exact clean (List.prefix_nil.mp (none ▸ inside.noted))

theorem beginBlockerProcessMTP_books (books : FrameBooks f) (current : Current f)
    (rows : FrameRows (Recorded n) (Listed env) n [] f)
    (start : getEpochPosition f.world.height f.world.margin.epochLength ≤ 0) :
    Meets (beginBlockerProcessMTP env) f (fun _ g => g.dropped = [] → FrameBooks g ∧ Apart f g)
      (fun _ _ => True) := by
  unfold beginBlockerProcessMTP
  refine meets_bind (P := fun result g => ∀ u, result = .ok u → g.dropped = [] →
    FrameBooks g ∧ Apart f g) (meets_attempt (meets_mono _ (processMTP_books books current rows start)
      (fun _ _ effect _ _ => effect) (fun _ _ _ _ same => by cases same))) ?_
  intro result g effect
  cases result with
  | ok u => exact meets_pure (effect u rfl)
  | error e => exact meets_modify (fun clean => by simp at clean)

/-- Within a pool's turn, while no failure was dropped: the pool in memory and the stored other
    pools are balanced, and the positions still to come are as they were read. -/
structure Turn (n : ℕ) (k : PoolKey) (before : World β) (rest : List MTP) (pool : Pool)
    (w : World β) : Prop where
  key : pool.key = k
  mine : Balanced w.mtps pool
  others : ∀ q ∈ w.pools.rows, q.key ≠ k → Balanced w.mtps q
  outside : ∀ l, l ≠ k → w.pools.get l = before.pools.get l
  context : w.height = before.height ∧ w.margin = before.margin
  unread : ∀ m ∈ rest, w.mtps.get m.key = some m ∧ Recorded n m ∧ m.poolKey = k
  distinct : (rest.map MTP.key).Nodup

theorem visitPosition_books {mtp : MTP} {rest : List MTP} {state : BlockState}
    (rows : Rows (Recorded n) (Listed env) n w) (listed : Listed env state.pool)
    (start : getEpochPosition before.height before.margin.epochLength ≤ 0)
    (turn : state.dropped = [] → Turn n k before (mtp :: rest) state.pool w) :
    Meets (visitPosition env state mtp) w
      (fun after t => after.dropped = [] → Turn n k before rest after.pool t) (fun _ _ => True) := by
  unfold visitPosition
  by_cases clean : state.dropped = []
  · have now := turn clean
    obtain ⟨stored, recorded, pool⟩ := now.unread mtp (by simp)
    have current : Current (⟨w, mtp, state.pool, []⟩ : Frame β) :=
      ⟨⟨mtp, stored, ⟨rfl, rfl, rfl, rfl, rfl⟩, rfl, rfl⟩, now.key.trans pool.symm, recorded.one,
        recorded.numbered⟩
    have books : FrameBooks (⟨w, mtp, state.pool, []⟩ : Frame β) :=
      ⟨now.mine, fun q member other => now.others q member (by rw [← now.key]; exact other)⟩
    refine meets_bind (P := fun result t => t = result.2.world ∧ (result.2.dropped = [] →
      FrameBooks result.2 ∧ Apart (⟨w, mtp, state.pool, []⟩ : Frame β) result.2)) (meets_enter
      (meets_mono _ (beginBlockerProcessMTP_books books current ⟨rows, recorded, listed, List.nil_prefix⟩
        (by rw [now.context.1, now.context.2]; exact start))
        (fun _ _ effect => ⟨rfl, effect⟩) (fun _ _ _ => trivial))) ?_
    rintro ⟨_, g⟩ t ⟨rfl, effect⟩
    refine meets_pure ?_
    intro none
    obtain ⟨booked, apart⟩ := effect (List.append_eq_nil_iff.mp none).2
    have key : g.pool.key = k := apart.pool.trans now.key
    have unseen := List.nodup_cons.mp now.distinct
    refine ⟨key, booked.mine, fun q member other => booked.others q member (key ▸ other), ?_,
      ⟨apart.context.1.trans now.context.1, apart.context.2.trans now.context.2⟩, ?_, unseen.2⟩
    · intro l other
      exact (apart.pools l (by rw [now.key]; exact other)).trans (now.outside l other)
    · intro m member
      obtain ⟨found, facts⟩ := now.unread m (by simp [member])
      refine ⟨(apart.mtps m.key ?_).trans found, facts⟩
      intro same
      exact unseen.1 (same ▸ List.mem_map_of_mem member)
  · refine meets_bind (P := fun _ _ => True) ⟨fun _ _ _ => trivial, fun _ _ _ => trivial⟩ ?_
    rintro ⟨_, g⟩ t _
    exact meets_pure (fun none => absurd (List.append_eq_nil_iff.mp none).1 clean)

theorem getMTPsForPool_poolKey (rows : Rows (Recorded n) (Listed env) n w) (listed : Listed env p) :
    ∀ m ∈ getMTPsForPool w p.externalAsset, w.mtps.get m.key = some m ∧ Recorded n m ∧
      m.poolKey = p.key := by
  intro m member
  have hit := Pagination.filteredPaginate_sublist.subset member
  obtain ⟨stored, matched⟩ := List.mem_filter.mp hit
  have recorded := rows.mtps m stored
  refine ⟨get_row stored, recorded, ?_⟩
  have external := listed.external
  have asset : m.custodyAsset = p.externalAsset ∨ m.collateralAsset = p.externalAsset := by
    simpa using matched
  simp only [MTP.poolKey, Pool.key, PoolKey.mk.injEq, externalAssetOf]
  rcases recorded.one with ⟨fury, other⟩ | ⟨other, fury⟩
  · rw [if_pos fury]
    rcases asset with same | same
    · exact same
    · exact absurd (same.symm.trans fury) external
  · rw [if_neg other]
    rcases asset with same | same
    · exact absurd (same.symm.trans fury) external
    · exact same

theorem balanced_fields {mtps : Table MTP.key} {q : Pool} (key : q.key = p.key)
    (liabilities : ∀ s, q.amount s .liabilities = p.amount s .liabilities)
    (custody : ∀ s, q.amount s .custody = p.amount s .custody) (balanced : Balanced mtps p) :
    Balanced mtps q :=
  ⟨fun s => by rw [liabilities, key, balanced.liabilities s],
    fun s => by rw [custody, key, balanced.custody s]⟩

theorem setPool_listed (w : World β) (listed : Listed env p) :
    (setPool env p).run w = (.ok (), { w with pools := w.pools.put p }) :=
  (setPool_succeeds env).mpr ⟨listed.valid, rfl⟩

theorem turn_stored (k : PoolKey) (before w : World β) (rest : List MTP) (p q : Pool)
    (turn : Turn n k before rest p w) (key : q.key = k) (balanced : Balanced w.mtps q) :
    Turn n k before rest q { w with pools := w.pools.put q } where
  key := key
  mine := balanced
  others := by
    intro r member other
    rcases (mem_put _ _ r).mp member with rfl | ⟨old, _⟩
    · exact absurd key other
    · exact turn.others r old other
  outside := fun l other =>
    (get_put_other _ _ _ (by rw [key]; exact Ne.symm other)).trans (turn.outside l other)
  context := turn.context
  unread := turn.unread
  distinct := turn.distinct

theorem trackSQBeginBlock_only (pool : Pool) (w : World β) :
    Meets (trackSQBeginBlock pool) w (fun _ t => ∃ sq, t = { w with sqBeginBlock := sq })
      (fun _ _ => True) := by
  unfold trackSQBeginBlock setSQBeginBlock
  refine meets_read_then (meets_ite (fun _ => ?_) (fun _ => ?_))
  · exact meets_when (fun _ => meets_modify ⟨_, rfl⟩) (fun _ => ⟨_, rfl⟩)
  · exact meets_when (fun _ => meets_modify ⟨_, rfl⟩) (fun _ => ⟨_, rfl⟩)

theorem visitPositions_books {pool : Pool} (rows : Rows (Recorded n) (Listed env) n w)
    (listed : Listed env pool)
    (start : getEpochPosition before.height before.margin.epochLength ≤ 0)
    (turn : Turn n k before [] pool w) :
    Meets (visitPositions env pool) w
      (fun after t => after.dropped = [] → Turn n k before [] after.pool t) (fun _ _ => True) := by
  have inv := rows_events (β := β) (recorded_rows env n) n
  have stored := turn_stored k before w [] pool pool turn turn.key turn.mine
  have storedRows := put_pool_rows n rows listed
  unfold visitPositions
  refine meets_bind (Action.meets_ignoreError (I := fun t => t = { w with pools := w.pools.put pool })
    (meets_run (setPool_listed w listed) rfl)) ?_
  rintro _ t rfl
  refine meets_bind (trackSQBeginBlock_only pool _) ?_
  rintro _ u ⟨sq, rfl⟩
  have listRows : Rows (Recorded n) (Listed env) n
      { w with pools := w.pools.put pool, sqBeginBlock := sq } :=
    ⟨storedRows.counted, storedRows.mtps, storedRows.pools⟩
  refine meets_read_then ?_
  refine meets_mono _ (meets_accumulate (I := fun rest state t =>
    Rows (Recorded n) (Listed env) n t ∧ Listed env state.pool ∧ (∀ m ∈ rest, Recorded n m) ∧
      (state.dropped = [] → Turn n k before rest state.pool t)) (E := fun _ _ => True) _ _ _ ?_ ?_)
    (fun _ _ done => done.2.2.2) (fun _ _ _ => trivial)
  · rintro mtp rest state t ⟨inside, fine, recorded, now⟩
    refine meets_mono _ (meets_and (visitPosition_keeps inv env recorded fine inside)
      (visitPosition_books inside fine start now)) ?_ (fun _ _ _ => trivial)
    rintro after u ⟨⟨still, unread, kept⟩, next⟩
    exact ⟨kept, still, unread, next⟩
  · have all := getMTPsForPool_poolKey listRows listed
    refine ⟨listRows, listed, fun m member => (all m member).2.1, fun _ => ?_⟩
    refine ⟨stored.key, stored.mine, stored.others, stored.outside, stored.context, ?_, ?_⟩
    · intro m member
      obtain ⟨found, recorded, pooled⟩ := all m member
      exact ⟨found, recorded, pooled.trans turn.key⟩
    · exact (w.mtps.distinct).sublist ((Pagination.filteredPaginate_sublist.trans
        List.filter_sublist).map _)

theorem turn_pool {q : Pool} (turn : Turn n k before [] p w) (key : q.key = p.key)
    (liabilities : ∀ s, q.amount s .liabilities = p.amount s .liabilities)
    (custody : ∀ s, q.amount s .custody = p.amount s .custody) : Turn n k before [] q w :=
  ⟨key.trans turn.key, balanced_fields key liabilities custody turn.mine, turn.others,
    turn.outside, turn.context, turn.unread, turn.distinct⟩

theorem visitEnabledPool_books {pool : Pool} (rows : Rows (Recorded n) (Listed env) n w)
    (listed : Listed env pool)
    (start : getEpochPosition before.height before.margin.epochLength ≤ 0)
    (turn : Turn n k before [] pool w) :
    Meets (visitEnabledPool env pool) w
      (fun after t => after.dropped = [] → Turn n k before [] after.pool t) (fun _ _ => True) := by
  unfold visitEnabledPool
  refine meets_read_then (meets_ofExcept_then (fun rate _ => ?_) (fun _ _ => trivial))
  refine meets_ofExcept_then (fun health _ => ?_) (fun _ _ => trivial)
  exact visitPositions_books rows (listed_asset env pool _ rfl listed) start
    (turn_pool turn rfl (fun s => by cases s <;> rfl) (fun s => by cases s <;> rfl))

theorem visitPool_books (dropped : List Failure) {pool : Pool}
    (rows : Rows (Recorded n) (Listed env) n w) (books : BooksBalance w)
    (stored : w.pools.get pool.key = some pool)
    (start : getEpochPosition w.height w.margin.epochLength ≤ 0) :
    Meets (visitPool env dropped pool) w
      (fun after t => after = [] → BooksBalance t ∧
        (∀ k, k ≠ pool.key → t.pools.get k = w.pools.get k) ∧
        t.height = w.height ∧ t.margin = w.margin) (fun _ _ => True) := by
  have inv := rows_events (β := β) (recorded_rows env n) n
  obtain ⟨member, _⟩ := get_mem stored
  have turn : Turn n pool.key w [] pool w := by
    refine ⟨rfl, books pool member, fun q inside _ => books q inside, fun _ _ => rfl, ⟨rfl, rfl⟩, ?_,
      List.nodup_nil⟩
    intro m none
    cases none
  have fresh : Turn n pool.key w [] { pool with blockInterestExternal := 0, blockInterestNative := 0 }
      w := turn_pool turn rfl (fun s => by cases s <;> rfl) (fun s => by cases s <;> rfl)
  have listed := listed_asset env pool { pool with blockInterestExternal := 0, blockInterestNative := 0 }
    rfl (rows.pools pool member)
  unfold visitPool
  refine meets_read_then (meets_bind (P := fun state t => Listed env state.pool ∧
    (state.dropped = [] → Turn n pool.key w [] state.pool t)) ?_ ?_)
  · refine meets_ite (fun _ => ?_) (fun _ => meets_pure ⟨listed, fun _ => fresh⟩)
    refine meets_mono _ (meets_and (visitEnabledPool_keeps inv env listed rows)
      (visitEnabledPool_books rows listed start fresh)) ?_ (fun _ _ _ => trivial)
    exact fun _ _ both => ⟨both.1.1, both.2⟩
  · rintro state t ⟨fine, now⟩
    refine meets_bind (Action.meets_ignoreError (I := fun u => u = { t with
      pools := t.pools.put state.pool }) (meets_run (setPool_listed t fine) rfl)) ?_
    rintro _ u rfl
    refine meets_pure ?_
    intro none
    have done := now (List.append_eq_nil_iff.mp none).2
    have last := turn_stored _ _ _ _ _ _ done done.key done.mine
    refine ⟨?_, last.outside, last.context⟩
    intro q inside
    by_cases same : q.key = pool.key
    · rcases (mem_put _ _ q).mp inside with rfl | ⟨_, other⟩
      · exact last.mine
      · exact absurd (same.trans done.key.symm) other
    · exact last.others q inside same

theorem beginBlocker_books (w : World β) (rows : Rows (Recorded n) (Listed env) n w)
    (books : BooksBalance w) :
    Meets (beginBlocker env) w (fun dropped t => dropped = [] → BooksBalance t) (fun _ _ => True) := by
  unfold beginBlocker
  refine meets_read_then (meets_ite (fun start => ?_) (fun _ => meets_pure (fun _ => books)))
  -- the pools still to come are as they were read, since each turn writes its own pool only
  refine meets_mono _ (meets_accumulate (I := fun rest dropped t =>
    Rows (Recorded n) (Listed env) n t ∧ (∀ p ∈ rest, Listed env p) ∧ (dropped = [] → BooksBalance t ∧
      (∀ p ∈ rest, t.pools.get p.key = some p) ∧ (rest.map Pool.key).Nodup ∧ t.height = w.height ∧
      t.margin = w.margin)) (E := fun _ _ => True) _ _ _ ?_ ?_)
    (fun _ _ done clean => (done.2.2 clean).1) (fun _ _ _ => trivial)
  · rintro pool rest dropped t ⟨inside, listed, now⟩
    have kept := visitPool_keeps (rows_events (recorded_rows env n) n) env dropped pool (listed pool (by simp)) inside
    by_cases clean : dropped = []
    · obtain ⟨balance, unread, distinct, height, margin⟩ := now clean
      refine meets_mono _ (meets_and kept (visitPool_books dropped inside balance
        (unread pool (by simp)) (by rw [height, margin]; exact start.le))) ?_ (fun _ _ _ => trivial)
      rintro after u ⟨still, effect⟩
      refine ⟨still, fun p member => listed p (by simp [member]), fun none => ?_⟩
      obtain ⟨balanceNow, outside, heightNow, marginNow⟩ := effect none
      have unseen := List.nodup_cons.mp distinct
      refine ⟨balanceNow, ?_, unseen.2, heightNow.trans height, marginNow.trans margin⟩
      intro p member
      rw [outside p.key (fun same => unseen.1 (same ▸ List.mem_map_of_mem member))]
      exact unread p (by simp [member])
    · have noted : Meets (visitPool env dropped pool) t (fun after _ => after ≠ [])
          (fun _ _ => True) := by
        unfold visitPool
        refine meets_read_then (meets_bind (P := fun _ _ => True)
          ⟨fun _ _ _ => trivial, fun _ _ _ => trivial⟩ (fun state u _ => ?_))
        refine meets_bind (P := fun _ _ => True) ⟨fun _ _ _ => trivial, fun _ _ _ => trivial⟩ ?_
        exact fun _ _ _ => meets_pure (fun none => clean (List.append_eq_nil_iff.mp none).1)
      refine meets_mono _ (meets_and kept noted) ?_ (fun _ _ _ => trivial)
      exact fun _ _ both => ⟨both.1, fun p member => listed p (by simp [member]),
        fun none => absurd none both.2⟩
  · exact ⟨rows, rows.pools, fun _ => ⟨books, fun p member => get_row member,
      w.pools.distinct, rfl, rfl⟩⟩

end Blocks

structure Booked (env : Env β) (w : World β) : Prop where
  books : BooksBalance w
  rows : Rows (Recorded w.mtpCount) (Listed env) w.mtpCount w
  counter : w.mtpCount < 2 ^ 64

section Events
variable {env : Env β} {w : World β}

theorem frameBooks_world (f : Frame β) (books : FrameBooks f)
    (stored : f.world.pools.get f.pool.key = some f.pool) : BooksBalance f.world := by
  intro q member
  by_cases same : q.key = f.pool.key
  · have found : f.world.pools.get f.pool.key = some q :=
      (get_some_iff _ _ _).mpr ⟨member, same⟩
    obtain rfl : f.pool = q := Option.some.inj (stored.symm.trans found)
    exact books.mine
  · exact books.others q member same

theorem withPosition_books {n : ℕ} {address : String} {id : ℕ} {act : Step β ℕ} {w' : World β}
    (rows : Rows (Recorded n) (Listed env) n w) (books : BooksBalance w)
    (acts : ∀ (f g : Frame β) (a : ℕ), FrameBooks f → Current f → act.run f = (.ok a, g) →
      g.dropped = [] → FrameBooks g ∧ g.world.pools.get g.pool.key = some g.pool)
    (run : (withPosition address id act).run w = (.ok [], w')) : BooksBalance w' := by
  obtain ⟨mtp, pool, repayAmount, g, found, pooled, ran, clean, rfl⟩ :=
    withPosition_succeeds run
  obtain ⟨stored, key⟩ := get_mem found
  obtain ⟨inPools, poolKey⟩ := get_mem pooled
  have recorded := rows.mtps mtp stored
  have current : Current (⟨w, mtp, pool, []⟩ : Frame β) :=
    ⟨⟨mtp, get_row stored, ⟨rfl, rfl, rfl, rfl, rfl⟩, rfl, rfl⟩, poolKey,
      recorded.one, recorded.numbered⟩
  obtain ⟨booked, kept⟩ := acts _ g repayAmount ⟨books pool inPools, fun q member _ => books q member⟩
    current ran clean.symm
  exact frameBooks_world g booked kept

theorem closing_books (takeFund : Bool) (check : Frame β → Step β Unit)
    (checks : ∀ f u g, (check f).run f = (.ok u, g) → g = f) (f g : Frame β) (a : ℕ)
    (books : FrameBooks f) (current : Current f)
    (run : (do
      chargeWithinEpoch env
      let h ← read
      check h
      closePosition env takeFund : Step β ℕ).run f = (.ok a, g)) (clean : g.dropped = []) :
    FrameBooks g ∧ g.world.pools.get g.pool.key = some g.pool := by
  obtain ⟨_, h, charged, run⟩ := bind_ok run
  rw [read_then] at run
  obtain ⟨_, i, checked, closed⟩ := bind_ok run
  obtain rfl := checks h _ i checked
  have same : g.dropped = i.dropped := by
    obtain ⟨_, _, _, _, _, _, rfl⟩ := closePosition_succeeds closed
    rfl
  obtain ⟨booked, now, _⟩ := chargeWithinEpoch_books books current charged (same ▸ clean)
  obtain ⟨final, apart, _, stored⟩ := closePosition_books booked now closed
  exact ⟨final, apart.pool ▸ stored⟩

/-- Every event but `Open` keeps the books when it drops nothing. -/
theorem event_books {n : ℕ} {e : MarginEvent} (notOpen : ∀ c m, e ≠ .message c (.open' m))
    {w' : World β} (rows : Rows (Recorded n) (Listed env) n w) (books : BooksBalance w)
    (run : (e.action env).run w = (.ok [], w')) : BooksBalance w' := by
  cases e with
  | beginBlock c => exact (beginBlocker_books w rows books).ok _ _ run rfl
  | message c msg =>
    obtain ⟨_, _, handled⟩ := action_succeeds msg w w' [] run
    have forced : ∀ takeFund address id u, (withPosition address id
        (forceCloseLong env true takeFund)).run w = (.ok [], u) → BooksBalance u := by
      intro takeFund address id u ran
      refine withPosition_books rows books ?_ ran
      intro f g a booked current closed clean
      refine closing_books takeFund (fun h => require (true = true ∨
        h.mtp.mtpHealth.le h.world.margin.safetyFactor) (.err .errMTPHealthy)) ?_ f g a booked current
        closed clean
      exact fun h _ i checked => (require_succeeds.mp checked).2.symm
    have admin : ∀ signer (p : Action β (List Failure)) (u : World β),
        (requireAdmin env signer >>= fun _ => p).run w = (.ok [], u) → p.run w = (.ok [], u) := by
      intro signer p u ran
      obtain ⟨_, r, checked, rest⟩ := bind_ok ran
      unfold requireAdmin at checked
      simp only [ofExcept_then, read_then, require_succeeds] at checked
      obtain ⟨_, _, _, rfl⟩ := checked
      exact rest
    cases msg with
    | open' m => exact absurd rfl (notOpen c m)
    | close m =>
      refine withPosition_books rows books ?_ handled
      intro f g a booked current closed clean
      exact closing_books false (fun _ => pure ()) (fun _ _ _ checked =>
        (pure_succeeds.mp checked).2.symm) f g a booked current closed clean
    | forceClose m => exact forced _ _ _ w' (admin _ _ _ handled)
    | adminClose m => exact forced _ _ _ w' (admin _ _ _ handled)

theorem opened_books {m : MsgOpen} {t : OpenTerms} {b : β} {id : ℕ} (opened : Opened env m w t b)
    (free : w.mtps.get (t.mtp m id).key = none) (books : BooksBalance w) :
    BooksBalance (w.opened b (t.mtp m id) (t.poolAfter m)) := by
  obtain ⟨inPools, found⟩ := get_mem opened.found
  have key := poolAfter_key t m
  have pool : (t.mtp m id).poolKey = t.pool.key := found.symm
  have others : ∀ l, (t.mtp m id).key ≠ l →
      (w.mtps.put (t.mtp m id)).get l = w.mtps.get l := fun l other => get_put_other _ _ _ other
  have nothing : ∀ (f : MTP → ℕ), valueAt f w.mtps (t.mtp m id).key = 0 := by
    intro f
    simp [valueAt, free]
  have mtps : (w.opened b (t.mtp m id) (t.poolAfter m)).mtps = w.mtps.put (t.mtp m id) := rfl
  have collateral : (t.mtp m id).collateralAsset = m.collateralAsset := rfl
  have custody : (t.mtp m id).custodyAsset = m.borrowAsset := rfl
  intro q member
  rcases (mem_put _ _ q).mp member with rfl | ⟨old, other⟩
  · refine balanced_update (t.mtp m id).key t.pool _ key others ?_ ?_ (books t.pool inPools)
    · intro s
      rw [nothing, mtps, valueAt_put, if_pos rfl, owed, pool, collateral]
      by_cases side : sideOf m.collateralAsset = s
      · simp [OpenTerms.poolAfter, OpenTerms.borrowedPool, Pool.takenIn, Pool.borrowed, amount_set,
          side, OpenTerms.mtp]
      · simp [OpenTerms.poolAfter, OpenTerms.borrowedPool, Pool.takenIn, Pool.borrowed, amount_set,
          side]
    · intro s
      rw [nothing, mtps, valueAt_put, if_pos rfl, held, pool, custody]
      by_cases side : sideOf m.borrowAsset = s
      · simp [OpenTerms.poolAfter, OpenTerms.borrowedPool, Pool.takenIn, Pool.borrowed, amount_set,
          side, OpenTerms.mtp]
      · simp [OpenTerms.poolAfter, OpenTerms.borrowedPool, Pool.takenIn, Pool.borrowed, amount_set,
          side]
  · refine balanced_otherPool others ?_ ?_ (books q old)
    · intro row stored
      rw [free] at stored
      cases stored
    · intro row stored
      rw [mtps, get_put_same] at stored
      rw [← Option.some.inj stored, pool, ← key]
      exact Ne.symm other

/-- The condition on an event: its position has one fury side, and no failure is dropped. -/
def Undisturbed (env : Env β) (w : World β) (e : MarginEvent) : Prop :=
  OpensOneFurySide e ∧ match ((e.action env).run (w.within e.context)).1 with
    | .ok dropped => dropped = []
    | .error _ => True

instance (e : MarginEvent) : Decidable (OpensOneFurySide e) :=
  match e with
  | .message _ (.open' m) => inferInstanceAs (Decidable (OneFurySide m.collateralAsset m.borrowAsset))
  | .message _ (.close _) => isTrue trivial
  | .message _ (.forceClose _) => isTrue trivial
  | .message _ (.adminClose _) => isTrue trivial
  | .beginBlock _ => isTrue trivial

instance (env : Env β) (w : World β) (e : MarginEvent) : Decidable (Undisturbed env w e) := by
  unfold Undisturbed
  cases ((e.action env).run (w.within e.context)).1 <;> infer_instance

theorem open_booked (c : BlockContext) (m : MsgOpen)
    (one : OneFurySide m.collateralAsset m.borrowAsset) (booked : Booked env w) :
    Booked env (MarginEvent.step env (.message c (.open' m)) w) := by
  rcases open_step c m booked.counter with same | ⟨t, b, opened, _, small, stepped⟩
  · rw [same]
    exact ⟨booked.books, ⟨rfl, booked.rows.mtps, booked.rows.pools⟩, booked.counter⟩
  · have count : (MarginEvent.step env (.message c (.open' m)) w).mtpCount = w.mtpCount + 1 := by
      rw [stepped]
      exact Nat.mod_eq_of_lt small
    have free : (w.within c).mtps.get (t.mtp m (w.mtpCount + 1)).key = none := by
      rw [get_none_iff]
      intro v stored same
      have number := (booked.rows.mtps v stored).counted
      have id : v.id = w.mtpCount + 1 := congrArg MtpKey.id same
      omega
    refine ⟨?_, ⟨rfl, ?_, ?_⟩, count.symm ▸ small⟩
    · rw [stepped]
      exact opened_books opened free booked.books
    · rw [count, stepped]
      intro row member
      rcases (mem_put _ _ row).mp member with rfl | ⟨old, _⟩
      · exact ⟨Nat.succ_ne_zero _, Nat.le_refl _, one⟩
      · have recorded := booked.rows.mtps row old
        exact ⟨recorded.numbered, recorded.counted.trans (by omega), recorded.one⟩
    · rw [stepped]
      intro p member
      rcases (mem_put _ _ p).mp member with rfl | ⟨old, _⟩
      · obtain ⟨inPools, _⟩ := get_mem opened.found
        exact listed_asset env t.pool _ (congrArg PoolKey.symbol (poolAfter_key t m))
          (booked.rows.pools t.pool inPools)
      · exact booked.rows.pools p old

theorem step_booked (e : MarginEvent) (undisturbed : Undisturbed env w e) (booked : Booked env w) :
    Booked env (e.step env w) := by
  by_cases opening : ∃ c m, e = .message c (.open' m)
  · obtain ⟨c, m, rfl⟩ := opening
    exact open_booked c m undisturbed.1 booked
  · have notOpen : ∀ c m, e ≠ .message c (.open' m) := fun c m same => opening ⟨c, m, same⟩
    have before : Rows (Recorded w.mtpCount) (Listed env) w.mtpCount (w.within e.context) :=
      ⟨rfl, booked.rows.mtps, booked.rows.pools⟩
    have after := transact_preserves _ (e.action env) _
      (event_keeps (rows_events (recorded_rows env _) _) env e notOpen before).ok before
    have count : (e.step env w).mtpCount = w.mtpCount := after.counted
    refine ⟨?_, ?_, count.symm ▸ booked.counter⟩
    · rcases transact_cases (e.action env) (w.within e.context) with same | ⟨dropped, run⟩
      · have kept : e.step env w = w.within e.context := same
        rw [kept]
        exact booked.books
      · have clean := undisturbed.2
        rw [run] at clean
        obtain rfl : dropped = [] := clean
        exact event_books notOpen before booked.books run
    · rw [count]
      exact after

end Events

/-- Margin books balance: along every run whose positions have one fury side and that drops no
    failure, each pool's liabilities and custody are the sums over its open positions. -/
theorem margin_books_balance {env : Env β} {w : World β} (booked : Booked env w)
    {events : List MarginEvent}
    (undisturbed : EventRuns.Guarded (MarginEvent.step env) (Undisturbed env) events w) :
    ∀ p ∈ (runMargin env events w).pools.rows,
      p.nativeLiabilities = total (owed p.key .native) (runMargin env events w).mtps ∧
      p.externalLiabilities = total (owed p.key .external) (runMargin env events w).mtps ∧
      p.nativeCustody = total (held p.key .native) (runMargin env events w).mtps ∧
      p.externalCustody = total (held p.key .external) (runMargin env events w).mtps := by
  have last := run_preserves (MarginEvent.step env) (Undisturbed env) (Booked env)
    (fun s e met now => step_booked e met now) events w undisturbed booked
  intro p member
  have balanced := last.books p member
  exact ⟨balanced.liabilities .native, balanced.liabilities .external, balanced.custody .native,
    balanced.custody .external⟩

/-- bob opens a position, pays interest in two blocks and closes it; alice opens one the other
    way round. -/
def interestRun : List MarginEvent :=
  openingRun "fury" "ceth" ++ [.beginBlock (LedgerBank.block 4),
    .message (LedgerBank.block 5) (.open' ⟨"alice", "ceth", 10 ^ 16, "fury", .long, ⟨2 * 10 ^ 18⟩⟩),
    .beginBlock (LedgerBank.block 5), .message (LedgerBank.block 5) (.close ⟨"bob", 1⟩)]

theorem pooled_booked : Booked LedgerBank.env LedgerBank.pooled := by
  refine ⟨?_, ⟨rfl, ?_, ?_⟩, by decide⟩
  · intro p member
    obtain rfl : p = LedgerBank.cethPool := by simpa [LedgerBank.pooled] using member
    exact ⟨fun s => by cases s <;> rfl, fun s => by cases s <;> rfl⟩
  · intro m member
    cases member
  · intro p member
    obtain rfl : p = LedgerBank.cethPool := by simpa [LedgerBank.pooled] using member
    exact ⟨by decide, by decide⟩

theorem interest_run_balances :
    (runMargin LedgerBank.env interestRun LedgerBank.pooled).mtps.rows.length = 1 ∧
    ∀ p ∈ (runMargin LedgerBank.env interestRun LedgerBank.pooled).pools.rows,
      p.nativeLiabilities =
        total (owed p.key .native) (runMargin LedgerBank.env interestRun LedgerBank.pooled).mtps ∧
      p.externalLiabilities =
        total (owed p.key .external) (runMargin LedgerBank.env interestRun LedgerBank.pooled).mtps ∧
      p.nativeCustody =
        total (held p.key .native) (runMargin LedgerBank.env interestRun LedgerBank.pooled).mtps ∧
      p.externalCustody =
        total (held p.key .external) (runMargin LedgerBank.env interestRun LedgerBank.pooled).mtps :=
  ⟨by decide +kernel, margin_books_balance pooled_booked (by decide +kernel)⟩

end FuryNode
