import Mathlib.Algebra.Order.BigOperators.Group.List
import FuryNode.Library.EventRuns
import FuryNode.Library.OrderedDraw
import FuryNode.Clp.Unlocks
import FuryNode.Sdk.LedgerBank

/-!
The unlock records of a provider. A removal draws its units from the records that have
waited out the lock period, in list order, and the units under request never exceed the
units the provider holds.
-/
namespace FuryNode
open StatefulProgram StatefulProgram.Prog KeyedTable KeyedTable.Table OrderedDraw ClpKeeper
variable {β : Type} (env : Env β)

/-- A record with `k` of its units used. -/
def LiquidityUnlock.use (r : LiquidityUnlock) (k : ℕ) : LiquidityUnlock :=
  { r with units := r.units - k }

/-- The records a draw may use: all of them, or those whose lock period has passed. -/
def Eligible (any : Bool) (lockPeriod : ℕ) (height : ℤ) (r : LiquidityUnlock) : Prop :=
  any = true ∨ r.requestHeight + lockPeriod ≤ height

instance (any : Bool) (lockPeriod : ℕ) (height : ℤ) (r : LiquidityUnlock) :
    Decidable (Eligible any lockPeriod height r) := inferInstanceAs (Decidable (_ ∨ _))

theorem eligible_iff (any : Bool) {lockPeriod : ℕ} (height : ℤ) {r : LiquidityUnlock}
    (period : lockPeriod < 2 ^ 63) (low : -2 ^ 63 ≤ r.requestHeight)
    (high : r.requestHeight + lockPeriod < 2 ^ 63) :
    (any = true ∨ wrapInt64 (r.requestHeight + int64 lockPeriod) ≤ height) ↔
      Eligible any lockPeriod height r := by
  rw [int64_of_lt lockPeriod period, wrapInt64_of_range _ (by omega) high, Eligible]

section Drawing
variable (eligible : LiquidityUnlock → Prop)

theorem use_lowers (fixed : ∀ r k, eligible (LiquidityUnlock.use r k) ↔ eligible r) :
    Lowers LiquidityUnlock.units eligible LiquidityUnlock.use where
  amount_lower := fun _ _ => rfl
  eligible_lower := fixed
  lower_zero := fun _ => rfl

theorem eligible_use (any : Bool) (lockPeriod : ℕ) (height : ℤ) (r : LiquidityUnlock) (k : ℕ) :
    Eligible any lockPeriod height (r.use k) ↔ Eligible any lockPeriod height r := Iff.rfl

/-- The loop of `UseUnlockedLiquidity` is a draw in list order. -/
theorem drawUnlocks_draws [DecidablePred eligible] (any : Bool) (lockPeriod : ℕ) (height : ℤ) (wanted : ℕ)
    (records : List LiquidityUnlock)
    (fixed : ∀ r k, eligible (LiquidityUnlock.use r k) ↔ eligible r)
    (agrees : ∀ r ∈ records,
      (any = true ∨ wrapInt64 (r.requestHeight + int64 lockPeriod) ≤ height) ↔ eligible r) :
    drawUnlocks any lockPeriod height wanted records =
      (wanted - available LiquidityUnlock.units eligible records,
        drawn LiquidityUnlock.units eligible LiquidityUnlock.use wanted records) := by
  induction records generalizing wanted with
  | nil => rfl
  | cons record rest ih =>
    have later := fun left => ih left (fun r member => agrees r (by simp [member]))
    rw [drawUnlocks, available_cons, drawn_cons]
    simp only [agrees record (by simp), later]
    split
    · rename_i chosen
      by_cases short : record.units < wanted
      · simp only [short, ↓reduceIte, Nat.min_eq_left short.le, Nat.sub_add_eq]
        simp [LiquidityUnlock.use]
      · -- the loop breaks here: nothing is left to draw from the rest
        have none : wanted - record.units = 0 := by omega
        simp only [short, ↓reduceIte, Nat.sub_add_eq, none, Nat.zero_sub,
          drawn_zero (use_lowers eligible fixed), Nat.min_eq_right (Nat.le_of_not_lt short)]
        rfl
    · rename_i refused
      simp [LiquidityUnlock.use]

end Drawing

/-- The units of the records that a draw in `w` may use. -/
def eligibleUnits (w : World β) (any : Bool) (records : List LiquidityUnlock) : ℕ :=
  available LiquidityUnlock.units (Eligible any w.clp.liquidityRemovalLockPeriod w.height) records

/-- The records after `units` were drawn from the eligible ones in list order. -/
def recordsAfter (w : World β) (any : Bool) (units : ℕ) (records : List LiquidityUnlock) :
    List LiquidityUnlock :=
  drawn LiquidityUnlock.units (Eligible any w.clp.liquidityRemovalLockPeriod w.height)
    LiquidityUnlock.use units records

/-- The machine heights of the records do not overflow in `w`. -/
structure HeightsFit (w : World β) (records : List LiquidityUnlock) : Prop where
  period : w.clp.liquidityRemovalLockPeriod < 2 ^ 63
  request : ∀ r ∈ records, -2 ^ 63 ≤ r.requestHeight
  sum : ∀ r ∈ records, r.requestHeight + w.clp.liquidityRemovalLockPeriod < 2 ^ 63

theorem setLiquidityProvider_run (lp : LiquidityProvider) (w : World β)
    (valid : assetValidate env lp.asset = .ok true) :
    (setLiquidityProvider env lp).run w = (.ok (), { w with providers := w.providers.put lp }) := by
  simp only [setLiquidityProvider, valid, ofExcept_ok_then, when, ↓reduceIte]
  rfl

variable {lp : LiquidityProvider} {w : World β} {height : ℤ}

/-- `UseUnlockedLiquidity` as a whole: it refuses without a write, or it stores the records that
    are left of the draw. -/
theorem useUnlockedLiquidity_run (units : ℕ) (any : Bool)
    (valid : assetValidate env lp.asset = .ok true) (fit : HeightsFit w lp.unlocks) :
    (useUnlockedLiquidity env lp units any).run w =
      if w.clp.liquidityRemovalLockPeriod = 0 ∨ units ≤ eligibleUnits w any lp.unlocks then
        (.ok { lp with unlocks := recordsAfter w any units lp.unlocks },
          { w with providers := w.providers.put { lp with
            unlocks := (recordsAfter w any units lp.unlocks).filter (fun r => r.units ≠ 0) } })
      else (.error (.err .errBalanceNotAvailable), w) := by
  have draws := drawUnlocks_draws (Eligible any w.clp.liquidityRemovalLockPeriod w.height) any
    w.clp.liquidityRemovalLockPeriod w.height units lp.unlocks
    (eligible_use any w.clp.liquidityRemovalLockPeriod w.height) (fun r member =>
      eligible_iff any w.height fit.period (fit.request r member) (fit.sum r member))
  have enough : units - eligibleUnits w any lp.unlocks = 0 ↔
      units ≤ eligibleUnits w any lp.unlocks := Nat.sub_eq_zero_iff_le
  have written := setLiquidityProvider_run env { lp with
    unlocks := (recordsAfter w any units lp.unlocks).filter (fun r => r.units ≠ 0) } w valid
  rw [← eligibleUnits, ← recordsAfter] at draws
  unfold useUnlockedLiquidity
  simp only [Prog.read, bind, draws, require, enough]
  by_cases passes : w.clp.liquidityRemovalLockPeriod = 0 ∨ units ≤ eligibleUnits w any lp.unlocks
  · simp only [passes, ↓reduceIte, pure, written]
  · simp only [passes, ↓reduceIte, fail]

/-- With a lock period, `UseUnlockedLiquidity` succeeds exactly when the eligible records hold
    the units asked for. It then takes these units from them in list order and stores the rest,
    without records that hold nothing; otherwise it writes nothing. -/
theorem useUnlockedLiquidity_exact (env : Env β) (lp : LiquidityProvider) (units : ℕ) (any : Bool)
    (w : World β) (valid : assetValidate env lp.asset = .ok true)
    (locked : w.clp.liquidityRemovalLockPeriod ≠ 0) (fit : HeightsFit w lp.unlocks) :
    ((∃ after w', (useUnlockedLiquidity env lp units any).run w = (.ok after, w')) ↔
      units ≤ eligibleUnits w any lp.unlocks) ∧
    (∀ after w', (useUnlockedLiquidity env lp units any).run w = (.ok after, w') →
      ∃ records, w' = { w with providers := w.providers.put { lp with unlocks := records } } ∧
        records = (recordsAfter w any units lp.unlocks).filter (fun r => r.units ≠ 0) ∧
        eligibleUnits w any records + units = eligibleUnits w any lp.unlocks ∧
        records.filter (fun r => ¬Eligible any w.clp.liquidityRemovalLockPeriod w.height r) =
          (lp.unlocks.filter (fun r => ¬Eligible any w.clp.liquidityRemovalLockPeriod w.height
            r)).filter (fun r => r.units ≠ 0) ∧
        ∀ r ∈ records, r.units ≠ 0) ∧
    ∀ e w', (useUnlockedLiquidity env lp units any).run w = (.error e, w') →
      e = .err .errBalanceNotAvailable ∧ w' = w := by
  have ran := useUnlockedLiquidity_run env units any valid fit
  have lowers := use_lowers (Eligible any w.clp.liquidityRemovalLockPeriod w.height)
    (eligible_use any w.clp.liquidityRemovalLockPeriod w.height)
  by_cases enough : units ≤ eligibleUnits w any lp.unlocks
  · rw [if_pos (Or.inr enough)] at ran
    rw [ran]
    refine ⟨by simp [enough], ?_, by simp⟩
    intro after w' same
    cases same
    refine ⟨_, rfl, rfl, ?_, ?_, by simp⟩
    · have left : eligibleUnits w any (recordsAfter w any units lp.unlocks) =
          eligibleUnits w any lp.unlocks - units := available_drawn lowers units lp.unlocks
      rw [eligibleUnits, available_filter_nonzero, ← eligibleUnits, left]
      omega
    · rw [List.filter_comm, recordsAfter, ineligible_drawn lowers]
  · rw [if_neg (by simp [locked, enough])] at ran
    rw [ran]
    refine ⟨by simp [enough], by simp, ?_⟩
    intro e w' same
    cases same
    exact ⟨rfl, rfl⟩

def lockedBlock (height : ℤ) : BlockContext :=
  { LedgerBank.block height with clp := { LedgerBank.clpParams with
    liquidityRemovalLockPeriod := 10, liquidityRemovalCancelPeriod := 5 } }

/-- Two requests that have waited long enough, and one between them that has not. -/
def waitingProvider : LiquidityProvider :=
  ⟨"ceth", 5000, "alice", [⟨1, 1000⟩, ⟨45, 400⟩, ⟨2, 500⟩]⟩

theorem waiting_records_used :
    ∃ after w', (useUnlockedLiquidity LedgerBank.env waitingProvider 1200 false).run
      (LedgerBank.genesis.within (lockedBlock 50)) = (.ok after, w') :=
  ((useUnlockedLiquidity_exact LedgerBank.env waitingProvider 1200 false _ (by decide) (by decide)
    ⟨by decide, by decide, by decide⟩).1).mpr (by decide)

def requestedUnits (lp : LiquidityProvider) : ℕ := (lp.unlocks.map LiquidityUnlock.units).sum

/-- The units under request are held, and every request was made in an earlier block or in this one. -/
structure SoundUnlocks (height : ℤ) (lp : LiquidityProvider) : Prop where
  held : requestedUnits lp ≤ lp.liquidityProviderUnits
  past : ∀ r ∈ lp.unlocks, 0 ≤ r.requestHeight ∧ r.requestHeight ≤ height

def SoundProviders (height : ℤ) (providers : Table LiquidityProvider.key) : Prop :=
  ∀ lp ∈ providers.rows, SoundUnlocks height lp

/-- No removal is queued, and every provider holds the units it asked to unlock. -/
structure UnlocksSound (w : World β) : Prop where
  no_requests : w.requests.rows = []
  range : 0 ≤ w.height ∧ w.height < 2 ^ 63
  providers : SoundProviders w.height w.providers

theorem sound_put {providers : Table LiquidityProvider.key}
    (sound : SoundProviders height providers) (record : SoundUnlocks height lp) :
    SoundProviders height (providers.put lp) := by
  intro other member
  rcases (mem_put providers lp other).mp member with rfl | ⟨old, _⟩
  · exact record
  · exact sound other old

theorem sound_delete {providers : Table LiquidityProvider.key} {k : ProviderKey}
    (sound : SoundProviders height providers) : SoundProviders height (providers.delete k) :=
  fun other member => sound other ((mem_delete providers k other).mp member).1

theorem setLiquidityProvider_sound (sound : UnlocksSound w) (record : SoundUnlocks w.height lp) :
    Ensures (setLiquidityProvider env lp) w (fun _ w' => w'.height = w.height ∧ UnlocksSound w') := by
  intro u w' run
  rcases setLiquidityProvider_succeeds env run with ⟨_, rfl⟩ | ⟨_, rfl⟩
  · exact ⟨rfl, sound.no_requests, sound.range,
      sound_put sound.providers record⟩
  · exact ⟨rfl, sound⟩

theorem sound_filter (kept : LiquidityUnlock → Bool) (record : SoundUnlocks height lp) :
    SoundUnlocks height { lp with unlocks := lp.unlocks.filter kept } := by
  constructor
  · have fewer : requestedUnits { lp with unlocks := lp.unlocks.filter kept } ≤ requestedUnits lp :=
      (List.filter_sublist.map LiquidityUnlock.units).sum_le_sum (by simp)
    exact fewer.trans record.held
  · intro r member
    exact record.past r (List.mem_of_mem_filter member)

theorem pruneUnlockRecords_sound (sound : UnlocksSound w) (record : SoundUnlocks w.height lp) :
    Ensures (pruneUnlockRecords env lp) w (fun pruned w' =>
      SoundUnlocks w'.height pruned ∧ UnlocksSound w') := by
  unfold pruneUnlockRecords
  refine ensures_read_then (ensures_ite ?_ ?_)
  · intro _
    have kept := sound_filter (fun r => !isPruned w.clp.liquidityRemovalLockPeriod
      w.clp.liquidityRemovalCancelPeriod w.height r) record
    refine ensures_bind (setLiquidityProvider_sound env sound kept) ?_
    rintro _ v ⟨height, written⟩
    exact ensures_pure ⟨height ▸ kept, written⟩
  · intro _
    exact ensures_pure ⟨record, sound⟩

def Unlocked (any : Bool) (lockPeriod : ℕ) (height : ℤ) (r : LiquidityUnlock) : Prop :=
  any = true ∨ wrapInt64 (r.requestHeight + int64 lockPeriod) ≤ height

instance (any : Bool) (lockPeriod : ℕ) (height : ℤ) (r : LiquidityUnlock) :
    Decidable (Unlocked any lockPeriod height r) := inferInstanceAs (Decidable (_ ∨ _))

/-- The records that `UseUnlockedLiquidity` accepts lose what was asked, or all they hold. -/
theorem drawUnlocks_sum {any : Bool} {lockPeriod : ℕ} {units : ℕ} {records : List LiquidityUnlock}
    (range : height < 2 ^ 63) (past : ∀ r ∈ records, 0 ≤ r.requestHeight ∧ r.requestHeight ≤ height)
    (passed : lockPeriod = 0 ∨ (drawUnlocks any lockPeriod height units records).1 = 0) :
    ((drawUnlocks any lockPeriod height units records).2.map LiquidityUnlock.units).sum =
      (records.map LiquidityUnlock.units).sum - units := by
  have draws := drawUnlocks_draws (Unlocked any lockPeriod height) any lockPeriod height units
    records (fun _ _ => Iff.rfl) (fun _ _ => Iff.rfl)
  have sum := sum_drawn (use_lowers (Unlocked any lockPeriod height) (fun _ _ => Iff.rfl)) units
    records
  rw [draws] at passed ⊢
  rcases passed with rfl | covered
  · -- without a lock period every record is eligible
    rw [available_all] at sum
    · dsimp only
      omega
    · intro r member
      obtain ⟨nonneg, before⟩ := past r member
      right
      rw [int64_of_lt 0 (by decide), Int.natCast_zero, add_zero,
        wrapInt64_of_range _ (by omega) (by omega)]
      exact before
  · dsimp only at covered ⊢
    omega

theorem drawUnlocks_past (any : Bool) {lockPeriod : ℕ} (units : ℕ) {records : List LiquidityUnlock}
    (past : ∀ r ∈ records, 0 ≤ r.requestHeight ∧ r.requestHeight ≤ height) :
    ∀ r ∈ (drawUnlocks any lockPeriod height units records).2,
      0 ≤ r.requestHeight ∧ r.requestHeight ≤ height := by
  rw [drawUnlocks_draws (Unlocked any lockPeriod height) any lockPeriod height units records
    (fun _ _ => Iff.rfl) (fun _ _ => Iff.rfl)]
  intro r member
  obtain ⟨old, found, k, rfl⟩ := mem_drawn _ _ member
  exact past old found

theorem useUnlockedLiquidity_sound {units : ℕ} (any : Bool) (sound : UnlocksSound w)
    (record : SoundUnlocks w.height lp) :
    Ensures (useUnlockedLiquidity env lp units any) w (fun after w' =>
      (∃ unlocks, after = { lp with unlocks := unlocks }) ∧
      requestedUnits after = requestedUnits lp - units ∧ SoundUnlocks w'.height after ∧
      UnlocksSound w') := by
  unfold useUnlockedLiquidity
  refine ensures_read_then (ensures_require_then ?_)
  intro passed
  have sum := drawUnlocks_sum sound.range.2 record.past passed
  have after : SoundUnlocks w.height { lp with
      unlocks := (drawUnlocks any w.clp.liquidityRemovalLockPeriod w.height units lp.unlocks).2 } := by
    constructor
    · have held := record.held
      unfold requestedUnits at held ⊢
      dsimp only
      omega
    · exact drawUnlocks_past any units record.past
  refine ensures_bind (setLiquidityProvider_sound env sound
    (sound_filter (fun r => r.units ≠ 0) after)) ?_
  rintro _ v ⟨height, written⟩
  exact ensures_pure ⟨⟨_, rfl⟩, sum, height ▸ after, written⟩

theorem found_sound {k : ProviderKey} (sound : UnlocksSound w) (found : w.providers.get k = some lp) :
    SoundUnlocks w.height lp :=
  sound.providers lp (get_mem found).1

theorem removalRun_sound {externalAsset signer : String} {pool : Pool}
    {native external lpUnitsLeft : ℕ} {w' : World β}
    (removal : RemovalRun env externalAsset signer pool lp native external lpUnitsLeft w w')
    (sound : UnlocksSound w) : UnlocksSound w' := by
  obtain ⟨pruned, v, drawn, r, reduced, u, pruning, drawing, subtracted, removing⟩ := removal.ran
  have record := found_sound sound removal.provider_found
  obtain ⟨_, same⟩ := pruneUnlockRecords_record env lp w pruned v pruning
  obtain ⟨kept, early⟩ := pruneUnlockRecords_sound env sound record pruned v pruning
  unfold ClpMsgServer.drawUnits at drawing
  obtain ⟨used, taken, drawing⟩ := ofExcept_then.mp drawing
  obtain ⟨bound, rfl⟩ := (Uint.sub_succeeds _ _ _).mp taken
  obtain ⟨⟨_, drawnFrom⟩, rest, after, late⟩ :=
    useUnlockedLiquidity_sound env false early kept drawn r drawing
  obtain ⟨_, _, _, rfl⟩ := subtractFromPool_succeeds subtracted
  have asset : pool.externalAsset = drawn.asset := by
    rw [drawnFrom, same]
    dsimp only
    exact (congrArg PoolKey.symbol (w.pools.get_key _ _ removal.pool_found)).trans
      (congrArg ProviderKey.symbol (w.providers.get_key _ _ removal.provider_found)).symm
  have effect := fun same => keeper_removeLiquidity_effect env same removing
  obtain ⟨_, _, _, _, _, _, rfl⟩ := effect asset
  refine ⟨late.no_requests, late.range, ?_⟩
  change SoundProviders r.height (settledProviders r.providers drawn lpUnitsLeft)
  unfold settledProviders
  split
  · exact sound_delete late.providers
  · refine sound_put late.providers ⟨?_, after.past⟩
    have held := kept.held
    change requestedUnits drawn ≤ lpUnitsLeft
    omega

theorem addLiquidityUnits_sound {msg : MsgAddLiquidity} {addr : AccAddress} {lpUnits : ℕ}
    (sound : UnlocksSound w) :
    Ensures (addLiquidityUnits env msg addr lpUnits) w (fun lp w' =>
      SoundUnlocks w'.height lp ∧ UnlocksSound w') := by
  unfold addLiquidityUnits createLiquidityProvider
  refine ensures_read_then ?_
  cases found : w.providers.get ⟨msg.externalAsset, msg.signer⟩ with
  | some lp =>
    refine ensures_ofExcept_then fun units added => ?_
    obtain ⟨_, rfl⟩ := (Uint.add_succeeds _ _ _).mp added
    have record := found_sound sound found
    exact ensures_pure ⟨⟨record.held.trans (Nat.le_add_right _ _), record.past⟩, sound⟩
  | none =>
    have fresh : SoundUnlocks w.height ⟨msg.externalAsset, lpUnits, env.addressString addr, []⟩ :=
      ⟨Nat.zero_le _, nofun⟩
    refine ensures_bind (setLiquidityProvider_sound env sound fresh) ?_
    rintro _ v ⟨height, written⟩
    exact ensures_pure ⟨height ▸ fresh, written⟩

theorem keeper_addLiquidity_sound (msg : MsgAddLiquidity) (pool : Pool) (newPoolUnits lpUnits : ℕ)
    (w : World β) (sound : UnlocksSound w) :
    Ensures (ClpKeeper.addLiquidity env msg pool newPoolUnits lpUnits) w
      (fun _ => UnlocksSound) := by
  unfold ClpKeeper.addLiquidity
  refine ensures_ofExcept_then fun _ _ => ensures_ofExcept_then fun _ _ =>
    ensures_ofExcept_then fun coins _ => ensures_ofExcept_then fun addr _ => ?_
  refine ensures_bind (requireSomeBalance_unchanged env) ?_
  rintro _ _ rfl
  refine ensures_bind (fun u v run => sendCoinsFromAccountToModule_moves env run) ?_
  rintro _ paid ⟨b, _, same⟩
  have sent : UnlocksSound paid := same ▸ ⟨sound.no_requests, sound.range, sound.providers⟩
  refine ensures_ofExcept_then fun updated _ => ?_
  refine ensures_bind (addLiquidityUnits_sound env sent) ?_
  rintro lp v ⟨record, recorded⟩
  refine ensures_bind (Action.ensures_wrapped
    (fun u x run => ((setPool_succeeds _).mp run).2)) ?_
  rintro _ x rfl
  refine ensures_bind (setLiquidityProvider_sound env
    ⟨recorded.no_requests, recorded.range, recorded.providers⟩ record) ?_
  rintro _ _ ⟨_, written⟩
  exact ensures_pure written

theorem addLiquidity_sound (msg : MsgAddLiquidity) (w : World β) (sound : UnlocksSound w) :
    Ensures (ClpMsgServer.addLiquidity env msg) w (fun _ => UnlocksSound) := by
  refine ensures_mono (addLiquidity_runs env) ?_
  rintro _ w' ⟨pool, newPoolUnits, lpUnits, swapStatus, swapAmount, addition⟩
  obtain ⟨nAsset, eAsset, u, v, lp, x, u', guarded, added, served⟩ := addition.ran
  obtain ⟨threshold, same⟩ := guardImplicitSwap_effect w u v guarded
  have checked : UnlocksSound v := same ▸ ⟨sound.no_requests, sound.range, sound.providers⟩
  have after := keeper_addLiquidity_sound env msg pool newPoolUnits lpUnits v checked lp x added
  rcases when_succeeds.mp served with ⟨_, processed⟩ | ⟨_, rfl⟩
  · obtain rfl := processRemovalQueue_empty env after.no_requests u' w' processed
    exact after
  · exact after

theorem totalUnlocks_succeeds {total : ℕ}
    (computed : lp.unlocks.foldlM (fun sum record => Uint.add sum record.units) 0 = .ok total) :
    total = requestedUnits lp := by
  have counted := foldlM_preserves (I := fun rest sum =>
    sum + (rest.map LiquidityUnlock.units).sum = requestedUnits lp) lp.unlocks 0 total ?_
    (Nat.zero_add _) computed
  · simpa using counted
  · intro record rest sum next now added
    obtain ⟨_, rfl⟩ := (Uint.add_succeeds _ _ _).mp added
    rw [← now, List.map_cons, List.sum_cons]
    omega

theorem unlockLiquidity_sound (m : MsgUnlockLiquidityRequest) (w : World β)
    (sound : UnlocksSound w) :
    Ensures (ClpMsgServer.unlockLiquidity env m) w (fun _ => UnlocksSound) := by
  unfold ClpMsgServer.unlockLiquidity
  refine ensures_bind (fun lp v run => getLiquidityProvider_succeeds.mp run) ?_
  rintro lp _ ⟨found, rfl⟩
  refine ensures_bind (pruneUnlockRecords_sound env sound (found_sound sound found)) ?_
  rintro pruned v ⟨record, now⟩
  refine ensures_ofExcept_then fun total counted => ?_
  obtain rfl := totalUnlocks_succeeds counted
  refine ensures_ofExcept_then fun requested added => ensures_require_then fun enough => ?_
  obtain ⟨_, rfl⟩ := (Uint.add_succeeds _ _ _).mp added
  refine ensures_read_then ?_
  have grown : SoundUnlocks v.height { pruned with
      unlocks := pruned.unlocks ++ [⟨v.height, m.units⟩] } := by
    constructor
    · simpa [requestedUnits] using enough
    · intro r member
      rcases List.mem_append.mp member with old | new
      · exact record.past r old
      · rw [List.mem_singleton.mp new]
        exact ⟨now.range.1, le_rfl⟩
  exact ensures_mono (setLiquidityProvider_sound env now grown) (fun _ _ written => written.2)

theorem cancelUnlockLiquidity_sound (m : MsgCancelUnlock) (w : World β) (sound : UnlocksSound w) :
    Ensures (ClpMsgServer.cancelUnlockLiquidity env m) w (fun _ => UnlocksSound) := by
  unfold ClpMsgServer.cancelUnlockLiquidity
  refine ensures_bind (fun lp v run => getLiquidityProvider_succeeds.mp run) ?_
  rintro lp _ ⟨found, rfl⟩
  refine ensures_bind (pruneUnlockRecords_sound env sound (found_sound sound found)) ?_
  rintro pruned v ⟨record, now⟩
  refine ensures_bind (useUnlockedLiquidity_sound env true now record) ?_
  rintro _ _ ⟨_, _, _, written⟩
  exact ensures_pure written

inductive HoldingMsg where
  | unlockLiquidity (m : MsgUnlockLiquidityRequest)
  | cancelUnlockLiquidity (m : MsgCancelUnlock)
  | addLiquidity (m : MsgAddLiquidity)
  | removeLiquidity (m : MsgRemoveLiquidity)
  | removeLiquidityUnits (m : MsgRemoveLiquidityUnits)
  deriving DecidableEq, Repr

namespace HoldingMsg

def action (env : Env β) : HoldingMsg → Action β Unit
  | .unlockLiquidity m => (UnlockMsg.unlock m).action env
  | .cancelUnlockLiquidity m => (UnlockMsg.cancel m).action env
  | .addLiquidity m => (ClpMsg.addLiquidity m).action env
  | .removeLiquidity m => (ClpMsg.removeLiquidity m).action env
  | .removeLiquidityUnits m => (ClpMsg.removeLiquidityUnits m).action env

/-- A message in a block with its own height and periods; a failed one leaves no trace. -/
def step (env : Env β) (event : BlockContext × HoldingMsg) (w : World β) : World β :=
  transact (event.2.action env) (w.within event.1)

def InOrder (w : World β) (event : BlockContext × HoldingMsg) : Prop :=
  w.height ≤ event.1.height ∧ event.1.height < 2 ^ 63

instance (w : World β) (event : BlockContext × HoldingMsg) : Decidable (InOrder w event) :=
  inferInstanceAs (Decidable (_ ∧ _))

theorem action_sound (msg : HoldingMsg) (w : World β) (sound : UnlocksSound w) :
    Ensures (msg.action env) w (fun _ => UnlocksSound) := by
  cases msg with
  | unlockLiquidity m =>
    exact runMsg_effect env fun _ _ _ => unlockLiquidity_sound env m w sound
  | cancelUnlockLiquidity m =>
    exact runMsg_effect env fun _ _ _ => cancelUnlockLiquidity_sound env m w sound
  | addLiquidity m =>
    exact runMsg_effect env fun _ _ _ => addLiquidity_sound env m w sound
  | removeLiquidity m =>
    refine runMsg_effect env fun _ _ _ =>
      ensures_mono (removeLiquidity_runs env m w) ?_
    rintro _ w' ⟨pool, lp, native, external, lpUnitsLeft, _, removal, _⟩
    exact removalRun_sound env removal sound
  | removeLiquidityUnits m =>
    refine runMsg_effect env fun _ _ _ =>
      ensures_mono (removeLiquidityUnits_runs env m w) ?_
    rintro _ w' ⟨pool, lp, native, external, lpUnitsLeft, removal, _⟩
    exact removalRun_sound env removal sound

theorem step_sound (w : World β) (event : BlockContext × HoldingMsg) (ordered : InOrder w event)
    (sound : UnlocksSound w) : UnlocksSound (step env event w) := by
  have nonneg := sound.range.1
  obtain ⟨later, small⟩ := ordered
  have context : UnlocksSound (w.within event.1) := by
    refine ⟨sound.no_requests, ⟨nonneg.trans later, small⟩, ?_⟩
    intro lp member
    have record := sound.providers lp member
    exact ⟨record.held, fun r inside => ⟨(record.past r inside).1, (record.past r inside).2.trans later⟩⟩
  exact transact_preserves UnlocksSound (event.2.action env) _ (action_sound env event.2 _ context)
    context

end HoldingMsg

/-- While no removal is queued, no provider ever has more units under unlock requests than it
    holds, whatever the lock and cancel periods of the blocks are. -/
theorem unlocks_within_holdings (env : Env β) (w : World β) (start : UnlocksSound w)
    (events : List (BlockContext × HoldingMsg))
    (ordered : EventRuns.Guarded (HoldingMsg.step env) HoldingMsg.InOrder events w) :
    ∀ lp ∈ (EventRuns.run (HoldingMsg.step env) events w).providers.rows,
      (lp.unlocks.map LiquidityUnlock.units).sum ≤ lp.liquidityProviderUnits := by
  have sound := EventRuns.run_preserves (HoldingMsg.step env) HoldingMsg.InOrder UnlocksSound
    (HoldingMsg.step_sound env) events w ordered start
  intro lp member
  exact (sound.providers lp member).held

/-- The pool of 10^18 fury and ceth with its only provider. -/
def soleProvider : World LedgerBank.Balances :=
  { LedgerBank.pooled with providers := ⟨[⟨"ceth", 10 ^ 18, "alice", []⟩], by simp⟩ }

def unlockingRun : List (BlockContext × HoldingMsg) :=
  [(lockedBlock 3, .unlockLiquidity ⟨"alice", "ceth", 6 * 10 ^ 17⟩),
    (lockedBlock 14, .removeLiquidity ⟨"alice", "ceth", 5000, 0⟩),
    (lockedBlock 14, .cancelUnlockLiquidity ⟨"alice", "ceth", 10 ^ 16⟩)]

theorem unlocks_within_holdings_after_removal :
    (EventRuns.run (HoldingMsg.step LedgerBank.env) unlockingRun soleProvider).providers.rows =
        [⟨"ceth", 5 * 10 ^ 17, "alice", [⟨3, 9 * 10 ^ 16⟩]⟩] ∧
      ∀ lp ∈ (EventRuns.run (HoldingMsg.step LedgerBank.env) unlockingRun
        soleProvider).providers.rows,
        (lp.unlocks.map LiquidityUnlock.units).sum ≤ lp.liquidityProviderUnits := by
  have start : UnlocksSound soleProvider := by
    refine ⟨rfl, by decide, ?_⟩
    intro lp member
    rw [List.mem_singleton.mp member]
    exact ⟨by decide, nofun⟩
  exact ⟨by decide +kernel, unlocks_within_holdings LedgerBank.env soleProvider start unlockingRun
    (by decide +kernel)⟩

end FuryNode
