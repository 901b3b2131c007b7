import FuryNode.Margin.MsgServer

/-!
What margin keeps. A property that survives the writes of single steps holds after every
closing message and after every block, whatever fails on the way. So do a property of
positions and a property of pools, of everything stored and of what is in memory.
-/
namespace FuryNode
open StatefulProgram StatefulProgram.Prog KeyedTable KeyedTable.Table ClpKeeper MarginKeeper
variable {β α γ : Type} (env : Env β)

/-- The fields of a position that no step changes. -/
structure SameIdentity (m m' : MTP) : Prop where
  address : m'.address = m.address
  id : m'.id = m.id
  collateralAsset : m'.collateralAsset = m.collateralAsset
  custodyAsset : m'.custodyAsset = m.custodyAsset
  position : m'.position = m.position

structure RowInvariant (PM : MTP → Prop) (PP : Pool → Prop) : Prop where
  numbered : ∀ m, PM m → m.id ≠ 0
  amounts : ∀ m m', SameIdentity m m' → PM m → PM m'
  grown : ∀ p s field n, p.amount s field ≤ n → PP p → PP (p.setAmount s field n)
  shrunk : ∀ p s field n, field ≠ .balance → PP p → PP (p.setAmount s field n)
  returned : ∀ p s n, 0 < n → PP p → PP (p.setAmount s .balance n)
  computed : ∀ p rate height health, PP p →
    PP { p with interestRate := rate, lastHeightInterestRateComputed := height, health := health }

structure Rows (PM : MTP → Prop) (PP : Pool → Prop) (n : ℕ) (w : World β) : Prop where
  counted : w.mtpCount = n
  mtps : ∀ m ∈ w.mtps.rows, PM m
  pools : ∀ p ∈ w.pools.rows, PP p

structure FrameRows (PM : MTP → Prop) (PP : Pool → Prop) (n : ℕ) (l : List Failure) (f : Frame β) :
    Prop where
  world : Rows PM PP n f.world
  mtp : PM f.mtp
  pool : PP f.pool
  noted : l <+: f.dropped

variable {p : Step β α} {s : Side} {field : PoolField} {n returnAmount : ℕ} {w : World β}
  {takeFund : Bool}

section Frames
variable {f : Frame β} {Q : α → Frame β → Prop} {E : Failure → Frame β → Prop}

theorem meets_onWorld {p : Action β α}
    (inner : Meets p f.world (fun a w => Q a { f with world := w })
      (fun e w => E e { f with world := w })) : Meets (onWorld p) f Q E :=
  meets_zoom inner

theorem meets_addField {Q : Unit → Frame β → Prop}
    (holds : f.pool.amount s field + n < 2 ^ 256 →
      Q () { f with pool := f.pool.setAmount s field (f.pool.amount s field + n) })
    (fails : 2 ^ 256 ≤ f.pool.amount s field + n → E (.panic .overflow) f) :
    Meets (addField s field n) f Q E := by
  unfold addField
  refine meets_read_then (meets_ofExcept_then ?_ ?_)
  · intro sum added
    obtain ⟨small, rfl⟩ := (Uint.add_succeeds _ _ _).mp added
    exact meets_modify (holds small)
  · intro e failed
    obtain ⟨rfl, large⟩ := Uint.add_overflows _ _ e failed
    exact fails large

theorem meets_subField {Q : Unit → Frame β → Prop}
    (holds : n ≤ f.pool.amount s field →
      Q () { f with pool := f.pool.setAmount s field (f.pool.amount s field - n) })
    (fails : f.pool.amount s field < n → E (.panic .underflow) f) :
    Meets (subField s field n) f Q E := by
  unfold subField
  refine meets_read_then (meets_ofExcept_then ?_ ?_)
  · intro rest subtracted
    obtain ⟨enough, rfl⟩ := (Uint.sub_succeeds _ _ _).mp subtracted
    exact meets_modify (holds enough)
  · intro e failed
    obtain ⟨rfl, short⟩ := Uint.sub_fails e failed
    exact fails short

theorem meets_outcome {Q : Except Err α → Frame β → Prop}
    (inner : Meets p f (fun a => Q (.ok a))
      (fun e t => match e with | .err d => Q (.error d) t | .panic q => E (.panic q) t)) :
    Meets (outcome p) f Q E := by
  unfold outcome
  refine meets_bind (P := fun result t => p.run f = (result, t))
    (meets_attempt ⟨fun _ _ run => run, fun _ _ run => run⟩) ?_
  intro result t run
  rcases result with (e | q) | a
  · exact meets_pure (inner.error _ t run)
  · exact meets_fail (inner.error _ t run)
  · exact meets_pure (inner.ok a t run)

theorem meets_enter {mtp : MTP} {pool : Pool} {Q : α × Frame β → World β → Prop}
    {E : Failure → World β → Prop}
    (inner : Meets p ⟨w, mtp, pool, []⟩ (fun a f => Q (a, f) f.world) (fun e f => E e f.world)) :
    Meets (enter mtp pool p) w Q E := by
  constructor
  · rintro ⟨a, f⟩ t run
    unfold enter at run
    rcases ran : p.run ⟨w, mtp, pool, []⟩ with ⟨result, g⟩
    cases result with
    | error e => simp [ran] at run
    | ok b =>
      simp only [ran, Prod.mk.injEq, Except.ok.injEq] at run
      obtain ⟨⟨rfl, rfl⟩, rfl⟩ := run
      exact inner.ok b g ran
  · intro e t run
    unfold enter at run
    rcases ran : p.run ⟨w, mtp, pool, []⟩ with ⟨result, g⟩
    cases result with
    | error d =>
      simp only [ran, Prod.mk.injEq, Except.error.injEq] at run
      obtain ⟨rfl, rfl⟩ := run
      exact inner.error d g ran
    | ok b => simp [ran] at run

def OnlyHealth (f g : Frame β) : Prop := ∃ h, g = { f with mtp := { f.mtp with mtpHealth := h } }

theorem assignHealth_only (f : Frame β) :
    Meets assignHealth f (fun _ => OnlyHealth f) (fun _ => OnlyHealth f) := by
  unfold assignHealth
  refine meets_read_then ?_
  split
  · exact meets_modify ⟨_, rfl⟩
  · exact meets_modify_then (meets_fail ⟨_, rfl⟩)
  · exact meets_fail ⟨f.mtp.mtpHealth, rfl⟩

end Frames

theorem amount_set (p : Pool) (s t : Side) (field other : PoolField) (n : ℕ) :
    (p.setAmount s field n).amount t other = if s = t ∧ field = other then n else p.amount t other := by
  cases s <;> cases t <;> cases field <;> cases other <;> rfl

@[simp] theorem set_asset (p : Pool) (s : Side) (field : PoolField) (n : ℕ) :
    (p.setAmount s field n).externalAsset = p.externalAsset := by
  cases s <;> cases field <;> rfl

@[simp] theorem set_key {p : Pool} :
    (p.setAmount s field n).key = p.key := congrArg PoolKey.mk (set_asset p s field n)

theorem extractValues_bought (p : Pool) (toAsset : String) :
    (p.extractValues toAsset).2.1 = p.amount (sideOf toAsset) .balance := by
  unfold Pool.extractValues sideOf
  split <;> rfl

theorem clpSwap_bounds {toAsset : String} {pool : Pool} {result : ℕ}
    (swapped : clpSwap w n toAsset pool = .ok result) :
    0 < result ∧ result < pool.amount (sideOf toAsset) .balance := by
  simp only [clpSwap, clpCalcSwap, except_bind_succeeds, check_succeeds, except_pure_succeeds]
    at swapped
  obtain ⟨r, ⟨_, _, _, _, _, below, rfl⟩, _, nonzero, rfl⟩ := swapped
  rw [← extractValues_bought]
  exact ⟨by omega, below⟩

/-- The debt of a position after a repayment: what is left over is returned, what is missing
    stays unsettled. -/
theorem settleDebt_succeeds {have' liabilities unpaid debtP debtI : ℕ}
    (settled : settleDebt have' liabilities unpaid = .ok (returnAmount, debtP, debtI)) :
    returnAmount = have' - (liabilities + unpaid) ∧
      debtP + debtI = liabilities + unpaid - have' := by
  unfold settleDebt at settled
  obtain ⟨owe, added, settled⟩ := except_bind_succeeds.mp settled
  obtain ⟨_, rfl⟩ := (Uint.add_succeeds _ _ _).mp added
  split at settled
  · obtain ⟨debt, subtracted, settled⟩ := except_bind_succeeds.mp settled
    obtain ⟨_, rfl⟩ := (Uint.sub_succeeds _ _ _).mp subtracted
    cases except_pure_succeeds.mp settled
    omega
  · split at settled
    · obtain ⟨debt, subtracted, settled⟩ := except_bind_succeeds.mp settled
      obtain ⟨_, rfl⟩ := (Uint.sub_succeeds _ _ _).mp subtracted
      cases except_pure_succeeds.mp settled
      omega
    · obtain ⟨first, subtracted, settled⟩ := except_bind_succeeds.mp settled
      obtain ⟨_, rfl⟩ := (Uint.sub_succeeds _ _ _).mp subtracted
      obtain ⟨second, subtracted, settled⟩ := except_bind_succeeds.mp settled
      obtain ⟨_, rfl⟩ := (Uint.sub_succeeds _ _ _).mp subtracted
      cases except_pure_succeeds.mp settled
      omega

def OnlyBank (w w' : World β) : Prop := ∃ b, w' = { w with bank := b }

theorem onlyBank_refl (w : World β) : OnlyBank w w := ⟨w.bank, rfl⟩

theorem onlyBank_trans {u v : World β} (first : OnlyBank u v) (second : OnlyBank v w) :
    OnlyBank u w := by
  obtain ⟨_, rfl⟩ := first
  obtain ⟨b, rfl⟩ := second
  exact ⟨b, rfl⟩

theorem bankCall_onlyBank {call : β → Except BankFailure β} (w : World β) :
    Meets (bankCall call) w (fun _ => OnlyBank w) (fun _ => OnlyBank w) := by
  unfold bankCall
  refine meets_read_then ?_
  cases call w.bank with
  | ok b => exact meets_modify ⟨b, rfl⟩
  | error e => exact meets_fail (onlyBank_refl w)

theorem takeFundPayment_onlyBank {returnAsset : String} {takePercentage : Dec}
    {fundAddr : AccAddress} (w : World β) :
    Meets (takeFundPayment env returnAmount returnAsset takePercentage fundAddr) w
      (fun _ => OnlyBank w) (fun _ => OnlyBank w) := by
  have start := onlyBank_refl w
  unfold takeFundPayment
  refine meets_ofExcept_then (fun _ _ => ?_) (fun _ _ => start)
  refine meets_ofExcept_then (fun _ _ => ?_) (fun _ _ => start)
  refine meets_bind (P := fun _ => OnlyBank w) (meets_when (fun _ => ?_) (fun _ => start))
    (fun _ _ paid => meets_pure paid)
  refine meets_ofExcept_then (fun _ _ => ?_) (fun _ _ => start)
  refine meets_ofExcept_then (fun _ _ => ?_) (fun _ _ => start)
  exact bankCall_onlyBank w

theorem ownerPart_onlyBank {collateralAsset : String} (w : World β) :
    Meets (ownerPart env returnAmount collateralAsset takeFund) w
      (fun _ => OnlyBank w) (fun _ => OnlyBank w) := by
  have start := onlyBank_refl w
  unfold ownerPart
  refine meets_ite (fun _ => ?_) (fun _ => meets_pure start)
  refine meets_read_then (meets_ofExcept_then (fun _ _ => ?_) (fun _ _ => start))
  refine meets_bind (takeFundPayment_onlyBank env w) ?_
  intro _ t paid
  exact meets_ofExcept (fun _ _ => paid) (fun _ _ => paid)

theorem payReturn_onlyBank {mtp : MTP} :
    Meets (payReturn env mtp returnAmount takeFund) w (fun _ => OnlyBank w)
      (fun _ => OnlyBank w) := by
  unfold payReturn
  refine meets_when (fun _ => ?_) (fun _ => onlyBank_refl w)
  refine meets_bind (ownerPart_onlyBank env w) ?_
  intro part t paid
  refine meets_when (fun _ => ?_) (fun _ => paid)
  refine meets_ofExcept_then (fun _ _ => ?_) (fun _ _ => paid)
  refine meets_ofExcept_then (fun _ _ => ?_) (fun _ _ => paid)
  refine meets_ofExcept_then (fun _ _ => ?_) (fun _ _ => paid)
  exact meets_mono _ (bankCall_onlyBank t) (fun _ u sent => onlyBank_trans paid sent)
    (fun _ u sent => onlyBank_trans paid sent)

section Keeping

structure Lasting (J : Frame β → Prop) : Prop where
  pooled : ∀ f, J f → J { f with world := { f.world with pools := f.world.pools.put f.pool } }
  dropped : ∀ f e, J f → J { f with dropped := f.dropped ++ [e] }

/-- What survives the writes of every step up to the end of the position; `K` is what is left of
    it from then on. -/
structure StepInvariant (J K : Frame β → Prop) : Prop extends Lasting J where
  numbered : ∀ f, J f → f.mtp.id ≠ 0
  mtp : ∀ f m, SameIdentity f.mtp m → J f → J { f with mtp := m }
  grown : ∀ f s field n, f.pool.amount s field ≤ n → J f →
    J { f with pool := f.pool.setAmount s field n }
  shrunk : ∀ f s field n, field ≠ .balance → J f → J { f with pool := f.pool.setAmount s field n }
  returned : ∀ f s n, 0 < n → J f → J { f with pool := f.pool.setAmount s .balance n }
  bank : ∀ f b, J f → J { f with world := { f.world with bank := b } }
  stored : ∀ f, J f → J { f with world := { f.world with mtps := f.world.mtps.put f.mtp } }
  destroyed : ∀ f, J f → K { f with world := { f.world with
    mtps := f.world.mtps.delete f.mtp.key
    openMtpCount := uint64OfInt ((f.world.openMtpCount : ℤ) - 1) } }
  kept : ∀ f, J f → K f
  after : Lasting K

/-- What is said of the parts of the state that no step writes can be added. -/
theorem StepInvariant.and {J K : Frame β → Prop} (inv : StepInvariant J K) (D : World β → Prop)
    (bank : ∀ w b, D w → D { w with bank := b }) (pools : ∀ w ps, D w → D { w with pools := ps })
    (positions : ∀ w mtps count, D w → D { w with mtps := mtps, openMtpCount := count }) :
    StepInvariant (fun f => J f ∧ D f.world) (fun f => K f ∧ D f.world) where
  pooled := fun f now => ⟨inv.pooled f now.1, pools _ _ now.2⟩
  dropped := fun f e now => ⟨inv.dropped f e now.1, now.2⟩
  numbered := fun f now => inv.numbered f now.1
  mtp := fun f m same now => ⟨inv.mtp f m same now.1, now.2⟩
  grown := fun f s field n more now => ⟨inv.grown f s field n more now.1, now.2⟩
  shrunk := fun f s field n other now => ⟨inv.shrunk f s field n other now.1, now.2⟩
  returned := fun f s n positive now => ⟨inv.returned f s n positive now.1, now.2⟩
  bank := fun f b now => ⟨inv.bank f b now.1, bank _ _ now.2⟩
  stored := fun f now => ⟨inv.stored f now.1, positions _ _ f.world.openMtpCount now.2⟩
  destroyed := fun f now => ⟨inv.destroyed f now.1, positions _ _ _ now.2⟩
  kept := fun f now => ⟨inv.kept f now.1, now.2⟩
  after := {
    pooled := fun f now => ⟨inv.after.pooled f now.1, pools _ _ now.2⟩
    dropped := fun f e now => ⟨inv.after.dropped f e now.1, now.2⟩ }

def Keeps (J : Frame β → Prop) (p : Step β α) (f : Frame β) : Prop :=
  Meets p f (fun _ => J) (fun _ => J)

variable {J K : Frame β → Prop} {f : Frame β}

theorem drop_keeps (last : Lasting J) {e : Failure} (now : J f) : Keeps J (drop e) f :=
  meets_modify (last.dropped f e now)

theorem storePool_keeps (last : Lasting J) {env : Env β} (now : J f) : Keeps J (storePool env) f :=
  meets_read_then (meets_onWorld (setPool_meets env now (last.pooled f now)))

theorem outcome_keeps (inner : Keeps J p f) : Keeps J (outcome p) f :=
  meets_outcome (meets_mono _ inner (fun _ _ kept => kept)
    (fun e _ kept => by cases e <;> exact kept))

theorem logged_keeps (last : Lasting J) {p : Step β Unit} (inner : Keeps J p f) : Keeps J (logged p) f := by
  unfold logged
  refine meets_bind (outcome_keeps inner) (fun result g kept => ?_)
  cases result with
  | ok _ => exact meets_pure kept
  | error e => exact drop_keeps last kept

variable (inv : StepInvariant J K) (env : Env β)
include inv

theorem keeps_then {q : α → Step β γ} (inner : Keeps J p f) (rest : ∀ a g, J g → Keeps K (q a) g) :
    Keeps K (p >>= q) f :=
  meets_bind (meets_mono _ inner (fun _ _ kept => kept) (fun _ g kept => inv.kept g kept)) rest

theorem onlyBank_keeps {g : World β} (only : OnlyBank f.world g) (now : J f) : J { f with world := g } := by
  obtain ⟨b, rfl⟩ := only
  exact inv.bank f b now

theorem setMtp_keeps {g : MTP → MTP} (same : SameIdentity f.mtp (g f.mtp)) (now : J f) :
    Keeps J (setMtp g) f :=
  meets_modify (inv.mtp f _ same now)

theorem addField_keeps {a : ℕ} (now : J f) : Keeps J (addField s field a) f :=
  meets_addField (fun _ => inv.grown f _ _ _ (by omega) now) (fun _ => now)

theorem subField_keeps {a : ℕ} (other : field ≠ .balance) (now : J f) :
    Keeps J (subField s field a) f :=
  meets_subField (fun _ => inv.shrunk f _ _ _ other now) (fun _ => now)

theorem setMTP_keeps (now : J f) : Keeps J setMTP f := by
  unfold setMTP
  refine meets_read_then (meets_bind (P := fun _ => J)
    (meets_when (fun zero => absurd zero (inv.numbered f now)) (fun _ => now)) ?_)
  intro _ g kept
  refine meets_read_then (meets_ofExcept_then (fun _ _ => ?_) (fun _ _ => kept))
  exact meets_modify (inv.stored g kept)

theorem onlyHealth_keeps {g : Frame β} (only : OnlyHealth f g) (now : J f) : J g := by
  obtain ⟨h, rfl⟩ := only
  exact inv.mtp f _ ⟨rfl, rfl, rfl, rfl, rfl⟩ now

theorem assignHealth_keeps (now : J f) : Keeps J assignHealth f :=
  meets_mono _ (assignHealth_only f) (fun _ _ only => onlyHealth_keeps inv only now)
    (fun _ _ only => onlyHealth_keeps inv only now)

theorem takeOutCustody_keeps (now : J f) : Keeps J (takeOutCustody env) f := by
  unfold takeOutCustody
  refine meets_read_then (meets_bind (subField_keeps inv (by decide) now) ?_)
  intro _ g kept
  exact meets_bind (addField_keeps inv kept) (fun _ _ still => storePool_keeps inv.toLasting still)

theorem destroyMTP_keeps (now : J f) : Keeps K (onWorld (destroyMTP f.mtp.address f.mtp.id)) f := by
  refine meets_onWorld ?_
  unfold destroyMTP getMTP
  refine meets_bind (P := fun _ w => w = f.world) (meets_read_then ?_) ?_
  · split
    · exact meets_pure rfl
    · exact meets_fail (inv.kept f now)
  · intro _ w same
    subst same
    exact meets_modify (inv.destroyed f now)

theorem repay_keeps {repayAmount : ℕ} (takeFund : Bool)
    (below : repayAmount < f.pool.amount (sideOf f.mtp.collateralAsset) .balance) (now : J f) :
    Keeps K (repay env repayAmount takeFund) f := by
  have last : ∀ g, J g → K g := inv.kept
  unfold repay
  refine meets_bind (meets_mono _ (assignHealth_only f) (fun _ _ only => only)
    (fun _ g only => last g (onlyHealth_keeps inv only now))) ?_
  intro _ g only
  have kept := onlyHealth_keeps inv only now
  obtain ⟨health, rfl⟩ := only
  refine meets_read_then (meets_ofExcept_then ?_ (fun _ _ => last _ kept))
  rintro ⟨returnAmount, debtP, debtI⟩ settled
  obtain ⟨returned, _⟩ := settleDebt_succeeds settled
  -- the position in memory is the one that was read until it is destroyed
  refine meets_bind (P := fun _ h => J h ∧ h.pool = f.pool ∧
    h.mtp = { f.mtp with mtpHealth := health }) ?_ ?_
  · refine meets_onWorld (meets_mono _ (payReturn_onlyBank env) ?_ ?_)
    · exact fun _ w only => ⟨onlyBank_keeps inv only kept, rfl, rfl⟩
    · exact fun _ w only => last _ (onlyBank_keeps inv only kept)
  · rintro _ h ⟨still, unchanged, mtp⟩
    refine meets_bind (P := fun _ i => J i ∧ i.mtp = { f.mtp with mtpHealth := health }) ?_ ?_
    · refine meets_subField ?_ (fun _ => last _ still)
      intro _
      refine ⟨inv.returned _ _ _ ?_ still, mtp⟩
      rw [unchanged]
      dsimp only
      omega
    · rintro _ i ⟨now, mtp⟩
      refine meets_bind (P := fun _ j => J j ∧ j.mtp = { f.mtp with mtpHealth := health })
        (meets_subField (fun _ => ⟨inv.shrunk _ _ _ _ (by decide) now, mtp⟩) (fun _ => last _ now)) ?_
      rintro _ j ⟨next, mtp⟩
      refine meets_ofExcept_then (fun _ _ => ?_) (fun _ _ => last _ next)
      refine meets_ofExcept_then (fun _ _ => ?_) (fun _ _ => last _ next)
      refine meets_bind (P := fun _ k => J k ∧ k.mtp = { f.mtp with mtpHealth := health })
        (meets_modify ⟨inv.shrunk _ _ _ _ (by decide) next, mtp⟩) ?_
      rintro _ k ⟨final, mtp⟩
      have destroyed := destroyMTP_keeps inv final
      rw [mtp] at destroyed
      exact meets_bind destroyed (fun _ _ gone => storePool_keeps inv.after gone)

theorem payFromCustody_keeps (split : PaymentSplit) (now : J f) :
    Keeps J (payFromCustody env split) f := by
  have mtpStep : ∀ (g : MTP → MTP) (h : Frame β), (∀ m, SameIdentity m (g m)) → J h →
      Keeps J (setMtp g) h :=
    fun g h same kept => setMtp_keeps inv (same h.mtp) kept
  unfold payFromCustody
  refine meets_read_then (meets_ofExcept_then (fun _ _ => ?_) (fun _ _ => now))
  refine meets_bind (mtpStep _ f (fun _ => ⟨rfl, rfl, rfl, rfl, rfl⟩) now) (fun _ g kept => ?_)
  refine meets_ofExcept_then (fun _ _ => ?_) (fun _ _ => kept)
  refine meets_bind (mtpStep _ g (fun _ => ⟨rfl, rfl, rfl, rfl, rfl⟩) kept) (fun _ h kept => ?_)
  refine meets_ofExcept_then (fun _ _ => ?_) (fun _ _ => kept)
  refine meets_bind (mtpStep _ h (fun _ => ⟨rfl, rfl, rfl, rfl, rfl⟩) kept) (fun _ i kept => ?_)
  refine meets_ofExcept_then (fun _ _ => ?_) (fun _ _ => kept)
  refine meets_bind (P := fun _ => J) (meets_onWorld (meets_mono _ (takeFundPayment_onlyBank env _)
    (fun _ w only => onlyBank_keeps inv only kept)
    (fun _ w only => onlyBank_keeps inv only kept))) (fun _ j kept => ?_)
  refine meets_ofExcept_then (fun _ _ => ?_) (fun _ _ => kept)
  refine meets_bind (subField_keeps inv (by decide) kept) (fun _ k kept => ?_)
  refine meets_bind (addField_keeps inv kept) (fun _ l kept => ?_)
  refine meets_bind (setMTP_keeps inv kept) (fun _ m kept => ?_)
  exact meets_bind (storePool_keeps inv.toLasting kept) (fun _ _ kept => meets_pure kept)

theorem incrementalInterestPayment_keeps (interestPayment : ℕ) (now : J f) :
    Keeps J (incrementalInterestPayment env interestPayment) f := by
  unfold incrementalInterestPayment
  refine meets_read_then (meets_ofExcept_then (fun _ _ => ?_) (fun _ _ => now))
  refine meets_ofExcept_then (fun _ _ => ?_) (fun _ _ => now)
  refine meets_bind (setMtp_keeps inv ⟨rfl, rfl, rfl, rfl, rfl⟩ now) (fun _ g kept => ?_)
  refine meets_ofExcept_then (fun split _ => ?_) (fun _ _ => kept)
  exact meets_bind (setMtp_keeps inv ⟨rfl, rfl, rfl, rfl, rfl⟩ kept)
    (fun _ h kept => payFromCustody_keeps inv env split kept)

theorem handleInterestPayment_keeps (interestPayment : ℕ) (now : J f) :
    Keeps J (handleInterestPayment env interestPayment) f := by
  unfold handleInterestPayment
  refine meets_read_then (meets_ite (fun _ => ?_) (fun _ => ?_))
  · refine meets_bind (outcome_keeps (incrementalInterestPayment_keeps inv env _ now)) ?_
    intro result g kept
    cases result with
    | ok _ => exact meets_pure kept
    | error e => exact meets_bind (drop_keeps inv.toLasting kept) (fun _ _ still => meets_pure still)
  · exact meets_bind (setMtp_keeps inv ⟨rfl, rfl, rfl, rfl, rfl⟩ now)
      (fun _ _ kept => meets_pure kept)

theorem chargeInterest_keeps (epochPosition epochLength : ℤ) (now : J f) :
    Keeps J (chargeInterest env epochPosition epochLength) f := by
  unfold chargeInterest
  refine meets_read_then (meets_ofExcept_then (fun _ _ => ?_) (fun _ _ => now))
  exact meets_bind (handleInterestPayment_keeps inv env _ now)
    (fun _ _ kept => addField_keeps inv kept)

theorem chargeWithinEpoch_keeps (now : J f) : Keeps J (chargeWithinEpoch env) f := by
  unfold chargeWithinEpoch
  refine meets_read_then (meets_when (fun _ => ?_) (fun _ => now))
  exact meets_bind (chargeInterest_keeps inv env _ _ now)
    (fun _ _ kept => assignHealth_keeps inv kept)

theorem closePosition_keeps (now : J f) : Keeps K (closePosition env takeFund) f := by
  unfold closePosition
  refine keeps_then inv (takeOutCustody_keeps inv env now) (fun _ g kept => ?_)
  refine meets_read_then (meets_ofExcept_then (fun repayAmount swapped => ?_)
    (fun _ _ => inv.kept g kept))
  exact meets_bind (repay_keeps inv env takeFund
    (clpSwap_bounds swapped).2 kept) (fun _ _ still => meets_pure still)

theorem forceCloseLong_keeps {isAdminClose : Bool} (now : J f) :
    Keeps K (forceCloseLong env isAdminClose takeFund) f := by
  unfold forceCloseLong
  refine keeps_then inv (chargeWithinEpoch_keeps inv env now) (fun _ g kept => ?_)
  exact meets_read_then (meets_require_then (fun _ => closePosition_keeps inv env kept)
    (fun _ => inv.kept g kept))

theorem closeLong_keeps (now : J f) : Keeps K (MarginMsgServer.closeLong env) f :=
  keeps_then inv (chargeWithinEpoch_keeps inv env now) (fun _ _ kept => closePosition_keeps inv env kept)

theorem tryForceClose_keeps (now : J f) : Keeps K (tryForceClose env) f := by
  unfold tryForceClose
  refine meets_bind (outcome_keeps (forceCloseLong_keeps inv env now)) (fun result g kept => ?_)
  split
  · exact meets_pure kept
  · exact meets_pure kept
  · exact drop_keeps inv.after kept

theorem beginBlockerProcessMTP_keeps (now : J f) : Keeps K (beginBlockerProcessMTP env) f := by
  have last : ∀ g, J g → K g := inv.kept
  have processed : Keeps K (processMTP env) f := by
    unfold processMTP
    refine meets_read_then ?_
    split
    · exact meets_fail (last f now)
    · exact drop_keeps inv.after (last f now)
    · refine keeps_then inv (setMtp_keeps inv ⟨rfl, rfl, rfl, rfl, rfl⟩ now) (fun _ g kept => ?_)
      refine keeps_then inv (chargeInterest_keeps inv env _ _ kept) (fun _ h kept => ?_)
      exact keeps_then inv (logged_keeps inv.toLasting (setMTP_keeps inv kept))
        (fun _ i kept => tryForceClose_keeps inv env kept)
  unfold beginBlockerProcessMTP
  refine meets_bind (P := fun _ => K) (meets_attempt (meets_mono _ processed (fun _ _ kept => kept)
    (fun _ _ kept => kept))) ?_
  intro result g kept
  cases result with
  | ok _ => exact meets_pure kept
  | error e => exact drop_keeps inv.after kept

end Keeping

section Blocks

/-- What survives every event but `Open`: `Q` is what holds of the positions that a loop has still
    to visit, `PP` of the pool in memory. -/
structure EventInvariant (I : World β → Prop) (PP : Pool → Prop) (Q : World β → List MTP → Prop)
    (J K : List MTP → Frame β → Prop) : Prop where
  steps : ∀ rest, StepInvariant (J rest) (K rest)
  enter : ∀ w m rest p, I w → Q w (m :: rest) → PP p → J rest ⟨w, m, p, []⟩
  leave : ∀ rest f, K rest f → I f.world ∧ Q f.world rest ∧ PP f.pool
  listed : ∀ w ms, I w → ms.Sublist w.mtps.rows → Q w ms
  pools : ∀ w, I w → ∀ p ∈ w.pools.rows, PP p
  pooled : ∀ w p, I w → PP p → I { w with pools := w.pools.put p }
  shortfall : ∀ w begins, I w → I { w with sqBeginBlock := begins }
  reset : ∀ p, PP p → PP { p with blockInterestExternal := 0, blockInterestNative := 0 }
  computed : ∀ p rate height health, PP p →
    PP { p with interestRate := rate, lastHeightInterestRateComputed := height, health := health }

variable {I : World β → Prop} {PP : Pool → Prop} {Q : World β → List MTP → Prop}
  {J K : List MTP → Frame β → Prop} {w : World β} (inv : EventInvariant I PP Q J K) (env : Env β)
include inv

omit inv in
theorem EventInvariant.and (inv : EventInvariant I PP Q J K) (D : World β → Prop)
    (bank : ∀ w b, D w → D { w with bank := b }) (pools : ∀ w ps, D w → D { w with pools := ps })
    (positions : ∀ w mtps count, D w → D { w with mtps := mtps, openMtpCount := count })
    (shortfall : ∀ w begins, D w → D { w with sqBeginBlock := begins }) :
    EventInvariant (fun w => I w ∧ D w) PP Q (fun rest f => J rest f ∧ D f.world)
      (fun rest f => K rest f ∧ D f.world) where
  steps := fun rest => (inv.steps rest).and D bank pools positions
  enter := fun w m rest p now queued good => ⟨inv.enter w m rest p now.1 queued good, now.2⟩
  leave := fun rest f kept =>
    ⟨⟨(inv.leave rest f kept.1).1, kept.2⟩, (inv.leave rest f kept.1).2⟩
  listed := fun w ms now => inv.listed w ms now.1
  pools := fun w now => inv.pools w now.1
  pooled := fun w p now good => ⟨inv.pooled w p now.1 good, pools _ _ now.2⟩
  shortfall := fun w begins now => ⟨inv.shortfall w begins now.1, shortfall _ _ now.2⟩
  reset := inv.reset
  computed := inv.computed

theorem trackSQBeginBlock_keeps (pool : Pool) (now : I w) :
    Meets (trackSQBeginBlock pool) w (fun _ => I) (fun _ => I) := by
  unfold trackSQBeginBlock setSQBeginBlock
  refine meets_read_then (meets_ite (fun _ => ?_) (fun _ => ?_))
  · exact meets_when (fun _ => meets_modify (inv.shortfall _ _ now)) (fun _ => now)
  · exact meets_when (fun _ => meets_modify (inv.shortfall _ _ now)) (fun _ => now)

theorem withPosition_keeps {address : String} {id : ℕ} {act : Step β ℕ} (now : I w)
    (acts : ∀ f : Frame β, J [] f → Keeps (K []) act f) :
    Meets (MarginMsgServer.withPosition address id act) w (fun _ => I) (fun _ => I) := by
  unfold MarginMsgServer.withPosition
  refine meets_bind (P := fun mtp t => mtp ∈ w.mtps.rows ∧ t = w) ?_ ?_
  · unfold getMTP
    refine meets_read_then ?_
    split
    · rename_i mtp found
      exact meets_pure ⟨(get_mem found).1, rfl⟩
    · exact meets_fail now
  · rintro mtp t ⟨member, rfl⟩
    split
    · refine meets_bind (P := fun pool u => PP pool ∧ u = t) ?_ ?_
      · unfold Action.wrapped getPool
        refine meets_bind (P := fun result u => u = t ∧ ∀ pool, result = .ok pool → PP pool)
          (Action.meets_result (meets_read_then ?_)) ?_
        · split
          · rename_i pool found
            refine meets_pure ⟨rfl, ?_⟩
            intro p same
            cases same
            exact inv.pools t now pool (get_mem found).1
          · exact meets_fail ⟨rfl, fun _ same => by cases same⟩
        · rintro result u ⟨rfl, found⟩
          cases result with
          | ok pool => exact meets_pure ⟨found pool rfl, rfl⟩
          | error e => exact meets_fail now
      · rintro pool u ⟨fine, rfl⟩
        have entered := inv.enter u mtp [] pool now
          (inv.listed u [mtp] now (List.singleton_sublist.mpr member)) fine
        refine meets_bind (P := fun _ => I) (meets_enter (meets_mono _ (acts _ entered)
          (fun _ f last => (inv.leave [] f last).1) (fun _ f last => (inv.leave [] f last).1))) ?_
        exact fun _ _ last => meets_pure last
    · exact meets_fail now

theorem visitPosition_keeps {state : BlockState} {mtp : MTP} {rest : List MTP}
    (queued : Q w (mtp :: rest)) (pool : PP state.pool) (now : I w) :
    Meets (visitPosition env state mtp) w (fun after t => PP after.pool ∧ Q t rest ∧ I t)
      (fun _ => I) := by
  have visited := beginBlockerProcessMTP_keeps (inv.steps rest) env (inv.enter w mtp rest state.pool now queued pool)
  unfold visitPosition
  refine meets_bind (P := fun result t => K rest result.2 ∧ t = result.2.world)
    (meets_enter (meets_mono _ visited (fun _ _ kept => ⟨kept, rfl⟩)
      (fun _ f kept => (inv.leave rest f kept).1))) ?_
  rintro ⟨_, f⟩ t ⟨kept, rfl⟩
  obtain ⟨world, others, pool⟩ := inv.leave rest f kept
  exact meets_pure ⟨pool, others, world⟩

theorem visitPositions_keeps (pool : Pool) (good : PP pool) (now : I w) :
    Meets (visitPositions env pool) w (fun after t => PP after.pool ∧ I t) (fun _ => I) := by
  unfold visitPositions
  refine meets_bind (Action.ignoreError_keeps (setPool_meets env now (inv.pooled w pool now good)))
    (fun _ t kept => ?_)
  refine meets_bind (trackSQBeginBlock_keeps inv _ kept) (fun _ u kept => ?_)
  refine meets_read_then (meets_mono _ (meets_accumulate
    (I := fun rest state t => PP state.pool ∧ Q t rest ∧ I t) _ _ _ ?_
    ⟨good, inv.listed u _ kept (Pagination.filteredPaginate_sublist.trans List.filter_sublist), kept⟩)
    (fun _ _ done => ⟨done.1, done.2.2⟩) (fun _ _ kept => kept))
  rintro mtp rest state t ⟨now, queued, world⟩
  exact visitPosition_keeps inv env queued now world

theorem visitEnabledPool_keeps {pool : Pool} (good : PP pool) (now : I w) :
    Meets (visitEnabledPool env pool) w (fun after t => PP after.pool ∧ I t) (fun _ => I) := by
  unfold visitEnabledPool
  refine meets_read_then (meets_ofExcept_then (fun rate _ => ?_) (fun _ _ => now))
  refine meets_ofExcept_then (fun health _ => ?_) (fun _ _ => now)
  exact visitPositions_keeps inv env _ (inv.computed pool rate w.height health good) now

theorem visitPool_keeps (dropped : List Failure) (pool : Pool) (good : PP pool) (now : I w) :
    Meets (visitPool env dropped pool) w (fun _ => I) (fun _ => I) := by
  unfold visitPool
  refine meets_read_then (meets_bind (P := fun after t => PP after.pool ∧ I t) ?_ ?_)
  · exact meets_ite (fun _ => visitEnabledPool_keeps inv env (inv.reset pool good) now)
      (fun _ => meets_pure ⟨inv.reset pool good, now⟩)
  · rintro state t ⟨fine, kept⟩
    exact meets_bind (Action.ignoreError_keeps (setPool_meets env kept (inv.pooled t _ kept fine)))
      (fun _ _ still => meets_pure still)

theorem beginBlocker_keeps (now : I w) : Meets (beginBlocker env) w (fun _ => I) (fun _ => I) := by
  unfold beginBlocker
  refine meets_read_then (meets_ite (fun _ => ?_) (fun _ => meets_pure now))
  refine meets_mono _ (meets_accumulate (I := fun rest _ t => (∀ p ∈ rest, PP p) ∧ I t)
    _ _ _ ?_ ⟨inv.pools w now, now⟩) (fun _ _ done => done.2) (fun _ _ kept => kept)
  rintro pool rest dropped t ⟨left, now⟩
  exact meets_mono _ (visitPool_keeps inv env dropped pool (left pool (by simp)) now)
    (fun _ _ kept => ⟨fun p member => left p (by simp [member]), kept⟩) (fun _ _ kept => kept)

/-- Closing messages and blocks keep what their steps keep; `Open` is apart. -/
theorem event_keeps (e : MarginEvent) (notOpen : ∀ c m, e ≠ .message c (.open' m)) (now : I w) :
    Meets (e.action env) w (fun _ => I) (fun _ => I) := by
  cases e with
  | beginBlock c => exact beginBlocker_keeps inv env now
  | message c msg =>
    refine meets_bind (P := fun _ => I) ?_ ?_
    · refine meets_ofExcept_then (fun _ _ => ?_) (fun _ _ => now)
      refine meets_ofExcept_then (fun _ _ => ?_) (fun _ _ => now)
      exact meets_require_then (fun _ => meets_pure now) (fun _ => now)
    · intro _ t kept
      have forced : ∀ takeFund, ∀ address id, Meets (MarginMsgServer.withPosition address id
          (forceCloseLong env true takeFund)) t (fun _ => I) (fun _ => I) :=
        fun takeFund address id => withPosition_keeps inv kept
          (fun f frame => forceCloseLong_keeps (inv.steps []) env frame)
      have admin : ∀ signer, Meets (MarginMsgServer.requireAdmin env signer) t
          (fun _ u => u = t) (fun _ => I) := by
        intro signer
        refine meets_ofExcept_then (fun _ _ => ?_) (fun _ _ => kept)
        exact meets_read_then (meets_require (fun _ => rfl) (fun _ => kept))
      cases msg with
      | open' m => exact absurd rfl (notOpen c m)
      | close m =>
        exact withPosition_keeps inv kept (fun f frame => closeLong_keeps (inv.steps []) env frame)
      | forceClose m => exact meets_bind (admin _) (fun _ u same => same ▸ forced _ _ _)
      | adminClose m => exact meets_bind (admin _) (fun _ u same => same ▸ forced _ _ _)

end Blocks

section RowByRow
variable {PM : MTP → Prop} {PP : Pool → Prop} (inv : RowInvariant PM PP) (n : ℕ)

theorem put_pool_rows {p : Pool} (rows : Rows PM PP n w) (good : PP p) :
    Rows PM PP n { w with pools := w.pools.put p } := by
  refine ⟨rows.counted, rows.mtps, ?_⟩
  intro q member
  rcases (mem_put _ _ q).mp member with rfl | ⟨old, _⟩
  · exact good
  · exact rows.pools q old

include inv

theorem rows_steps (l : List Failure) :
    StepInvariant (β := β) (FrameRows PM PP n l) (FrameRows PM PP n l) := by
  have last : Lasting (β := β) (FrameRows PM PP n l) := {
    pooled := fun f rows => ⟨put_pool_rows n rows.world rows.pool, rows.mtp, rows.pool, rows.noted⟩
    dropped := fun f e rows => ⟨rows.world, rows.mtp, rows.pool, rows.noted.trans (List.prefix_append _ _)⟩ }
  refine { last with
    numbered := fun f rows => inv.numbered _ rows.mtp
    mtp := fun f m same rows => ⟨rows.world, inv.amounts _ _ same rows.mtp, rows.pool, rows.noted⟩
    grown := fun f s field a more rows =>
      ⟨rows.world, rows.mtp, inv.grown _ _ _ _ more rows.pool, rows.noted⟩
    shrunk := fun f s field a other rows =>
      ⟨rows.world, rows.mtp, inv.shrunk _ _ _ _ other rows.pool, rows.noted⟩
    returned := fun f s a positive rows =>
      ⟨rows.world, rows.mtp, inv.returned _ _ _ positive rows.pool, rows.noted⟩
    bank := fun f b rows =>
      ⟨⟨rows.world.counted, rows.world.mtps, rows.world.pools⟩, rows.mtp, rows.pool, rows.noted⟩
    stored := ?_
    destroyed := ?_
    kept := fun _ rows => rows
    after := last }
  · intro f rows
    refine ⟨⟨rows.world.counted, ?_, rows.world.pools⟩, rows.mtp, rows.pool, rows.noted⟩
    intro m member
    rcases (mem_put _ _ m).mp member with rfl | ⟨old, _⟩
    · exact rows.mtp
    · exact rows.world.mtps m old
  · intro f rows
    refine ⟨⟨rows.world.counted, ?_, rows.world.pools⟩, rows.mtp, rows.pool, rows.noted⟩
    intro m member
    exact rows.world.mtps m ((mem_delete _ _ m).mp member).1

theorem rows_events : EventInvariant (β := β) (Rows PM PP n) PP (fun _ ms => ∀ m ∈ ms, PM m)
    (fun rest f => FrameRows PM PP n [] f ∧ ∀ m ∈ rest, PM m)
    (fun rest f => FrameRows PM PP n [] f ∧ ∀ m ∈ rest, PM m) where
  steps := fun rest => (rows_steps inv n []).and (fun _ => ∀ m ∈ rest, PM m) (fun _ _ kept => kept)
    (fun _ _ kept => kept) (fun _ _ _ kept => kept)
  enter := fun w m rest p rows queued good => ⟨⟨rows, queued m (by simp), good, List.nil_prefix⟩,
    fun m' member => queued m' (by simp [member])⟩
  leave := fun rest f kept => ⟨kept.1.world, kept.2, kept.1.pool⟩
  listed := fun w ms rows sublist m member => rows.mtps m (sublist.subset member)
  pools := fun w rows => rows.pools
  pooled := fun w p rows good => put_pool_rows n rows good
  shortfall := fun w begins rows => ⟨rows.counted, rows.mtps, rows.pools⟩
  reset := fun p good => inv.shrunk _ .native .blockInterest 0 (by decide)
    (inv.shrunk p .external .blockInterest 0 (by decide) good)
  computed := inv.computed

end RowByRow
end FuryNode
