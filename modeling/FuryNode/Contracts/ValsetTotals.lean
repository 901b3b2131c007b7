import FuryNode.Contracts.Valset

/-!
Whether the cached total and count of the validator set are those of its mappings. Every call
writes the entries of one validator at a time, so a cache stays right when it changes by what
the entry did. Adding an active validator again and recovering gas for an active one break it.
-/
namespace FuryNode
open StatefulProgram StatefulProgram.Prog PointSums Valset

variable {s t : ValsetState} {a : Address} {u : Unit}

namespace Valset

def activePower (s : ValsetState) (a : Address) : ℕ :=
  if isActiveValidator s a then getValidatorPower s a else 0

def activeCount (s : ValsetState) (a : Address) : ℕ := if isActiveValidator s a then 1 else 0

structure Totals (s : ValsetState) : Prop where
  power : s.totalPower = ∑ a, activePower s a
  count : s.validatorCount = ∑ a, activeCount s a

def Ahead (s : ValsetState) : Prop :=
  ∀ a version, s.currentValsetVersion < version → s.validators a version = false

section Writes
variable (s : ValsetState) (a b : Address) (active : Bool) (power : ℕ)

theorem isActive_set : isActiveValidator (setValidator s a active power) b =
    if b = a then active else isActiveValidator s b := by
  by_cases same : b = a
  · subst same
    simp [isActiveValidator, setValidator]
  · simp [isActiveValidator, setValidator, same]

theorem getPower_set : getValidatorPower (setValidator s a active power) b =
    if b = a then power else getValidatorPower s b := by
  by_cases same : b = a
  · subst same
    simp [getValidatorPower, setValidator]
  · simp [getValidatorPower, setValidator, same]

theorem activePower_set : activePower (setValidator s a active power) b =
    if b = a then (if active then power else 0) else activePower s b := by
  rw [activePower, isActive_set, getPower_set]
  split <;> rfl

theorem activeCount_set : activeCount (setValidator s a active power) b =
    if b = a then (if active then 1 else 0) else activeCount s b := by
  rw [activeCount, isActive_set]
  split <;> rfl

theorem ahead_set (ahead : Ahead s) : Ahead (setValidator s a active power) := by
  intro b version later
  have other : version ≠ s.currentValsetVersion := fun same => absurd later (by simp [setValidator, same])
  by_cases same : b = a
  · subst same
    simp only [setValidator, Function.update_self, Function.update_of_ne other]
    exact ahead b version later
  · simp only [setValidator, Function.update_of_ne same]
    exact ahead b version later

end Writes

theorem totals_set (a : Address) (active : Bool) (power count total : ℕ) (totals : Totals s)
    (powers : total + activePower s a = s.totalPower + (if active then power else 0))
    (counts : count + activeCount s a = s.validatorCount + (if active then 1 else 0)) :
    Totals (setValidator { s with validatorCount := count, totalPower := total } a active power) := by
  have powerTrade := sum_change (activePower s)
    (activePower (setValidator { s with validatorCount := count, totalPower := total } a active power)) a
    (fun b other => by rw [activePower_set, if_neg other]; rfl)
  have countTrade := sum_change (activeCount s)
    (activeCount (setValidator { s with validatorCount := count, totalPower := total } a active power)) a
    (fun b other => by rw [activeCount_set, if_neg other]; rfl)
  rw [activePower_set _ a a, if_pos rfl, ← totals.power] at powerTrade
  rw [activeCount_set _ a a, if_pos rfl, ← totals.count] at countTrade
  constructor
  · show total = _
    omega
  · show count = _
    omega

theorem addValidatorInternal_succeeds {power : ℕ} :
    (addValidatorInternal a power).run s = (.ok u, t) ↔
      s.validatorCount + 1 < 2 ^ 256 ∧ s.totalPower + power < 2 ^ 256 ∧
        setValidator { s with validatorCount := s.validatorCount + 1, totalPower := s.totalPower + power }
          a true power = t := by
  simp only [addValidatorInternal, read_then, ofExcept_then, SafeMath.add_succeeds, modify_succeeds]
  constructor
  · rintro ⟨_, ⟨small, rfl⟩, _, ⟨fits, rfl⟩, after⟩
    exact ⟨small, fits, after⟩
  · rintro ⟨small, fits, after⟩
    exact ⟨_, ⟨small, rfl⟩, _, ⟨fits, rfl⟩, after⟩

theorem resetValset_succeeds :
    resetValset.run s = (.ok u, t) ↔ s.currentValsetVersion + 1 < 2 ^ 256 ∧
      { s with currentValsetVersion := s.currentValsetVersion + 1, validatorCount := 0, totalPower := 0 }
        = t := by
  simp only [resetValset, read_then, ofExcept_then, SafeMath.add_succeeds, modify_succeeds]
  constructor
  · rintro ⟨_, ⟨small, rfl⟩, after⟩
    exact ⟨small, after⟩
  · rintro ⟨small, after⟩
    exact ⟨_, ⟨small, rfl⟩, after⟩

theorem add_totals (a : Address) (power : ℕ) (s t : ValsetState) (u : Unit) (totals : Totals s)
    (ahead : Ahead s) (inactive : isActiveValidator s a = false)
    (run : (addValidatorInternal a power).run s = (.ok u, t)) : Totals t ∧ Ahead t := by
  obtain ⟨_, _, rfl⟩ := addValidatorInternal_succeeds.mp run
  constructor
  · apply totals_set a true power _ _ totals
    · simp [activePower, inactive]
    · simp [activeCount, inactive]
  · exact ahead_set _ _ _ _ ahead

/-- Adding validators one after another, none of them active and none of them twice. -/
theorem addAll_totals (validators : List (Address × ℕ)) (s t : ValsetState) (u : Unit)
    (totals : Totals s) (ahead : Ahead s) (distinct : (validators.map Prod.fst).Nodup)
    (inactive : ∀ v ∈ validators, isActiveValidator s v.1 = false)
    (run : (addAll validators).run s = (.ok u, t)) : Totals t ∧ Ahead t := by
  induction validators generalizing s with
  | nil =>
    obtain ⟨_, rfl⟩ := pure_succeeds.mp run
    exact ⟨totals, ahead⟩
  | cons v rest ih =>
    obtain ⟨absent, others⟩ := List.nodup_cons.mp distinct
    obtain ⟨_, r, first, later⟩ := bind_ok run
    obtain ⟨kept, still⟩ := add_totals v.1 v.2 s r _ totals ahead (inactive v (by simp)) first
    apply ih r kept still others _ later
    intro w member
    obtain ⟨_, _, rfl⟩ := addValidatorInternal_succeeds.mp first
    rw [isActive_set, if_neg]
    · exact inactive w (by simp [member])
    · intro same
      exact absent (List.mem_map.mpr ⟨w, member, same⟩)

theorem reset_totals (ahead : Ahead s) (run : resetValset.run s = (.ok u, t)) :
    Totals t ∧ Ahead t ∧ ∀ a, isActiveValidator t a = false := by
  obtain ⟨_, rfl⟩ := resetValset_succeeds.mp run
  have nobody : ∀ a, isActiveValidator { s with
      currentValsetVersion := s.currentValsetVersion + 1, validatorCount := 0, totalPower := 0 } a = false :=
    fun a => ahead a _ (Nat.lt_succ_self _)
  refine ⟨⟨?_, ?_⟩, ?_, nobody⟩
  · simp [activePower, nobody]
  · simp [activeCount, nobody]
  · intro a version later
    exact ahead a version (Nat.lt_of_succ_lt later)

/-- The totals, and that nobody has called the contract before it was initialized. -/
structure Accounted (s : ValsetState) : Prop where
  totals : Totals s
  ahead : Ahead s
  idle : s.initialized = false → s = deployed

theorem accounted_deployed : Accounted deployed where
  totals := ⟨by simp [activePower, isActiveValidator, deployed],
    by simp [activeCount, isActiveValidator, deployed]⟩
  ahead := fun _ _ _ => rfl
  idle := fun _ => rfl

theorem addAll_initialized (validators : List (Address × ℕ)) :
    Preserves ValsetState.initialized (addAll validators) := by
  refine preserves_forEach (fun v => preserves_read_then (fun s => ?_))
  exact preserves_bind preserves_ofExcept
    (fun _ => preserves_ofExcept_then (fun _ => preserves_modify (fun _ => rfl)))

theorem refill_accounted (validators : List Address) (powers : List ℕ) (s t : ValsetState) (u : Unit)
    (ahead : Ahead s) (ready : s.initialized = true) (distinct : validators.Nodup)
    (lengths : validators.length = powers.length)
    (run : (do resetValset; addAll (validators.zip powers) : ValsetAction Unit).run s = (.ok u, t)) :
    Accounted t := by
  obtain ⟨_, r, reset, added⟩ := bind_ok run
  obtain ⟨totals, still, nobody⟩ := reset_totals ahead reset
  have different : ((validators.zip powers).map Prod.fst).Nodup := by
    rw [List.map_fst_zip lengths.le]
    exact distinct
  obtain ⟨kept, later⟩ := addAll_totals _ r t u totals still different (fun v _ => nobody v.1) added
  refine ⟨kept, later, ?_⟩
  intro idle
  have same := addAll_initialized (validators.zip powers) r
  rw [added] at same
  obtain ⟨_, rfl⟩ := resetValset_succeeds.mp reset
  rw [same] at idle
  exact absurd (ready.symm.trans idle) (by decide)

end Valset

/-- The call does not add a validator that is active already or add one twice, and does not
    recover gas for an active validator. -/
def ValsetCall.Separate (s : ValsetState) : ValsetCall → Prop
  | .initializeValset _ validators _ => validators.Nodup
  | .addValidator _ a _ => isActiveValidator s a = false
  | .updateValidatorPower _ _ _ => True
  | .removeValidator _ _ => True
  | .updateValset _ validators _ => validators.Nodup
  | .recoverGas _ _ a => isActiveValidator s a = false

instance (s : ValsetState) (call : ValsetCall) : Decidable (call.Separate s) := by
  cases call <;> unfold ValsetCall.Separate <;> infer_instance

namespace Valset

theorem onlyOperator_then {α : Type} {sender : Caller} {f : Unit → ValsetAction α} {a : α} :
    (onlyOperator sender >>= f).run s = (.ok a, t) ↔
      sender.address = s.operator ∧ (f ()).run s = (.ok a, t) := by
  rw [bind_succeeds]
  simp only [onlyOperator, read_then, require_succeeds]
  constructor
  · rintro ⟨_, _, ⟨own, rfl⟩, later⟩
    exact ⟨own, later⟩
  · rintro ⟨own, later⟩
    exact ⟨(), s, ⟨own, rfl⟩, later⟩

theorem operator_initialized (accounted : Accounted s) {sender : Caller}
    (own : sender.address = s.operator) : s.initialized = true := by
  cases ready : s.initialized with
  | true => rfl
  | false =>
    rw [accounted.idle ready] at own
    exact absurd own sender.nonzero

theorem accounted_write (a : Address) (active : Bool) (power count total : ℕ)
    (accounted : Accounted s) (ready : s.initialized = true)
    (powers : total + activePower s a = s.totalPower + (if active then power else 0))
    (counts : count + activeCount s a = s.validatorCount + (if active then 1 else 0)) :
    Accounted (setValidator { s with validatorCount := count, totalPower := total } a active power) where
  totals := totals_set a active power count total accounted.totals powers counts
  ahead := ahead_set _ _ _ _ accounted.ahead
  idle := fun idle => absurd (ready.symm.trans idle) (by decide)

theorem activePower_active (active : isActiveValidator s a = true) :
    activePower s a = getValidatorPower s a := by simp [activePower, active]

theorem activeCount_active (active : isActiveValidator s a = true) :
    activeCount s a = 1 := by simp [activeCount, active]

theorem inactive_adds_nothing (inactive : isActiveValidator s a = false) :
    activePower s a = 0 ∧ activeCount s a = 0 := by simp [activePower, activeCount, inactive]

def Refilled (s : ValsetState) (validators : List (Address × ℕ)) (t : ValsetState) : Prop :=
  (do resetValset; addAll validators : ValsetAction Unit).run s = (.ok (), t)

/-- What a call that is not reverted has checked and written. -/
def Writes (s t : ValsetState) : ValsetCall → Prop
  | .initializeValset operator validators powers => s.initialized = false ∧ validators.length = powers.length ∧
      Refilled { s with operator := operator, currentValsetVersion := 0, initialized := true }
        (validators.zip powers) t
  | .addValidator sender a power => sender.address = s.operator ∧ t = setValidator
      { s with validatorCount := s.validatorCount + 1, totalPower := s.totalPower + power } a true power
  | .updateValidatorPower sender a power => sender.address = s.operator ∧ isActiveValidator s a = true ∧
      getValidatorPower s a ≤ s.totalPower ∧
      t = { setValidator s a true power with totalPower := s.totalPower - getValidatorPower s a + power }
  | .removeValidator sender a => sender.address = s.operator ∧ isActiveValidator s a = true ∧
      1 ≤ s.validatorCount ∧ getValidatorPower s a ≤ s.totalPower ∧ t = setValidator
        { s with validatorCount := s.validatorCount - 1, totalPower := s.totalPower - getValidatorPower s a } a false 0
  | .updateValset sender validators powers => sender.address = s.operator ∧ validators.length = powers.length ∧
      Refilled s (validators.zip powers) t
  | .recoverGas sender version a => sender.address = s.operator ∧ version < s.currentValsetVersion ∧
      t = setValidator s a false 0

theorem call_writes {call : ValsetCall} (run : call.action.run s = (.ok u, t)) :
    Writes s t call := by
  cases call with
  | initializeValset operator validators powers =>
    simp only [ValsetCall.action, initializeValset, read_then, require_then, modify_then] at run
    exact run
  | addValidator sender a power =>
    obtain ⟨own, added⟩ := onlyOperator_then.mp run
    obtain ⟨_, _, after⟩ := addValidatorInternal_succeeds.mp added
    exact ⟨own, after.symm⟩
  | updateValidatorPower sender a power =>
    obtain ⟨own, rest⟩ := onlyOperator_then.mp run
    simp only [read_then, require_then, ofExcept_then, SafeMath.sub_succeeds, SafeMath.add_succeeds,
      modify_succeeds] at rest
    obtain ⟨active, _, ⟨enough, rfl⟩, _, ⟨_, rfl⟩, after⟩ := rest
    exact ⟨own, active, enough, after.symm⟩
  | removeValidator sender a =>
    obtain ⟨own, rest⟩ := onlyOperator_then.mp run
    simp only [read_then, require_then, ofExcept_then, SafeMath.sub_succeeds, modify_succeeds] at rest
    obtain ⟨active, _, ⟨some, rfl⟩, _, ⟨enough, rfl⟩, after⟩ := rest
    exact ⟨own, active, some, enough, after.symm⟩
  | updateValset sender validators powers =>
    obtain ⟨own, rest⟩ := onlyOperator_then.mp run
    exact ⟨own, require_then.mp rest⟩
  | recoverGas sender version a =>
    obtain ⟨own, rest⟩ := onlyOperator_then.mp run
    simp only [read_then, require_then, modify_succeeds] at rest
    obtain ⟨older, after⟩ := rest
    exact ⟨own, older, after.symm⟩

theorem call_accounted (call : ValsetCall) (s t : ValsetState) (u : Unit) (accounted : Accounted s)
    (separate : call.Separate s) (run : call.action.run s = (.ok u, t)) : Accounted t := by
  have writes := call_writes run
  cases call with
  | initializeValset operator validators powers =>
    obtain ⟨fresh, lengths, refilled⟩ := writes
    refine refill_accounted validators powers _ t u ?_ rfl separate lengths refilled
    rw [accounted.idle fresh]
    intro _ _ _
    rfl
  | addValidator sender a power =>
    obtain ⟨own, rfl⟩ := writes
    obtain ⟨noPower, noCount⟩ := inactive_adds_nothing separate
    apply accounted_write a true power _ _ accounted (operator_initialized accounted own)
    · rw [noPower]
      simp
    · rw [noCount]
      simp
  | updateValidatorPower sender a power =>
    obtain ⟨own, active, enough, rfl⟩ := writes
    have power_eq := activePower_active active
    have count_eq := activeCount_active active
    apply accounted_write a true power s.validatorCount _ accounted
      (operator_initialized accounted own)
    · rw [power_eq]
      simp only [↓reduceIte]
      omega
    · rw [count_eq]
      rfl
  | removeValidator sender a =>
    obtain ⟨own, active, some, enough, rfl⟩ := writes
    have power_eq := activePower_active active
    have count_eq := activeCount_active active
    apply accounted_write a false 0 _ _ accounted (operator_initialized accounted own)
    · rw [power_eq]
      simp only [Bool.false_eq_true, ↓reduceIte]
      omega
    · rw [count_eq]
      simp only [Bool.false_eq_true, ↓reduceIte]
      omega
  | updateValset sender validators powers =>
    obtain ⟨own, lengths, refilled⟩ := writes
    exact refill_accounted validators powers s t u accounted.ahead
      (operator_initialized accounted own) separate lengths refilled
  | recoverGas sender version a =>
    obtain ⟨own, _, rfl⟩ := writes
    obtain ⟨noPower, noCount⟩ := inactive_adds_nothing separate
    apply accounted_write a false 0 s.validatorCount s.totalPower accounted
      (operator_initialized accounted own)
    · rw [noPower]
      rfl
    · rw [noCount]
      rfl

theorem step_accounted {call : ValsetCall} (accounted : Accounted s) (separate : call.Separate s) :
    Accounted (call.step s) :=
  transact_preserves Accounted call.action s
    (fun u t run => call_accounted call s t u accounted separate run) accounted

/-- **Totals.** In every run whose calls add only validators that are not active, each of them
    once, and recover gas only for inactive ones, the cached total and count are those of the
    mappings in the current version. -/
theorem cached_totals (calls : List ValsetCall)
    (separate : EventRuns.Guarded ValsetCall.step (fun s call => call.Separate s) calls deployed) :
    let s := runValset calls deployed
    s.totalPower = (∑ a : Address, if s.validators a s.currentValsetVersion = true then
      s.powers a s.currentValsetVersion else 0) ∧
    s.validatorCount =
      (Finset.univ.filter (fun a : Address => s.validators a s.currentValsetVersion = true)).card := by
  intro s
  have accounted : Accounted s := EventRuns.run_preserves ValsetCall.step
    (fun s call => call.Separate s) Accounted
    (fun s call met now => step_accounted now met) calls deployed separate accounted_deployed
  refine ⟨accounted.totals.power, ?_⟩
  rw [Finset.card_filter]
  exact accounted.totals.count

def owner : Caller := ⟨7, operator_nonzero⟩

theorem cached_totals_of_changes :
    let calls := [.initializeValset 7 [1, 2] [5, 6], .removeValidator owner 1, .addValidator owner 3 4,
      .updateValidatorPower owner 2 9]
    (runValset calls deployed).totalPower = 13 ∧
      (runValset calls deployed).validatorCount = (Finset.univ.filter (fun a : Address =>
        (runValset calls deployed).validators a (runValset calls deployed).currentValsetVersion = true)).card := by
  intro calls
  exact ⟨by decide +kernel, (cached_totals calls (by decide +kernel)).2⟩

/-- Validators 1 and 2 are set. After gas is recovered for validator 1 it is not active any
    more, and after validator 1 is added again it counts twice. -/
theorem totals_diverge :
    let recovered := runValset [.initializeValset 7 [1, 2] [5, 5], .recoverGas owner 0 1] deployed
    let repeated := runValset [.initializeValset 7 [1, 2] [5, 5], .addValidator owner 1 5] deployed
    (recovered.totalPower = 10 ∧ (∑ a : Address, if recovered.validators a recovered.currentValsetVersion
      = true then recovered.powers a recovered.currentValsetVersion else 0) = 5) ∧
    (repeated.totalPower = 15 ∧ (∑ a : Address, if repeated.validators a repeated.currentValsetVersion
      = true then repeated.powers a repeated.currentValsetVersion else 0) = 10) := by
  intro recovered repeated
  -- both runs write the entries of the first two validators only
  have recoveredOthers : ∀ b, b ∉ [1, 2] → isActiveValidator recovered b = false := by
    intro b absent
    obtain ⟨first, second⟩ : b ≠ 1 ∧ b ≠ 2 := by simpa using absent
    have writes : recovered = setValidator (setValidator (setValidator
        ⟨true, 7, 10, 1, 2, fun _ _ => false, fun _ _ => 0⟩ 1 true 5) 2 true 5) 1 false 0 := rfl
    rw [writes, isActive_set, isActive_set, isActive_set, if_neg first, if_neg second, if_neg first]
    rfl
  have repeatedOthers : ∀ b, b ∉ [1, 2] → isActiveValidator repeated b = false := by
    intro b absent
    obtain ⟨first, second⟩ : b ≠ 1 ∧ b ≠ 2 := by simpa using absent
    have writes : repeated = setValidator (setValidator (setValidator
        ⟨true, 7, 15, 1, 3, fun _ _ => false, fun _ _ => 0⟩ 1 true 5) 2 true 5) 1 true 5 := rfl
    rw [writes, isActive_set, isActive_set, isActive_set, if_neg first, if_neg second, if_neg first]
    rfl
  refine ⟨⟨by decide +kernel, ?_⟩, by decide +kernel, ?_⟩
  · refine (sum_listed (activePower recovered) [1, 2] (by decide) ?_).trans (by decide +kernel)
    exact fun b absent => (inactive_adds_nothing (recoveredOthers b absent)).1
  · refine (sum_listed (activePower repeated) [1, 2] (by decide) ?_).trans (by decide +kernel)
    exact fun b absent => (inactive_adds_nothing (repeatedOthers b absent)).1

end Valset
end FuryNode
