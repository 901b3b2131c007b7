import Mathlib.Data.List.Infix
import Mathlib.Data.List.Induction
import FuryNode.Sdk.Chain

/-!
The decorator that sets a minimum fee in fury by the kinds of messages in a transaction. A loop
over the messages overwrites the minimum, and only the branch of transfers looks at what it was
before, so the minimum can depend on the order and fall below what one message costs alone.
-/
namespace FuryNode
variable {p : ℕ} {msgs : List Msg}

namespace FeeFloor

/-- `strings.Contains`. -/
def contains (text part : String) : Bool := decide (part.toList <:+: text.toList)

structure Msg where
  typeURL : String
  deriving DecidableEq, Repr

def msgTypeCreateDistribution : String := "createDistribution"
def msgTypeRunDistribution : String := "runDistribution"

def isDispensation (msg : Msg) : Bool :=
  contains msg.typeURL.toLower msgTypeCreateDistribution.toLower ||
    contains msg.typeURL.toLower msgTypeRunDistribution.toLower

def isTenth (msg : Msg) : Bool :=
  ["send", "multisend", "createuserclaim", "swap", "removeliquidity", "removeliquidityunits",
    "addliquidity"].any (contains msg.typeURL.toLower)

def isTransfer (msg : Msg) : Bool := contains msg.typeURL.toLower "transfer"

def isProposal (msg : Msg) : Bool :=
  contains msg.typeURL.toLower "submitproposal" || contains msg.typeURL.toLower "submit_proposal"

def tenthFee : ℕ := 10 ^ 17
def hundredthFee : ℕ := 10 ^ 16

def adjustMinFee (submitProposalFee minFee : ℕ) (msg : Msg) : ℕ :=
  if isTenth msg then tenthFee
  else if isTransfer msg ∧ minFee ≤ hundredthFee then hundredthFee
  else if isProposal msg then submitProposalFee
  else minFee

def isSingleDispensation : List Msg → Bool
  | [msg] => isDispensation msg
  | _ => false

def minFee (submitProposalFee : ℕ) (msgs : List Msg) : ℕ :=
  if isSingleDispensation msgs then 0 else msgs.foldl (adjustMinFee submitProposalFee) 0

inductive AnteErr where
  | notFeeTx
  | unsupportedFeeAsset
  | feeTooLow
  deriving DecidableEq, Repr

/-- What the decorator hands on: a gas price of its own for dispensations, or what it was given. -/
inductive GasPrice where
  | lowered
  | unchanged
  deriving DecidableEq, Repr

def furyFee (fees : Coins) : ℕ :=
  fees.foldl (fun amount coin => if nativeSymbol = coin.denom then coin.amount else amount) 0

/-- `AnteHandle`; a transaction without fees is none that pays any. -/
def anteHandle (submitProposalFee : ℕ) (msgs : List Msg) (fees : Option Coins) :
    Except AnteErr GasPrice :=
  if isSingleDispensation msgs then .ok .lowered
  else if minFee submitProposalFee msgs = 0 then .ok .unchanged
  else match fees with
    | none => .error .notFeeTx
    | some coins =>
      if furyFee coins ≤ 0 then .error .unsupportedFeeAsset
      else if furyFee coins < minFee submitProposalFee msgs then .error .feeTooLow
      else .ok .unchanged

theorem anteHandle_enforces (submitProposalFee : ℕ) (msgs : List Msg) (coins : Coins) :
    (anteHandle submitProposalFee msgs (some coins)).isOk = true ↔
      minFee submitProposalFee msgs ≤ furyFee coins := by
  unfold anteHandle
  split
  · rename_i single
    simp [minFee, single, Except.isOk, Except.toBool]
  · split
    · rename_i none
      simp [none, Except.isOk, Except.toBool]
    · dsimp only
      split
      · simp only [Except.isOk, Except.toBool, Bool.false_eq_true, false_iff]
        omega
      · split
        · simp only [Except.isOk, Except.toBool, Bool.false_eq_true, false_iff]
          omega
        · simp only [Except.isOk, Except.toBool, true_iff]
          omega

def Proposes (msg : Msg) : Prop := isTenth msg = false ∧ isProposal msg = true

def Transfers (msg : Msg) : Prop := isTenth msg = false ∧ isTransfer msg = true

instance (msg : Msg) : Decidable (Proposes msg) := inferInstanceAs (Decidable (_ ∧ _))
instance (msg : Msg) : Decidable (Transfers msg) := inferInstanceAs (Decidable (_ ∧ _))

def FeesAgree (submitProposalFee : ℕ) (msgs : List Msg) : Prop :=
  ((∃ m ∈ msgs, isTenth m = true) → (∃ m ∈ msgs, Proposes m) → submitProposalFee = tenthFee) ∧
    ((∃ m ∈ msgs, Proposes m ∧ ¬Transfers m) → (∃ m ∈ msgs, Transfers m) →
      hundredthFee ≤ submitProposalFee)

instance (submitProposalFee : ℕ) (msgs : List Msg) : Decidable (FeesAgree submitProposalFee msgs) :=
  inferInstanceAs (Decidable (((∃ m ∈ msgs, _) → (∃ m ∈ msgs, Proposes m) → _) ∧
    ((∃ m ∈ msgs, Proposes m ∧ ¬Transfers m) → (∃ m ∈ msgs, Transfers m) → _)))

section Rounds
variable {p x : ℕ} {m : Msg}

theorem adjust_tenth (tenth : isTenth m = true) : adjustMinFee p x m = tenthFee := by
  simp [adjustMinFee, tenth]

theorem adjust_transfer (transfers : Transfers m) (low : x ≤ hundredthFee) :
    adjustMinFee p x m = hundredthFee := by
  simp [adjustMinFee, transfers.1, transfers.2, low]

theorem adjust_proposal (proposes : Proposes m) (skipped : ¬(Transfers m ∧ x ≤ hundredthFee)) :
    adjustMinFee p x m = p := by
  have other : ¬(isTransfer m = true ∧ x ≤ hundredthFee) :=
    fun both => skipped ⟨⟨proposes.1, both.1⟩, both.2⟩
  simp [adjustMinFee, proposes.1, proposes.2, other]

theorem adjust_other (tenth : isTenth m = false) (proposes : ¬Proposes m)
    (skipped : ¬(Transfers m ∧ x ≤ hundredthFee)) : adjustMinFee p x m = x := by
  have other : ¬(isTransfer m = true ∧ x ≤ hundredthFee) :=
    fun both => skipped ⟨⟨tenth, both.1⟩, both.2⟩
  have plain : isProposal m ≠ true := fun proposal => proposes ⟨tenth, proposal⟩
  simp [adjustMinFee, tenth, plain, other]

end Rounds

/-- The minimum that only looks at which kinds of messages there are. -/
def levelFee (p : ℕ) (msgs : List Msg) : ℕ :=
  if ∃ m ∈ msgs, isTenth m = true then tenthFee
  else if ∃ m ∈ msgs, Proposes m ∧ ¬Transfers m then p
  else if ∃ m ∈ msgs, Transfers m then hundredthFee
  else 0

theorem fees_apart : hundredthFee < tenthFee := by decide

theorem level_zero (p : ℕ) : levelFee p [] = 0 := by
  simp [levelFee]

theorem feesAgree_init {rest : List Msg} {m : Msg} (agree : FeesAgree p (rest ++ [m])) :
    FeesAgree p rest := by
  constructor
  · rintro ⟨a, first, tenth⟩ ⟨b, second, proposes⟩
    exact agree.1 ⟨a, by simp [first], tenth⟩ ⟨b, by simp [second], proposes⟩
  · rintro ⟨a, first, proposes⟩ ⟨b, second, transfers⟩
    exact agree.2 ⟨a, by simp [first], proposes⟩ ⟨b, by simp [second], transfers⟩

theorem level_step {rest : List Msg} {m : Msg} (agree : FeesAgree p (rest ++ [m])) :
    levelFee p (rest ++ [m]) = adjustMinFee p (levelFee p rest) m := by
  have apart := fees_apart
  obtain ⟨equal, above⟩ := agree
  simp only [List.mem_append, List.mem_singleton, or_and_right, exists_or, exists_eq_left] at equal above
  unfold levelFee
  simp only [List.mem_append, List.mem_singleton, or_and_right, exists_or, exists_eq_left]
  by_cases tenth : isTenth m = true
  · rw [adjust_tenth tenth, if_pos (Or.inr tenth)]
  · have plain : isTenth m = false := by simpa using tenth
    simp only [plain, Bool.false_eq_true, or_false] at equal ⊢
    -- what the minimum was before the last message: a tenth, the proposal fee, or at most a hundredth
    by_cases someTenth : ∃ a ∈ rest, isTenth a = true
    · simp only [someTenth, ↓reduceIte]
      by_cases proposes : Proposes m
      · rw [adjust_proposal proposes (by omega)]
        exact (equal someTenth (Or.inr proposes)).symm
      · rw [adjust_other plain proposes (by omega)]
    · simp only [someTenth, ↓reduceIte]
      by_cases someProposal : ∃ a ∈ rest, Proposes a ∧ ¬Transfers a
      · simp only [someProposal, true_or, ↓reduceIte]
        by_cases low : Transfers m ∧ p ≤ hundredthFee
        · rw [adjust_transfer low.1 low.2]
          have least := above (Or.inl someProposal) (Or.inr low.1)
          omega
        · by_cases proposes : Proposes m
          · rw [adjust_proposal proposes low]
          · rw [adjust_other plain proposes low]
      · simp only [someProposal, false_or, ↓reduceIte]
        have small : (if ∃ a ∈ rest, Transfers a then hundredthFee else 0) ≤ hundredthFee := by
          split <;> omega
        by_cases transfers : Transfers m
        · rw [adjust_transfer transfers small]
          simp [transfers]
        · by_cases proposes : Proposes m
          · rw [adjust_proposal proposes (fun both => transfers both.1)]
            simp [transfers, proposes]
          · rw [adjust_other plain proposes (fun both => transfers both.1)]
            simp [transfers, proposes]

theorem fold_level (agree : FeesAgree p msgs) :
    msgs.foldl (adjustMinFee p) 0 = levelFee p msgs := by
  induction msgs using List.reverseRecOn with
  | nil => exact (level_zero p).symm
  | append_singleton rest m ih =>
    rw [List.foldl_concat, ih (feesAgree_init agree)]
    exact (level_step agree).symm

theorem level_perm (p : ℕ) {other : List Msg} (same : other.Perm msgs) :
    levelFee p other = levelFee p msgs := by
  unfold levelFee
  simp only [same.mem_iff]

theorem single_perm {other : List Msg} (same : other.Perm msgs) :
    isSingleDispensation other = isSingleDispensation msgs := by
  match msgs with
  | [] => rw [List.perm_nil.mp same]
  | [m] => rw [List.perm_singleton.mp same]
  | a :: b :: rest =>
    match other with
    | [] => rfl
    | [m] =>
      have count := same.length_eq
      simp at count
    | _ :: _ :: _ => rfl

theorem alone_le_level (agree : FeesAgree p msgs) {m : Msg} (member : m ∈ msgs) :
    adjustMinFee p 0 m ≤ levelFee p msgs := by
  have apart := fees_apart
  unfold levelFee
  by_cases tenth : isTenth m = true
  · rw [adjust_tenth tenth, if_pos ⟨m, member, tenth⟩]
  · have plain : isTenth m = false := by simpa using tenth
    by_cases transfers : Transfers m
    · rw [adjust_transfer transfers (Nat.zero_le _)]
      split
      · omega
      · split
        · rename_i proposal
          exact agree.2 proposal ⟨m, member, transfers⟩
        · rw [if_pos ⟨m, member, transfers⟩]
    · by_cases proposes : Proposes m
      · rw [adjust_proposal proposes (fun both => transfers both.1)]
        split
        · rename_i someTenth
          exact (agree.1 someTenth ⟨m, member, proposes⟩).le
        · rw [if_pos ⟨m, member, proposes, transfers⟩]
      · rw [adjust_other plain proposes (fun both => transfers both.1)]
        exact Nat.zero_le _

/-- The minimum of a transaction is the same in every order and covers each message alone. -/
def FloorHolds (p : ℕ) (msgs : List Msg) : Prop :=
  (∀ other : List Msg, other.Perm msgs → minFee p other = minFee p msgs) ∧
    ∀ m ∈ msgs, minFee p [m] ≤ minFee p msgs

theorem floor_of_agreement (p : ℕ) (plain : isSingleDispensation msgs = false)
    (agree : FeesAgree p msgs) : FloorHolds p msgs := by
  have level : ∀ other : List Msg, other.Perm msgs → minFee p other = levelFee p msgs := by
    intro other same
    have agreed : FeesAgree p other := by
      unfold FeesAgree
      simp only [same.mem_iff]
      exact agree
    have single := single_perm same
    rw [minFee, single, plain, if_neg (by decide), fold_level agreed, level_perm p same]
  constructor
  · intro other same
    rw [level other same, level msgs (List.Perm.refl _)]
  · intro m member
    rw [level msgs (List.Perm.refl _), minFee]
    split
    · exact Nat.zero_le _
    · exact alone_le_level agree member

section Orders
variable {p : ℕ} {msgs : List Msg} {a b : Msg}

theorem last_two (first : a ∈ msgs) (second : b ∈ msgs) (different : a ≠ b) :
    ∃ rest : List Msg, (rest ++ [a, b]).Perm msgs ∧ (rest ++ [b, a]).Perm msgs := by
  have other : b ∈ msgs.erase a := (List.mem_erase_of_ne different.symm).mpr second
  refine ⟨(msgs.erase a).erase b, ?_, ?_⟩
  · have front : (a :: b :: (msgs.erase a).erase b).Perm msgs :=
      ((List.perm_cons_erase other).symm.cons a).trans (List.perm_cons_erase first).symm
    exact List.perm_append_comm.trans front
  · have front : (b :: a :: (msgs.erase a).erase b).Perm msgs :=
      (List.Perm.swap a b _).trans
        (((List.perm_cons_erase other).symm.cons a).trans (List.perm_cons_erase first).symm)
    exact List.perm_append_comm.trans front

theorem minFee_last_two (p : ℕ) (rest : List Msg) (a b : Msg) :
    minFee p (rest ++ [a, b]) =
      adjustMinFee p (adjustMinFee p (rest.foldl (adjustMinFee p) 0) a) b := by
  have several : isSingleDispensation (rest ++ [a, b]) = false := by
    match rest with
    | [] => rfl
    | [_] => rfl
    | _ :: _ :: _ => rfl
  rw [minFee, several, if_neg (by decide), List.foldl_append]
  rfl

theorem agreement_of_floor (p : ℕ) (msgs : List Msg) (holds : FloorHolds p msgs) : FeesAgree p msgs := by
  have apart := fees_apart
  obtain ⟨anyOrder, _⟩ := holds
  constructor
  · rintro ⟨a, first, tenth⟩ ⟨b, second, proposes⟩
    have different : a ≠ b := by
      intro same
      rw [same, proposes.1] at tenth
      cases tenth
    obtain ⟨rest, proposalLast, tenthLast⟩ := last_two first second different
    have same := (anyOrder _ proposalLast).trans (anyOrder _ tenthLast).symm
    rw [minFee_last_two, minFee_last_two, adjust_tenth tenth, adjust_tenth tenth,
      adjust_proposal proposes (by omega)] at same
    exact same
  · rintro ⟨a, first, proposes, still⟩ ⟨b, second, transfers⟩
    have different : a ≠ b := by
      intro same
      exact still (same ▸ transfers)
    obtain ⟨rest, transferLast, proposalLast⟩ := last_two first second different
    have same := (anyOrder _ transferLast).trans (anyOrder _ proposalLast).symm
    rw [minFee_last_two, minFee_last_two, adjust_proposal proposes (fun both => still both.1),
      adjust_proposal proposes (fun both => still both.1)] at same
    by_contra below
    rw [adjust_transfer transfers (by omega)] at same
    omega

end Orders

/-- The decorator enforces the minimum fee, and the minimum is the same in every order and at least
    what each message costs alone, exactly if the proposal fee is a tenth of a fury where a message of
    that price is next to a proposal, and at least a hundredth where a transfer is. -/
theorem fee_floor_iff (submitProposalFee : ℕ) (msgs : List Msg)
    (several : isSingleDispensation msgs = false) :
    (∀ coins, (anteHandle submitProposalFee msgs (some coins)).isOk = true ↔
      minFee submitProposalFee msgs ≤ furyFee coins) ∧
    (FloorHolds submitProposalFee msgs ↔ FeesAgree submitProposalFee msgs) :=
  ⟨anteHandle_enforces submitProposalFee msgs, agreement_of_floor submitProposalFee msgs,
    floor_of_agreement submitProposalFee several⟩

def sendMsg : Msg := ⟨"/cosmos.bank.v1beta1.MsgSend"⟩
def proposalMsg : Msg := ⟨"/cosmos.gov.v1beta1.MsgSubmitProposal"⟩
def transferMsg : Msg := ⟨"/ibc.applications.transfer.v1.MsgTransfer"⟩

/-- `defaultSubmitProposalFee`: 5000 fury. -/
def defaultSubmitProposalFee : ℕ := 5000 * 10 ^ 18

/-- At the default fee a proposal followed by a send costs a tenth of a fury, a proposal alone 5000. -/
theorem send_undercuts_proposal :
    isSingleDispensation [proposalMsg, sendMsg] = false ∧
      minFee defaultSubmitProposalFee [proposalMsg, sendMsg] = tenthFee ∧
      minFee defaultSubmitProposalFee [sendMsg, proposalMsg] = defaultSubmitProposalFee ∧
      minFee defaultSubmitProposalFee [proposalMsg] = defaultSubmitProposalFee ∧
      ¬FloorHolds defaultSubmitProposalFee [proposalMsg, sendMsg] := by
  have values : isSingleDispensation [proposalMsg, sendMsg] = false ∧
      minFee defaultSubmitProposalFee [proposalMsg, sendMsg] = tenthFee ∧
      minFee defaultSubmitProposalFee [sendMsg, proposalMsg] = defaultSubmitProposalFee ∧
      minFee defaultSubmitProposalFee [proposalMsg] = defaultSubmitProposalFee := by
    decide +kernel
  refine ⟨values.1, values.2.1, values.2.2.1, values.2.2.2, ?_⟩
  intro holds
  have covered := holds.2 proposalMsg (by simp)
  rw [values.2.1, values.2.2.2] at covered
  exact absurd covered (by decide)

/-- A proposal that costs a tenth of a fury may stand next to sends and transfers. -/
theorem level_fees_hold :
    FloorHolds tenthFee [proposalMsg, sendMsg, transferMsg] ∧
      minFee tenthFee [transferMsg, proposalMsg, sendMsg] = tenthFee :=
  ⟨((fee_floor_iff tenthFee [proposalMsg, sendMsg, transferMsg] rfl).2).mpr (by decide +kernel),
    by decide +kernel⟩

end FeeFloor
end FuryNode
