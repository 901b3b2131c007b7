import Mathlib.Tactic.Common

/-!
Runs of a machine over a list of events. What holds along a run may depend on the events
so far, and each event may be held to a condition on the state it finds.
-/
namespace EventRuns
variable {σ E : Type*} (step : E → σ → σ)

def run (events : List E) (s : σ) : σ := events.foldl (fun s e => step e s) s

def Guarded (condition : σ → E → Prop) : List E → σ → Prop
  | [], _ => True
  | e :: rest, s => condition s e ∧ Guarded condition rest (step e s)

instance Guarded.decide (condition : σ → E → Prop) [∀ s e, Decidable (condition s e)] :
    (events : List E) → (s : σ) → Decidable (Guarded step condition events s)
  | [], _ => inferInstanceAs (Decidable True)
  | e :: rest, s =>
      have := Guarded.decide condition rest (step e s)
      inferInstanceAs (Decidable (_ ∧ _))

theorem run_snoc (events : List E) (e : E) (s : σ) :
    run step (events ++ [e]) s = step e (run step events s) := by
  simp [run]

theorem run_append (events later : List E) (s : σ) :
    run step (events ++ later) s = run step later (run step events s) := by
  simp [run]

theorem guarded_append {condition : σ → E → Prop} {events later : List E} {s : σ} :
    Guarded step condition (events ++ later) s ↔
      Guarded step condition events s ∧ Guarded step condition later (run step events s) := by
  induction events generalizing s with
  | nil => simp [Guarded, run]
  | cons e rest ih =>
    rw [List.cons_append, Guarded, ih, Guarded, and_assoc]
    rfl

/-- An invariant of a run that may speak of the events so far. -/
theorem run_history (condition : σ → E → Prop) (s : σ) (I : List E → σ → Prop)
    (keeps : ∀ past e, condition (run step past s) e → I past (run step past s) →
      I (past ++ [e]) (step e (run step past s)))
    (events : List E) (guarded : Guarded step condition events s) (start : I [] s) :
    I events (run step events s) := by
  -- the induction is on the events to come; those before them are carried along
  have suffix : ∀ rest past, Guarded step condition rest (run step past s) →
      I past (run step past s) → I (past ++ rest) (run step (past ++ rest) s) := by
    intro rest
    induction rest with
    | nil =>
      intro past _ now
      simpa using now
    | cons e rest ih =>
      intro past met now
      have next := keeps past e met.1 now
      rw [← run_snoc step past e s] at next
      have after : Guarded step condition rest (run step (past ++ [e]) s) := by
        rw [run_snoc]
        exact met.2
      simpa using ih (past ++ [e]) after next
  exact suffix events [] guarded start

theorem run_preserves (condition : σ → E → Prop) (I : σ → Prop)
    (keeps : ∀ s e, condition s e → I s → I (step e s)) (events : List E) (s : σ)
    (guarded : Guarded step condition events s) (start : I s) : I (run step events s) :=
  run_history step condition s (fun _ => I) (fun _ e met now => keeps _ e met now) events guarded start

/-- Where each event, under its condition, keeps the invariant and has a property, the invariant
    and the property hold at every event of the run. -/
theorem guarded_invariant (condition property : σ → E → Prop) (I : σ → Prop)
    (keeps : ∀ s e, condition s e → I s → property s e ∧ I (step e s)) (events : List E) (s : σ)
    (guarded : Guarded step condition events s) (start : I s) :
    Guarded step (fun s e => I s ∧ property s e) events s ∧ I (run step events s) := by
  induction events generalizing s with
  | nil => exact ⟨trivial, start⟩
  | cons e rest ih =>
    obtain ⟨now, next⟩ := keeps s e guarded.1 start
    obtain ⟨later, last⟩ := ih (step e s) guarded.2 next
    exact ⟨⟨⟨start, now⟩, later⟩, last⟩

theorem guarded_mono (condition property : σ → E → Prop)
    (weaker : ∀ s e, condition s e → property s e) (events : List E) (s : σ)
    (guarded : Guarded step condition events s) : Guarded step property events s := by
  induction events generalizing s with
  | nil => trivial
  | cons e rest ih => exact ⟨weaker s e guarded.1, ih _ guarded.2⟩

theorem guarded_all (condition : E → Prop) (events : List E) (s : σ)
    (all : ∀ e ∈ events, condition e) : Guarded step (fun _ => condition) events s := by
  induction events generalizing s with
  | nil => trivial
  | cons e rest ih => exact ⟨all e (by simp), ih _ (fun d member => all d (by simp [member]))⟩

section Outputs
variable {τ : Type*} [DecidableEq τ] (emit : E → σ → Option τ)

def outputs : List E → σ → List τ
  | [], _ => []
  | e :: rest, s => (emit e s).toList ++ outputs rest (step e s)

theorem outputs_snoc (events : List E) (e : E) (s : σ) :
    outputs step emit (events ++ [e]) s =
      outputs step emit events s ++ (emit e (run step events s)).toList := by
  induction events generalizing s with
  | nil => simp [outputs, run]
  | cons d rest ih =>
    rw [List.cons_append, outputs, ih, outputs, List.append_assoc]
    rfl

theorem outputs_source (events : List E) (s : σ) (x : τ) (member : x ∈ outputs step emit events s) :
    ∃ e ∈ events, ∃ t, emit e t = some x := by
  induction events generalizing s with
  | nil => cases member
  | cons e rest ih =>
    rcases List.mem_append.mp member with now | later
    · exact ⟨e, by simp, s, by simpa using now⟩
    · obtain ⟨d, inside, t, made⟩ := ih _ later
      exact ⟨d, by simp [inside], t, made⟩

/-- An output that is made only when it is not done yet, and done from then on, is made once. -/
theorem outputs_once (condition : σ → E → Prop) (x : τ) (done : σ → Prop)
    (made : ∀ s e, condition s e → emit e s = some x → ¬done s ∧ done (step e s))
    (stays : ∀ s e, condition s e → done s → done (step e s)) (events : List E) (s : σ)
    (guarded : Guarded step condition events s) :
    (outputs step emit events s).count x ≤ 1 ∧ (done s → (outputs step emit events s).count x = 0) := by
  induction events generalizing s with
  | nil => simp [outputs]
  | cons e rest ih =>
    obtain ⟨once, never⟩ := ih (step e s) guarded.2
    rw [outputs, List.count_append]
    by_cases now : emit e s = some x
    · obtain ⟨fresh, after⟩ := made s e guarded.1 now
      have none := never after
      constructor
      · simp [now, none]
      · intro already
        exact absurd already fresh
    · have silent : (emit e s).toList.count x = 0 := by
        rw [List.count_eq_zero]
        simpa using now
      constructor
      · omega
      · intro already
        have none := never (stays s e guarded.1 already)
        omega

end Outputs
end EventRuns
