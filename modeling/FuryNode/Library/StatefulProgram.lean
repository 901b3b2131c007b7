import Mathlib.Tactic.Common

/-!
Programs over one mutable state that may stop early. A failure does not undo
the writes made before it: whoever runs the program decides whether to keep
them (`attempt`) or to throw them away (`transact`). Success and failure of a
sequence are inverted once here, so that a caller never unfolds the sequence.
-/
namespace StatefulProgram
variable {σ τ ε α β γ : Type}

structure Prog (σ ε α : Type) where
  run : σ → Except ε α × σ

instance : Monad (Prog σ ε) where
  pure a := ⟨fun s => (.ok a, s)⟩
  bind x f := ⟨fun s => match x.run s with
    | (.ok a, r) => (f a).run r
    | (.error e, r) => (.error e, r)⟩

namespace Prog

def fail (e : ε) : Prog σ ε α := ⟨fun s => (.error e, s)⟩
def read : Prog σ ε σ := ⟨fun s => (.ok s, s)⟩
def modify (f : σ → σ) : Prog σ ε Unit := ⟨fun s => (.ok (), f s)⟩
def ofExcept (x : Except ε α) : Prog σ ε α := ⟨fun s => (x, s)⟩
def require (c : Prop) [Decidable c] (e : ε) : Prog σ ε Unit := if c then pure () else fail e

def when (c : Prop) [Decidable c] (p : Prog σ ε Unit) : Prog σ ε Unit := if c then p else pure ()

def attempt (p : Prog σ ε α) : Prog σ ε (Except ε α) := ⟨fun s => (.ok (p.run s).1, (p.run s).2)⟩

def zoom (get : τ → σ) (set : σ → τ → τ) (p : Prog σ ε α) : Prog τ ε α :=
  ⟨fun t => ((p.run (get t)).1, set (p.run (get t)).2 t)⟩

def transact (p : Prog σ ε α) (s : σ) : σ :=
  match p.run s with
  | (.ok _, t) => t
  | (.error _, _) => s

def forEach (f : α → Prog σ ε Unit) : List α → Prog σ ε Unit
  | [] => pure ()
  | a :: rest => f a >>= fun _ => forEach f rest

def accumulate (f : γ → α → Prog σ ε γ) : γ → List α → Prog σ ε γ
  | c, [] => pure c
  | c, a :: rest => f c a >>= fun next => accumulate f next rest

end Prog
open Prog

def mapFailure (f : ε → ε) : Except ε α → Except ε α
  | .ok a => .ok a
  | .error e => .error (f e)

def check (c : Prop) [Decidable c] (e : ε) : Except ε Unit := if c then .ok () else .error e

variable {c : Prop} {e : ε} {u : Unit} {f : α → Prog σ ε β} {x : Except ε α} {a : α} {b : β}
  {s t : σ} {p : Prog σ ε α} {g : σ → σ}

theorem check_succeeds [Decidable c] : check c e = .ok u ↔ c := by
  unfold check
  split <;> simp_all

theorem mapFailure_succeeds {f : ε → ε} : mapFailure f x = .ok a ↔ x = .ok a := by
  cases x <;> simp [mapFailure]

theorem except_bind_succeeds {f : α → Except ε β} :
    (x >>= f) = .ok b ↔ ∃ a, x = .ok a ∧ f a = .ok b := by
  cases x <;> simp [bind, Except.bind]

theorem except_pure_succeeds {b : α} : (pure a : Except ε α) = .ok b ↔ a = b := by
  simp [pure, Except.pure]

instance decidableReturns (P : α → Prop) [DecidablePred P] : (x : Except ε α) → Decidable (∃ a, x = .ok a ∧ P a)
  | .ok a => decidable_of_iff (P a) (by simp)
  | .error _ => isFalse (by simp)

theorem forM_succeeds {f : α → Except ε Unit} {xs : List α} (run : xs.forM f = .ok ()) :
    ∀ x ∈ xs, f x = .ok () := by
  induction xs with
  | nil => nofun
  | cons x rest ih =>
    obtain ⟨_, first, later⟩ := except_bind_succeeds.mp run
    intro y member
    rcases List.mem_cons.mp member with rfl | inside
    · exact first
    · exact ih later y inside

theorem mapM_succeeds (f : α → Except ε β) (xs : List α) (ys : List β)
    (run : xs.mapM f = .ok ys) :
    (∀ x ∈ xs, ∃ y ∈ ys, f x = .ok y) ∧ ∀ y ∈ ys, ∃ x ∈ xs, f x = .ok y := by
  induction xs generalizing ys with
  | nil =>
    cases run
    exact ⟨nofun, nofun⟩
  | cons x rest ih =>
    rw [List.mapM_cons] at run
    obtain ⟨y, first, later⟩ := except_bind_succeeds.mp run
    obtain ⟨zs, mapped, last⟩ := except_bind_succeeds.mp later
    cases last
    obtain ⟨images, sources⟩ := ih zs mapped
    constructor
    · intro z member
      rcases List.mem_cons.mp member with rfl | inside
      · exact ⟨y, by simp, first⟩
      · obtain ⟨w, found, image⟩ := images z inside
        exact ⟨w, by simp [found], image⟩
    · intro z member
      rcases List.mem_cons.mp member with rfl | inside
      · exact ⟨x, by simp, first⟩
      · obtain ⟨w, found, image⟩ := sources z inside
        exact ⟨w, by simp [found], image⟩

theorem bind_succeeds (x : Prog σ ε α) (f : α → Prog σ ε β) (s t : σ) (b : β) :
    (x >>= f).run s = (.ok b, t) ↔ ∃ a r, x.run s = (.ok a, r) ∧ (f a).run r = (.ok b, t) := by
  simp only [bind]
  rcases x.run s with ⟨outcome, r⟩
  cases outcome with
  | error e => simp
  | ok a =>
    constructor
    · intro run
      exact ⟨a, r, rfl, run⟩
    · rintro ⟨a', r', same, run⟩
      cases same
      exact run

theorem bind_ok {x : Prog σ ε α} (run : (x >>= f).run s = (.ok b, t)) :
    ∃ a r, x.run s = (.ok a, r) ∧ (f a).run r = (.ok b, t) :=
  (bind_succeeds x f s t b).mp run

theorem bind_fails {x : Prog σ ε α} :
    (x >>= f).run s = (.error e, t) ↔
      x.run s = (.error e, t) ∨ ∃ a r, x.run s = (.ok a, r) ∧ (f a).run r = (.error e, t) := by
  simp only [bind]
  rcases x.run s with ⟨outcome, r⟩
  cases outcome with
  | error d => simp
  | ok a =>
    constructor
    · intro run
      exact Or.inr ⟨a, r, rfl, run⟩
    · rintro (first | ⟨a', r', same, run⟩)
      · cases first
      · cases same
        exact run

theorem run_of_returned (returned : (p.run s).1 = .ok a) :
    p.run s = (.ok a, (p.run s).2) := Prod.ext returned rfl

theorem pure_succeeds {b : α} : (pure a : Prog σ ε α).run s = (.ok b, t) ↔ a = b ∧ s = t := by
  simp [pure]

theorem fail_succeeds : (fail e : Prog σ ε α).run s = (.ok a, t) ↔ False := by
  simp [fail]

theorem read_succeeds (s t u : σ) :
    (read : Prog σ ε σ).run s = (.ok u, t) ↔ s = u ∧ s = t := by
  simp [Prog.read]

theorem modify_succeeds {f : σ → σ} : (modify f : Prog σ ε Unit).run s = (.ok u, t) ↔ f s = t := by
  simp [Prog.modify]

theorem ofExcept_succeeds : (ofExcept x).run s = (.ok a, t) ↔ x = .ok a ∧ s = t := by
  simp [Prog.ofExcept]

theorem require_succeeds [Decidable c] :
    (require c e : Prog σ ε Unit).run s = (.ok u, t) ↔ c ∧ s = t := by
  unfold require
  split <;> simp_all [pure, fail]

theorem read_then (f : σ → Prog σ ε β) (s t : σ) (b : β) :
    (Prog.read >>= f).run s = (.ok b, t) ↔ (f s).run s = (.ok b, t) := by
  simp [Prog.read, bind]

theorem ofExcept_then :
    (ofExcept x >>= f).run s = (.ok b, t) ↔ ∃ a, x = .ok a ∧ (f a).run s = (.ok b, t) := by
  cases x <;> simp [Prog.ofExcept, bind]

theorem sequence_assoc (x : Prog σ ε α) (f : α → Prog σ ε β) (g : β → Prog σ ε γ) :
    (x >>= f) >>= g = x >>= fun a => f a >>= g := by
  have runs : ∀ s, ((x >>= f) >>= g).run s = (x >>= fun a => f a >>= g).run s := by
    intro s
    simp only [bind]
    rcases x.run s with ⟨outcome, r⟩
    cases outcome with
    | ok a => rfl
    | error e => rfl
  exact congrArg Prog.mk (funext runs)

/-- The rest of a sequence is given as a program of its own: the kernel does not run it then. -/
theorem run_then {x : Prog σ ε α} {p : Prog σ ε β} (ran : x.run s = (.ok a, t)) (rest : f a = p) :
    (x >>= f).run s = p.run t := by
  simp only [bind, ran, rest]

theorem stop_then {x : Prog σ ε α} (ran : x.run s = (.error e, t)) :
    (x >>= f).run s = (.error e, t) := by
  simp only [bind, ran]

theorem pure_then (a : α) (f : α → Prog σ ε β) : (pure a >>= f) = f a := rfl

theorem ofExcept_bind (x : Except ε α) (g : α → Except ε β) (f : β → Prog σ ε γ) :
    (ofExcept (x >>= g) >>= f) = (ofExcept x >>= fun a => ofExcept (g a) >>= f) := by
  cases x <;> rfl

theorem ofExcept_ok_then (a : α) (f : α → Prog σ ε β) : (ofExcept (.ok a) >>= f) = f a := rfl

theorem require_then [Decidable c] {f : Unit → Prog σ ε β} :
    (require c e >>= f).run s = (.ok b, t) ↔ c ∧ (f ()).run s = (.ok b, t) := by
  unfold require
  split <;> simp_all [pure, fail, bind]

theorem modify_then {f : Unit → Prog σ ε β} :
    (modify g >>= f).run s = (.ok b, t) ↔ (f ()).run (g s) = (.ok b, t) := by
  simp [Prog.modify, bind]

theorem when_succeeds [Decidable c] {p : Prog σ ε Unit} :
    (when c p).run s = (.ok u, t) ↔ (c ∧ p.run s = (.ok u, t)) ∨ (¬c ∧ s = t) := by
  unfold when
  split <;> simp_all [pure]

theorem attempt_succeeds {outcome : Except ε α} :
    (attempt p).run s = (.ok outcome, t) ↔ p.run s = (outcome, t) := by
  simp [attempt, Prod.ext_iff]

theorem zoom_succeeds {get : τ → σ} {set : σ → τ → τ} {s t : τ} :
    (zoom get set p).run s = (.ok a, t) ↔ ∃ r, p.run (get s) = (.ok a, r) ∧ set r s = t := by
  simp only [zoom]
  rcases p.run (get s) with ⟨o, r⟩
  simp only [Prod.mk.injEq]
  constructor
  · rintro ⟨value, after⟩
    exact ⟨r, ⟨value, rfl⟩, after⟩
  · rintro ⟨r', ⟨value, same⟩, after⟩
    exact ⟨value, same ▸ after⟩

/-- A pure computation has no other failures than those of `E`. -/
def FailsOnly (x : Except ε α) (E : ε → Prop) : Prop := ∀ e, x = .error e → E e

section Failures
variable {E : ε → Prop}

@[simp] theorem failsOnly_ok : FailsOnly (.ok a : Except ε α) E := by
  intro e failed
  cases failed

@[simp] theorem failsOnly_pure (a : α) : FailsOnly (pure a : Except ε α) E := failsOnly_ok

@[simp] theorem failsOnly_error (e : ε) : FailsOnly (.error e : Except ε α) E ↔ E e := by
  simp [FailsOnly]

@[simp] theorem failsOnly_map (g : α → β) (x : Except ε α) : FailsOnly (g <$> x) E ↔ FailsOnly x E := by
  cases x <;> simp [Functor.map, Except.map]

@[simp] theorem failsOnly_exceptMap (g : α → β) (x : Except ε α) :
    FailsOnly (x.map g) E ↔ FailsOnly x E := failsOnly_map g x

@[simp] theorem failsOnly_bind_iff {f : α → Except ε β} :
    FailsOnly (x >>= f) E ↔ FailsOnly x E ∧ ∀ a, x = .ok a → FailsOnly (f a) E := by
  cases x <;> simp [bind, Except.bind]

@[simp] theorem failsOnly_ite_iff [Decidable c] {y : Except ε α} :
    FailsOnly (if c then x else y) E ↔ (c → FailsOnly x E) ∧ (¬c → FailsOnly y E) := by
  split <;> simp_all

@[simp] theorem failsOnly_check (c : Prop) [Decidable c] (e : ε) :
    FailsOnly (check c e) E ↔ (¬c → E e) := by
  simp [check]

theorem failsOnly_bind {f : α → Except ε β} (first : FailsOnly x E)
    (rest : ∀ a, x = .ok a → FailsOnly (f a) E) : FailsOnly (x >>= f) E :=
  failsOnly_bind_iff.mpr ⟨first, rest⟩

theorem failsOnly_mono {F : ε → Prop} (first : FailsOnly x E) (weaker : ∀ e, E e → F e) :
    FailsOnly x F :=
  fun e failed => weaker e (first e failed)

theorem failsOnly_ite [Decidable c] {y : Except ε α} (taken : c → FailsOnly x E)
    (skipped : ¬c → FailsOnly y E) : FailsOnly (if c then x else y) E :=
  failsOnly_ite_iff.mpr ⟨taken, skipped⟩

/-- A fold fails only where one of its rounds does. -/
theorem failsOnly_foldlM {f : γ → α → Except ε γ} {I : List α → γ → Prop} (xs : List α) (c : γ)
    (round : ∀ x rest d, I (x :: rest) d →
      FailsOnly (f d x) E ∧ ∀ next, f d x = .ok next → I rest next)
    (start : I xs c) : FailsOnly (xs.foldlM f c) E := by
  induction xs generalizing c with
  | nil => exact failsOnly_pure c
  | cons x rest ih =>
    rw [List.foldlM_cons]
    exact failsOnly_bind (round x rest c start).1
      (fun next computed => ih next ((round x rest c start).2 next computed))

/-- A fold that succeeds keeps the invariant of its rounds. -/
theorem foldlM_preserves {f : γ → α → Except ε γ} {I : List α → γ → Prop} (xs : List α) (c result : γ)
    (round : ∀ x rest d next, I (x :: rest) d → f d x = .ok next → I rest next)
    (start : I xs c) (computed : xs.foldlM f c = .ok result) : I [] result := by
  induction xs generalizing c with
  | nil =>
    cases except_pure_succeeds.mp computed
    exact start
  | cons x rest ih =>
    rw [List.foldlM_cons] at computed
    obtain ⟨next, first, later⟩ := except_bind_succeeds.mp computed
    exact ih next (round x rest c next start first) later

end Failures

/-- Every successful run from `s` ends in a value and a state that satisfy `Q`. -/
def Ensures (p : Prog σ ε α) (s : σ) (Q : α → σ → Prop) : Prop :=
  ∀ a t, p.run s = (.ok a, t) → Q a t

section Rules
variable {P : α → σ → Prop} {Q : β → σ → Prop} {s : σ}

theorem ensures_mono {P' : α → σ → Prop} (first : Ensures p s P) (weaker : ∀ a t, P a t → P' a t) :
    Ensures p s P' :=
  fun a t run => weaker a t (first a t run)

theorem ensures_bind (first : Ensures p s P) (rest : ∀ a r, P a r → Ensures (f a) r Q) :
    Ensures (p >>= f) s Q := by
  intro b t run
  obtain ⟨a, r, ran, later⟩ := (bind_succeeds p f s t b).mp run
  exact rest a r (first a r ran) b t later

theorem ensures_pure {a : β} (holds : Q a s) : Ensures (pure a : Prog σ ε β) s Q := by
  intro b t run
  obtain ⟨rfl, rfl⟩ := pure_succeeds.mp run
  exact holds

theorem ensures_fail : Ensures (fail e : Prog σ ε β) s Q :=
  fun _ _ run => (fail_succeeds.mp run).elim

theorem ensures_read_then {f : σ → Prog σ ε β} (rest : Ensures (f s) s Q) :
    Ensures (Prog.read >>= f) s Q :=
  fun b t run => rest b t ((read_then f s t b).mp run)

theorem ensures_ofExcept {x : Except ε β} (holds : ∀ a, x = .ok a → Q a s) :
    Ensures (ofExcept x) s Q := by
  intro a t run
  obtain ⟨computed, rfl⟩ := ofExcept_succeeds.mp run
  exact holds a computed

theorem ensures_ofExcept_then (rest : ∀ a, x = .ok a → Ensures (f a) s Q) :
    Ensures (ofExcept x >>= f) s Q := by
  intro b t run
  obtain ⟨a, computed, later⟩ := ofExcept_then.mp run
  exact rest a computed b t later

theorem ensures_require_then [Decidable c] {f : Unit → Prog σ ε β} (rest : c → Ensures (f ()) s Q) :
    Ensures (require c e >>= f) s Q := by
  intro b t run
  obtain ⟨holds, later⟩ := require_then.mp run
  exact rest holds b t later

theorem ensures_modify {g : σ → σ} {Q : Unit → σ → Prop} (holds : Q () (g s)) :
    Ensures (modify g : Prog σ ε Unit) s Q := by
  intro u t run
  obtain rfl := modify_succeeds.mp run
  exact holds

theorem ensures_when {c : Prop} [Decidable c] {p : Prog σ ε Unit} {Q : Unit → σ → Prop}
    (taken : c → Ensures p s Q) (skipped : ¬c → Q () s) : Ensures (when c p) s Q := by
  intro u t run
  rcases when_succeeds.mp run with ⟨holds, ran⟩ | ⟨fails, rfl⟩
  · exact taken holds u t ran
  · exact skipped fails

theorem ensures_ite [Decidable c] {p q : Prog σ ε β} (taken : c → Ensures p s Q)
    (skipped : ¬c → Ensures q s Q) : Ensures (if c then p else q) s Q := by
  split
  · rename_i holds
    exact taken holds
  · rename_i fails
    exact skipped fails

end Rules

/-- Whatever the outcome of the run from `s` is: a value with its state satisfies `Q`, a
    failure with its state satisfies `E`. -/
structure Meets (p : Prog σ ε α) (s : σ) (Q : α → σ → Prop) (E : ε → σ → Prop) : Prop where
  ok : ∀ a t, p.run s = (.ok a, t) → Q a t
  error : ∀ e t, p.run s = (.error e, t) → E e t

section Outcomes
variable {P : α → σ → Prop} {Q : β → σ → Prop} {E : ε → σ → Prop} {s : σ}

theorem meets_mono (p : Prog σ ε α) {P' : α → σ → Prop} {E' : ε → σ → Prop}
    (first : Meets p s P E) (weaker : ∀ a t, P a t → P' a t) (failing : ∀ e t, E e t → E' e t) :
    Meets p s P' E' :=
  ⟨fun a t run => weaker a t (first.ok a t run), fun e t run => failing e t (first.error e t run)⟩

theorem meets_and {P' : α → σ → Prop} {E' : ε → σ → Prop} (first : Meets p s P E)
    (second : Meets p s P' E') :
    Meets p s (fun a t => P a t ∧ P' a t) (fun e t => E e t ∧ E' e t) :=
  ⟨fun a t run => ⟨first.ok a t run, second.ok a t run⟩,
    fun e t run => ⟨first.error e t run, second.error e t run⟩⟩

theorem meets_bind (first : Meets p s P E) (rest : ∀ a r, P a r → Meets (f a) r Q E) :
    Meets (p >>= f) s Q E := by
  constructor
  · intro b t run
    obtain ⟨a, r, ran, later⟩ := (bind_succeeds p f s t b).mp run
    exact (rest a r (first.ok a r ran)).ok b t later
  · intro e t run
    rcases bind_fails.mp run with early | ⟨a, r, ran, later⟩
    · exact first.error e t early
    · exact (rest a r (first.ok a r ran)).error e t later

theorem meets_pure {a : β} (holds : Q a s) : Meets (pure a : Prog σ ε β) s Q E := by
  constructor
  · intro b t run
    obtain ⟨rfl, rfl⟩ := pure_succeeds.mp run
    exact holds
  · intro e t run
    simp [pure] at run

theorem meets_fail (fails : E e s) : Meets (fail e : Prog σ ε β) s Q E := by
  constructor
  · intro b t run
    exact (fail_succeeds.mp run).elim
  · intro d t run
    simp only [fail, Prod.mk.injEq, Except.error.injEq] at run
    exact run.1 ▸ run.2 ▸ fails

theorem meets_of_run {p : Prog σ ε β} (run : p.run s = (.ok b, t)) (holds : Q b t) :
    Meets p s Q E := by
  constructor
  · intro b' t' again
    rw [run] at again
    cases again
    exact holds
  · intro e t' failed
    rw [run] at failed
    cases failed

theorem meets_read_then {f : σ → Prog σ ε β} (rest : Meets (f s) s Q E) :
    Meets (Prog.read >>= f) s Q E :=
  ⟨rest.ok, rest.error⟩

theorem meets_ofExcept {x : Except ε β} (holds : ∀ a, x = .ok a → Q a s)
    (fails : ∀ e, x = .error e → E e s) : Meets (ofExcept x) s Q E := by
  cases x with
  | ok a => exact meets_pure (holds a rfl)
  | error e => exact meets_fail (fails e rfl)

theorem meets_ofExcept_then (rest : ∀ a, x = .ok a → Meets (f a) s Q E)
    (fails : ∀ e, x = .error e → E e s) : Meets (ofExcept x >>= f) s Q E :=
  meets_bind (P := fun a t => x = .ok a ∧ s = t)
    (meets_ofExcept (fun _ computed => ⟨computed, rfl⟩) fails)
    (fun a _ same => same.2 ▸ rest a same.1)

theorem meets_require {c : Prop} [Decidable c] {e : ε} {Q : Unit → σ → Prop} (holds : c → Q () s)
    (fails : ¬c → E e s) : Meets (require c e : Prog σ ε Unit) s Q E := by
  unfold require
  split
  · rename_i taken
    exact meets_pure (holds taken)
  · rename_i refused
    exact meets_fail (fails refused)

theorem meets_require_then {c : Prop} [Decidable c] {e : ε} {f : Unit → Prog σ ε β}
    (rest : c → Meets (f ()) s Q E) (fails : ¬c → E e s) : Meets (require c e >>= f) s Q E :=
  meets_bind (P := fun _ t => c ∧ s = t) (meets_require (fun holds => ⟨holds, rfl⟩) fails)
    (fun _ _ same => same.2 ▸ rest same.1)

theorem meets_modify {g : σ → σ} {Q : Unit → σ → Prop} (holds : Q () (g s)) :
    Meets (modify g : Prog σ ε Unit) s Q E := by
  constructor
  · intro u t run
    obtain rfl := modify_succeeds.mp run
    exact holds
  · intro e t run
    simp [Prog.modify] at run

theorem meets_modify_then {f : Unit → Prog σ ε β} (rest : Meets (f ()) (g s) Q E) :
    Meets (modify g >>= f) s Q E :=
  ⟨rest.ok, rest.error⟩

theorem meets_ite [Decidable c] {p q : Prog σ ε β} (taken : c → Meets p s Q E)
    (skipped : ¬c → Meets q s Q E) : Meets (if c then p else q) s Q E := by
  split
  · rename_i holds
    exact taken holds
  · rename_i fails
    exact skipped fails

theorem meets_when {c : Prop} [Decidable c] {p : Prog σ ε Unit} {Q : Unit → σ → Prop}
    (taken : c → Meets p s Q E) (skipped : ¬c → Q () s) : Meets (when c p) s Q E :=
  meets_ite taken (fun fails => meets_pure (skipped fails))

theorem meets_attempt {Q : Except ε α → σ → Prop}
    (inner : Meets p s (fun a => Q (.ok a)) (fun e => Q (.error e))) : Meets (attempt p) s Q E := by
  constructor
  · intro outcome t run
    have ran := attempt_succeeds.mp run
    cases outcome with
    | ok a => exact inner.ok a t ran
    | error e => exact inner.error e t ran
  · intro e t run
    simp [attempt] at run

theorem meets_run (run : p.run s = (.ok a, t)) (holds : P a t) : Meets p s P E := by
  constructor
  · intro b u ran
    cases run.symm.trans ran
    exact holds
  · intro e u ran
    cases run.symm.trans ran

theorem meets_zoom {get : τ → σ} {set : σ → τ → τ} {t : τ} {Q : α → τ → Prop} {E : ε → τ → Prop}
    (inner : Meets p (get t) (fun a r => Q a (set r t)) (fun e r => E e (set r t))) :
    Meets (zoom get set p) t Q E := by
  constructor
  · intro a u run
    obtain ⟨r, ran, same⟩ := zoom_succeeds.mp run
    exact same ▸ inner.ok a r ran
  · intro e u run
    simp only [zoom, Prod.mk.injEq] at run
    exact run.2 ▸ inner.error e _ (Prod.ext run.1 rfl)

theorem meets_forEach {I : σ → Prop} (f : α → Prog σ ε Unit) {xs : List α}
    (round : ∀ x ∈ xs, ∀ t, I t → Meets (f x) t (fun _ => I) E) (start : I s) :
    Meets (forEach f xs) s (fun _ => I) E := by
  induction xs generalizing s with
  | nil => exact meets_pure start
  | cons x rest ih =>
    exact meets_bind (round x (by simp) s start)
      (fun _ r kept => ih (fun y member => round y (by simp [member])) kept)

/-- The invariant of an accumulating loop may speak of the rounds that are left. -/
theorem meets_accumulate {I : List α → γ → σ → Prop} (f : γ → α → Prog σ ε γ) (xs : List α) (c : γ)
    (round : ∀ x rest d t, I (x :: rest) d t → Meets (f d x) t (I rest) E) (start : I xs c s) :
    Meets (accumulate f c xs) s (I []) E := by
  induction xs generalizing c s with
  | nil => exact meets_pure start
  | cons x rest ih => exact meets_bind (round x rest c s start) (fun d r kept => ih d kept)

end Outcomes

/-- A run from `s` has no other failures than those of `E`. -/
def Fails (p : Prog σ ε α) (s : σ) (E : ε → Prop) : Prop := ∀ e t, p.run s = (.error e, t) → E e

section FailureRules
variable {E : ε → Prop} {s : σ}

theorem fails_bind (first : Fails p s E) (rest : ∀ a r, p.run s = (.ok a, r) → Fails (f a) r E) :
    Fails (p >>= f) s E := by
  intro e t run
  rcases bind_fails.mp run with early | ⟨a, r, ran, later⟩
  · exact first e t early
  · exact rest a r ran e t later

@[simp low] theorem fails_bind_iff (p : Prog σ ε α) (f : α → Prog σ ε β) :
    Fails (p >>= f) s E ↔ Fails p s E ∧ ∀ a r, p.run s = (.ok a, r) → Fails (f a) r E := by
  constructor
  · intro fails
    exact ⟨fun e t run => fails e t (bind_fails.mpr (Or.inl run)),
      fun a r ran e t run => fails e t (bind_fails.mpr (Or.inr ⟨a, r, ran, run⟩))⟩
  · intro both
    exact fails_bind both.1 both.2

@[simp] theorem fails_pure : Fails (pure a : Prog σ ε α) s E := by
  intro e t run
  simp [pure] at run

@[simp] theorem fails_fail_iff (e : ε) : Fails (fail e : Prog σ ε α) s E ↔ E e := by
  simp [Fails, fail]

theorem fails_fail (admitted : E e) : Fails (fail e : Prog σ ε α) s E :=
  (fails_fail_iff e).mpr admitted

@[simp] theorem fails_read : Fails (Prog.read : Prog σ ε σ) s E := by
  intro e t run
  simp [Prog.read] at run

@[simp] theorem fails_modify : Fails (modify g : Prog σ ε Unit) s E := by
  intro e t run
  simp [Prog.modify] at run

theorem fails_read_then {f : σ → Prog σ ε β} (rest : Fails (f s) s E) :
    Fails (Prog.read >>= f) s E := rest

theorem fails_modify_then {f : Unit → Prog σ ε β} (rest : Fails (f ()) (g s) E) :
    Fails (modify g >>= f) s E := rest

@[simp] theorem fails_read_bind (f : σ → Prog σ ε β) :
    Fails (Prog.read >>= f) s E ↔ Fails (f s) s E := Iff.rfl

@[simp] theorem fails_modify_bind (g : σ → σ) (f : Unit → Prog σ ε β) :
    Fails (modify g >>= f) s E ↔ Fails (f ()) (g s) E := Iff.rfl

@[simp] theorem fails_ofExcept_iff (x : Except ε α) : Fails (ofExcept x) s E ↔ FailsOnly x E := by
  simp [Fails, FailsOnly, Prog.ofExcept]

@[simp] theorem fails_ofExcept_bind :
    Fails (ofExcept x >>= f) s E ↔ FailsOnly x E ∧ ∀ a, x = .ok a → Fails (f a) s E := by
  cases x <;> simp [Fails, FailsOnly, Prog.ofExcept, bind, eq_comm]

@[simp] theorem fails_ite_iff (c : Prop) [Decidable c] (p q : Prog σ ε α) :
    Fails (if c then p else q) s E ↔ (c → Fails p s E) ∧ (¬c → Fails q s E) := by
  split <;> simp_all

@[simp] theorem fails_require_iff [Decidable c] :
    Fails (require c e : Prog σ ε Unit) s E ↔ (¬c → E e) := by
  simp [require]

@[simp] theorem fails_require_bind [Decidable c] {f : Unit → Prog σ ε β} :
    Fails (require c e >>= f) s E ↔ (¬c → E e) ∧ (c → Fails (f ()) s E) := by
  by_cases holds : c <;> simp [Fails, require, holds, bind, pure, fail, eq_comm]

@[simp] theorem fails_when_iff [Decidable c] {p : Prog σ ε Unit} :
    Fails (when c p) s E ↔ (c → Fails p s E) := by
  simp [when]

theorem fails_ofExcept (only : FailsOnly x E) : Fails (ofExcept x) s E :=
  (fails_ofExcept_iff x).mpr only

theorem fails_ofExcept_then (only : FailsOnly x E) (rest : ∀ a, x = .ok a → Fails (f a) s E) :
    Fails (ofExcept x >>= f) s E :=
  fails_ofExcept_bind.mpr ⟨only, rest⟩

theorem fails_require [Decidable c] (admitted : E e) : Fails (require c e : Prog σ ε Unit) s E :=
  fails_require_iff.mpr (fun _ => admitted)

theorem fails_require_then [Decidable c] {f : Unit → Prog σ ε β} (admitted : E e)
    (rest : c → Fails (f ()) s E) : Fails (require c e >>= f) s E :=
  fails_require_bind.mpr ⟨fun _ => admitted, rest⟩

theorem fails_when [Decidable c] {p : Prog σ ε Unit} (taken : c → Fails p s E) :
    Fails (when c p) s E :=
  fails_when_iff.mpr taken

theorem fails_zoom {get : τ → σ} {set : σ → τ → τ} {t : τ} (inner : Fails p (get t) E) :
    Fails (zoom get set p) t E := by
  intro e u run
  simp only [zoom, Prod.mk.injEq] at run
  exact inner e _ (Prod.ext run.1 rfl)

end FailureRules

def Preserves (obs : σ → τ) (p : Prog σ ε α) : Prop := ∀ s, obs (p.run s).2 = obs s

section Observations
variable {obs : σ → τ}

@[simp, grind ←] theorem preserves_pure (a : α) : Preserves obs (pure a : Prog σ ε α) := fun _ => rfl

@[simp, grind ←] theorem preserves_fail : Preserves obs (fail e : Prog σ ε α) := fun _ => rfl

@[simp, grind ←] theorem preserves_read : Preserves obs (Prog.read : Prog σ ε σ) := fun _ => rfl

@[simp, grind ←] theorem preserves_ofExcept : Preserves obs (ofExcept x) := fun _ => rfl

@[simp, grind ←] theorem preserves_require [Decidable c] :
    Preserves obs (require c e : Prog σ ε Unit) := by
  unfold require
  split
  · exact preserves_pure ()
  · exact preserves_fail

theorem preserves_modify (same : ∀ s, obs (g s) = obs s) :
    Preserves obs (modify g : Prog σ ε Unit) := same

@[grind ←] theorem preserves_bind (first : Preserves obs p) (rest : ∀ a, Preserves obs (f a)) :
    Preserves obs (p >>= f) := by
  intro s
  have kept := first s
  simp only [bind]
  rcases run : p.run s with ⟨outcome, r⟩
  rw [run] at kept
  cases outcome with
  | error e => exact kept
  | ok a => exact (rest a r).trans kept

theorem preserves_read_then {f : σ → Prog σ ε β} (rest : ∀ s, Preserves obs (f s)) :
    Preserves obs (Prog.read >>= f) := preserves_bind preserves_read rest

theorem preserves_ofExcept_then (rest : ∀ a, Preserves obs (f a)) :
    Preserves obs (ofExcept x >>= f) := preserves_bind preserves_ofExcept rest

theorem preserves_require_then [Decidable c] {f : Unit → Prog σ ε β}
    (rest : ∀ u, Preserves obs (f u)) : Preserves obs (require c e >>= f) :=
  preserves_bind preserves_require rest

theorem preserves_ite [Decidable c] {q : Prog σ ε α} (taken : Preserves obs p)
    (otherwise : Preserves obs q) : Preserves obs (if c then p else q) := by
  split
  · exact taken
  · exact otherwise

@[grind ←] theorem preserves_when [Decidable c] {p : Prog σ ε Unit} (taken : Preserves obs p) :
    Preserves obs (when c p) :=
  preserves_ite taken (preserves_pure ())

theorem preserves_attempt (inner : Preserves obs p) :
    Preserves obs (attempt p) := inner

@[grind ←] theorem preserves_forEach {f : α → Prog σ ε Unit} (rounds : ∀ a, Preserves obs (f a)) {xs : List α} :
    Preserves obs (forEach f xs) := by
  induction xs with
  | nil => exact preserves_pure ()
  | cons a rest ih => exact preserves_bind (rounds a) (fun _ => ih)

@[grind ←] theorem preserves_accumulate {f : γ → α → Prog σ ε γ} (rounds : ∀ c a, Preserves obs (f c a))
    (xs : List α) (c : γ) : Preserves obs (accumulate f c xs) := by
  induction xs generalizing c with
  | nil => exact preserves_pure c
  | cons a rest ih => exact preserves_bind (rounds c a) ih

/-- An observation that a program preserves, however it ends. -/
theorem Preserves.meets (same : Preserves obs p) (s : σ) :
    Meets p s (fun _ t => obs t = obs s) (fun _ t => obs t = obs s) :=
  ⟨fun _ _ run => by rw [← same s, run], fun _ _ run => by rw [← same s, run]⟩

theorem preserves_transact (inner : Preserves obs p) (s : σ) : obs (transact p s) = obs s := by
  have kept := inner s
  unfold transact
  rcases run : p.run s with ⟨outcome, r⟩
  rw [run] at kept
  cases outcome with
  | ok a => exact kept
  | error e => rfl

end Observations

/-- Whatever happens, an invariant that held before holds after. -/
def Maintains (I : σ → Prop) (p : Prog σ ε α) : Prop := ∀ s, I s → I (p.run s).2

section Invariants
variable {I : σ → Prop}

theorem maintains_of_preserves (same : Preserves I p) : Maintains I p :=
  fun s now => (same s).mpr now

theorem maintains_of_meets (meets : ∀ s, I s → Meets p s (fun _ => I) (fun _ => I)) :
    Maintains I p := by
  intro s now
  rcases run : p.run s with ⟨outcome, r⟩
  cases outcome with
  | ok a => exact (meets s now).ok a r run
  | error e => exact (meets s now).error e r run

theorem maintains_bind (first : Maintains I p) (rest : ∀ a, Maintains I (f a)) :
    Maintains I (p >>= f) := by
  intro s now
  have kept := first s now
  simp only [bind]
  rcases run : p.run s with ⟨outcome, r⟩
  rw [run] at kept
  cases outcome with
  | error e => exact kept
  | ok a => exact rest a r kept

@[grind ←] theorem maintains_then (first : Preserves I p) (rest : ∀ a, Maintains I (f a)) :
    Maintains I (p >>= f) :=
  maintains_bind (maintains_of_preserves first) rest

theorem maintains_modify (holds : ∀ s, I s → I (g s)) :
    Maintains I (modify g : Prog σ ε Unit) := holds

theorem maintains_zoom (get : τ → σ) (set : σ → τ → τ) (inner : Maintains I p)
    (stored : ∀ s t, get (set s t) = s) : Maintains (fun t => I (get t)) (zoom get set p) := by
  intro t now
  have kept := inner (get t) now
  simp only [zoom, stored]
  exact kept

@[grind ←] theorem maintains_when [Decidable c] {p : Prog σ ε Unit} (taken : Maintains I p) :
    Maintains I (when c p) := by
  unfold when
  split
  · exact taken
  · exact maintains_of_preserves (preserves_pure ())

theorem maintains_transact (inner : Maintains I p) (now : I s) : I (transact p s) := by
  have kept := inner s now
  unfold transact
  rcases run : p.run s with ⟨outcome, r⟩
  rw [run] at kept
  cases outcome with
  | ok a => exact kept
  | error e => exact now

end Invariants

theorem transact_ok (run : p.run s = (.ok a, t)) : transact p s = t := by
  simp only [transact, run]

theorem transact_error (run : p.run s = (.error e, t)) : transact p s = s := by
  simp only [transact, run]

theorem transact_cases (p : Prog σ ε α) (s : σ) :
    transact p s = s ∨ ∃ a, p.run s = (.ok a, transact p s) := by
  unfold transact
  rcases p.run s with ⟨outcome, r⟩
  cases outcome with
  | ok a => exact Or.inr ⟨a, rfl⟩
  | error e => exact Or.inl rfl

theorem transact_preserves (I : σ → Prop) (p : Prog σ ε α) (s : σ)
    (keeps : ∀ a t, p.run s = (.ok a, t) → I t) (start : I s) : I (transact p s) := by
  rcases transact_cases p s with same | ⟨a, run⟩
  · exact same.symm ▸ start
  · exact keeps a _ run

section Rounds
variable (f : α → Prog σ ε Unit)

def EachRound (P : α → σ → Prop) : List α → σ → Prop
  | [], _ => True
  | a :: rest, s => P a s ∧ (((f a).run s).1.isOk = true → EachRound P rest ((f a).run s).2)

instance EachRound.decide (P : α → σ → Prop) [∀ a s, Decidable (P a s)] :
    (xs : List α) → (s : σ) → Decidable (EachRound f P xs s)
  | [], _ => inferInstanceAs (Decidable True)
  | a :: rest, s =>
      have := EachRound.decide P rest ((f a).run s).2
      inferInstanceAs (Decidable (_ ∧ (_ → _)))

def roundSum (value : α → σ → ℕ) : List α → σ → ℕ
  | [], _ => 0
  | a :: rest, s => value a s + roundSum value rest ((f a).run s).2

/-- The invariant of a loop may speak of the rounds that are left and of the sum of those before. -/
theorem eachRound_invariant {C P : α → σ → Prop} {I : List α → ℕ → σ → Prop} (value : α → σ → ℕ)
    (round : ∀ x rest c t, C x t → I (x :: rest) c t →
      P x t ∧ ∀ u, (f x).run t = (.ok (), u) → I rest (c + value x t) u)
    (xs : List α) (c : ℕ) (s : σ) (met : EachRound f C xs s) (start : I xs c s) :
    EachRound f P xs s ∧
      ∀ u, (forEach f xs).run s = (.ok (), u) → I [] (c + roundSum f value xs s) u := by
  induction xs generalizing c s with
  | nil =>
    refine ⟨trivial, ?_⟩
    intro u run
    obtain ⟨_, rfl⟩ := pure_succeeds.mp run
    exact start
  | cons x rest ih =>
    obtain ⟨now, later⟩ := round x rest c s met.1 start
    constructor
    · refine ⟨now, ?_⟩
      intro ok
      have ran : (f x).run s = (.ok (), ((f x).run s).2) := by
        rcases outcome : (f x).run s with ⟨_ | _, t⟩
        · simp [outcome, Except.isOk, Except.toBool] at ok
        · rfl
      exact (ih _ _ (met.2 ok) (later _ ran)).1
    · intro u run
      obtain ⟨_, r, ran, looped⟩ := (bind_succeeds _ _ _ _ _).mp run
      have next : ((f x).run s).2 = r := by rw [ran]
      have kept := later r ran
      have more := met.2 (by rw [ran]; rfl)
      rw [next] at more
      rw [roundSum, next, ← Nat.add_assoc]
      exact (ih _ r more kept).2 u looped

end Rounds

end StatefulProgram
