import Mathlib.Algebra.GroupWithZero.Nat
import Mathlib.Data.List.Basic
import Mathlib.Data.Set.Basic

/-! # Finite runs of labelled step relations

`Run Step s es t` is a finite run from `s` to `t` that takes exactly the events `es`. Runs compose
at a shared state, an invariant kept by one step is kept by a run, and events that each lower a
measure are bounded in number. `Steps` reads a partial step function as such a relation, `run?`
executes it on a list of events, `Guarded` keeps only the steps an environment assumption allows
and `Ensuring` those that meet a postcondition. `collect` gathers what is observed along a run.
`Offers` says that there is a step, whatever the environment chooses. Nothing here names a
particular machine.
-/

namespace Machine

variable {σ ε α : Type*}

/-- A finite run taking exactly its events, in order. -/
inductive Run (Step : σ → ε → σ → Prop) : σ → List ε → σ → Prop
  | nil (s : σ) : Run Step s [] s
  | cons {s mid t : σ} {e : ε} {es : List ε} :
      Step s e mid → Run Step mid es t → Run Step s (e :: es) t

namespace Run

variable {Step : σ → ε → σ → Prop} {s mid t : σ} {es first second : List ε}

theorem cons_iff {e : ε} :
    Run Step s (e :: es) t ↔ ∃ mid, Step s e mid ∧ Run Step mid es t :=
  ⟨fun | .cons step rest => ⟨_, step, rest⟩, fun ⟨_, step, rest⟩ => .cons step rest⟩

theorem single {e : ε} (step : Step s e t) : Run Step s [e] t := .cons step (.nil t)

/-- Runs compose at their shared state. -/
theorem append (left : Run Step s first mid) (right : Run Step mid second t) :
    Run Step s (first ++ second) t := by
  induction left with
  | nil _ => exact right
  | cons step _ ih => exact .cons step (ih right)

theorem snoc {e : ε} (run : Run Step s es mid) (step : Step mid e t) :
    Run Step s (es ++ [e]) t :=
  run.append (.single step)

/-- A property kept by every step is kept by every run. -/
theorem invariant (inv : σ → Prop) (keeps : ∀ {a e b}, inv a → Step a e b → inv b)
    (run : Run Step s es t) (start : inv s) : inv t := by
  induction run with
  | nil _ => exact start
  | cons step _ ih => exact ih (keeps start step)

/-- A relation between the events taken so far and the state, kept by every step, holds at the end
of every run. -/
theorem history (inv : List ε → σ → Prop)
    (keeps : ∀ {past a e b}, inv past a → Step a e b → inv (past ++ [e]) b)
    (run : Run Step s es t) {past : List ε} (start : inv past s) : inv (past ++ es) t := by
  induction run generalizing past with
  | nil _ => simpa only [List.append_nil] using start
  | cons step _ ih =>
    have next := ih (keeps start step)
    rwa [List.append_assoc, List.singleton_append] at next

/-- A run of one relation is a run of every relation that allows its steps. -/
theorem mono {Step' : σ → ε → σ → Prop} (weaker : ∀ {a e b}, Step a e b → Step' a e b)
    (run : Run Step s es t) : Run Step' s es t := by
  induction run with
  | nil s => exact .nil s
  | cons step _ ih => exact .cons (weaker step) ih

/-- A machine whose steps are runs of another one runs as that does. -/
theorem simulate {τ δ : Type*} {Step' : τ → δ → τ → Prop} (inv : σ → Prop) (abs : σ → τ)
    (keeps : ∀ {a e b}, inv a → Step a e b → inv b)
    (follows : ∀ {a e b}, inv a → Step a e b → ∃ es, Run Step' (abs a) es (abs b))
    (run : Run Step s es t) (start : inv s) : ∃ es, Run Step' (abs s) es (abs t) := by
  induction run with
  | nil s => exact ⟨[], .nil _⟩
  | cons step _ ih =>
    obtain ⟨first, before⟩ := follows start step
    obtain ⟨second, after⟩ := ih (keeps start step)
    exact ⟨first ++ second, before.append after⟩

/-- Events of a kind that each lower a measure, which no other event raises: together with what the
measure is afterwards, they are bounded in number by what it was before. -/
theorem countP_add_le (inv : σ → Prop) (measure : σ → ℕ) (kind : ε → Bool)
    (keeps : ∀ {a e b}, inv a → Step a e b → inv b)
    (lowers : ∀ {a e b}, inv a → Step a e b → kind e = true → measure b < measure a)
    (others : ∀ {a e b}, inv a → Step a e b → measure b ≤ measure a)
    (run : Run Step s es t) (start : inv s) : es.countP kind + measure t ≤ measure s := by
  induction run with
  | nil _ => exact Nat.le_of_eq (Nat.zero_add _)
  | @cons s mid t e es step _ ih =>
    have rest := ih (keeps start step)
    by_cases counted : kind e = true
    · rw [List.countP_cons_of_pos counted]
      have lowered := lowers start step counted
      omega
    · rw [List.countP_cons_of_neg counted]
      exact Nat.le_trans rest (others start step)

/-- Events of a kind that each take one from a measure to which every event may add its credit. -/
theorem countP_add_le_credit (inv : σ → Prop) (measure : σ → ℕ) (credit : ε → ℕ) (kind : ε → Bool)
    (keeps : ∀ {a e b}, inv a → Step a e b → inv b)
    (lowers : ∀ {a e b}, inv a → Step a e b → kind e = true → measure b < measure a + credit e)
    (others : ∀ {a e b}, inv a → Step a e b → measure b ≤ measure a + credit e)
    (run : Run Step s es t) (start : inv s) :
    es.countP kind + measure t ≤ measure s + (es.map credit).sum := by
  induction run with
  | nil _ => simp
  | @cons s mid t e es step _ ih =>
    have rest := ih (keeps start step)
    rw [List.map_cons, List.sum_cons]
    by_cases counted : kind e = true
    · rw [List.countP_cons_of_pos counted]
      have lowered := lowers start step counted
      omega
    · rw [List.countP_cons_of_neg counted]
      have kept := others start step
      omega

/-- Such events are bounded in number by the measure. -/
theorem countP_le (inv : σ → Prop) (measure : σ → ℕ) (kind : ε → Bool)
    (keeps : ∀ {a e b}, inv a → Step a e b → inv b)
    (lowers : ∀ {a e b}, inv a → Step a e b → kind e = true → measure b < measure a)
    (others : ∀ {a e b}, inv a → Step a e b → measure b ≤ measure a)
    (run : Run Step s es t) (start : inv s) : es.countP kind ≤ measure s :=
  Nat.le_of_add_right_le (countP_add_le inv measure kind keeps lowers others run start)

end Run

/-- The step relation of a partial step function. -/
def Steps (step : σ → ε → Option σ) (s : σ) (e : ε) (t : σ) : Prop := step s e = some t

/-- Only the steps that an assumption about the environment allows. -/
def Guarded (Step : σ → ε → σ → Prop) (allow : σ → ε → Prop) (s : σ) (e : ε) (t : σ) : Prop :=
  Step s e t ∧ allow s e

theorem Run.unguarded {Step : σ → ε → σ → Prop} {allow : σ → ε → Prop} {s t : σ} {es : List ε}
    (run : Run (Guarded Step allow) s es t) : Run Step s es t :=
  run.mono And.left

theorem Run.guard {Step : σ → ε → σ → Prop} {allow : σ → ε → Prop} {s t : σ} {es : List ε}
    (allowed : ∀ a, ∀ e ∈ es, allow a e) (run : Run Step s es t) :
    Run (Guarded Step allow) s es t := by
  induction run with
  | nil s => exact .nil s
  | cons step _ ih =>
    exact .cons ⟨step, allowed _ _ List.mem_cons_self⟩
      (ih fun a e member => allowed a e (List.mem_cons_of_mem _ member))

/-- A counter that exactly the forbidden steps raise is what it was just when none was taken. -/
theorem Run.counter_eq_iff {Step : σ → ε → σ → Prop} {allow : σ → ε → Prop} (counter : σ → ℕ)
    (still : ∀ {a e b}, Step a e b → allow a e → counter b = counter a)
    (raised : ∀ {a e b}, Step a e b → ¬ allow a e → counter a < counter b)
    {s t : σ} {es : List ε} (run : Run Step s es t) :
    counter t = counter s ↔ Run (Guarded Step allow) s es t := by
  have grows {a e b} (step : Step a e b) : counter a ≤ counter b := by
    by_cases allowed : allow a e
    · exact Nat.le_of_eq (still step allowed).symm
    · exact Nat.le_of_lt (raised step allowed)
  constructor
  · intro same
    induction run with
    | nil s => exact .nil s
    | @cons s mid t e es step rest ih =>
      have later : counter mid ≤ counter t :=
        rest.invariant (fun a => counter mid ≤ counter a)
          (fun below step => Nat.le_trans below (grows step)) (Nat.le_refl _)
      have allowed : allow s e := by
        by_contra forbidden
        have above := Nat.lt_of_lt_of_le (raised step forbidden) later
        rw [same] at above
        exact Nat.lt_irrefl _ above
      exact .cons ⟨step, allowed⟩ (ih (same.trans (still step allowed).symm))
  · intro guarded
    exact guarded.invariant (fun a => counter a = counter s)
      (fun same step => (still step.1 step.2).trans same) rfl

/-- The steps that meet a postcondition. -/
def Ensuring (Step post : σ → ε → σ → Prop) (s : σ) (e : ε) (t : σ) : Prop :=
  Step s e t ∧ post s e t

/-- A postcondition that every step from a state of the invariant meets is met along a run. -/
theorem Run.ensure {Step post : σ → ε → σ → Prop} (inv : σ → Prop)
    (keeps : ∀ {a e b}, inv a → Step a e b → inv b)
    (meets : ∀ {a e b}, inv a → Step a e b → post a e b)
    {s t : σ} {es : List ε} (run : Run Step s es t) (start : inv s) :
    Run (Ensuring Step post) s es t := by
  induction run with
  | nil s => exact .nil s
  | cons step _ ih => exact .cons ⟨step, meets start step⟩ (ih (keeps start step))

/-- Every step of a run meets its postcondition just when every step is allowed, if that is so of
a single step from a state of the invariant and allowed steps keep the invariant. -/
theorem Run.ensuring_iff {Step post : σ → ε → σ → Prop} {allow : σ → ε → Prop} (inv : σ → Prop)
    (exact : ∀ {a e b}, inv a → Step a e b → (post a e b ↔ allow a e))
    (keeps : ∀ {a e b}, inv a → Step a e b → allow a e → inv b)
    {s t : σ} {es : List ε} (start : inv s) :
    Run (Ensuring Step post) s es t ↔ Run (Guarded Step allow) s es t := by
  constructor
  · intro run
    induction run with
    | nil s => exact .nil s
    | cons step _ ih =>
      have allowed := (exact start step.1).mp step.2
      exact .cons ⟨step.1, allowed⟩ (ih (keeps start step.1 allowed))
  · intro run
    induction run with
    | nil s => exact .nil s
    | cons step _ ih =>
      exact .cons ⟨step.1, (exact start step.1).mpr step.2⟩ (ih (keeps start step.1 step.2))

/-- Execute a partial step function on a list of events. -/
def run? (step : σ → ε → Option σ) : σ → List ε → Option σ
  | s, [] => some s
  | s, e :: es => (step s e).bind fun next => run? step next es

theorem run?_eq_some_iff (step : σ → ε → Option σ) (s t : σ) (es : List ε) :
    run? step s es = some t ↔ Run (Steps step) s es t := by
  induction es generalizing s with
  | nil => exact ⟨fun same => Option.some.inj same ▸ .nil s, fun | .nil _ => rfl⟩
  | cons e es ih => simp only [run?, Option.bind_eq_some_iff, ih, Run.cons_iff, Steps]

/-- One of these events is about to happen, and whichever it is, there is a step. -/
def Offers (step : σ → ε → Option σ) (s : σ) (outcomes : Set ε) : Prop :=
  outcomes.Nonempty ∧ ∀ e ∈ outcomes, ∃ t, step s e = some t

theorem Offers.single {step : σ → ε → Option σ} {s : σ} {e : ε}
    (enabled : (step s e).isSome = true) : Offers step s {e} := by
  refine ⟨⟨e, rfl⟩, ?_⟩
  rintro _ rfl
  exact Option.isSome_iff_exists.mp enabled

/-- Everything observed along a run, in order. -/
def collect (step : σ → ε → Option σ) (observe : σ → ε → List α) : σ → List ε → List α
  | _, [] => []
  | s, e :: es => observe s e ++ (step s e).elim [] fun next => collect step observe next es

/-- A relation between the state and what was observed so far, kept by every step, holds at the
end of a run of everything observed along it. -/
theorem Run.collect_invariant {step : σ → ε → Option σ} {allow : σ → ε → Prop}
    {observe : σ → ε → List α} (inv : σ → List α → Prop)
    (keeps : ∀ {a e b seen}, inv a seen → Guarded (Steps step) allow a e b →
      inv b (seen ++ observe a e))
    {s t : σ} {es : List ε} (run : Run (Guarded (Steps step) allow) s es t)
    {seen : List α} (start : inv s seen) : inv t (seen ++ collect step observe s es) := by
  induction run generalizing seen with
  | nil _ => simpa only [collect, List.append_nil] using start
  | cons taken _ ih =>
    have next := ih (keeps start taken)
    have found : step _ _ = some _ := taken.1
    simpa only [collect, found, Option.elim_some, List.append_assoc] using next

end Machine
