import Mathlib.Data.List.Induction

/-!
# Runs of an event-driven machine

A machine is a partial step function: `step s e = none` says that event `e`
cannot occur in state `s`, not that it fails. A run is a list of events, and
every statement below quantifies over all of them, so it covers every order in
which an event loop may deliver the events it is allowed to deliver.

`Always` and `EachStep` speak about the states and the steps met on the way,
not only about the last state. `always_iff_eachStep` is the rule for an exact
condition: when one step keeps a property precisely if the step meets a guard,
a whole run keeps the property precisely if each of its steps meets the guard.
-/
namespace BrightCli.Lib.Trace

variable {σ ε : Type}

def run (step : σ → ε → Option σ) (s : σ) (events : List ε) : Option σ :=
  events.foldlM step s

/-- `P` holds of every state the run visits, the first and the last included. -/
def Always (step : σ → ε → Option σ) (s₀ : σ) (P : σ → Prop) (events : List ε) : Prop :=
  ∀ seen s, seen <+: events → run step s₀ seen = some s → P s

/-- Every step of the run meets `Q`, a condition on the event and the state before it. -/
def EachStep (step : σ → ε → Option σ) (s₀ : σ) (Q : σ → ε → Prop) (events : List ε) : Prop :=
  ∀ seen e s, seen ++ [e] <+: events → run step s₀ seen = some s → Q s e

/-- How many steps of the run meet `Q`. -/
def count (step : σ → ε → Option σ) (Q : σ → ε → Bool) : σ → List ε → Nat
  | _, [] => 0
  | s, e :: rest =>
    (Q s e).toNat +
      match step s e with
      | some next => count step Q next rest
      | none => 0

/-- What the steps of the run yield, in order. -/
def collect {α : Type} (step : σ → ε → Option σ) (yield : σ → ε → Option α) : σ → List ε → List α
  | _, [] => []
  | s, e :: rest =>
    (yield s e).toList ++
      match step s e with
      | some next => collect step yield next rest
      | none => []

variable {step : σ → ε → Option σ} {s₀ : σ}

@[simp] theorem run_nil (s : σ) : run step s [] = some s := rfl

@[simp] theorem run_cons (s : σ) (e : ε) (rest : List ε) :
    run step s (e :: rest) = (step s e).bind fun next => run step next rest := by
  simp [run, bind]

theorem run_append (s : σ) (first second : List ε) :
    run step s (first ++ second) = (run step s first).bind fun next => run step next second := by
  simp [run, bind]

theorem run_snoc (s : σ) (seen : List ε) (e : ε) :
    run step s (seen ++ [e]) = (run step s seen).bind fun last => step last e := by
  rw [run_append]
  congr 1
  funext last
  cases h : step last e <;> simp [h]

theorem run_snoc_eq_some {s last : σ} {seen : List ε} {e : ε}
    (h : run step s (seen ++ [e]) = some last) :
    ∃ before, run step s seen = some before ∧ step before e = some last := by
  rw [run_snoc] at h
  exact Option.bind_eq_some_iff.mp h

theorem run_then {s mid last : σ} {seen : List ε} {e : ε} (reached : run step s seen = some mid)
    (stepped : step mid e = some last) : run step s (seen ++ [e]) = some last := by
  rw [run_snoc, reached]
  exact stepped

/-- A prefix of a run that can occur can occur. -/
theorem run_prefix {s last : σ} {seen events : List ε} (h : run step s events = some last)
    (pre : seen <+: events) : ∃ mid, run step s seen = some mid := by
  obtain ⟨rest, rfl⟩ := pre
  rw [run_append] at h
  obtain ⟨mid, reached, _⟩ := Option.bind_eq_some_iff.mp h
  exact ⟨mid, reached⟩

/-- Every event of a run that can occur can be taken where it stands. -/
theorem step_of_prefix {s mid last : σ} {seen events : List ε} {e : ε}
    (legal : run step s events = some last) (pre : seen ++ [e] <+: events)
    (reached : run step s seen = some mid) : ∃ next, step mid e = some next := by
  obtain ⟨next, arrived⟩ := run_prefix legal pre
  rw [run_snoc, reached] at arrived
  exact ⟨next, arrived⟩

/-- Induction along a run: `P` may speak about the events seen so far as well
as about the state they lead to. -/
theorem run_induction {P : List ε → σ → Prop} (init : P [] s₀)
    (keep : ∀ seen s e next, run step s₀ seen = some s → P seen s → step s e = some next →
      P (seen ++ [e]) next)
    {events : List ε} {s : σ} (h : run step s₀ events = some s) : P events s := by
  induction events using List.reverseRecOn generalizing s with
  | nil =>
    cases h
    exact init
  | append_singleton seen e ih =>
    obtain ⟨before, reached, stepped⟩ := run_snoc_eq_some h
    exact keep seen before e s reached (ih reached) stepped

/-- What every step keeps holds wherever a run leads. -/
theorem run_invariant {P : σ → Prop} (init : P s₀)
    (keep : ∀ s e next, P s → step s e = some next → P next)
    {events : List ε} {s : σ} (reached : run step s₀ events = some s) : P s := by
  refine run_induction (P := fun _ s => P s) init ?_ reached
  intro _ before e next _ holds stepped
  exact keep before e next holds stepped

@[simp] theorem eachStep_nil (s₀ : σ) (Q : σ → ε → Prop) : EachStep step s₀ Q [] := by
  intro seen e s pre _
  simp at pre

/-- Step by step: the first step, and the rest from where it leads. -/
theorem eachStep_cons {s next : σ} {Q : σ → ε → Prop} {e : ε} {rest : List ε}
    (stepped : step s e = some next) :
    EachStep step s Q (e :: rest) ↔ Q s e ∧ EachStep step next Q rest := by
  have reach : ∀ seen, run step s (e :: seen) = run step next seen := by
    intro seen
    rw [run_cons, stepped]
    rfl
  constructor
  · intro each
    refine ⟨each [] e s (by simp) rfl, ?_⟩
    intro seen e' s' pre reached
    refine each (e :: seen) e' s' ?_ (by rw [reach, reached])
    exact List.cons_prefix_cons.mpr ⟨rfl, pre⟩
  · intro both seen e' s' pre reached
    cases seen with
    | nil =>
      cases (List.cons_prefix_cons.mp pre).1
      cases reached
      exact both.1
    | cons head seen =>
      obtain ⟨same, tail⟩ := List.cons_prefix_cons.mp pre
      rw [same, reach] at reached
      exact both.2 seen e' s' tail reached

/-- Behind an event that cannot occur nothing is left to check. -/
theorem eachStep_cons_of_none {s : σ} {Q : σ → ε → Prop} {e : ε} {rest : List ε}
    (stuck : step s e = none) : EachStep step s Q (e :: rest) ↔ Q s e := by
  constructor
  · intro each
    exact each [] e s (by simp) rfl
  · intro first seen e' s' pre reached
    cases seen with
    | nil =>
      cases (List.cons_prefix_cons.mp pre).1
      cases reached
      exact first
    | cons head seen =>
      rw [(List.cons_prefix_cons.mp pre).1, run_cons, stuck] at reached
      cases reached

/-- The steps of a run can be checked one after the other. -/
instance EachStep.decidable (Q : σ → ε → Prop) [∀ s e, Decidable (Q s e)] :
    (s : σ) → (events : List ε) → Decidable (EachStep step s Q events)
  | s, [] => isTrue (eachStep_nil s Q)
  | s, e :: rest =>
    match stepped : step s e with
    | none => decidable_of_iff' _ (eachStep_cons_of_none stepped)
    | some next =>
      have := EachStep.decidable Q next rest
      decidable_of_iff' _ (eachStep_cons stepped)

/-- Step by step from the other end: the steps so far, and the last one. -/
theorem eachStep_snoc {s : σ} {Q : σ → ε → Prop} {seen : List ε} {e : ε}
    (reached : run step s₀ seen = some s) :
    EachStep step s₀ Q (seen ++ [e]) ↔ EachStep step s₀ Q seen ∧ Q s e := by
  constructor
  · intro each
    refine ⟨fun front e' s' pre arrived => ?_, each seen e s (List.prefix_refl _) reached⟩
    exact each front e' s' (pre.trans (List.prefix_append seen [e])) arrived
  · intro both front e' s' pre arrived
    rcases List.prefix_concat_iff.mp pre with whole | shorter
    · obtain ⟨rfl, same⟩ := List.append_inj' whole rfl
      cases same
      rw [reached] at arrived
      cases arrived
      exact both.2
    · exact both.1 front e' s' shorter arrived

theorem count_cons {s next : σ} {Q : σ → ε → Bool} {e : ε} {rest : List ε}
    (stepped : step s e = some next) :
    count step Q s (e :: rest) = (Q s e).toNat + count step Q next rest := by
  simp only [count, stepped]

theorem collect_snoc {α : Type} {yield : σ → ε → Option α} {s last : σ} {seen : List ε} {e : ε}
    (reached : run step s seen = some last) :
    collect step yield s (seen ++ [e]) = collect step yield s seen ++ (yield last e).toList := by
  induction seen generalizing s with
  | nil =>
    cases reached
    simp only [List.nil_append, collect]
    split <;> simp
  | cons first rest ih =>
    rw [run_cons] at reached
    obtain ⟨next, stepped, arrived⟩ := Option.bind_eq_some_iff.mp reached
    simp only [List.cons_append, collect, stepped]
    rw [ih arrived, List.append_assoc]

/-- What the steps that meet `Q` keep holds along a run of such steps. -/
theorem always_of_eachStep {P : σ → Prop} {Q : σ → ε → Prop} (init : P s₀)
    (keep : ∀ s e next, P s → Q s e → step s e = some next → P next)
    {events : List ε} (each : EachStep step s₀ Q events) : Always step s₀ P events := by
  intro seen s pre reached
  refine run_induction (P := fun seen s => seen <+: events → P s) (fun _ => init) ?_ reached pre
  intro seen before e next arrived ih stepped pre
  exact keep before e next (ih ((List.prefix_append seen [e]).trans pre))
    (each seen e before pre arrived) stepped

/-- Exact conditions lift from one step to a run. `I` collects what the step
equivalence needs besides `P`; it may use `P` of the state before. -/
theorem always_iff_eachStep {I P : σ → Prop} {Q : σ → ε → Prop} (inv₀ : I s₀) (holds₀ : P s₀)
    (keep : ∀ s e next, I s → P s → step s e = some next → I next)
    (exact_step : ∀ s e next, I s → P s → step s e = some next → (P next ↔ Q s e))
    {events : List ε} {last : σ} (legal : run step s₀ events = some last) :
    Always step s₀ P events ↔ EachStep step s₀ Q events := by
  constructor
  · intro always
    -- The invariant is available at every prefix because `P` is.
    have inv : ∀ seen s, seen <+: events → run step s₀ seen = some s → I s := by
      intro seen s pre reached
      refine run_induction (P := fun seen s => seen <+: events → I s) (fun _ => inv₀) ?_ reached pre
      intro seen s e next reached ih stepped pre
      have shorter : seen <+: events := (List.prefix_append seen [e]).trans pre
      exact keep s e next (ih shorter) (always seen s shorter reached) stepped
    intro seen e s pre reached
    have shorter : seen <+: events := (List.prefix_append seen [e]).trans pre
    obtain ⟨next, stepped⟩ := step_of_prefix legal pre reached
    exact (exact_step s e next (inv seen s shorter reached) (always seen s shorter reached)
      stepped).mp (always _ next pre (run_then reached stepped))
  · intro each seen s pre reached
    have both : Always step s₀ (fun s => I s ∧ P s) events := by
      refine always_of_eachStep ⟨inv₀, holds₀⟩ ?_ each
      intro s e next holds guarded stepped
      exact ⟨keep s e next holds.1 holds.2 stepped,
        (exact_step s e next holds.1 holds.2 stepped).mpr guarded⟩
    exact (both seen s pre reached).2

/-- A run that ends with an outcome has one step that gave it, if the outcome is kept. -/
theorem run_concludes {ω : Type} {outcome? : σ → Option ω}
    (keeps : ∀ s e next outcome, outcome? s = some outcome → step s e = some next →
      outcome? next = some outcome)
    {events : List ε} {s : σ} {outcome : ω} (fresh : outcome? s₀ = none)
    (ran : run step s₀ events = some s) (ended : outcome? s = some outcome) :
    ∃ before e after mid next, events = before ++ e :: after ∧ run step s₀ before = some mid ∧
      outcome? mid = none ∧ step mid e = some next ∧ outcome? next = some outcome := by
  induction events using List.reverseRecOn generalizing s with
  | nil =>
    cases ran
    rw [fresh] at ended
    cases ended
  | append_singleton seen e ih =>
    obtain ⟨mid, reached, stepped⟩ := run_snoc_eq_some ran
    cases earlier : outcome? mid with
    | none => exact ⟨seen, e, [], mid, s, rfl, reached, earlier, stepped, ended⟩
    | some first =>
      have same := (keeps mid e s first earlier stepped).symm.trans ended
      obtain rfl := Option.some.inj same
      obtain ⟨before, f, after, start, next, split, rest⟩ := ih reached earlier
      exact ⟨before, f, after ++ [e], start, next, by simp [split], rest⟩

end BrightCli.Lib.Trace
