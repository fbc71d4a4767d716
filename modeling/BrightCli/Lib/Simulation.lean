import BrightCli.Lib.Trace

/-!
# Simulations between event-driven machines

A concrete machine simulates an abstract one under an abstraction of its states
when every step it takes is matched by a run of the abstract machine: by one
event, by several, or by none where the step is not visible there. The matching
events may depend on the state. `I` is what the matching needs to know of the
concrete states, and the concrete steps keep it.
-/
namespace BrightCli.Lib.Trace

variable {σ ε α β : Type}

structure Simulates (step : σ → ε → Option σ) (abstract : α → β → Option α) (abs : σ → α)
    (matching : σ → ε → List β) (I : σ → Prop) : Prop where
  keep : ∀ s e next, I s → step s e = some next → I next
  matched : ∀ s e next, I s → step s e = some next →
    run abstract (abs s) (matching s e) = some (abs next)

/-- The abstract events of a run. -/
def image (step : σ → ε → Option σ) (matching : σ → ε → List β) : σ → List ε → List β
  | _, [] => []
  | s, e :: rest =>
    matching s e ++
      match step s e with
      | some next => image step matching next rest
      | none => []

theorem image_cons {step : σ → ε → Option σ} {matching : σ → ε → List β} {s next : σ} {e : ε}
    {rest : List ε} (stepped : step s e = some next) :
    image step matching s (e :: rest) = matching s e ++ image step matching next rest := by
  simp only [image, stepped]

/-- A run of the concrete machine is matched by the run of its abstract events. -/
theorem Simulates.run {step : σ → ε → Option σ} {abstract : α → β → Option α} {abs : σ → α}
    {matching : σ → ε → List β} {I : σ → Prop} (simulates : Simulates step abstract abs matching I)
    {s last : σ} {events : List ε} (inv : I s) (ran : Trace.run step s events = some last) :
    I last ∧ Trace.run abstract (abs s) (image step matching s events) = some (abs last) := by
  induction events generalizing s with
  | nil =>
    cases ran
    exact ⟨inv, rfl⟩
  | cons e rest ih =>
    rw [run_cons] at ran
    obtain ⟨next, stepped, ran⟩ := Option.bind_eq_some_iff.mp ran
    obtain ⟨kept, later⟩ := ih (simulates.keep s e next inv stepped) ran
    refine ⟨kept, ?_⟩
    rw [image_cons stepped, run_append, simulates.matched s e next inv stepped]
    exact later

end BrightCli.Lib.Trace
