import Mathlib.Algebra.Order.BigOperators.Group.List
import Mathlib.Data.ENat.Lattice
import Mathlib.Data.List.Infix
import BrightCli.Source.Backoff

/-!
# The retries of a back-off

`depth` is compared when a call of the task fails and raised only after the pause.
For one call of `execute`, and for calls that follow one another, the depth counts
the retries, and `maxDepth` bounds them. Calls that are in progress together compare
before the others have raised it, and each of them may add a retry to the bound.
`retries_bounded` covers every order of steps.
-/
namespace BrightCli.Guarantees.RetryBudget
open BrightCli.Lib BrightCli.Source BrightCli.Source.Backoff

variable {ε α : Type}

/-- A failure that the predicate accepts. -/
def Retryable (backoff : Backoff ε) (outcome : Except ε α) : Prop :=
  ∃ e, outcome = .error e ∧ backoff.accepts e = true

/-- The number of leading failures that the predicate accepts. -/
noncomputable def leading (backoff : Backoff ε) (outcomes : Nat → Except ε α) : ℕ∞ :=
  ⨅ n ∈ {n : Nat | ¬ Retryable backoff (outcomes n)}, (n : ℕ∞)

theorem le_leading {backoff : Backoff ε} {outcomes : Nat → Except ε α} {m : Nat}
    (failed : ∀ j, j < m → Retryable backoff (outcomes j)) :
    (m : ℕ∞) ≤ leading backoff outcomes := by
  apply le_iInf₂
  intro n other
  have reached : m ≤ n := by
    by_contra before
    exact other (failed n (by omega))
  exact_mod_cast reached

theorem min_leading {backoff : Backoff ε} {outcomes : Nat → Except ε α} {m : Nat}
    (failed : ∀ j, j < m → Retryable backoff (outcomes j)) (few : m ≤ backoff.maxDepth)
    (last : Retryable backoff (outcomes m) → backoff.maxDepth ≤ m) :
    min (leading backoff outcomes) backoff.maxDepth = m := by
  have least := le_leading failed
  by_cases again : Retryable backoff (outcomes m)
  · have full : backoff.maxDepth = m := Nat.le_antisymm (last again) few
    rw [full, min_eq_right least]
  · have greatest : leading backoff outcomes ≤ m := iInf₂_le m again
    rw [le_antisymm greatest least]
    exact min_eq_left (by exact_mod_cast few)

/-- A sum over the calls of an instance. -/
def tally (weight : Call ε α → Nat) (calls : List (Call ε α)) : Nat := (calls.map weight).sum

theorem tally_append (weight : Call ε α → Nat) (calls : List (Call ε α)) (call : Call ε α) :
    tally weight (calls ++ [call]) = tally weight calls + weight call := by
  simp [tally]

theorem tally_set (weight : Call ε α → Nat) {calls : List (Call ε α)} {i : Nat} {call : Call ε α}
    (there : calls[i]? = some call) (next : Call ε α) :
    tally weight (calls.set i next) + weight call = tally weight calls + weight next := by
  induction calls generalizing i with
  | nil => cases there
  | cons head rest ih =>
    cases i with
    | zero =>
      cases there
      simp only [tally, List.set_cons_zero, List.map_cons, List.sum_cons]
      omega
    | succ i =>
      have behind := ih there
      simp only [tally, List.set_cons_succ, List.map_cons, List.sum_cons] at behind ⊢
      omega

def pausing (call : Call ε α) : Nat :=
  match call.phase with
  | .pausing _ => 1
  | _ => 0

def unsettled (call : Call ε α) : Nat :=
  match call.phase with
  | .settled _ => 0
  | _ => 1

/-- Calls of `retry`: those whose pause is over, and the one that pauses. -/
def retries (s : State ε α) : Nat := tally (fun call => call.made - 1 + pausing call) s.calls

def inProgress (s : State ε α) : Nat := tally unsettled s.calls

/-- What a step did: a call of `execute` began, its task settled, or its pause ended. -/
inductive Effect (backoff : Backoff ε) (task : Nat → Nat → Except ε α) (s : State ε α) :
    Event → State ε α → Prop
  | execute : Effect backoff task s .execute { s with calls := s.calls ++ [⟨1, .calling⟩] }
  | taskSettles (i made : Nat) (there : s.calls[i]? = some ⟨made, .calling⟩) :
    Effect backoff task s (.taskSettles i)
      { s with calls := s.calls.set i ⟨made, backoff.afterTask s.depth (task i (made - 1))⟩ }
  | delayElapses (i made pause : Nat) (there : s.calls[i]? = some ⟨made, .pausing pause⟩) :
    Effect backoff task s (.delayElapses i)
      { depth := s.depth + 1, calls := s.calls.set i ⟨made + 1, .calling⟩ }

theorem step_effect {backoff : Backoff ε} {task : Nat → Nat → Except ε α} {s next : State ε α}
    {e : Event} (stepped : step backoff task s e = some next) : Effect backoff task s e next := by
  cases e with
  | execute =>
    cases stepped
    exact .execute
  | taskSettles i =>
    simp only [step] at stepped
    split at stepped
    · next made there =>
      cases stepped
      exact .taskSettles i made there
    · cases stepped
  | delayElapses i =>
    simp only [step] at stepped
    split at stepped
    · next made pause there =>
      cases stepped
      exact .delayElapses i made pause there
    · cases stepped

theorem afterTask_cases (backoff : Backoff ε) (depth : Nat) (outcome : Except ε α) :
    (Retryable backoff outcome ∧ depth < backoff.maxDepth ∧
      backoff.afterTask depth outcome = .pausing (delay depth)) ∨
    ((Retryable backoff outcome → backoff.maxDepth ≤ depth) ∧
      backoff.afterTask depth outcome = .settled outcome) := by
  cases outcome with
  | ok value => exact .inr ⟨nofun, rfl⟩
  | error e =>
    by_cases both : (backoff.accepts e && depth < backoff.maxDepth) = true
    · simp only [Bool.and_eq_true, decide_eq_true_eq] at both
      refine .inl ⟨⟨e, rfl, both.1⟩, both.2, ?_⟩
      simp [afterTask, both]
    · refine .inr ⟨?_, if_neg both⟩
      rintro ⟨_, same, accepted⟩
      cases same
      simpa [accepted] using both

section
variable (backoff : Backoff ε) (task : Nat → Nat → Except ε α)

/-- Every call of the task but the last failed and was accepted; a call that has
settled did so with the outcome of its last call of the task, and not with a failure
that could be retried unless the depth was used up. -/
structure Honest (depth i : Nat) (call : Call ε α) : Prop where
  some_call : 1 ≤ call.made
  failed : ∀ j, j + 1 < call.made → Retryable backoff (task i j)
  pausing : ∀ pause, call.phase = .pausing pause → Retryable backoff (task i (call.made - 1))
  settled : ∀ result, call.phase = .settled result → result = task i (call.made - 1) ∧
    (Retryable backoff result → backoff.maxDepth ≤ depth)

/-- What holds of an instance in every order of steps. -/
structure Core (s : State ε α) : Prop where
  honest : ∀ i call, s.calls[i]? = some call → Honest backoff task s.depth i call
  depth : s.depth = tally (fun call => call.made - 1) s.calls

variable {backoff task}

theorem Honest.deeper {depth deeper i : Nat} {call : Call ε α}
    (honest : Honest backoff task depth i call) (le : depth ≤ deeper) :
    Honest backoff task deeper i call := by
  refine ⟨honest.some_call, honest.failed, honest.pausing, ?_⟩
  intro result settled
  obtain ⟨last, used⟩ := honest.settled result settled
  exact ⟨last, fun again => Nat.le_trans (used again) le⟩

/-- One call is replaced by an honest one, and the others are older. -/
theorem honest_set {s : State ε α} {depth i : Nat} {call : Call ε α}
    (core : Core backoff task s) (le : s.depth ≤ depth)
    (honest : Honest backoff task depth i call) :
    ∀ j other, (s.calls.set i call)[j]? = some other → Honest backoff task depth j other := by
  intro j other found
  rw [List.getElem?_set] at found
  split at found
  · next same =>
    subst same
    split at found
    · cases found
      exact honest
    · cases found
  · exact (core.honest j other found).deeper le

theorem core_init : Core backoff task State.init := by
  refine ⟨?_, rfl⟩
  intro i call there
  cases there

theorem core_step {s next : State ε α} {e : Event} (core : Core backoff task s)
    (stepped : step backoff task s e = some next) : Core backoff task next := by
  cases step_effect stepped with
  | execute =>
    refine ⟨?_, ?_⟩
    · intro i call there
      rcases Nat.lt_or_ge i s.calls.length with old | new
      · rw [List.getElem?_append_left old] at there
        exact core.honest i call there
      · rw [List.getElem?_append_right new] at there
        have first := List.mem_of_getElem? there
        rw [List.mem_singleton.mp first]
        exact ⟨Nat.le_refl 1, fun j before => absurd before (Nat.not_lt.mpr (Nat.le_add_left 1 j)),
          nofun, nofun⟩
    · rw [tally_append, ← core.depth]
      rfl
  | taskSettles i made there =>
    have honest := core.honest i _ there
    refine ⟨honest_set core (Nat.le_refl _) ⟨honest.some_call, honest.failed, ?_, ?_⟩, ?_⟩
    · intro pause phase
      rcases afterTask_cases backoff s.depth (task i (made - 1)) with ⟨again, _, _⟩ | ⟨_, same⟩
      · exact again
      · cases phase.symm.trans same
    · intro result phase
      rcases afterTask_cases backoff s.depth (task i (made - 1)) with ⟨_, _, same⟩ | ⟨used, same⟩
      · cases phase.symm.trans same
      · cases phase.symm.trans same
        exact ⟨rfl, used⟩
    · have sum := tally_set (fun call => call.made - 1) there
        ⟨made, backoff.afterTask s.depth (task i (made - 1))⟩
      have depth := core.depth
      dsimp only at sum ⊢
      omega
  | delayElapses i made pause there =>
    have honest := core.honest i _ there
    have some_call : 1 ≤ made := honest.some_call
    refine ⟨honest_set core (Nat.le_succ _) ⟨by simp, ?_, nofun, nofun⟩, ?_⟩
    · intro j before
      rcases Nat.lt_or_ge (j + 1) made with earlier | last
      · exact honest.failed j earlier
      · have same : j = made - 1 := by
          dsimp only at before
          omega
        rw [same]
        exact honest.pausing pause rfl
    · have sum := tally_set (fun call => call.made - 1) there ⟨made + 1, .calling⟩
      have depth := core.depth
      dsimp only at sum ⊢
      omega

theorem core_run {events : List Event} {s : State ε α}
    (reached : Trace.run (step backoff task) State.init events = some s) : Core backoff task s := by
  refine Trace.run_invariant core_init ?_ reached
  intro before e next core stepped
  exact core_step core stepped

theorem retries_eq {s : State ε α} (core : Core backoff task s) :
    retries s = s.depth + tally pausing s.calls := by
  rw [core.depth]
  exact List.sum_map_add

theorem pausing_le_inProgress (s : State ε α) : tally pausing s.calls ≤ inProgress s := by
  apply List.sum_le_sum
  intro call _
  unfold pausing unsettled
  split <;> simp_all

/-- A retry begins below the bound, so the others in progress are all that can have
been added to it. -/
theorem retries_step {others : Nat} {s next : State ε α} {e : Event} (core : Core backoff task s)
    (bound : retries s ≤ backoff.maxDepth + others) (few : inProgress next ≤ others + 1)
    (stepped : step backoff task s e = some next) :
    retries next ≤ backoff.maxDepth + others := by
  have next_core := core_step core stepped
  rw [retries_eq core] at bound
  rw [retries_eq next_core]
  have part := pausing_le_inProgress next
  cases step_effect stepped with
  | execute =>
    rw [tally_append]
    exact bound
  | taskSettles i made there =>
    have sum := tally_set pausing there ⟨made, backoff.afterTask s.depth (task i (made - 1))⟩
    rcases afterTask_cases backoff s.depth (task i (made - 1)) with ⟨_, below, _⟩ | ⟨_, same⟩
    · dsimp only at part ⊢
      omega
    · rw [same] at sum ⊢
      simp only [pausing] at sum ⊢
      omega
  | delayElapses i made pause there =>
    have sum := tally_set pausing there ⟨made + 1, .calling⟩
    simp only [pausing] at sum ⊢
    omega

theorem retries_run {others : Nat} {events : List Event} {s : State ε α}
    (few : Trace.Always (step backoff task) State.init (fun s => inProgress s ≤ others + 1) events)
    (reached : Trace.run (step backoff task) State.init events = some s) :
    retries s ≤ backoff.maxDepth + others := by
  refine Trace.run_induction
    (P := fun seen s => seen <+: events → retries s ≤ backoff.maxDepth + others)
    (fun _ => Nat.zero_le _) ?_ reached (List.prefix_refl _)
  intro seen before e next arrived ih stepped pre
  have bound := ih ((List.prefix_append seen [e]).trans pre)
  exact retries_step (core_run arrived) bound (few _ next pre (Trace.run_then arrived stepped))
    stepped

theorem calls_step {s next : State ε α} {e : Event} (stepped : step backoff task s e = some next) :
    s.calls.length ≤ next.calls.length := by
  cases step_effect stepped <;> simp

/-- Calls of `execute` are never forgotten. -/
theorem calls_run {s last : State ε α} {events : List Event}
    (reached : Trace.run (step backoff task) s events = some last) :
    s.calls.length ≤ last.calls.length := by
  refine Trace.run_invariant (P := fun last => s.calls.length ≤ last.calls.length) (Nat.le_refl _)
    ?_ reached
  intro before e next le stepped
  exact Nat.le_trans le (calls_step stepped)

theorem inProgress_le (s : State ε α) : inProgress s ≤ s.calls.length := by
  have one : ∀ weight ∈ s.calls.map unsettled, weight ≤ 1 := by
    intro weight member
    obtain ⟨call, _, rfl⟩ := List.mem_map.mp member
    unfold unsettled
    split <;> omega
  have bound := List.sum_le_card_nsmul _ 1 one
  rw [List.length_map, smul_eq_mul, Nat.mul_one] at bound
  exact bound

/-- As many steps as a call has taken. -/
def rank (call : Call ε α) : Nat :=
  match call.phase with
  | .calling => 2 * call.made - 1
  | _ => 2 * call.made

theorem length_run {events : List Event} {s : State ε α}
    (reached : Trace.run (step backoff task) State.init events = some s) :
    events.length = tally rank s.calls := by
  refine Trace.run_induction (P := fun seen s => seen.length = tally rank s.calls) rfl ?_ reached
  intro seen before e next arrived ih stepped
  have core := core_run arrived
  rw [List.length_append, List.length_singleton, ih]
  cases step_effect stepped with
  | execute => exact (tally_append rank before.calls ⟨1, .calling⟩).symm
  | taskSettles i made there =>
    have sum := tally_set rank there ⟨made, backoff.afterTask before.depth (task i (made - 1))⟩
    have some_call : 1 ≤ made := (core.honest i _ there).some_call
    rcases afterTask_cases backoff before.depth (task i (made - 1)) with ⟨_, _, same⟩ | ⟨_, same⟩
    · rw [same] at sum ⊢
      simp only [rank] at sum ⊢
      omega
    · rw [same] at sum ⊢
      simp only [rank] at sum ⊢
      omega
  | delayElapses i made pause there =>
    have sum := tally_set rank there ⟨made + 1, .calling⟩
    simp only [rank] at sum ⊢
    omega

/-- While there is one call of `execute`, its retries are the depth. -/
theorem made_of_single {s : State ε α} {call : Call ε α} (core : Core backoff task s)
    (single : s.calls = [call]) : call.made = s.depth + 1 := by
  have some_call := (core.honest 0 call (by rw [single]; rfl)).some_call
  have depth := core.depth
  rw [single] at depth
  simp only [tally, List.map_cons, List.map_nil, List.sum_cons, List.sum_nil] at depth
  omega

theorem depth_le_of_single {events : List Event} {s : State ε α} {call : Call ε α}
    (reached : Trace.run (step backoff task) State.init events = some s)
    (single : s.calls = [call]) : s.depth ≤ backoff.maxDepth := by
  have alone : Trace.Always (step backoff task) State.init (fun s => inProgress s ≤ 0 + 1)
      events := by
    intro seen mid pre arrived
    obtain ⟨rest, rfl⟩ := pre
    rw [Trace.run_append, arrived] at reached
    have older := calls_run reached
    have part := inProgress_le mid
    rw [single, List.length_singleton] at older
    omega
  have bound := retries_run alone reached
  rw [retries_eq (core_run reached)] at bound
  omega

/-- A call that has not settled waits for its task or for its pause. -/
theorem settled_of_stuck {s : State ε α} {call : Call ε α} (single : s.calls = [call])
    (stuck : ∀ e, e ≠ .execute → step backoff task s e = none) :
    ∃ result, call.phase = .settled result := by
  obtain ⟨made, phase⟩ := call
  cases phase with
  | calling =>
    have blocked := stuck (.taskSettles 0) nofun
    simp [step, single] at blocked
  | pausing pause =>
    have blocked := stuck (.delayElapses 0) nofun
    simp [step, single] at blocked
  | settled result => exact ⟨result, rfl⟩

end

/-- A single call of `execute` calls the task once more than the smaller of
`maxDepth` and the number of leading failures that are accepted, settles with the
outcome of its last call of the task, and does so within a bounded number of steps.
With at most `others` further calls in progress at any time the retries of all calls
together are at most `maxDepth + others`, so at most `maxDepth` when each call
follows the settlement of the one before. -/
theorem retries_bounded (backoff : Backoff ε) (task : Nat → Nat → Except ε α)
    (events : List Event) (s : State ε α)
    (reached : Trace.run (step backoff task) State.init events = some s) :
    (∀ call, s.calls = [call] →
      (∀ j, j + 1 < call.made → Retryable backoff (task 0 j)) ∧
      call.made ≤ min (leading backoff (task 0)) backoff.maxDepth + 1 ∧
      (∀ result, call.phase = .settled result →
        call.made = min (leading backoff (task 0)) backoff.maxDepth + 1 ∧
        result = task 0 (call.made - 1)) ∧
      events.length ≤ 2 * backoff.maxDepth + 2 ∧
      ((∀ e, e ≠ .execute → step backoff task s e = none) →
        ∃ result, call.phase = .settled result)) ∧
    ∀ others,
      Trace.Always (step backoff task) State.init (fun s => inProgress s ≤ others + 1) events →
      retries s ≤ backoff.maxDepth + others := by
  refine ⟨?_, fun others few => retries_run few reached⟩
  intro call single
  have core := core_run reached
  have honest : Honest backoff task s.depth 0 call := core.honest 0 call (by rw [single]; rfl)
  have made := made_of_single core single
  have few := depth_le_of_single reached single
  have before : ∀ j, j < s.depth → Retryable backoff (task 0 j) := by
    intro j earlier
    exact honest.failed j (by omega)
  refine ⟨honest.failed, ?_, ?_, ?_, settled_of_stuck single⟩
  · have bound : (s.depth : ℕ∞) ≤ min (leading backoff (task 0)) backoff.maxDepth :=
      le_min (le_leading before) (by exact_mod_cast few)
    rw [made]
    push_cast
    exact add_le_add_left bound 1
  · intro result settled
    obtain ⟨last, used⟩ := honest.settled result settled
    have index : call.made - 1 = s.depth := by omega
    rw [index] at last
    have least := min_leading before few (last ▸ used)
    refine ⟨?_, by rw [index]; exact last⟩
    rw [least, made]
    push_cast
    rfl
  · have length := length_run reached
    rw [single] at length
    have rank_le : rank call ≤ 2 * call.made := by
      unfold rank
      split <;> omega
    simp only [tally, List.map_cons, List.map_nil, List.sum_cons, List.sum_nil] at length
    omega

/-- Every failure is retried, once. -/
def once : Backoff Unit := { maxDepth := 1, shouldRetry := some fun _ => true }

/-- The task always fails. -/
def failing (_ _ : Nat) : Except Unit Unit := .error ()

/-- Two calls, the second after the first has used up the retry: it fails at once. -/
def successive : List Event :=
  [.execute, .taskSettles 0, .delayElapses 0, .taskSettles 0, .execute, .taskSettles 1]

theorem successive_calls_bounded :
    ∃ s, Trace.run (step once failing) State.init successive = some s ∧
      s.calls.length = 2 ∧ retries s ≤ once.maxDepth := by
  have few : Trace.Always (step once failing) State.init (fun s => inProgress s ≤ 0 + 1)
      successive := by
    intro seen mid pre arrived
    have member : seen ∈ successive.inits := (List.mem_inits _ _).mpr pre
    simp only [successive, List.inits, List.map_cons, List.map_nil, List.mem_cons,
      List.not_mem_nil, or_false] at member
    rcases member with rfl | rfl | rfl | rfl | rfl | rfl | rfl <;> cases arrived <;> decide
  exact ⟨_, rfl, rfl, (retries_bounded once failing successive _ rfl).2 0 few⟩

/-- Both calls fail before either pause is over, and both are retried. -/
theorem overlapping_calls_exceed :
    ∃ s, Trace.run (step once failing) State.init
        [.execute, .execute, .taskSettles 0, .taskSettles 1, .delayElapses 0, .delayElapses 1] =
          some s ∧
      once.maxDepth < retries s := by
  exact ⟨_, rfl, by decide⟩

end BrightCli.Guarantees.RetryBudget
