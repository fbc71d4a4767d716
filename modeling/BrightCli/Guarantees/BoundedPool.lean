import BrightCli.Source.Pool

/-!
# The bounded pool

The list of the pool is at every moment the list of the members that have not settled,
in the order of their calls (`Bookkept.members`). The loop goes on only after a member
of the full list has settled, so there is room for one more.
-/
namespace BrightCli.Guarantees.BoundedPool
open BrightCli.Lib BrightCli.Source BrightCli.Source.Pool

variable {T R : Type}

inductive Effect (poolLimit : Nat) (s : Pool T R) : Event R → Pool T R → Prop where
  | passed (item : T) (rest : List T) (phase : s.phase = .looping) (items : s.items = item :: rest) :
      Effect poolLimit s .next (s.takeItem poolLimit item rest)
  | ended (phase : s.phase = .looping) (items : s.items = []) :
      Effect poolLimit s .next { s with phase := .collecting }
  | fulfilled (i : Nat) (value : R) (pending : s.promises[i]? = some .pending) :
      Effect poolLimit s (.fulfil i value) { s with promises := s.promises.set i (.fulfilled value) }
  | removed (i : Nat) (value : R) (phase : s.phase ≠ .looping)
      (due : s.promises[i]? = some (.fulfilled value)) :
      Effect poolLimit s (.callback i)
        { s with
          promises := s.promises.set i (.removed value)
          poolPromises := splice s.poolPromises i }
  | resumed (members : List Nat) (i : Nat) (phase : s.phase = .racing members) (raced : i ∈ members)
      (settled : s.memberSettled i = true) :
      Effect poolLimit s .resume { s with phase := .looping }
  | resolved (values : List R) (phase : s.phase = .collecting)
      (all : s.promises.mapM Settlement.value? = some values) :
      Effect poolLimit s .resolve { s with phase := .resolved values }

theorem step_effect {poolLimit : Nat} {s next : Pool T R} {event : Event R}
    (stepped : step poolLimit s event = some next) : Effect poolLimit s event next := by
  cases event with
  | next =>
    simp only [step] at stepped
    split at stepped
    · rename_i item rest phase items
      cases stepped
      exact .passed item rest phase items
    · rename_i phase items
      cases stepped
      exact .ended phase items
    · cases stepped
  | fulfil i value =>
    simp only [step] at stepped
    split at stepped
    · rename_i pending
      cases stepped
      exact .fulfilled i value pending
    · cases stepped
  | callback i =>
    simp only [step] at stepped
    split at stepped
    · cases stepped
    · rename_i value due phase
      cases stepped
      exact .removed i value phase due
    · cases stepped
  | resume =>
    simp only [step] at stepped
    split at stepped
    · rename_i members phase
      split at stepped
      · rename_i settles
        obtain ⟨i, raced, settled⟩ := List.any_eq_true.mp settles
        cases stepped
        exact .resumed members i phase raced settled
      · cases stepped
    · cases stepped
  | resolve =>
    simp only [step] at stepped
    split at stepped
    · rename_i values phase all
      cases stepped
      exact .resolved values phase all
    · cases stepped

/-- The members that have not settled. -/
def pendingMembers (s : Pool T R) : List Nat := s.promises.findIdxs Settlement.memberPending

theorem splice_of_mem {poolPromises : List Nat} {member : Nat} (present : member ∈ poolPromises) :
    splice poolPromises member = poolPromises.erase member := by
  rw [splice, if_pos present, List.erase_eq_eraseIdx_of_idxOf rfl]

/-- The induction is on the promises. -/
theorem findIdxs_set_erase {promises : List (Settlement R)} {i first : Nat} {old new : Settlement R}
    (there : promises[i]? = some old) (before : old.memberPending = true)
    (after : new.memberPending = false) :
    (promises.set i new).findIdxs Settlement.memberPending first =
      (promises.findIdxs Settlement.memberPending first).erase (i + first) := by
  induction promises generalizing i first with
  | nil => simp at there
  | cons promise rest ih =>
    cases i with
    | zero =>
      cases there
      simp [before, after]
    | succ i =>
      have later : (rest.set i new).findIdxs Settlement.memberPending (first + 1) =
          (rest.findIdxs Settlement.memberPending (first + 1)).erase (i + (first + 1)) := ih there
      have same : i + (first + 1) = i + 1 + first := by omega
      rw [same] at later
      rw [List.set_cons_succ, List.findIdxs_cons, List.findIdxs_cons, later]
      split
      · rw [List.erase_cons_tail (by simp)]
      · rfl

/-- An update that a reading of the promises does not see. -/
theorem map_set_same {β : Type} (read : Settlement R → β) {promises : List (Settlement R)} {i : Nat}
    {old new : Settlement R} (there : promises[i]? = some old) (same : read new = read old) :
    (promises.set i new).map read = promises.map read := by
  induction promises generalizing i with
  | nil => cases there
  | cons promise rest ih =>
    cases i with
    | zero =>
      cases there
      simp [same]
    | succ i => rw [List.set_cons_succ, List.map_cons, List.map_cons, ih there]

theorem findIdxs_set_same {promises : List (Settlement R)} {i : Nat} {old new : Settlement R}
    (there : promises[i]? = some old) (same : new.memberPending = old.memberPending) :
    (promises.set i new).findIdxs Settlement.memberPending =
      promises.findIdxs Settlement.memberPending := by
  have read (all : List (Settlement R)) : all.findIdxs Settlement.memberPending =
      (all.map Settlement.memberPending).findIdxs id := by
    rw [List.findIdxs_map]
    rfl
  rw [read, read, map_set_same _ there same]

theorem mem_pendingMembers {s : Pool T R} {i : Nat} :
    i ∈ pendingMembers s ↔
      ∃ promise, s.promises[i]? = some promise ∧ promise.memberPending = true := by
  unfold pendingMembers
  rw [List.mem_findIdxs_iff_exists_getElem_pos]
  constructor
  · rintro ⟨inside, waits⟩
    exact ⟨_, List.getElem?_eq_getElem inside, waits⟩
  · rintro ⟨promise, there, waits⟩
    obtain ⟨inside, rfl⟩ := List.getElem?_eq_some_iff.mp there
    exact ⟨inside, waits⟩

/-- The members of a race: the list of the pool when it began. -/
structure Raced (poolLimit : Nat) (s : Pool T R) (members : List Nat) : Prop where
  left : s.poolPromises.Sublist members
  full : members.length ≤ poolLimit
  nonempty : members ≠ []
  made : ∀ i ∈ members, i < s.promises.length

def InPhase (poolLimit : Nat) (s : Pool T R) : PoolPhase R → Prop
  | .looping => s.poolPromises.length < poolLimit
  | .racing members => Raced poolLimit s members
  | .collecting => s.items = []
  | .resolved values => s.items = [] ∧ s.promises.map Settlement.value? = values.map some

structure Bookkept (poolLimit : Nat) (items : List T) (s : Pool T R) : Prop where
  called : s.called ++ s.items = items
  made : s.promises.length = s.called.length
  members : s.poolPromises = pendingMembers s
  bounded : s.poolPromises.length ≤ poolLimit
  inPhase : InPhase poolLimit s s.phase

theorem bookkept_start {poolLimit : Nat} (positive : 1 ≤ poolLimit) (items : List T) :
    Bookkept poolLimit items (start items : Pool T R) where
  called := rfl
  made := rfl
  members := rfl
  bounded := Nat.zero_le _
  inPhase := positive

section
variable {poolLimit : Nat} {items : List T} {s : Pool T R}

theorem bookkept_takeItem (kept : Bookkept poolLimit items s) {item : T} {rest : List T}
    (phase : s.phase = .looping) (next : s.items = item :: rest) :
    Bookkept poolLimit items (s.takeItem poolLimit item rest) := by
  have room : s.poolPromises.length < poolLimit := by
    have here := kept.inPhase
    rwa [phase] at here
  have members : s.poolPromises ++ [s.promises.length] =
      pendingMembers (s.takeItem poolLimit item rest) := by
    rw [kept.members]
    simp [pendingMembers, takeItem, Settlement.memberPending, List.findIdxs_append]
  have length : (s.poolPromises ++ [s.promises.length]).length = s.poolPromises.length + 1 := by simp
  constructor
  case called => simpa [takeItem, next] using kept.called
  case made => simp [takeItem, kept.made]
  case members => exact members
  case bounded => exact length ▸ room
  case inPhase =>
    by_cases full : (s.poolPromises ++ [s.promises.length]).length ≥ poolLimit
    · have racing : (s.takeItem poolLimit item rest).phase =
          .racing (s.poolPromises ++ [s.promises.length]) := if_pos full
      rw [racing]
      refine ⟨List.Sublist.refl _, length ▸ room, by simp, ?_⟩
      intro i member
      rw [members, mem_pendingMembers] at member
      obtain ⟨promise, there, _⟩ := member
      exact (List.getElem?_eq_some_iff.mp there).1
    · have looping : (s.takeItem poolLimit item rest).phase = .looping := if_neg full
      rw [looping]
      exact Nat.lt_of_not_le full

theorem bookkept_fulfil (kept : Bookkept poolLimit items s) {i : Nat} (value : R)
    (pending : s.promises[i]? = some .pending) :
    Bookkept poolLimit items { s with promises := s.promises.set i (.fulfilled value) } := by
  have same : (s.promises.set i (.fulfilled value)).findIdxs Settlement.memberPending =
      pendingMembers s := findIdxs_set_same pending rfl
  have here := kept.inPhase
  constructor
  case called => exact kept.called
  case made => simpa using kept.made
  case members => exact kept.members.trans same.symm
  case bounded => exact kept.bounded
  case inPhase =>
    change InPhase poolLimit _ s.phase
    cases phase : s.phase with
    | looping =>
      rw [phase] at here
      exact here
    | racing members =>
      rw [phase] at here
      exact ⟨here.left, here.full, here.nonempty, by simpa using here.made⟩
    | collecting =>
      rw [phase] at here
      exact here
    | resolved values =>
      -- Nothing is pending any more.
      rw [phase] at here
      have unfulfilled : none ∈ s.promises.map Settlement.value? :=
        List.mem_map.mpr ⟨.pending, List.mem_of_getElem? pending, rfl⟩
      rw [here.2] at unfulfilled
      simp at unfulfilled

theorem bookkept_callback (kept : Bookkept poolLimit items s) {i : Nat} {value : R}
    (waits : s.phase ≠ .looping) (due : s.promises[i]? = some (.fulfilled value)) :
    Bookkept poolLimit items
      { s with
        promises := s.promises.set i (.removed value)
        poolPromises := splice s.poolPromises i } := by
  have present : i ∈ s.poolPromises := by
    rw [kept.members, mem_pendingMembers]
    exact ⟨_, due, rfl⟩
  have erased := splice_of_mem present
  have shorter : (splice s.poolPromises i).Sublist s.poolPromises := by
    rw [erased]
    exact List.erase_sublist
  have here := kept.inPhase
  constructor
  case called => exact kept.called
  case made => simpa using kept.made
  case members =>
    change splice s.poolPromises i = _
    rw [erased, kept.members]
    exact (findIdxs_set_erase due rfl rfl).symm
  case bounded => exact Nat.le_trans shorter.length_le kept.bounded
  case inPhase =>
    change InPhase poolLimit _ s.phase
    cases phase : s.phase with
    | looping => exact absurd phase waits
    | racing members =>
      rw [phase] at here
      exact ⟨shorter.trans here.left, here.full, here.nonempty, by simpa using here.made⟩
    | collecting =>
      rw [phase] at here
      exact here
    | resolved values =>
      rw [phase] at here
      have same : (s.promises.set i (.removed value)).map Settlement.value? =
          s.promises.map Settlement.value? := map_set_same _ due rfl
      exact ⟨here.1, same.trans here.2⟩

/-- The race was between all members, and one of them has left the list. -/
theorem bookkept_resume (kept : Bookkept poolLimit items s) {members : List Nat} {i : Nat}
    (phase : s.phase = .racing members) (raced : i ∈ members)
    (settled : s.memberSettled i = true) :
    Bookkept poolLimit items { s with phase := .looping } := by
  have race : Raced poolLimit s members := by
    have here := kept.inPhase
    rwa [phase] at here
  have gone : i ∉ s.poolPromises := by
    rw [kept.members, mem_pendingMembers]
    rintro ⟨promise, there, waits⟩
    simp [memberSettled, there, waits] at settled
  have fewer : s.poolPromises.length < members.length := by
    apply Nat.lt_of_le_of_ne race.left.length_le
    intro same
    exact gone (race.left.eq_of_length same ▸ raced)
  exact ⟨kept.called, kept.made, kept.members, kept.bounded, Nat.lt_of_lt_of_le fewer race.full⟩

theorem map_of_mapM {promises : List (Settlement R)} {values : List R}
    (all : promises.mapM Settlement.value? = some values) :
    promises.map Settlement.value? = values.map some := by
  induction promises generalizing values with
  | nil =>
    cases all
    rfl
  | cons promise rest ih =>
    rw [List.mapM_cons] at all
    obtain ⟨value, own, all⟩ := Option.bind_eq_some_iff.mp all
    obtain ⟨others, later, all⟩ := Option.bind_eq_some_iff.mp all
    cases all
    rw [List.map_cons, List.map_cons, own, ih later]

theorem bookkept_step (kept : Bookkept poolLimit items s) {event : Event R} {next : Pool T R}
    (stepped : step poolLimit s event = some next) : Bookkept poolLimit items next := by
  cases step_effect stepped with
  | passed item rest phase next => exact bookkept_takeItem kept phase next
  | ended phase none_left =>
    exact ⟨kept.called, kept.made, kept.members, kept.bounded, none_left⟩
  | fulfilled i value pending => exact bookkept_fulfil kept value pending
  | removed i value phase due => exact bookkept_callback kept phase due
  | resumed members i phase raced settled => exact bookkept_resume kept phase raced settled
  | resolved values phase all =>
    have none_left : s.items = [] := by
      have here := kept.inPhase
      rwa [phase] at here
    exact ⟨kept.called, kept.made, kept.members, kept.bounded, none_left, map_of_mapM all⟩

theorem pending_le (kept : Bookkept poolLimit items s) :
    s.promises.countP Settlement.isPending ≤ poolLimit := by
  have waits : s.promises.countP Settlement.isPending ≤
      s.promises.countP Settlement.memberPending := by
    apply List.countP_mono_left
    intro promise _ pending
    cases promise with
    | pending => rfl
    | fulfilled value => rfl
    | removed value => cases pending
  have bounded := kept.bounded
  rw [kept.members, pendingMembers, List.length_findIdxs] at bounded
  exact Nat.le_trans waits bounded

theorem mem_poolPromises (kept : Bookkept poolLimit items s) (i : Nat) :
    i ∈ s.poolPromises ↔
      s.promises[i]? = some .pending ∨ ∃ value, s.promises[i]? = some (.fulfilled value) := by
  rw [kept.members, mem_pendingMembers]
  constructor
  · rintro ⟨promise, there, waits⟩
    cases promise with
    | pending => exact .inl there
    | fulfilled value => exact .inr ⟨value, there⟩
    | removed value => cases waits
  · rintro (there | ⟨value, there⟩) <;> exact ⟨_, there, rfl⟩

theorem results_of_resolved (kept : Bookkept poolLimit items s) {values : List R}
    (phase : s.phase = .resolved values) :
    s.called = items ∧ values.length = items.length ∧
      s.promises.map Settlement.value? = values.map some := by
  have here := kept.inPhase
  rw [phase] at here
  have called : s.called = items := by
    have all := kept.called
    rwa [here.1, List.append_nil] at all
  have lengths := congrArg List.length here.2
  rw [List.length_map, List.length_map, kept.made, called] at lengths
  exact ⟨called, lengths.symm, here.2⟩

theorem bookkept_run (positive : 1 ≤ poolLimit) {events : List (Event R)}
    (legal : Trace.run (step poolLimit) (start items) events = some s) :
    Bookkept poolLimit items s := by
  apply Trace.run_invariant (bookkept_start positive items) _ legal
  intro before event next kept stepped
  exact bookkept_step kept stepped

end

/-! ## The results -/

/-- What a promise was fulfilled with. -/
def valueOf (s : Pool T R) (i : Nat) : Option R := (s.promises[i]?).bind Settlement.value?

theorem valueOf_set {s : Pool T R} {i j : Nat} {old new : Settlement R} {value : R}
    (there : s.promises[i]? = some old) (same : old.value? = none ∨ new.value? = old.value?)
    (known : valueOf s j = some value) :
    ((s.promises.set i new)[j]?).bind Settlement.value? = some value := by
  by_cases here : i = j
  · subst here
    obtain ⟨inside, _⟩ := List.getElem?_eq_some_iff.mp there
    rw [valueOf, there] at known
    have own : old.value? = some value := known
    rw [List.getElem?_set_self inside]
    rcases same with unknown | equal
    · rw [unknown] at own
      cases own
    · exact equal.trans own
  · rw [List.getElem?_set_ne here]
    exact known

/-- A value stays once it is there. -/
theorem valueOf_step {poolLimit : Nat} {s next : Pool T R} {event : Event R}
    (stepped : step poolLimit s event = some next) {j : Nat} {value : R}
    (known : valueOf s j = some value) : valueOf next j = some value := by
  cases step_effect stepped with
  | passed item rest phase items =>
    have inside : j < s.promises.length := by
      by_contra outside
      rw [valueOf, List.getElem?_eq_none (Nat.le_of_not_lt outside)] at known
      cases known
    rw [valueOf, takeItem, List.getElem?_append_left inside]
    exact known
  | ended phase items => exact known
  | fulfilled i new pending => exact valueOf_set pending (.inl rfl) known
  | removed i old phase due => exact valueOf_set due (.inr rfl) known
  | resumed members i phase raced settled => exact known
  | resolved values phase all => exact known

theorem valueOf_run {poolLimit : Nat} {items : List T} {s : Pool T R} {events : List (Event R)}
    (legal : Trace.run (step poolLimit) (start items) events = some s) :
    ∀ i value, .fulfil i value ∈ events → valueOf s i = some value := by
  refine Trace.run_induction
    (P := fun seen s => ∀ i value, .fulfil i value ∈ seen → valueOf s i = some value) ?_ ?_ legal
  · intro i value member
    cases member
  · intro seen before event next _ known stepped i value member
    rcases List.mem_append.mp member with earlier | now
    · exact valueOf_step stepped (known i value earlier)
    · cases List.mem_singleton.mp now
      cases step_effect stepped with
      | fulfilled i value pending =>
        obtain ⟨inside, _⟩ := List.getElem?_eq_some_iff.mp pending
        rw [valueOf, List.getElem?_set_self inside]
        rfl

theorem result_of_valueOf {s : Pool T R} {values : List R}
    (all : s.promises.map Settlement.value? = values.map some) {i : Nat} {value : R}
    (known : valueOf s i = some value) : values[i]? = some value := by
  obtain ⟨promise, there, own⟩ := Option.bind_eq_some_iff.mp known
  have read : (s.promises.map Settlement.value?)[i]? = some (some value) := by
    rw [List.getElem?_map, there, Option.map_some, own]
  rw [all, List.getElem?_map] at read
  obtain ⟨result, found, same⟩ := Option.map_eq_some_iff.mp read
  rw [found, Option.some.inj same]

/-! ## Progress -/

def phaseWork : PoolPhase R → Nat
  | .racing _ => 3
  | .looping => 2
  | .collecting => 1
  | .resolved _ => 0

/-- What is left to do: an item takes a pass of the loop with the race after it, the
fulfilment of its promise and the callback. -/
def work (s : Pool T R) : Nat :=
  4 * s.items.length + s.promises.countP Settlement.isPending +
    s.promises.countP Settlement.memberPending + phaseWork s.phase

theorem countP_set_add (p : Settlement R → Bool) {promises : List (Settlement R)} {i : Nat}
    {old : Settlement R} (there : promises[i]? = some old) (new : Settlement R) :
    (promises.set i new).countP p + (p old).toNat = promises.countP p + (p new).toNat := by
  induction promises generalizing i with
  | nil => cases there
  | cons promise rest ih =>
    cases i with
    | zero =>
      cases there
      cases before : p old <;> cases after : p new <;> simp [before, after]
    | succ i =>
      have later := ih there
      simp only [List.set_cons_succ, List.countP_cons]
      omega

theorem work_step {poolLimit : Nat} {s next : Pool T R} {event : Event R}
    (stepped : step poolLimit s event = some next) : work next < work s := by
  cases step_effect stepped with
  | passed item rest phase items =>
    have most : phaseWork (s.takeItem poolLimit item rest).phase ≤ 3 := by
      cases (s.takeItem poolLimit item rest).phase <;> simp [phaseWork]
    simp only [work, phase, items]
    simp [takeItem, phaseWork, Settlement.isPending, Settlement.memberPending] at most ⊢
    omega
  | ended phase items => simp [work, phase, phaseWork]
  | fulfilled i value pending =>
    have fewer := countP_set_add Settlement.isPending pending (.fulfilled value)
    have same := countP_set_add Settlement.memberPending pending (.fulfilled value)
    simp only [Settlement.isPending, Settlement.memberPending, Bool.toNat_true, Bool.toNat_false]
      at fewer same
    simp only [work]
    omega
  | removed i value phase due =>
    have same := countP_set_add Settlement.isPending due (.removed value)
    have fewer := countP_set_add Settlement.memberPending due (.removed value)
    simp only [Settlement.isPending, Settlement.memberPending, Bool.toNat_true, Bool.toNat_false]
      at fewer same
    simp only [work]
    omega
  | resumed members i phase raced settled => simp [work, phase, phaseWork]
  | resolved values phase all => simp [work, phase, phaseWork]

theorem work_run {poolLimit : Nat} {items : List T} {s : Pool T R} {events : List (Event R)}
    (legal : Trace.run (step poolLimit) (start items) events = some s) :
    work s + events.length ≤ 4 * items.length + 2 := by
  refine Trace.run_induction (P := fun seen s => work s + seen.length ≤ 4 * items.length + 2)
    ?_ ?_ legal
  · simp [work, start, phaseWork]
  · intro seen before event next _ bound stepped
    have less := work_step stepped
    rw [List.length_append, List.length_singleton]
    omega

/-- All promises have fulfilled and nothing can happen any more. -/
structure Stopped (poolLimit : Nat) (s : Pool T R) : Prop where
  fulfilled : ∀ promise ∈ s.promises, promise ≠ .pending
  stuck : ∀ event, step poolLimit s event = none

theorem mapM_of_fulfilled {promises : List (Settlement R)}
    (fulfilled : ∀ promise ∈ promises, promise ≠ .pending) :
    ∃ values, promises.mapM Settlement.value? = some values := by
  induction promises with
  | nil => exact ⟨[], rfl⟩
  | cons promise rest ih =>
    rw [List.forall_mem_cons] at fulfilled
    obtain ⟨values, later⟩ := ih fulfilled.2
    rw [List.mapM_cons, later]
    cases promise with
    | pending => exact absurd rfl fulfilled.1
    | fulfilled value => exact ⟨value :: values, rfl⟩
    | removed value => exact ⟨value :: values, rfl⟩

theorem resolved_of_stopped {poolLimit : Nat} {items : List T} {s : Pool T R}
    (kept : Bookkept poolLimit items s) (stopped : Stopped poolLimit s) :
    ∃ values, s.phase = .resolved values := by
  have here := kept.inPhase
  cases phase : s.phase with
  | looping =>
    have stuck := stopped.stuck .next
    cases left : s.items <;> simp [step, phase, left] at stuck
  | racing members =>
    -- A member that was raced has its callback due or lets the loop go on.
    rw [phase] at here
    obtain ⟨i, raced⟩ := List.exists_mem_of_ne_nil members here.nonempty
    obtain ⟨promise, there⟩ : ∃ promise, s.promises[i]? = some promise :=
      ⟨_, List.getElem?_eq_getElem (here.made i raced)⟩
    cases promise with
    | pending => exact absurd rfl (stopped.fulfilled _ (List.mem_of_getElem? there))
    | fulfilled value =>
      have stuck := stopped.stuck (.callback i)
      simp [step, phase, there] at stuck
    | removed value =>
      have stuck := stopped.stuck .resume
      have settled : s.memberSettled i = true := by
        simp [memberSettled, there, Settlement.memberPending]
      have settles : members.any s.memberSettled = true := List.any_eq_true.mpr ⟨i, raced, settled⟩
      simp [step, phase, settles] at stuck
  | collecting =>
    obtain ⟨values, all⟩ := mapM_of_fulfilled stopped.fulfilled
    have stuck := stopped.stuck .resolve
    simp [step, phase, all] at stuck
  | resolved values => exact ⟨values, rfl⟩

/-- Whatever the order in which the promises fulfil, no more than `poolLimit` are pending
at once, the iterator is called once for each item in their order, the list of the pool
holds the members whose callback has not run, and the results are in the order of the
items. A run has a bounded number of steps and ends with the results. -/
theorem pool_bounded (poolLimit : Nat) (positive : 1 ≤ poolLimit) (items : List T)
    {events : List (Event R)} {s : Pool T R}
    (legal : Trace.run (step poolLimit) (start items) events = some s) :
    s.promises.countP Settlement.isPending ≤ poolLimit ∧
    (s.called ++ s.items = items ∧ s.promises.length = s.called.length) ∧
    (s.poolPromises = pendingMembers s ∧
      ∀ i, i ∈ s.poolPromises ↔
        s.promises[i]? = some .pending ∨ ∃ value, s.promises[i]? = some (.fulfilled value)) ∧
    (∀ values, s.phase = .resolved values →
      s.called = items ∧ values.length = items.length ∧
        ∀ i value, .fulfil i value ∈ events → values[i]? = some value) ∧
    events.length ≤ 4 * items.length + 2 ∧
    (Stopped poolLimit s → ∃ values, s.phase = .resolved values) := by
  have kept := bookkept_run positive legal
  have bound := work_run legal
  refine ⟨pending_le kept, ⟨kept.called, kept.made⟩, ⟨kept.members, mem_poolPromises kept⟩, ?_,
    by omega, resolved_of_stopped kept⟩
  intro values phase
  obtain ⟨called, length, all⟩ := results_of_resolved kept phase
  refine ⟨called, length, ?_⟩
  intro i value fulfilled
  exact result_of_valueOf all (valueOf_run legal i value fulfilled)

/-- Two places and three items; the second promise fulfils before the first, and both
callbacks run before the loop goes on. -/
def crossing : List (Event Nat) :=
  [.next, .next, .fulfil 1 20, .fulfil 0 10, .callback 1, .callback 0, .resume, .next,
    .next, .fulfil 2 30, .callback 2, .resolve]

def crossed : Pool Char Nat :=
  { items := []
    called := ['a', 'b', 'c']
    promises := [.removed 10, .removed 20, .removed 30]
    poolPromises := []
    phase := .resolved [10, 20, 30] }

theorem crossed_stopped : Stopped 2 crossed where
  fulfilled := by decide
  stuck := by
    intro event
    cases event with
    | next => rfl
    | resume => rfl
    | resolve => rfl
    | fulfil i value => rcases i with _ | _ | _ | i <;> rfl
    | callback i => rcases i with _ | _ | _ | i <;> rfl

theorem crossing_bounded :
    crossed.promises.countP Settlement.isPending ≤ 2 ∧
      (∀ i value, .fulfil i value ∈ crossing → [10, 20, 30][i]? = some value) ∧
      ∃ values, crossed.phase = .resolved values := by
  have legal : Trace.run (step 2) (start ['a', 'b', 'c']) crossing = some crossed := rfl
  have bounded := pool_bounded 2 (by decide) ['a', 'b', 'c'] legal
  exact ⟨bounded.1, (bounded.2.2.2.1 _ rfl).2.2, bounded.2.2.2.2.2 crossed_stopped⟩

end BrightCli.Guarantees.BoundedPool
