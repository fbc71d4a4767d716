import BrightCli.Source.Mcp.RepeaterTools

/-!
# The registry of repeater processes

What a step can do to the registry is one of four things: nothing that matters,
a new entry for an id with no running one, the exit of a child, or the removal
of an entry that is not running (`Effect`). It follows that no live child is
ever lost from the registry. The converse fails: an entry counts as running
until its child exits, and a child that was never spawned does not exit. Such an
entry stays for good, so an id is free of ghosts, at whatever later moment,
exactly when every accepted call of `run` spawned its process.
-/
namespace BrightCli.Guarantees.RepeaterRegistry
open BrightCli.Lib BrightCli.Source.Mcp BrightCli.Source.Mcp.RepeaterTools

/-- What the registry depends on in an entry. -/
structure Vital where
  id : String
  pid : Option Nat
  exited : Bool
  exitedAt : Option Nat

def vital (entry : RepeaterProcessEntry) : Vital :=
  { id := entry.id, pid := entry.child.pid, exited := entry.child.exited, exitedAt := entry.exitedAt }

/-- The entries are the same as far as the registry is concerned. -/
def SameVitals (tools next : RepeaterTools) : Prop :=
  next.entries.map vital = tools.entries.map vital

/-- A call of `run` that is accepted can spawn its process. -/
def Spawns (tools : RepeaterTools) : Event → Prop
  | .run input context env spawn _ =>
    (∃ id token, tools.accept input.id = .ok id ∧ resolveToken context env = .ok token) →
      spawn ≠ .failed
  | _ => True

inductive Effect (tools : RepeaterTools) (event : Event) (next : RepeaterTools) : Prop where
  | quiet (spawns : Spawns tools event) (vitals : SameVitals tools next)
      (processes : next.processes = tools.processes)
  | registered (entry : RepeaterProcessEntry) (named : entry.id ≠ "")
      (spawned : entry.child.pid.isSome ↔ Spawns tools event)
      (free : tools.accept (some entry.id) = .ok entry.id)
      (fresh : entry.child.exited = false ∧ entry.exitedAt = none)
      (entries : next.entries = tools.entries ++ [entry])
      (processes : next.processes = tools.processes.set entry.id tools.entries.length)
  | exited (i : Nat) (entry : RepeaterProcessEntry) (code : Option Int) (now : Nat)
      (spawns : Spawns tools event) (found : tools.entries[i]? = some entry) (alive : entry.child.live = true)
      (entries : next.entries = tools.entries.modify i (markExited code now))
      (processes : next.processes = tools.processes)
  | removed (i : Nat) (entry : RepeaterProcessEntry) (spawns : Spawns tools event)
      (found : tools.entries[i]? = some entry) (filed : tools.processes.get? entry.id = some i) (idle : isRunning entry = false)
      (entries : next.entries = tools.entries)
      (processes : next.processes = tools.processes.delete entry.id)

/-- An update that a reading does not see. -/
theorem map_modify_eq {β : Type} (read : RepeaterProcessEntry → β)
    (entries : List RepeaterProcessEntry) (i : Nat)
    (update : RepeaterProcessEntry → RepeaterProcessEntry)
    (keeps : ∀ entry, read (update entry) = read entry) :
    (entries.modify i update).map read = entries.map read := by
  apply List.ext_getElem?
  intro j
  rw [List.getElem?_map, List.getElem?_map, List.getElem?_modify]
  cases entries[j]? with
  | none => rfl
  | some entry =>
    by_cases same : i = j
    · simp [same, keeps]
    · simp [same]

/-- The listener for `error` and the signals sent are all that calls for an entry
change in it before its child exits. -/
inductive Touched (entries : List RepeaterProcessEntry) : List RepeaterProcessEntry → Prop where
  | same : Touched entries entries
  | failed {next : List RepeaterProcessEntry} (before : Touched entries next) (i : Nat)
      (message : String) : Touched entries (next.modify i (markFailed message))
  | signalled {next : List RepeaterProcessEntry} (before : Touched entries next) (i : Nat)
      (signal : String) : Touched entries (next.modify i (markSignalled signal))

theorem Touched.trans {first second third : List RepeaterProcessEntry}
    (left : Touched first second) (right : Touched second third) : Touched first third := by
  induction right with
  | same => exact left
  | failed _ i message ih => exact ih.failed i message
  | signalled _ i signal ih => exact ih.signalled i signal

theorem Touched.vitals {tools next : RepeaterTools} (touched : Touched tools.entries next.entries) :
    SameVitals tools next := by
  unfold SameVitals
  generalize next.entries = entries at touched
  induction touched with
  | same => rfl
  | failed _ i message ih => rw [map_modify_eq vital _ i (markFailed message) fun _ => rfl, ih]
  | signalled _ i signal ih => rw [map_modify_eq vital _ i (markSignalled signal) fun _ => rfl, ih]

theorem emitError_quiet (tools : RepeaterTools) (i : Nat) (message : String) :
    Touched tools.entries (tools.emitError i message).entries ∧
      (tools.emitError i message).processes = tools.processes := by
  unfold emitError
  split
  · exact ⟨.same, rfl⟩
  · split
    · exact ⟨Touched.same.failed i message, rfl⟩
    · exact ⟨.same, rfl⟩

theorem kill_quiet (tools : RepeaterTools) (i : Nat) (signal : String) (outcome : Kill) :
    Touched tools.entries (tools.kill i signal outcome).1.entries ∧
      (tools.kill i signal outcome).1.processes = tools.processes := by
  cases outcome with
  | done => exact ⟨Touched.same.signalled i signal, rfl⟩
  | emits message => exact emitError_quiet tools i message
  | throws message => exact ⟨.same, rfl⟩

theorem stop_quiet (tools : RepeaterTools) (input : RepeaterStopToolInput) (outcome : Kill) :
    Touched tools.entries (tools.orUnchanged (tools.stop input outcome)).entries ∧
      (tools.orUnchanged (tools.stop input outcome)).processes = tools.processes := by
  cases named : requireId input.id with
  | error message => simp [stop, named, bind, Except.bind, orUnchanged, Touched.same]
  | ok id =>
    cases found : tools.requireEntry id with
    | error message => simp [stop, named, found, bind, Except.bind, orUnchanged, Touched.same]
    | ok pair =>
      by_cases running : isRunning pair.2 = true
      · have quiet := kill_quiet tools pair.1 (input.signal.getD "SIGTERM") outcome
        simpa [stop, named, found, bind, Except.bind, orUnchanged, running] using quiet
      · simp [stop, named, found, bind, Except.bind, orUnchanged, running, Touched.same]

/-- The calls that `stopAll` makes, one id after the other. -/
theorem stopAll_quiet (tools : RepeaterTools) (outcomes : String → Kill) :
    Touched tools.entries (tools.stopAll outcomes).entries ∧
      (tools.stopAll outcomes).processes = tools.processes := by
  unfold stopAll
  generalize tools.processes.keys = ids
  induction ids generalizing tools with
  | nil => exact ⟨.same, rfl⟩
  | cons id rest ih =>
    have one := stop_quiet tools { id := some id, signal := none } (outcomes id)
    have others := ih (tools.orUnchanged
      (tools.stop { id := some id, signal := none } (outcomes id)))
    exact ⟨one.1.trans others.1, others.2.trans one.2⟩

theorem continueStop_quiet (tools next : RepeaterTools) (k : Nat) (call : StopCall)
    (entry : RepeaterProcessEntry) (outcome : Kill)
    (continued : tools.continueStop k call entry outcome = some next) :
    Touched tools.entries next.entries ∧ next.processes = tools.processes := by
  unfold continueStop at continued
  have quiet := kill_quiet tools call.entry "SIGKILL" outcome
  cases phase : call.phase with
  | terminating =>
    simp only [phase] at continued
    split at continued
    · split at continued
      all_goals
        rename_i killed
        rw [killed] at quiet
        cases continued
        exact quiet
    · cases continued
      exact ⟨.same, rfl⟩
  | killing =>
    simp only [phase] at continued
    cases continued
    exact ⟨.same, rfl⟩
  | returned status => simp [phase] at continued
  | threw message => simp [phase] at continued

theorem named_of_requireId {given : Option String} {id : String} (ok : requireId given = .ok id) :
    given = some id ∧ id ≠ "" := by
  unfold requireId at ok
  split at ok
  · split at ok
    · cases ok
    · rename_i named
      cases ok
      exact ⟨rfl, named⟩
  · cases ok

theorem accepted_of_accept {tools : RepeaterTools} {given : Option String} {id : String}
    (ok : tools.accept given = .ok id) :
    id ≠ "" ∧ tools.accept (some id) = .ok id := by
  have kept := ok
  unfold accept at ok
  cases checked : requireId given with
  | error message => simp [checked, bind, Except.bind] at ok
  | ok found =>
    obtain ⟨rfl, named⟩ := named_of_requireId checked
    simp only [checked, bind, Except.bind] at ok
    have same : found = id := by
      split at ok
      · split at ok
        · cases ok
        · cases ok
          rfl
      · cases ok
        rfl
    subst same
    exact ⟨named, kept⟩

/-- A call of `run` that is not refused registers a new entry. -/
theorem run_effect (tools : RepeaterTools) (input : RepeaterRunToolInput)
    (context env : Option String) (spawn : Spawn) (now : Nat) :
    Effect tools (.run input context env spawn now)
      (tools.orUnchanged (tools.run input context env spawn now)) := by
  unfold RepeaterTools.run
  cases accepted : tools.accept input.id with
  | error message =>
    refine .quiet ?_ rfl rfl
    rintro ⟨id, token, ok, _⟩
    rw [accepted] at ok
    cases ok
  | ok id =>
    obtain ⟨named, free⟩ := accepted_of_accept accepted
    cases resolved : resolveToken context env with
    | error message =>
      refine .quiet ?_ rfl rfl
      rintro ⟨id, token, _, ok⟩
      rw [resolved] at ok
      cases ok
    | ok token =>
      cases spawn with
      | started pid =>
        refine .registered (newEntry id (some pid) _ now) named ?_ free ⟨rfl, rfl⟩ rfl rfl
        simp [newEntry, Spawns]
      | failed =>
        refine .registered (newEntry id none _ now) named ?_ free ⟨rfl, rfl⟩ rfl rfl
        simp [newEntry, Spawns, accepted, resolved]
      | throws message => exact .quiet (by simp [Spawns]) rfl rfl

theorem step_effect {tools next : RepeaterTools} {event : Event}
    (stepped : step tools event = some next) : Effect tools event next := by
  cases event with
  | run input context env spawn now =>
    cases stepped
    exact run_effect tools input context env spawn now
  | childError i message =>
    simp only [step] at stepped
    split at stepped
    · cases stepped
      obtain ⟨touched, processes⟩ := emitError_quiet tools i message
      exact .quiet trivial touched.vitals processes
    · cases stepped
  | childExit i code signal now =>
    simp only [step] at stepped
    split at stepped
    · rename_i entry found
      split at stepped
      · rename_i alive
        cases stepped
        exact .exited i entry code now trivial found alive rfl rfl
      · cases stepped
    · cases stepped
  | graceElapsed k =>
    simp only [step] at stepped
    split at stepped
    · split at stepped
      · cases stepped
        exact .quiet trivial rfl rfl
      · cases stepped
    · cases stepped
  | runResumed k =>
    simp only [step] at stepped
    split at stepped
    · rename_i call _
      split at stepped
      · rename_i failure entry _ found
        cases stepped
        cases failure with
        | none => exact .quiet trivial rfl rfl
        | some message =>
          by_cases cleans : tools.processes.get? entry.id = some call.entry ∧
              isRunning entry = false
          · refine .removed call.entry entry trivial found cleans.1 cleans.2 rfl ?_
            exact if_pos cleans
          · refine .quiet trivial rfl ?_
            exact if_neg cleans
      · cases stepped
    · cases stepped
  | stop input outcome =>
    cases stepped
    obtain ⟨touched, processes⟩ := stop_quiet tools input outcome
    exact .quiet trivial touched.vitals processes
  | stopResumed k outcome =>
    simp only [step] at stepped
    split at stepped
    · split at stepped
      · obtain ⟨touched, processes⟩ := continueStop_quiet tools next k _ _ outcome stepped
        exact .quiet trivial touched.vitals processes
      · cases stepped
    · cases stepped
  | stopAll outcomes =>
    cases stepped
    obtain ⟨touched, processes⟩ := stopAll_quiet tools outcomes
    exact .quiet trivial touched.vitals processes
  | status id =>
    cases stepped
    exact .quiet trivial rfl rfl

/-- Every entry that counts as running is the one registered for its id. -/
structure Kept (tools : RepeaterTools) : Prop where
  stamped : ∀ (i : Nat) entry, tools.entries[i]? = some entry →
    isRunning entry = !entry.child.exited
  spawned : ∀ (i : Nat) entry, tools.entries[i]? = some entry → entry.child.exited = true →
    entry.child.pid.isSome
  named : ∀ (i : Nat) entry, tools.entries[i]? = some entry → entry.id ≠ ""
  filed : ∀ id i, tools.processes.get? id = some i →
    ∃ entry, tools.entries[i]? = some entry ∧ entry.id = id
  held : ∀ (i : Nat) entry, tools.entries[i]? = some entry → isRunning entry = true →
    tools.processes.get? entry.id = some i

theorem SameVitals.back {tools next : RepeaterTools} (same : SameVitals tools next) {i : Nat}
    {entry : RepeaterProcessEntry} (found : next.entries[i]? = some entry) :
    ∃ old, tools.entries[i]? = some old ∧ vital old = vital entry := by
  have mapped : (tools.entries.map vital)[i]? = some (vital entry) := by
    rw [← same, List.getElem?_map, found]
    rfl
  rw [List.getElem?_map] at mapped
  exact Option.map_eq_some_iff.mp mapped

theorem SameVitals.symm {tools next : RepeaterTools} (same : SameVitals tools next) :
    SameVitals next tools := Eq.symm same

theorem kept_init : Kept init where
  stamped _ _ found := by simp [init] at found
  spawned _ _ found := by simp [init] at found
  named _ _ found := by simp [init] at found
  filed id i found := by simp [init, InsertionMap.get?] at found
  held _ _ found := by simp [init] at found

theorem kept_quiet {tools next : RepeaterTools} (kept : Kept tools) (vitals : SameVitals tools next)
    (processes : next.processes = tools.processes) : Kept next := by
  refine ⟨?_, ?_, ?_, ?_, ?_⟩
  · intro i entry found
    obtain ⟨old, present, same⟩ := vitals.back found
    injection same with id pid exited exitedAt
    have stamped := kept.stamped i old present
    rwa [isRunning, exitedAt, exited] at stamped
  · intro i entry found gone
    obtain ⟨old, present, same⟩ := vitals.back found
    injection same with id pid exited exitedAt
    rw [← pid]
    exact kept.spawned i old present (exited.trans gone)
  · intro i entry found
    obtain ⟨old, present, same⟩ := vitals.back found
    injection same with id pid exited exitedAt
    rw [← id]
    exact kept.named i old present
  · intro id i filed
    rw [processes] at filed
    obtain ⟨old, present, owner⟩ := kept.filed id i filed
    obtain ⟨entry, found, same⟩ := vitals.symm.back present
    injection same with same_id
    exact ⟨entry, found, same_id.trans owner⟩
  · intro i entry found running
    obtain ⟨old, present, same⟩ := vitals.back found
    injection same with id pid exited exitedAt
    rw [processes, ← id]
    refine kept.held i old present ?_
    rwa [isRunning, exitedAt]

/-- What `accept` lets through is not registered as running. -/
theorem not_running_of_accepted {tools : RepeaterTools} {id : String}
    (free : tools.accept (some id) = .ok id) {i : Nat} {entry : RepeaterProcessEntry}
    (found : tools.entries[i]? = some entry) (filed : tools.processes.get? id = some i) :
    isRunning entry = false := by
  have looked : tools.lookup? id = some (i, entry) := by simp [lookup?, filed, found]
  by_contra running
  rw [Bool.not_eq_false] at running
  cases checked : requireId (some id) with
  | error message => simp [accept, checked, bind, Except.bind] at free
  | ok same =>
    cases (named_of_requireId checked).1
    simp [accept, checked, bind, Except.bind, looked, running] at free

theorem getElem?_append_one {entries : List RepeaterProcessEntry} {added entry : RepeaterProcessEntry}
    {i : Nat} (found : (entries ++ [added])[i]? = some entry) :
    entries[i]? = some entry ∨ (i = entries.length ∧ entry = added) := by
  rw [List.getElem?_append] at found
  split at found
  · exact Or.inl found
  · rename_i beyond
    obtain ⟨position, same⟩ := List.getElem?_eq_some_iff.mp found
    simp only [List.length_singleton] at position
    refine Or.inr ⟨by omega, ?_⟩
    simpa using same.symm

theorem kept_registered {tools next : RepeaterTools} (kept : Kept tools)
    (entry : RepeaterProcessEntry) (named : entry.id ≠ "")
    (free : tools.accept (some entry.id) = .ok entry.id)
    (fresh : entry.child.exited = false ∧ entry.exitedAt = none)
    (entries : next.entries = tools.entries ++ [entry])
    (processes : next.processes = tools.processes.set entry.id tools.entries.length) :
    Kept next := by
  have old_or_new : ∀ i other, next.entries[i]? = some other →
      tools.entries[i]? = some other ∨ (i = tools.entries.length ∧ other = entry) := by
    intro i other found
    rw [entries] at found
    exact getElem?_append_one found
  refine ⟨?_, ?_, ?_, ?_, ?_⟩
  · intro i other found
    rcases old_or_new i other found with present | ⟨_, rfl⟩
    · exact kept.stamped i other present
    · simp [isRunning, fresh]
  · intro i other found gone
    rcases old_or_new i other found with present | ⟨_, rfl⟩
    · exact kept.spawned i other present gone
    · rw [fresh.1] at gone
      cases gone
  · intro i other found
    rcases old_or_new i other found with present | ⟨_, rfl⟩
    · exact kept.named i other present
    · exact named
  · intro id i filed
    rw [processes, InsertionMap.get?_set] at filed
    split at filed
    · rename_i same
      cases filed
      exact ⟨entry, by simp [entries], same⟩
    · obtain ⟨other, present, owner⟩ := kept.filed id i filed
      refine ⟨other, ?_, owner⟩
      rw [entries, List.getElem?_append_left (List.getElem?_eq_some_iff.mp present).1]
      exact present
  · intro i other found running
    rw [processes, InsertionMap.get?_set]
    rcases old_or_new i other found with present | ⟨rfl, rfl⟩
    · -- An entry that runs is registered, so the new one is for another id.
      have filed := kept.held i other present running
      split
      · rename_i same
        rw [← same] at filed
        rw [not_running_of_accepted free present filed] at running
        cases running
      · exact filed
    · simp

theorem getElem?_exited {entries : List RepeaterProcessEntry} {i j : Nat} {code : Option Int}
    {now : Nat} {entry : RepeaterProcessEntry}
    (found : (entries.modify i (markExited code now))[j]? = some entry) :
    ∃ old, entries[j]? = some old ∧
      ((i ≠ j ∧ entry = old) ∨ (i = j ∧ entry = markExited code now old)) := by
  rw [List.getElem?_modify] at found
  obtain ⟨old, present, rfl⟩ := Option.map_eq_some_iff.mp found
  refine ⟨old, present, ?_⟩
  by_cases same : i = j
  · exact Or.inr ⟨same, if_pos same⟩
  · exact Or.inl ⟨same, if_neg same⟩

theorem kept_exited {tools next : RepeaterTools} (kept : Kept tools) (i : Nat)
    (entry : RepeaterProcessEntry) (code : Option Int) (now : Nat)
    (found : tools.entries[i]? = some entry) (alive : entry.child.live = true)
    (entries : next.entries = tools.entries.modify i (markExited code now))
    (processes : next.processes = tools.processes) : Kept next := by
  have back : ∀ j other, next.entries[j]? = some other → ∃ old, tools.entries[j]? = some old ∧
      ((i ≠ j ∧ other = old) ∨ (i = j ∧ other = markExited code now old)) := by
    intro j other present
    rw [entries] at present
    exact getElem?_exited present
  refine ⟨?_, ?_, ?_, ?_, ?_⟩
  · intro j other present
    obtain ⟨old, before, ⟨_, rfl⟩ | ⟨_, rfl⟩⟩ := back j other present
    · exact kept.stamped j other before
    · rfl
  · intro j other present gone
    obtain ⟨old, before, ⟨_, rfl⟩ | ⟨rfl, rfl⟩⟩ := back j other present
    · exact kept.spawned j other before gone
    · rw [found] at before
      cases before
      rw [ChildProcess.live, Bool.and_eq_true] at alive
      exact alive.1
  · intro j other present
    obtain ⟨old, before, ⟨_, rfl⟩ | ⟨_, rfl⟩⟩ := back j other present
    · exact kept.named j other before
    · exact kept.named j old before
  · intro id j filed
    rw [processes] at filed
    obtain ⟨old, before, owner⟩ := kept.filed id j filed
    rw [entries, List.getElem?_modify, before]
    refine ⟨_, rfl, ?_⟩
    split <;> exact owner
  · intro j other present running
    rw [processes]
    obtain ⟨old, before, ⟨_, rfl⟩ | ⟨_, rfl⟩⟩ := back j other present
    · exact kept.held j other before running
    · cases running

theorem kept_removed {tools next : RepeaterTools} (kept : Kept tools) (i : Nat)
    (entry : RepeaterProcessEntry) (found : tools.entries[i]? = some entry)
    (filed : tools.processes.get? entry.id = some i) (idle : isRunning entry = false)
    (entries : next.entries = tools.entries)
    (processes : next.processes = tools.processes.delete entry.id) : Kept next := by
  refine ⟨?_, ?_, ?_, ?_, ?_⟩
  · rw [entries]
    exact kept.stamped
  · rw [entries]
    exact kept.spawned
  · rw [entries]
    exact kept.named
  · intro id j present
    rw [processes, InsertionMap.get?_delete] at present
    split at present
    · cases present
    · rw [entries]
      exact kept.filed id j present
  · intro j other present running
    rw [entries] at present
    rw [processes, InsertionMap.get?_delete]
    have own := kept.held j other present running
    split
    · rename_i same
      rw [← same, filed] at own
      cases own
      rw [found] at present
      cases present
      rw [idle] at running
      cases running
    · exact own

theorem kept_step {tools next : RepeaterTools} {event : Event} (kept : Kept tools)
    (stepped : step tools event = some next) : Kept next := by
  cases step_effect stepped with
  | quiet _ vitals processes => exact kept_quiet kept vitals processes
  | registered entry named _ free fresh entries processes =>
    exact kept_registered kept entry named free fresh entries processes
  | exited i entry code now _ found alive entries processes =>
    exact kept_exited kept i entry code now found alive entries processes
  | removed i entry _ found filed idle entries processes =>
    exact kept_removed kept i entry found filed idle entries processes

theorem kept_run {events : List Event} {tools : RepeaterTools}
    (reached : Trace.run step init events = some tools) : Kept tools :=
  Trace.run_invariant kept_init (fun _ _ _ kept stepped => kept_step kept stepped) reached

theorem running_of_live {tools : RepeaterTools} (kept : Kept tools) {i : Nat}
    {entry : RepeaterProcessEntry} (found : tools.entries[i]? = some entry)
    (alive : entry.child.live = true) : isRunning entry = true := by
  rw [kept.stamped i entry found]
  rw [ChildProcess.live, Bool.and_eq_true] at alive
  exact alive.2

theorem lookup?_of_filed {tools : RepeaterTools} {id : String} {i : Nat}
    {entry : RepeaterProcessEntry} (filed : tools.processes.get? id = some i)
    (found : tools.entries[i]? = some entry) : tools.lookup? id = some (i, entry) := by
  simp [lookup?, filed, found]

theorem requireId_of_named {id : String} (named : id ≠ "") : requireId (some id) = .ok id :=
  if_neg named

/-- `stop` signals the child of the entry registered for the id. -/
theorem stop_signals {tools : RepeaterTools} {id : String} (named : id ≠ "") {i : Nat}
    {entry : RepeaterProcessEntry} (found : tools.lookup? id = some (i, entry))
    (running : isRunning entry = true) (signal : Option String) :
    (tools.orUnchanged (tools.stop { id := some id, signal } .done)).entries =
      tools.entries.modify i (markSignalled (signal.getD "SIGTERM")) := by
  have required : tools.requireEntry id = .ok (i, entry) := by simp [requireEntry, found]
  simp [stop, requireId_of_named named, required, bind, Except.bind, running, kill, orUnchanged]

/-- `stop` adds to the signals of a child and takes none back. -/
theorem stop_keeps_signals (tools : RepeaterTools) (input : RepeaterStopToolInput) {i : Nat}
    {entry : RepeaterProcessEntry} (found : tools.entries[i]? = some entry) :
    ∃ later, (tools.orUnchanged (tools.stop input .done)).entries[i]? = some later ∧
      ∀ signal ∈ entry.child.signals, signal ∈ later.child.signals := by
  cases named : requireId input.id with
  | error message =>
    refine ⟨entry, ?_, fun _ member => member⟩
    simpa [stop, named, bind, Except.bind, orUnchanged] using found
  | ok id =>
    cases looked : tools.requireEntry id with
    | error message =>
      refine ⟨entry, ?_, fun _ member => member⟩
      simpa [stop, named, looked, bind, Except.bind, orUnchanged] using found
    | ok pair =>
      by_cases running : isRunning pair.2 = true
      · refine ⟨if pair.1 = i then markSignalled (input.signal.getD "SIGTERM") entry else entry, ?_, ?_⟩
        · simp [stop, named, looked, bind, Except.bind, orUnchanged, running, kill,
            List.getElem?_modify, found]
        · intro signal member
          split
          · exact List.mem_append_left _ member
          · exact member
      · refine ⟨entry, ?_, fun _ member => member⟩
        simpa [stop, named, looked, bind, Except.bind, orUnchanged, running] using found

/-- The calls of `stop` for a list of ids, one of which is that of a running entry. -/
theorem stops_signal (ids : List String) (tools : RepeaterTools) {i : Nat}
    {entry : RepeaterProcessEntry} (found : tools.entries[i]? = some entry) (named : entry.id ≠ "")
    (running : isRunning entry = true) (filed : tools.processes.get? entry.id = some i)
    (signalled : entry.id ∈ ids ∨ "SIGTERM" ∈ entry.child.signals) :
    ∃ later, (ids.foldl (fun tools id => tools.orUnchanged
        (tools.stop { id := some id, signal := none } .done)) tools).entries[i]? = some later ∧
      "SIGTERM" ∈ later.child.signals := by
  induction ids generalizing tools entry with
  | nil => exact ⟨entry, found, signalled.resolve_left (List.not_mem_nil)⟩
  | cons id rest ih =>
    obtain ⟨later, present, kept⟩ :=
      stop_keeps_signals tools { id := some id, signal := none } found
    have quiet := stop_quiet tools { id := some id, signal := none } .done
    obtain ⟨old, before, same⟩ := quiet.1.vitals.back present
    rw [found] at before
    cases before
    injection same with same_id _ _ same_stamp
    refine ih _ present (same_id ▸ named) ?_ ?_ ?_
    · rwa [isRunning, ← same_stamp]
    · rw [quiet.2, ← same_id]
      exact filed
    · rcases signalled with member | before
      · rcases List.mem_cons.mp member with rfl | tail
        · -- The turn of this id: its entry is the one that is signalled.
          refine Or.inr ?_
          rw [stop_signals named (lookup?_of_filed filed found) running none,
            List.getElem?_modify, found] at present
          cases present
          simp [markSignalled]
        · exact Or.inl (same_id ▸ tail)
      · exact Or.inr (kept _ before)

/-- No live child is lost: there is one for an id at most, it is the child of the
entry registered for the id, and `stop` and `stopAll` reach it. -/
structure Safe (tools : RepeaterTools) : Prop where
  unique : ∀ (i j : Nat) first second, tools.entries[i]? = some first →
    tools.entries[j]? = some second → first.child.live = true → second.child.live = true →
    first.id = second.id → i = j
  registered : ∀ (i : Nat) entry, tools.entries[i]? = some entry → entry.child.live = true →
    tools.lookup? entry.id = some (i, entry)
  stopped : ∀ (i : Nat) entry signal, tools.entries[i]? = some entry → entry.child.live = true →
    (tools.orUnchanged (tools.stop { id := some entry.id, signal } .done)).entries =
      tools.entries.modify i (markSignalled (signal.getD "SIGTERM"))
  allStopped : ∀ (i : Nat) entry, tools.entries[i]? = some entry → entry.child.live = true →
    ∃ later, (tools.stopAll fun _ => .done).entries[i]? = some later ∧
      "SIGTERM" ∈ later.child.signals

theorem safe_of_kept {tools : RepeaterTools} (kept : Kept tools) : Safe tools := by
  have held : ∀ (i : Nat) entry, tools.entries[i]? = some entry → entry.child.live = true →
      tools.processes.get? entry.id = some i := fun i entry found alive =>
    kept.held i entry found (running_of_live kept found alive)
  refine ⟨?_, ?_, ?_, ?_⟩
  · intro i j first second found₁ found₂ alive₁ alive₂ same
    have filed := held i first found₁ alive₁
    rw [same, held j second found₂ alive₂] at filed
    cases filed
    rfl
  · intro i entry found alive
    exact lookup?_of_filed (held i entry found alive) found
  · intro i entry signal found alive
    exact stop_signals (kept.named i entry found)
      (lookup?_of_filed (held i entry found alive) found) (running_of_live kept found alive) signal
  · intro i entry found alive
    have filed := held i entry found alive
    refine stops_signal _ tools found (kept.named i entry found)
      (running_of_live kept found alive) filed (Or.inl ?_)
    exact List.mem_map_of_mem (tools.processes.key_mem_of_get? entry.id i filed)

/-- Safety of the registry along every interleaving of calls and events. -/
theorem registry_safe (events : List Event) (tools : RepeaterTools)
    (reached : Trace.run step init events = some tools) : Safe tools :=
  safe_of_kept (kept_run reached)

/-- The request for a repeater that the concrete runs start with. -/
def runRequest (id : String) (spawn : Spawn) : Event :=
  .run { id := some id, hostname := none } (some "token") none spawn 0

/-- Two calls for one id overlap: the second is refused, the first child exits
before its call resumes, and a third call takes its place. -/
def overlappingCalls : List Event :=
  [runRequest "r" (.started 1), runRequest "r" (.started 2), .childExit 0 (some 1) none 5,
    runRequest "r" (.started 3), .runResumed 0]

theorem registry_safe_overlapping :
    ∃ tools, Trace.run step init overlappingCalls = some tools ∧ tools.entries.length = 2 ∧
      Safe tools :=
  ⟨_, rfl, rfl, registry_safe overlappingCalls _ rfl⟩

/-- The child of no entry for the id is alive. -/
def NoneAlive (tools : RepeaterTools) (id : String) : Prop :=
  ∀ entry ∈ tools.entries, entry.id = id → entry.child.live = false

/-- An id whose child is not alive is not reported as running: `run` takes it, and
`status` does not know it or says that it does not run. -/
def NoGhost (tools : RepeaterTools) : Prop :=
  ∀ id, id ≠ "" → NoneAlive tools id →
    tools.accept (some id) = .ok id ∧
    (tools.status (some id) = .error (unknownProcess id) ∨
      ∃ status, tools.status (some id) = .ok status ∧ status.running = false)

def AllSpawned (tools : RepeaterTools) : Prop := ∀ entry ∈ tools.entries, entry.child.pid.isSome

theorem noGhost_of_allSpawned {tools : RepeaterTools} (kept : Kept tools)
    (spawned : AllSpawned tools) : NoGhost tools := by
  intro id named dead
  have required := requireId_of_named named
  cases found : tools.lookup? id with
  | none =>
    refine ⟨by simp [accept, required, bind, Except.bind, found], Or.inl ?_⟩
    simp [status, required, bind, Except.bind, requireEntry, found]
  | some pair =>
    obtain ⟨i, filed, at_i⟩ := Option.bind_eq_some_iff.mp found
    obtain ⟨entry, present, rfl⟩ := Option.map_eq_some_iff.mp at_i
    obtain ⟨other, same, owner⟩ := kept.filed id i filed
    rw [present] at same
    cases same
    have member := List.mem_of_getElem? present
    have idle : isRunning entry = false := by
      have ended := dead entry member owner
      rw [kept.stamped i entry present]
      simpa [ChildProcess.live, spawned entry member] using ended
    refine ⟨by simp [accept, required, bind, Except.bind, found, idle], Or.inr ⟨toStatus entry, ?_, idle⟩⟩
    simp [status, required, bind, Except.bind, requireEntry, found]

/-- A child that was not spawned never exits, so its entry is there for good. -/
theorem allSpawned_of_noGhost {tools : RepeaterTools} (kept : Kept tools)
    (clean : NoGhost tools) : AllSpawned tools := by
  intro entry member
  by_contra unspawned
  obtain ⟨i, present⟩ := List.mem_iff_getElem?.mp member
  have never : entry.child.exited = false := by
    by_contra gone
    exact unspawned (kept.spawned i entry present (by simpa using gone))
  have running : isRunning entry = true := by rw [kept.stamped i entry present, never]; rfl
  have filed := kept.held i entry present running
  have dead : NoneAlive tools entry.id := by
    intro other belongs same
    obtain ⟨j, at_j⟩ := List.mem_iff_getElem?.mp belongs
    by_contra alive
    rw [Bool.not_eq_false] at alive
    -- Both would be registered for the id, so the live child would be the missing one.
    have own := kept.held j other at_j (running_of_live kept at_j alive)
    rw [same, filed] at own
    cases own
    rw [present] at at_j
    cases at_j
    simp [ChildProcess.live] at alive
    exact unspawned alive.1
  have taken := (clean entry.id (kept.named i entry present) dead).1
  rw [not_running_of_accepted taken present filed] at running
  cases running

def pids (tools : RepeaterTools) : List (Option Nat) := tools.entries.map (·.child.pid)

theorem allSpawned_congr {tools next : RepeaterTools} (same : pids next = pids tools) :
    AllSpawned next ↔ AllSpawned tools := by
  have read : ∀ current : RepeaterTools,
      AllSpawned current ↔ ∀ pid ∈ pids current, pid.isSome := by
    intro current
    simp [AllSpawned, pids]
  rw [read, read, same]

theorem SameVitals.pids {tools next : RepeaterTools} (same : SameVitals tools next) :
    pids next = pids tools := by
  have read : ∀ current : RepeaterTools,
      RepeaterRegistry.pids current = (current.entries.map vital).map (·.pid) := by
    intro current
    simp [RepeaterRegistry.pids, vital]
  rw [read, read, same]

/-- Exactly the accepted calls that cannot spawn leave an entry without a process. -/
theorem allSpawned_step {tools next : RepeaterTools} {event : Event}
    (stepped : step tools event = some next) :
    AllSpawned next ↔ AllSpawned tools ∧ Spawns tools event := by
  cases step_effect stepped with
  | quiet spawns vitals processes =>
    rw [allSpawned_congr vitals.pids, and_iff_left spawns]
  | registered entry named spawned free fresh entries processes =>
    simp only [AllSpawned, entries, List.forall_mem_append, List.forall_mem_singleton, spawned]
  | exited i entry code now spawns found alive entries processes =>
    rw [and_iff_left spawns]
    refine allSpawned_congr ?_
    rw [pids, entries]
    exact map_modify_eq _ _ _ _ fun _ => rfl
  | removed i entry spawns found filed idle entries processes =>
    rw [AllSpawned, entries, and_iff_left spawns]
    rfl

theorem allSpawned_run {events : List Event} {tools : RepeaterTools}
    (reached : Trace.run step init events = some tools) :
    AllSpawned tools ↔ Trace.EachStep step init Spawns events := by
  refine Trace.run_induction
    (P := fun seen tools => AllSpawned tools ↔ Trace.EachStep step init Spawns seen) ?_ ?_ reached
  · simp [AllSpawned, init]
  · intro seen before event after arrived ih stepped
    rw [Trace.eachStep_snoc arrived, ← ih]
    exact allSpawned_step stepped

/-- After any run, however long, no id is a ghost exactly when every accepted
call of `run` spawned its process. -/
theorem no_ghost_iff (events : List Event) (tools : RepeaterTools)
    (reached : Trace.run step init events = some tools) :
    NoGhost tools ↔ Trace.EachStep step init Spawns events := by
  rw [← allSpawned_run reached]
  exact ⟨allSpawned_of_noGhost (kept_run reached), noGhost_of_allSpawned (kept_run reached)⟩

/-- A child that exits while its call waits, and one that was stopped. -/
theorem no_ghost_after_exits :
    ∃ tools, Trace.run step init
        [runRequest "r" (.started 1), .childExit 0 (some 1) none 5, .runResumed 0] = some tools ∧
      NoGhost tools := by
  refine ⟨_, rfl, (no_ghost_iff
    [runRequest "r" (.started 1), .childExit 0 (some 1) none 5, .runResumed 0] _ rfl).mpr ?_⟩
  rw [Trace.eachStep_cons rfl, Trace.eachStep_cons rfl, Trace.eachStep_cons rfl]
  refine ⟨?_, trivial, trivial, Trace.eachStep_nil _ _⟩
  intro _ failed
  cases failed

/-- The command cannot be spawned: the call is rejected with the error, and the
id is reported as running and refused from then on. -/
theorem unspawned_id_stays :
    ∃ tools, Trace.run step init
        [runRequest "r" .failed, .childError 0 "spawn ENOENT", .runResumed 0] = some tools ∧
      NoneAlive tools "r" ∧ tools.runs = [{ entry := 0, phase := .threw "spawn ENOENT" }] ∧
      tools.accept (some "r") = .error (alreadyRunning "r") ∧
      (∃ status, tools.status (some "r") = .ok status ∧ status.running = true) ∧
      ¬ NoGhost tools := by
  refine ⟨_, rfl, ?_, by decide, rfl, ⟨_, rfl, rfl⟩, ?_⟩
  · intro entry member _
    cases List.mem_singleton.mp member
    rfl
  · intro clean
    have taken := (clean "r" (by decide) ?_).1
    · cases taken
    · intro entry member _
      cases List.mem_singleton.mp member
      rfl

end BrightCli.Guarantees.RepeaterRegistry
