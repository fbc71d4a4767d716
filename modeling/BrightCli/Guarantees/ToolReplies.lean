import BrightCli.Lib.JsValue
import BrightCli.Lib.Weight
import BrightCli.Guarantees.RepeaterRegistry
import BrightCli.Source.Mcp.Server

/-!
# The replies of the MCP server

Calls of the tools interleave with each other, with the child processes and with the
timers. A step moves a call of `run` or `stop` on by one phase at most (`Advanced`), and
the status it returns is read from its own entry in that step. So a reply that is not an
error tells what the process of the requested id was at some moment between the request
and the reply; and since every phase can be left without the child doing anything, no
request stays without its reply.
-/
namespace BrightCli.Guarantees.ToolReplies
open BrightCli.Lib BrightCli.Source.Mcp BrightCli.Source.Mcp.RepeaterTools
open BrightCli.Guarantees.RepeaterRegistry (step_effect Effect SameVitals)

/-! ## What a step does to the calls of the tools -/

inductive RunMoved (entries : List RepeaterProcessEntry) (call : RunCall) : RunCall → Prop where
  | same : RunMoved entries call call
  | settled (waiting : call.phase = .waiting) (failure : Option String) :
      RunMoved entries call { call with phase := .settled failure }
  | returned (entry : RepeaterProcessEntry) (found : entries[call.entry]? = some entry) :
      RunMoved entries call { call with phase := .returned (toStatus entry) }
  | threw (message : String) : RunMoved entries call { call with phase := .threw message }

inductive StopMoved (entries : List RepeaterProcessEntry) (call : StopCall) : StopCall → Prop where
  | same : StopMoved entries call call
  | killing : StopMoved entries call { call with phase := .killing }
  | returned (entry : RepeaterProcessEntry) (found : entries[call.entry]? = some entry) :
      StopMoved entries call { call with phase := .returned (toStatus entry) }
  | threw (message : String) : StopMoved entries call { call with phase := .threw message }

structure Advanced (tools next : RepeaterTools) : Prop where
  runs : ∀ (k : Nat) call, tools.runs[k]? = some call →
    ∃ later, next.runs[k]? = some later ∧ RunMoved tools.entries call later
  stops : ∀ (k : Nat) call, tools.stops[k]? = some call →
    ∃ later, next.stops[k]? = some later ∧ StopMoved tools.entries call later
  ids : ∀ (i : Nat) entry, tools.entries[i]? = some entry →
    ∃ later, next.entries[i]? = some later ∧ later.id = entry.id

theorem effect_ids {tools next : RepeaterTools} {event : RepeaterTools.Event}
    (effect : Effect tools event next) (i : Nat) (entry : RepeaterProcessEntry)
    (found : tools.entries[i]? = some entry) :
    ∃ later, next.entries[i]? = some later ∧ later.id = entry.id := by
  cases effect with
  | quiet _ vitals _ =>
    obtain ⟨later, there, same⟩ := vitals.symm.back found
    exact ⟨later, there, congrArg RepeaterRegistry.Vital.id same⟩
  | registered _ _ _ _ _ entries _ =>
    obtain ⟨inside, _⟩ := List.getElem?_eq_some_iff.mp found
    exact ⟨entry, by rw [entries, List.getElem?_append_left inside, found], rfl⟩
  | exited j _ code now _ _ _ entries _ =>
    rw [entries, List.getElem?_modify, found]
    by_cases same : j = i
    · exact ⟨markExited code now entry, by simp [same], rfl⟩
    · exact ⟨entry, by simp [same], rfl⟩
  | removed _ _ _ _ _ _ entries _ => exact ⟨entry, by rw [entries, found], rfl⟩

/-- The steps that a call still has to take. -/
def runWeight (call : RunCall) : Nat :=
  match call.phase with
  | .waiting => 2
  | .settled _ => 1
  | _ => 0

def stopWeight (call : StopCall) : Nat :=
  match call.phase with
  | .terminating => 2
  | .killing => 1
  | _ => 0

/-- Calls of `run` that wait may have been settled. -/
structure Settled (before after : List RunCall) : Prop where
  calls : ∀ (k : Nat) call, before[k]? = some call → ∃ later, after[k]? = some later ∧
    (later = call ∨ (call.phase = .waiting ∧ ∃ failure, later = { call with phase := .settled failure }))
  lighter : weight runWeight after ≤ weight runWeight before

theorem Settled.refl (runs : List RunCall) : Settled runs runs :=
  ⟨fun _ call found => ⟨call, found, .inl rfl⟩, Nat.le_refl _⟩

theorem Settled.trans {first second third : List RunCall} (left : Settled first second)
    (right : Settled second third) : Settled first third := by
  refine ⟨?_, Nat.le_trans right.lighter left.lighter⟩
  intro k call found
  obtain ⟨mid, there, moved⟩ := left.calls k call found
  obtain ⟨later, arrived, again⟩ := right.calls k mid there
  refine ⟨later, arrived, ?_⟩
  rcases moved with rfl | ⟨waiting, failure, rfl⟩
  · exact again
  · rcases again with rfl | ⟨other, _⟩
    · exact .inr ⟨waiting, failure, rfl⟩
    · cases other

theorem Settled.moved {entries : List RepeaterProcessEntry} {before after : List RunCall}
    (settled : Settled before after) (k : Nat) (call : RunCall) (found : before[k]? = some call) :
    ∃ later, after[k]? = some later ∧ RunMoved entries call later := by
  obtain ⟨later, there, moved⟩ := settled.calls k call found
  refine ⟨later, there, ?_⟩
  rcases moved with rfl | ⟨waiting, failure, rfl⟩
  · exact .same
  · exact .settled waiting failure

theorem settle_settled (tools : RepeaterTools) (i : Nat) (failure : Option String) :
    Settled tools.runs (tools.settle i failure).runs := by
  constructor
  · intro k call found
    rw [settle, List.getElem?_map, found]
    refine ⟨_, rfl, ?_⟩
    by_cases own : call.entry = i ∧ call.phase = .waiting
    · exact .inr ⟨own.2, failure, if_pos own⟩
    · exact .inl (if_neg own)
  · refine weight_map_le runWeight _ ?_ tools.runs
    intro call
    split
    · rename_i own
      simp [runWeight, own.2]
    · exact Nat.le_refl _

theorem emitError_settled (tools : RepeaterTools) (i : Nat) (message : String) :
    Settled tools.runs (tools.emitError i message).runs ∧
      (tools.emitError i message).stops = tools.stops := by
  unfold emitError
  split
  · exact ⟨.refl _, rfl⟩
  · split
    · exact ⟨settle_settled _ _ _, rfl⟩
    · exact ⟨.refl _, rfl⟩

theorem kill_settled (tools : RepeaterTools) (i : Nat) (signal : String) (outcome : Kill) :
    Settled tools.runs (tools.kill i signal outcome).1.runs ∧
      (tools.kill i signal outcome).1.stops = tools.stops := by
  cases outcome with
  | done => exact ⟨.refl _, rfl⟩
  | emits message => exact emitError_settled tools i message
  | throws message => exact ⟨.refl _, rfl⟩

/-- A call of `stop` that is not refused is for the entry registered for its id. -/
structure Stopping (tools : RepeaterTools) (id : Option String) (next : RepeaterTools)
    (call : StopCall) : Prop where
  filed : ∃ name entry, id = some name ∧ tools.lookup? name = some (call.entry, entry) ∧
    ∀ status, call.phase = .returned status → status = toStatus entry ∧ next.entries = tools.entries
  stops : next.stops = tools.stops ++ [call]
  runs : Settled tools.runs next.runs

theorem stop_stopping {tools next : RepeaterTools} {input : RepeaterStopToolInput} {outcome : Kill}
    (accepted : tools.stop input outcome = .ok next) :
    ∃ call, Stopping tools input.id next call := by
  unfold RepeaterTools.stop at accepted
  cases named : requireId input.id with
  | error message => simp [named, bind, Except.bind] at accepted
  | ok id =>
    obtain ⟨given, -⟩ := RepeaterRegistry.named_of_requireId named
    cases found : tools.lookup? id with
    | none => simp [named, requireEntry, found, bind, Except.bind] at accepted
    | some pair =>
      obtain ⟨i, entry⟩ := pair
      simp only [named, requireEntry, found, bind, Except.bind] at accepted
      split at accepted
      · have settled := kill_settled tools i (input.signal.getD "SIGTERM") outcome
        obtain rfl := Except.ok.inj accepted
        refine ⟨_, ⟨id, entry, given, found, ?_⟩, by rw [settled.2], settled.1⟩
        intro status returned
        dsimp only at returned
        split at returned <;> cases returned
      · obtain rfl := Except.ok.inj accepted
        refine ⟨_, ⟨id, entry, given, found, ?_⟩, rfl, .refl _⟩
        intro status returned
        cases returned
        exact ⟨rfl, rfl⟩

theorem stop_settled (tools : RepeaterTools) (input : RepeaterStopToolInput) (outcome : Kill) :
    Settled tools.runs (tools.orUnchanged (tools.stop input outcome)).runs ∧
      tools.stops <+: (tools.orUnchanged (tools.stop input outcome)).stops := by
  cases accepted : tools.stop input outcome with
  | error message => exact ⟨.refl _, List.prefix_refl _⟩
  | ok next =>
    obtain ⟨call, stopping⟩ := stop_stopping accepted
    exact ⟨stopping.runs, call :: [], stopping.stops.symm⟩

theorem stopAll_settled (tools : RepeaterTools) (outcomes : String → Kill) :
    Settled tools.runs (tools.stopAll outcomes).runs ∧
      tools.stops <+: (tools.stopAll outcomes).stops := by
  unfold stopAll
  generalize tools.processes.keys = ids
  induction ids generalizing tools with
  | nil => exact ⟨.refl _, List.prefix_refl _⟩
  | cons id rest ih =>
    have one := stop_settled tools { id := some id, signal := none } (outcomes id)
    have others := ih (tools.orUnchanged
      (tools.stop { id := some id, signal := none } (outcomes id)))
    exact ⟨one.1.trans others.1, one.2.trans others.2⟩

theorem stops_kept {entries : List RepeaterProcessEntry} {before after : List StopCall}
    (pre : before <+: after) (k : Nat) (call : StopCall) (found : before[k]? = some call) :
    ∃ later, after[k]? = some later ∧ StopMoved entries call later := by
  obtain ⟨added, rfl⟩ := pre
  obtain ⟨inside, _⟩ := List.getElem?_eq_some_iff.mp found
  exact ⟨call, (List.getElem?_append_left inside).trans found, .same⟩

/-- A member of a list is replaced. -/
theorem moved_set {α : Type} {R : α → α → Prop} {tasks : List α} {k : Nat} {old new : α}
    (there : tasks[k]? = some old) (moved : R old new) (same : ∀ x, R x x) (j : Nat) (x : α)
    (found : tasks[j]? = some x) : ∃ later, (tasks.set k new)[j]? = some later ∧ R x later := by
  obtain ⟨inside, _⟩ := List.getElem?_eq_some_iff.mp there
  by_cases own : k = j
  · subst own
    obtain rfl := Option.some.inj (there.symm.trans found)
    exact ⟨new, List.getElem?_set_self inside, moved⟩
  · exact ⟨x, by rw [List.getElem?_set_ne own, found], same x⟩

/-- What `stop` does after an `await`. -/
structure Continued (tools next : RepeaterTools) (k : Nat) (call : StopCall)
    (entry : RepeaterProcessEntry) (later : StopCall) : Prop where
  moved : later = { call with phase := .killing } ∨
    later = { call with phase := .returned (toStatus entry) } ∨
    ∃ message, later = { call with phase := .threw message }
  lighter : stopWeight later < stopWeight call
  stops : next.stops = tools.stops.set k later
  runs : Settled tools.runs next.runs

theorem continueStop_continued {tools next : RepeaterTools} {k : Nat} {call : StopCall}
    {entry : RepeaterProcessEntry} {outcome : Kill}
    (continued : tools.continueStop k call entry outcome = some next) :
    ∃ later, Continued tools next k call entry later := by
  unfold continueStop at continued
  have settled := kill_settled tools call.entry "SIGKILL" outcome
  cases phase : call.phase with
  | terminating =>
    simp only [phase] at continued
    split at continued
    · split at continued
      · rename_i killed done
        rw [done] at settled
        cases continued
        exact ⟨_, .inl rfl, by simp [stopWeight, phase], by rw [← settled.2], settled.1⟩
      · rename_i killed message done
        rw [done] at settled
        cases continued
        exact ⟨_, .inr (.inr ⟨message, rfl⟩), by simp [stopWeight, phase], by rw [← settled.2],
          settled.1⟩
    · cases continued
      exact ⟨_, .inr (.inl rfl), by simp [stopWeight, phase], rfl, .refl _⟩
  | killing =>
    simp only [phase] at continued
    cases continued
    exact ⟨_, .inr (.inl rfl), by simp [stopWeight, phase], rfl, .refl _⟩
  | returned status => simp [phase] at continued
  | threw message => simp [phase] at continued

theorem Continued.stopMoved {tools next : RepeaterTools} {k : Nat} {call later : StopCall}
    {entry : RepeaterProcessEntry} (continued : Continued tools next k call entry later)
    (found : tools.entries[call.entry]? = some entry) : StopMoved tools.entries call later := by
  rcases continued.moved with rfl | rfl | ⟨message, rfl⟩
  · exact .killing
  · exact .returned entry found
  · exact .threw message

/-- A call of `run` that is not refused waits for its own entry. -/
theorem run_waiting {tools next : RepeaterTools} {input : RepeaterRunToolInput}
    {context env : Option String} {spawn : Spawn} {now : Nat}
    (accepted : tools.run input context env spawn now = .ok next) :
    ∃ entry, input.id = some entry.id ∧ next = tools.register entry := by
  unfold RepeaterTools.run at accepted
  cases found : tools.accept input.id with
  | error message => simp [found, bind, Except.bind] at accepted
  | ok id =>
    have given : input.id = some id := by
      unfold accept at found
      cases named : requireId input.id with
      | error message => simp [named, bind, Except.bind] at found
      | ok name =>
        obtain ⟨given, -⟩ := RepeaterRegistry.named_of_requireId named
        simp only [named, bind, Except.bind] at found
        split at found
        · split at found
          · cases found
          · cases found
            exact given
        · cases found
          exact given
    cases resolved : resolveToken context env with
    | error message => simp [found, resolved, bind, Except.bind] at accepted
    | ok token =>
      simp only [found, resolved, bind, Except.bind] at accepted
      cases spawn with
      | started pid => exact ⟨_, given, (Except.ok.inj accepted).symm⟩
      | failed => exact ⟨_, given, (Except.ok.inj accepted).symm⟩
      | throws message => cases accepted

theorem step_advanced {tools next : RepeaterTools} {event : RepeaterTools.Event}
    (stepped : RepeaterTools.step tools event = some next) : Advanced tools next := by
  have ids := effect_ids (step_effect stepped)
  have runs {k : Nat} {call : RunCall} := @Settled.moved tools.entries _ _ (.refl tools.runs) k call
  have stops {k : Nat} {call : StopCall} :=
    @stops_kept tools.entries _ _ (List.prefix_refl tools.stops) k call
  cases event with
  | run input context env spawn now =>
    cases stepped
    cases accepted : tools.run input context env spawn now with
    | error message => exact ⟨fun _ _ => runs, fun _ _ => stops, by rw [accepted] at ids; exact ids⟩
    | ok next =>
      rw [accepted] at ids
      obtain ⟨entry, -, rfl⟩ := run_waiting accepted
      refine ⟨fun k call found => ⟨call, ?_, .same⟩, fun _ _ => stops, ids⟩
      obtain ⟨inside, _⟩ := List.getElem?_eq_some_iff.mp found
      exact (List.getElem?_append_left inside).trans found
  | childError i message =>
    simp only [RepeaterTools.step] at stepped
    split at stepped
    · cases stepped
      obtain ⟨settled, kept⟩ := emitError_settled tools i message
      exact ⟨settled.moved, fun _ _ found => kept ▸ stops found, ids⟩
    · cases stepped
  | childExit i code signal now =>
    simp only [RepeaterTools.step] at stepped
    split at stepped
    · split at stepped
      · cases stepped
        exact ⟨(settle_settled _ i _).moved, fun _ _ => stops, ids⟩
      · cases stepped
    · cases stepped
  | graceElapsed k =>
    simp only [RepeaterTools.step] at stepped
    split at stepped
    · rename_i call found
      split at stepped
      · rename_i waiting
        cases stepped
        exact ⟨moved_set found (.settled waiting none) fun _ => .same, fun _ _ => stops, ids⟩
      · cases stepped
    · cases stepped
  | runResumed k =>
    simp only [RepeaterTools.step] at stepped
    split at stepped
    · rename_i call found
      split at stepped
      · rename_i failure entry _ own
        cases stepped
        cases failure with
        | none => exact ⟨moved_set found (.returned entry own) fun _ => .same, fun _ _ => stops, ids⟩
        | some message =>
          exact ⟨moved_set found (.threw message) fun _ => .same, fun _ _ => stops, ids⟩
      · cases stepped
    · cases stepped
  | stop input outcome =>
    cases stepped
    obtain ⟨settled, pre⟩ := stop_settled tools input outcome
    exact ⟨settled.moved, stops_kept pre, ids⟩
  | stopResumed k outcome =>
    simp only [RepeaterTools.step] at stepped
    split at stepped
    · rename_i call found
      split at stepped
      · rename_i entry own
        obtain ⟨later, continued⟩ := continueStop_continued stepped
        refine ⟨continued.runs.moved, ?_, ids⟩
        rw [continued.stops]
        exact moved_set found (continued.stopMoved own) fun _ => .same
      · cases stepped
    · cases stepped
  | stopAll outcomes =>
    cases stepped
    obtain ⟨settled, pre⟩ := stopAll_settled tools outcomes
    exact ⟨settled.moved, stops_kept pre, ids⟩
  | status id =>
    cases stepped
    exact ⟨fun _ _ => runs, fun _ _ => stops, ids⟩

/-! ## What is awaited -/

/-- The call of the tool is for a process of this id. -/
def Awaits (tools : RepeaterTools) (id : String) : ToolCall → Prop
  | .running k => ∃ call entry, tools.runs[k]? = some call ∧
      tools.entries[call.entry]? = some entry ∧ entry.id = id
  | .stopping k => ∃ call entry, tools.stops[k]? = some call ∧
      tools.entries[call.entry]? = some entry ∧ entry.id = id
  | .replied _ => True

theorem RunMoved.entry_eq {entries : List RepeaterProcessEntry} {call later : RunCall}
    (moved : RunMoved entries call later) : later.entry = call.entry := by
  cases moved <;> rfl

theorem StopMoved.entry_eq {entries : List RepeaterProcessEntry} {call later : StopCall}
    (moved : StopMoved entries call later) : later.entry = call.entry := by
  cases moved <;> rfl

theorem awaits_advanced {tools next : RepeaterTools} (advanced : Advanced tools next) {id : String}
    {call : ToolCall} (awaits : Awaits tools id call) : Awaits next id call := by
  cases call with
  | running k =>
    obtain ⟨run, entry, found, own, named⟩ := awaits
    obtain ⟨later, there, moved⟩ := advanced.runs k run found
    obtain ⟨now, held, same⟩ := advanced.ids run.entry entry own
    exact ⟨later, now, there, by rw [moved.entry_eq, held], same.trans named⟩
  | stopping k =>
    obtain ⟨stop, entry, found, own, named⟩ := awaits
    obtain ⟨later, there, moved⟩ := advanced.stops k stop found
    obtain ⟨now, held, same⟩ := advanced.ids stop.entry entry own
    exact ⟨later, now, there, by rw [moved.entry_eq, held], same.trans named⟩
  | replied result => trivial

variable {iso : Nat → String}

theorem lookup?_eq_some {tools : RepeaterTools} {id : String} {i : Nat}
    {entry : RepeaterProcessEntry} (kept : RepeaterRegistry.Kept tools)
    (found : tools.lookup? id = some (i, entry)) : tools.entries[i]? = some entry ∧ entry.id = id := by
  obtain ⟨j, filed, mapped⟩ := Option.bind_eq_some_iff.mp found
  obtain ⟨held, there, same⟩ := Option.map_eq_some_iff.mp mapped
  cases same
  obtain ⟨own, again, named⟩ := kept.filed id i filed
  obtain rfl := Option.some.inj (there.symm.trans again)
  exact ⟨there, named⟩

/-- A process of this id has this status. -/
def Reads (tools : RepeaterTools) (id : String) (status : RepeaterProcessStatus) : Prop :=
  ∃ entry ∈ tools.entries, entry.id = id ∧ toStatus entry = status

/-- A status that was returned, or sent in a reply, is one that was told. -/
def Reported (iso : Nat → String) (told : RepeaterProcessStatus → Prop) (tools : RepeaterTools) :
    ToolCall → Prop
  | .running k => ∀ call status, tools.runs[k]? = some call → call.phase = .returned status →
      told status
  | .stopping k => ∀ call status, tools.stops[k]? = some call → call.phase = .returned status →
      told status
  | .replied result => result.isError = true ∨ ∃ status, result = success iso status ∧ told status

theorem reported_advanced {tools next : RepeaterTools} (advanced : Advanced tools next) {id : String}
    {call : ToolCall} {told later : RepeaterProcessStatus → Prop} (awaits : Awaits tools id call)
    (reported : Reported iso told tools call) (keep : ∀ status, told status → later status)
    (read : ∀ status, Reads tools id status → later status) : Reported iso later next call := by
  cases call with
  | running k =>
    obtain ⟨run, entry, found, own, named⟩ := awaits
    obtain ⟨now, there, moved⟩ := advanced.runs k run found
    intro other status again returned
    obtain rfl := Option.some.inj (there.symm.trans again)
    cases moved with
    | same => exact keep status (reported run status found returned)
    | settled waiting failure => cases returned
    | returned held still =>
      cases returned
      obtain rfl := Option.some.inj (own.symm.trans still)
      exact read _ ⟨entry, List.mem_of_getElem? own, named, rfl⟩
    | threw message => cases returned
  | stopping k =>
    obtain ⟨stop, entry, found, own, named⟩ := awaits
    obtain ⟨now, there, moved⟩ := advanced.stops k stop found
    intro other status again returned
    obtain rfl := Option.some.inj (there.symm.trans again)
    cases moved with
    | same => exact keep status (reported stop status found returned)
    | killing => cases returned
    | returned held still =>
      cases returned
      obtain rfl := Option.some.inj (own.symm.trans still)
      exact read _ ⟨entry, List.mem_of_getElem? own, named, rfl⟩
    | threw message => cases returned
  | replied result =>
    rcases reported with error | ⟨status, same, told⟩
    · exact .inl error
    · exact .inr ⟨status, same, keep status told⟩

/-- What a call that is not refused at once leaves. -/
structure Begun (iso : Nat → String) (tools : RepeaterTools) (request : Server.Request)
    (next : RepeaterTools) (call : ToolCall) : Prop where
  step : ∃ event, RepeaterTools.step tools event = some next
  awaits : ∃ id, request.input.id = some id ∧ Awaits next id call ∧
    Reported iso (Reads next id) next call

theorem begun_run {tools next : RepeaterTools} {request : Server.Request}
    (accepted : tools.run { id := request.input.id, hostname := request.input.hostname }
      request.token request.env request.spawn request.now = .ok next) :
    Begun iso tools request next (.running tools.runs.length) := by
  refine ⟨⟨.run { id := request.input.id, hostname := request.input.hostname } request.token
    request.env request.spawn request.now, ?_⟩, ?_⟩
  · rw [RepeaterTools.step, accepted]
    rfl
  · obtain ⟨entry, given, rfl⟩ := run_waiting accepted
    have last : (tools.register entry).runs[tools.runs.length]? =
        some { entry := tools.entries.length, phase := .waiting } := by
      simp [register]
    refine ⟨entry.id, given, ⟨_, entry, last, by simp [register], rfl⟩, ?_⟩
    intro call status found returned
    obtain rfl := Option.some.inj (last.symm.trans found)
    cases returned

theorem begun_stop {tools next : RepeaterTools} {request : Server.Request}
    (kept : RepeaterRegistry.Kept tools)
    (accepted : tools.stop { id := request.input.id, signal := request.input.signal } request.kill =
      .ok next) :
    Begun iso tools request next (.stopping tools.stops.length) := by
  have stepped : RepeaterTools.step tools
      (.stop { id := request.input.id, signal := request.input.signal } request.kill) =
        some next := by
    rw [RepeaterTools.step, accepted]
    rfl
  refine ⟨⟨_, stepped⟩, ?_⟩
  obtain ⟨call, stopping⟩ := stop_stopping accepted
  obtain ⟨id, entry, given, filed, status⟩ := stopping.filed
  obtain ⟨held, named⟩ := lookup?_eq_some kept filed
  obtain ⟨later, there, same⟩ := (step_advanced stepped).ids call.entry entry held
  have last : next.stops[tools.stops.length]? = some call := by
    rw [stopping.stops]
    simp
  refine ⟨id, given, ⟨call, later, last, there, same.trans named⟩, ?_⟩
  intro other told found returned
  obtain rfl := Option.some.inj (last.symm.trans found)
  obtain ⟨rfl, entries⟩ := status told returned
  exact ⟨entry, entries ▸ List.mem_of_getElem? held, named, rfl⟩

theorem begun_status {tools : RepeaterTools} {request : Server.Request}
    {status : RepeaterProcessStatus} (kept : RepeaterRegistry.Kept tools)
    (accepted : tools.status request.input.id = .ok status) :
    Begun iso tools request tools (.replied (success iso status)) := by
  refine ⟨⟨.status none, rfl⟩, ?_⟩
  unfold RepeaterTools.status at accepted
  cases named : requireId request.input.id with
  | error message => simp [named, bind, Except.bind] at accepted
  | ok id =>
    obtain ⟨given, -⟩ := RepeaterRegistry.named_of_requireId named
    cases found : tools.lookup? id with
    | none => simp [named, requireEntry, found, bind, Except.bind] at accepted
    | some pair =>
      obtain ⟨i, entry⟩ := pair
      simp only [named, requireEntry, found, bind, Except.bind] at accepted
      obtain ⟨held, same⟩ := lookup?_eq_some kept found
      exact ⟨id, given, trivial, .inr ⟨status, rfl, entry, List.mem_of_getElem? held, same,
        Except.ok.inj accepted⟩⟩

theorem begun_executeTool {tools next : RepeaterTools} {request : Server.Request} {call : ToolCall}
    (kept : RepeaterRegistry.Kept tools)
    (accepted : Server.executeTool iso tools request = .ok (next, call)) :
    Begun iso tools request next call := by
  unfold Server.executeTool at accepted
  split at accepted
  · obtain ⟨after, ran, same⟩ := Js.bind_eq_ok_iff.mp accepted
    cases same
    exact begun_run ran
  · split at accepted
    · obtain ⟨after, stopped, same⟩ := Js.bind_eq_ok_iff.mp accepted
      cases same
      exact begun_stop kept stopped
    · split at accepted
      · obtain ⟨status, read, same⟩ := Js.bind_eq_ok_iff.mp accepted
        cases same
        exact begun_status kept read
      · cases accepted

/-! ## Steps of the server -/

inductive Taken (iso : Nat → String) (server next : Server) : Server.Event → Prop where
  | begun (request : Server.Request) (call : ToolCall)
      (begun : Begun iso server.tools request next.tools call)
      (calls : next.calls = server.calls ++ [call]) : Taken iso server next (.call request)
  | refused (request : Server.Request) (message : String) (tools : next.tools = server.tools)
      (calls : next.calls = server.calls ++ [.replied (failure message)]) :
      Taken iso server next (.call request)
  | replied (i : Nat) (call : ToolCall) (result : CallToolResult)
      (there : server.calls[i]? = some call) (ready : Server.outcome iso server.tools call = some result)
      (tools : next.tools = server.tools) (calls : next.calls = server.calls.set i (.replied result)) :
      Taken iso server next (.reply i)
  | inner {event : Server.Event} (inner : RepeaterTools.Event) (same : event.tools = some inner)
      (stepped : RepeaterTools.step server.tools inner = some next.tools)
      (calls : next.calls = server.calls) : Taken iso server next event

theorem step_taken {server next : Server} {event : Server.Event}
    (kept : RepeaterRegistry.Kept server.tools) (stepped : server.step iso event = some next) :
    Taken iso server next event := by
  have other (inner : RepeaterTools.Event) (same : event.tools = some inner)
      (stepped : (server.tools.step inner).bind (fun tools => some { server with tools }) = some next) :
      Taken iso server next event := by
    obtain ⟨tools, moved, same_next⟩ := Option.bind_eq_some_iff.mp stepped
    obtain rfl := Option.some.inj same_next
    exact .inner inner same moved rfl
  cases event with
  | call request =>
    obtain rfl := Option.some.inj stepped
    cases executed : Server.executeTool iso server.tools request with
    | ok pair =>
      obtain ⟨tools, call⟩ := pair
      refine .begun request call ?_ ?_ <;> simp only [Server.callTool, executed]
      exact begun_executeTool kept executed
    | error message =>
      refine .refused request message ?_ ?_ <;> simp only [Server.callTool, executed]
  | reply i =>
    obtain ⟨call, there, moved⟩ := Option.bind_eq_some_iff.mp stepped
    obtain ⟨result, ready, same⟩ := Option.bind_eq_some_iff.mp moved
    obtain rfl := Option.some.inj same
    exact .replied i call result there ready rfl rfl
  | childError i message => exact other _ rfl stepped
  | childExit i code signal now => exact other _ rfl stepped
  | graceElapsed k => exact other _ rfl stepped
  | runResumed k => exact other _ rfl stepped
  | stopResumed k outcome => exact other _ rfl stepped
  | close outcomes => exact other _ rfl stepped

/-- The tools take a step of their own or none. -/
theorem Taken.tools_step {server next : Server} {event : Server.Event}
    (taken : Taken iso server next event) :
    next.tools = server.tools ∨ ∃ inner, RepeaterTools.step server.tools inner = some next.tools := by
  cases taken with
  | begun request call begun calls => exact .inr begun.step
  | refused request message tools calls => exact .inl tools
  | replied i call result there ready tools calls => exact .inl tools
  | inner inner same stepped calls => exact .inr ⟨inner, stepped⟩

theorem advanced_refl (tools : RepeaterTools) : Advanced tools tools :=
  step_advanced (rfl : RepeaterTools.step tools (.status none) = some tools)

theorem Taken.advanced {server next : Server} {event : Server.Event}
    (taken : Taken iso server next event) : Advanced server.tools next.tools := by
  rcases taken.tools_step with same | ⟨inner, stepped⟩
  · rw [same]
    exact advanced_refl server.tools
  · exact step_advanced stepped

theorem Taken.kept {server next : Server} {event : Server.Event}
    (taken : Taken iso server next event) (kept : RepeaterRegistry.Kept server.tools) :
    RepeaterRegistry.Kept next.tools := by
  rcases taken.tools_step with same | ⟨inner, stepped⟩
  · rw [same]
    exact kept
  · exact RepeaterRegistry.kept_step kept stepped

theorem kept_run {events : List Server.Event} {server : Server}
    (ran : Trace.run (Server.step iso) Server.init events = some server) :
    RepeaterRegistry.Kept server.tools :=
  Trace.run_invariant (P := fun server => RepeaterRegistry.Kept server.tools)
    RepeaterRegistry.kept_init (fun _ _ _ kept stepped => (step_taken kept stepped).kept kept) ran

/-! ## One call from its request on -/

/-- A process of the id had the status at a moment of the run. -/
def Told (iso : Nat → String) (start : Server) (id : String) (seen : List Server.Event)
    (status : RepeaterProcessStatus) : Prop :=
  ∃ earlier mid, earlier <+: seen ∧ Trace.run (Server.step iso) start earlier = some mid ∧
    Reads mid.tools id status

theorem Told.later {start : Server} {id : String} {seen : List Server.Event}
    {status : RepeaterProcessStatus} (told : Told iso start id seen status) (event : Server.Event) :
    Told iso start id (seen ++ [event]) status := by
  obtain ⟨earlier, mid, pre, ran, reads⟩ := told
  exact ⟨earlier, mid, pre.trans (List.prefix_append seen [event]), ran, reads⟩

/-- What is known of the call at position `i` after the events since its request. -/
structure Tracked (iso : Nat → String) (start : Server) (i : Nat) (id : String)
    (seen : List Server.Event) (server : Server) : Prop where
  kept : RepeaterRegistry.Kept server.tools
  call : ∃ call, server.calls[i]? = some call ∧ Awaits server.tools id call ∧
    Reported iso (Told iso start id seen) server.tools call

/-- The reply says what the tool returned. -/
theorem reported_outcome {tools : RepeaterTools} {call : ToolCall} {result : CallToolResult}
    {told : RepeaterProcessStatus → Prop} (reported : Reported iso told tools call)
    (ready : Server.outcome iso tools call = some result) :
    Reported iso told tools (.replied result) := by
  cases call with
  | running k =>
    simp only [Server.outcome] at ready
    split at ready
    · rename_i status phase
      cases ready
      obtain ⟨run, found, returned⟩ := Option.map_eq_some_iff.mp phase
      exact .inr ⟨status, rfl, reported run status found returned⟩
    · cases ready
      exact .inl rfl
    · cases ready
  | stopping k =>
    simp only [Server.outcome] at ready
    split at ready
    · rename_i status phase
      cases ready
      obtain ⟨stop, found, returned⟩ := Option.map_eq_some_iff.mp phase
      exact .inr ⟨status, rfl, reported stop status found returned⟩
    · cases ready
      exact .inl rfl
    · cases ready
  | replied other => cases ready

theorem tracked_step {start server next : Server} {i : Nat} {id : String} {seen : List Server.Event}
    {event : Server.Event} (ran : Trace.run (Server.step iso) start seen = some server)
    (tracked : Tracked iso start i id seen server) (stepped : server.step iso event = some next) :
    Tracked iso start i id (seen ++ [event]) next := by
  obtain ⟨call, there, awaits, reported⟩ := tracked.call
  have taken := step_taken tracked.kept stepped
  have still := awaits_advanced taken.advanced awaits
  have now : Reported iso (Told iso start id (seen ++ [event])) next.tools call :=
    reported_advanced taken.advanced awaits reported (fun _ told => told.later event)
      fun _ reads => ⟨seen, server, List.prefix_append _ _, ran, reads⟩
  refine ⟨taken.kept tracked.kept, ?_⟩
  obtain ⟨inside, _⟩ := List.getElem?_eq_some_iff.mp there
  cases taken with
  | begun request other begun calls =>
    exact ⟨call, by rw [calls, List.getElem?_append_left inside, there], still, now⟩
  | refused request message tools calls =>
    exact ⟨call, by rw [calls, List.getElem?_append_left inside, there], still, now⟩
  | replied j other result held ready tools calls =>
    by_cases same : j = i
    · subst same
      obtain rfl := Option.some.inj (there.symm.trans held)
      rw [← tools] at ready
      exact ⟨.replied result, by rw [calls, List.getElem?_set_self inside], trivial,
        reported_outcome now ready⟩
    · exact ⟨call, by rw [calls, List.getElem?_set_ne same, there], still, now⟩
  | inner inner same moved calls => exact ⟨call, by rw [calls, there], still, now⟩

theorem replied_step {server next : Server} {event : Server.Event}
    (kept : RepeaterRegistry.Kept server.tools) (stepped : server.step iso event = some next) {i : Nat}
    {result : CallToolResult} (replied : server.calls[i]? = some (.replied result)) :
    next.calls[i]? = some (.replied result) := by
  obtain ⟨inside, _⟩ := List.getElem?_eq_some_iff.mp replied
  cases step_taken kept stepped with
  | begun request call begun calls => rw [calls, List.getElem?_append_left inside, replied]
  | refused request message tools calls => rw [calls, List.getElem?_append_left inside, replied]
  | replied j call other there ready tools calls =>
    by_cases same : j = i
    · subst same
      obtain rfl := Option.some.inj (replied.symm.trans there)
      cases ready
    · rw [calls, List.getElem?_set_ne same, replied]
  | inner inner same moved calls => rw [calls, replied]

/-- A request is answered once: its reply stays what it is. -/
theorem replied_run {server last : Server} (kept : RepeaterRegistry.Kept server.tools)
    {events : List Server.Event} (ran : Trace.run (Server.step iso) server events = some last) {i : Nat}
    {result : CallToolResult} (replied : server.calls[i]? = some (.replied result)) :
    last.calls[i]? = some (.replied result) :=
  (Trace.run_invariant
    (P := fun server => RepeaterRegistry.Kept server.tools ∧ server.calls[i]? = some (.replied result))
    ⟨kept, replied⟩
    (fun _ _ _ holds stepped =>
      ⟨(step_taken holds.1 stepped).kept holds.1, replied_step holds.1 stepped holds.2⟩)
    ran).2

/-- A reply that is not an error is the JSON text of a status that a process of the
requested id had at some moment after the request and before the reply, whatever
other calls, processes and timers did meanwhile. -/
theorem reply_within_call {before between : List Server.Event} {request : Server.Request}
    {server start last : Server} {result : CallToolResult}
    (ran : Trace.run (Server.step iso) Server.init before = some server)
    (called : server.step iso (.call request) = some start)
    (later : Trace.run (Server.step iso) start between = some last)
    (answered : last.calls[server.calls.length]? = some (.replied result)) :
    result.isError = true ∨ ∃ earlier mid entry, earlier <+: between ∧
      Trace.run (Server.step iso) start earlier = some mid ∧ entry ∈ mid.tools.entries ∧
      request.input.id = some entry.id ∧
      Json.parse result.text = some (statusJson iso (toStatus entry)) := by
  have kept := kept_run ran
  have taken := step_taken kept called
  have keptStart := taken.kept kept
  cases taken with
  | begun _ call begun calls =>
    obtain ⟨id, given, awaits, reported⟩ := begun.awaits
    have first : Tracked iso start server.calls.length id [] start := by
      refine ⟨keptStart, call, by simp [calls], awaits, ?_⟩
      exact reported_advanced (advanced_refl _) awaits reported
        (fun _ reads => ⟨[], start, List.prefix_refl _, rfl, reads⟩)
        (fun _ reads => ⟨[], start, List.prefix_refl _, rfl, reads⟩)
    have tracked : Tracked iso start server.calls.length id between last :=
      Trace.run_induction (P := Tracked iso start server.calls.length id) first
        (fun _ _ _ _ reached tracked stepped => tracked_step reached tracked stepped) later
    obtain ⟨final, there, -, told⟩ := tracked.call
    obtain rfl := Option.some.inj (there.symm.trans answered)
    rcases told with error | ⟨status, rfl, earlier, mid, pre, reached, entry, listed, named, rfl⟩
    · exact .inl error
    · exact .inr ⟨earlier, mid, entry, pre, reached, listed, by rw [given, named],
        Json.parse_pretty _⟩
  | refused _ message tools calls =>
    have first : start.calls[server.calls.length]? = some (.replied (failure message)) := by
      simp [calls]
    obtain rfl := ToolCall.replied.inj (Option.some.inj
      ((replied_run keptStart later first).symm.trans answered))
    exact .inl rfl
  | inner inner same _ _ => cases same

/-- A repeater is asked for, and stopped before its start is reported. -/
def startRequest : Server.Request :=
  { name := "runRepeater", input := { id := some "r", hostname := none, signal := none }
    token := some "t", env := none, spawn := .started 7, kill := .done, now := 0 }

def stopRequest : Server.Request := { startRequest with name := "stopRepeater" }

def crossing : List Server.Event :=
  [.graceElapsed 0, .childExit 0 none (some "SIGTERM") 5, .stopResumed 0 .done, .reply 1,
    .runResumed 0, .reply 0]

theorem crossing_reported :
    ∃ server start last result,
      Trace.run (Server.step toString) Server.init [.call startRequest] = some server ∧
      server.step toString (.call stopRequest) = some start ∧
      Trace.run (Server.step toString) start crossing = some last ∧
      last.calls[server.calls.length]? = some (.replied result) ∧
      result.isError = false ∧ ∃ earlier mid entry, earlier <+: crossing ∧
        Trace.run (Server.step toString) start earlier = some mid ∧ entry ∈ mid.tools.entries ∧
        stopRequest.input.id = some entry.id ∧
        Json.parse result.text = some (statusJson toString (toStatus entry)) := by
  refine ⟨_, _, _, _, rfl, rfl, rfl, rfl, rfl, ?_⟩
  exact (reply_within_call
    (rfl : Trace.run (Server.step toString) Server.init [.call startRequest] = _)
    rfl rfl rfl).resolve_left Bool.false_ne_true

/-! ## Every request is answered -/

def callWeight : ToolCall → Nat
  | .replied _ => 0
  | _ => 1

def toolsWork (tools : RepeaterTools) : Nat :=
  weight runWeight tools.runs + weight stopWeight tools.stops

/-- The timers, continuations and replies that are left. -/
def work (server : Server) : Nat := toolsWork server.tools + weight callWeight server.calls

/-- Timers, continuations and replies: what happens without a client or a child. -/
def due : Server.Event → Bool
  | .graceElapsed _ | .runResumed _ | .stopResumed _ _ | .reply _ => true
  | _ => false

/-- A request, or the end of the server, begins calls of the tools. -/
def begins : Server.Event → Bool
  | .call _ | .close _ => true
  | _ => false

theorem toolsWork_due {tools next : RepeaterTools} {event : Server.Event}
    {inner : RepeaterTools.Event} (same : event.tools = some inner)
    (moved : RepeaterTools.step tools inner = some next) (quiet : begins event = false) :
    toolsWork next + (due event).toNat ≤ toolsWork tools := by
  cases event with
  | call request => cases quiet
  | close outcomes => cases quiet
  | reply i => cases same
  | childError i message =>
    cases same
    simp only [RepeaterTools.step] at moved
    split at moved
    · cases moved
      obtain ⟨settled, stops⟩ := emitError_settled tools i message
      have lighter := settled.lighter
      simp only [toolsWork, stops, due, Bool.toNat_false]
      omega
    · cases moved
  | childExit i code signal now =>
    cases same
    simp only [RepeaterTools.step] at moved
    split at moved
    · split at moved
      · cases moved
        have lighter := (settle_settled
          { tools with entries := tools.entries.modify i (markExited code now) } i
          (some (exitedEarly code signal))).lighter
        simp only [toolsWork, emitExit, due, Bool.toNat_false]
        exact Nat.add_le_add_right lighter _
      · cases moved
    · cases moved
  | graceElapsed k =>
    cases same
    simp only [RepeaterTools.step] at moved
    split at moved
    · rename_i call found
      split at moved
      · rename_i waiting
        cases moved
        have set := weight_set runWeight found { call with phase := .settled none }
        simp only [runWeight, waiting] at set
        simp only [toolsWork, due, Bool.toNat_true]
        omega
      · cases moved
    · cases moved
  | runResumed k =>
    cases same
    simp only [RepeaterTools.step] at moved
    split at moved
    · rename_i call found
      split at moved
      · rename_i failure entry settled own
        cases moved
        cases failure with
        | none =>
          have set := weight_set runWeight found { call with phase := .returned (toStatus entry) }
          simp only [runWeight, settled] at set
          simp only [toolsWork, resume, due, Bool.toNat_true]
          omega
        | some message =>
          have set := weight_set runWeight found { call with phase := .threw message }
          simp only [runWeight, settled] at set
          simp only [toolsWork, resume, due, Bool.toNat_true]
          omega
      · cases moved
    · cases moved
  | stopResumed k outcome =>
    cases same
    simp only [RepeaterTools.step] at moved
    split at moved
    · rename_i call found
      split at moved
      · obtain ⟨later, continued⟩ := continueStop_continued moved
        have lighter := continued.runs.lighter
        have set := weight_set stopWeight found later
        have less := continued.lighter
        simp only [toolsWork, continued.stops, due, Bool.toNat_true]
        omega
      · cases moved
    · cases moved

theorem work_due {server next : Server} {event : Server.Event}
    (kept : RepeaterRegistry.Kept server.tools) (stepped : server.step iso event = some next)
    (quiet : begins event = false) : work next + (due event).toNat ≤ work server := by
  cases step_taken kept stepped with
  | begun request call begun calls => cases quiet
  | refused request message tools calls => cases quiet
  | replied i call result there ready tools calls =>
    have set := weight_set callWeight there (.replied result)
    have own : callWeight call = 1 := by
      cases call with
      | replied other => cases ready
      | running k => rfl
      | stopping k => rfl
    simp only [work, tools, calls, due, Bool.toNat_true, own] at set ⊢
    simp only [callWeight] at set
    omega
  | inner inner same moved calls =>
    have tools := toolsWork_due same moved quiet
    simp only [work, calls]
    omega

theorem work_run {server last : Server} (kept : RepeaterRegistry.Kept server.tools)
    {events : List Server.Event} (quiet : ∀ event ∈ events, begins event = false)
    (ran : Trace.run (Server.step iso) server events = some last) :
    work last + events.countP due ≤ work server := by
  induction events generalizing server with
  | nil =>
    cases ran
    exact Nat.le_refl _
  | cons event rest ih =>
    rw [Trace.run_cons] at ran
    obtain ⟨next, stepped, ran⟩ := Option.bind_eq_some_iff.mp ran
    have one := work_due kept stepped (quiet event List.mem_cons_self)
    have others := ih ((step_taken kept stepped).kept kept)
      (fun other member => quiet other (List.mem_cons_of_mem event member)) ran
    rw [List.countP_cons]
    cases isDue : due event <;> simp [isDue] at one ⊢ <;> omega

/-- Every call of the server awaits a call of the tools that exists. -/
def Linked (server : Server) : Prop := ∀ call ∈ server.calls, ∃ id, Awaits server.tools id call

theorem linked_step {server next : Server} {event : Server.Event}
    (kept : RepeaterRegistry.Kept server.tools) (linked : Linked server)
    (stepped : server.step iso event = some next) : Linked next := by
  have taken := step_taken kept stepped
  have still (call : ToolCall) (member : call ∈ server.calls) : ∃ id, Awaits next.tools id call := by
    obtain ⟨id, awaits⟩ := linked call member
    exact ⟨id, awaits_advanced taken.advanced awaits⟩
  intro call member
  cases taken with
  | begun request other begun calls =>
    rw [calls] at member
    rcases List.mem_append.mp member with old | new
    · exact still call old
    · obtain rfl := List.mem_singleton.mp new
      obtain ⟨id, -, awaits, -⟩ := begun.awaits
      exact ⟨id, awaits⟩
  | refused request message tools calls =>
    rw [calls] at member
    rcases List.mem_append.mp member with old | new
    · exact still call old
    · obtain rfl := List.mem_singleton.mp new
      exact ⟨"", trivial⟩
  | replied i other result there ready tools calls =>
    rw [calls] at member
    rcases List.mem_or_eq_of_mem_set member with old | rfl
    · exact still call old
    · exact ⟨"", trivial⟩
  | inner inner same moved calls => exact still call (calls ▸ member)

theorem linked_run {events : List Server.Event} {server : Server}
    (ran : Trace.run (Server.step iso) Server.init events = some server) : Linked server :=
  (Trace.run_invariant (P := fun server => RepeaterRegistry.Kept server.tools ∧ Linked server)
    ⟨RepeaterRegistry.kept_init, fun call member => by cases member⟩
    (fun _ _ _ holds stepped =>
      ⟨(step_taken holds.1 stepped).kept holds.1, linked_step holds.1 holds.2 stepped⟩)
    ran).2

/-- While a request waits, a timer, a continuation or its reply is left. -/
theorem due_of_waiting {server : Server} (linked : Linked server) {i : Nat} {call : ToolCall}
    (there : server.calls[i]? = some call) (waiting : ∀ result, call ≠ .replied result) :
    ∃ event, due event = true ∧ (server.step iso event).isSome = true := by
  obtain ⟨id, awaits⟩ := linked call (List.mem_of_getElem? there)
  have reply (ready : (Server.outcome iso server.tools call).isSome = true) :
      ∃ event, due event = true ∧ (server.step iso event).isSome = true := by
    obtain ⟨result, same⟩ := Option.isSome_iff_exists.mp ready
    exact ⟨.reply i, rfl, by simp [Server.step, Server.reply, there, same]⟩
  cases call with
  | running k =>
    obtain ⟨run, entry, found, own, -⟩ := awaits
    cases phase : run.phase with
    | waiting =>
      refine ⟨.graceElapsed k, rfl, ?_⟩
      simp [Server.step, Server.Event.tools, RepeaterTools.step, found, phase]
    | settled failure =>
      refine ⟨.runResumed k, rfl, ?_⟩
      simp [Server.step, Server.Event.tools, RepeaterTools.step, found, phase, own]
    | returned status => exact reply (by simp [Server.outcome, found, phase])
    | threw message => exact reply (by simp [Server.outcome, found, phase])
  | stopping k =>
    obtain ⟨stop, entry, found, own, -⟩ := awaits
    cases phase : stop.phase with
    | terminating =>
      refine ⟨.stopResumed k .done, rfl, ?_⟩
      cases running : isRunning entry <;>
        simp [Server.step, Server.Event.tools, RepeaterTools.step, found, own, continueStop, phase,
          running, kill]
    | killing =>
      refine ⟨.stopResumed k .done, rfl, ?_⟩
      simp [Server.step, Server.Event.tools, RepeaterTools.step, found, own, continueStop, phase]
    | returned status => exact reply (by simp [Server.outcome, found, phase])
    | threw message => exact reply (by simp [Server.outcome, found, phase])
  | replied result => exact absurd rfl (waiting result)

def isRequest : Server.Event → Bool
  | .call _ => true
  | _ => false

theorem calls_step {server next : Server} {event : Server.Event}
    (kept : RepeaterRegistry.Kept server.tools) (stepped : server.step iso event = some next) :
    next.calls.length = server.calls.length + (isRequest event).toNat := by
  cases step_taken kept stepped with
  | begun request call begun calls => simp [calls, isRequest]
  | refused request message tools calls => simp [calls, isRequest]
  | replied i call result there ready tools calls => simp [calls, isRequest]
  | @inner event inner same moved calls =>
    cases event with
    | call request => cases same
    | _ => simp [calls, isRequest]

theorem calls_run {events : List Server.Event} {server : Server}
    (ran : Trace.run (Server.step iso) Server.init events = some server) :
    server.calls.length = events.countP isRequest := by
  refine Trace.run_induction (P := fun seen server => server.calls.length = seen.countP isRequest)
    rfl ?_ ran
  intro seen before event next reached same stepped
  rw [calls_step (kept_run reached) stepped, List.countP_append, List.countP_singleton, same]
  cases isRequest event <;> rfl

/-- Every request has one reply. Whatever the clients have asked for and however the
processes behave, only so many timers, continuations and replies are left; when none is,
every request made so far has its reply, and a reply that was sent is never another one. -/
theorem requests_answered {events more : List Server.Event} {server last : Server}
    (ran : Trace.run (Server.step iso) Server.init events = some server)
    (quiet : ∀ event ∈ more, begins event = false)
    (later : Trace.run (Server.step iso) server more = some last) :
    more.countP due ≤ work server ∧
      (∀ (i : Nat) result, server.calls[i]? = some (ToolCall.replied result) →
        last.calls[i]? = some (ToolCall.replied result)) ∧
      ((∀ event, due event = true → last.step iso event = none) →
        ∀ i < events.countP isRequest, ∃ result, last.calls[i]? = some (ToolCall.replied result)) := by
  have kept := kept_run ran
  have whole : Trace.run (Server.step iso) Server.init (events ++ more) = some last := by
    rw [Trace.run_append, ran]
    exact later
  have count : last.calls.length = events.countP isRequest + more.countP isRequest := by
    rw [calls_run whole, List.countP_append]
  refine ⟨?_, fun i result replied => replied_run kept later replied, ?_⟩
  · have bound := work_run kept quiet later
    omega
  · intro idle i made
    have inside : i < last.calls.length := by omega
    cases found : last.calls[i]? with
    | none => exact absurd (List.getElem?_eq_none_iff.mp found) (by omega)
    | some call =>
      by_contra unanswered
      have waiting : ∀ result, call ≠ .replied result := by
        rintro result rfl
        exact unanswered ⟨result, rfl⟩
      obtain ⟨event, isDue, enabled⟩ := @due_of_waiting iso last (linked_run whole) i call found waiting
      rw [idle event isDue] at enabled
      cases enabled

theorem crossing_answered :
    ∃ server last,
      Trace.run (Server.step toString) Server.init [.call startRequest, .call stopRequest] =
        some server ∧
      Trace.run (Server.step toString) server crossing = some last ∧
      crossing.countP due ≤ work server ∧
      ∃ result, last.calls[1]? = some (ToolCall.replied result) := by
  refine ⟨_, _, rfl, rfl, ?_⟩
  have quiet : ∀ event ∈ crossing, begins event = false := by
    simp [crossing, begins]
  obtain ⟨bound, -, answers⟩ := requests_answered
    (rfl : Trace.run (Server.step toString) Server.init [.call startRequest, .call stopRequest] = _)
    quiet rfl
  refine ⟨bound, answers ?_ 1 (by decide)⟩
  intro event isDue
  cases event with
  | graceElapsed k => cases k <;> rfl
  | runResumed k => cases k <;> rfl
  | stopResumed k outcome => cases k <;> rfl
  | reply i =>
    rcases i with _ | _ | i <;> rfl
  | _ => cases isDue

end BrightCli.Guarantees.ToolReplies
