import Mathlib.Data.List.Sort
import BrightCli.Lib.InsertionMap
import BrightCli.Lib.Text
import BrightCli.Lib.Trace

/-!
# The repeater processes of the MCP server

Source: `src/Mcp/DefaultRepeaterTools.ts`.

A step is a call up to its first `await`, the continuation of a call after an
`await`, or the delivery of an event of a child process to its listeners. An
entry is an object with identity, so entries are never removed from `entries`,
and the map `processes` holds references, which are positions in that list.
Timers may elapse at any moment: neither the grace period nor the timeouts of
`stop` are given in milliseconds. What the operating system makes of a call of
`spawn` or `kill` is part of the event. A promise that has settled resumes its
call in a later step, with any other step in between.
-/
namespace BrightCli.Source.Mcp
open BrightCli.Lib

structure RepeaterRunToolInput where
  /-- `none` for a value that is not a string. -/
  id : Option String
  hostname : Option String
  deriving DecidableEq, Repr

structure RepeaterStopToolInput where
  id : Option String
  signal : Option String
  deriving DecidableEq, Repr

/-- `pid` is missing when the process could not be spawned. The listeners that
`attachHandlers` registers for `error` are gone once the event was emitted. -/
structure ChildProcess where
  pid : Option Nat
  exited : Bool
  errorListener : Bool
  signals : List String
  deriving DecidableEq, Repr

/-- Live from a successful spawn until the event `exit`. -/
def ChildProcess.live (child : ChildProcess) : Bool := child.pid.isSome && !child.exited

structure RepeaterProcessEntry where
  id : String
  child : ChildProcess
  startedAt : Nat
  exitedAt : Option Nat
  exitCode : Option (Option Int)
  lastError : Option String
  sensitiveValues : List String
  deriving DecidableEq, Repr

structure RepeaterProcessStatus where
  id : String
  running : Bool
  pid : Option Nat
  startedAt : Nat
  exitedAt : Option Nat
  exitCode : Option (Option Int)
  lastError : Option String
  deriving DecidableEq, Repr

def isRunning (entry : RepeaterProcessEntry) : Bool := entry.exitedAt.isNone

def toStatus (entry : RepeaterProcessEntry) : RepeaterProcessStatus :=
  { id := entry.id
    running := isRunning entry
    pid := entry.child.pid
    startedAt := entry.startedAt
    exitedAt := entry.exitedAt
    exitCode := entry.exitCode
    lastError := entry.lastError }

def requireId : Option String → Except String String
  | some id => if id = "" then .error "Repeater id is required." else .ok id
  | none => .error "Repeater id is required."

def alreadyRunning (id : String) : String :=
  "A repeater command is already running for id \"" ++ id ++ "\"."

def unknownProcess (id : String) : String :=
  "No repeater process found for id \"" ++ id ++ "\"."

/-- The token of the context, else the variable `BRIGHT_TOKEN`. -/
def resolveToken (context env : Option String) : Except String String :=
  let missing := "A Bright API token is required. Set BRIGHT_TOKEN on the MCP server process " ++
    "or provide it through MCP transport authentication."
  match context.or env with
  | some token => if token = "" then .error missing else .ok token
  | none => .error missing

def addValue (args : List String) (option : String) : Option String → List String
  | some value => args ++ [option, value]
  | none => args

def buildArgs (input : RepeaterRunToolInput) (token : String) : List String :=
  addValue (addValue (addValue [] "--token" (some token)) "--id" input.id) "--hostname"
    input.hostname

def sensitiveOptions : List String := ["--token", "-t"]

/-- What one argument contributes, given the one after it. -/
def sensitiveValuesOf (arg : String) (following : Option String) : List String :=
  let inline :=
    match (arg.toList.splitOn '=').map String.ofList with
    | name :: value :: _ => if value ≠ "" ∧ name ∈ sensitiveOptions then [value] else []
    | _ => []
  let separate :=
    match following with
    | some value => if arg ∈ sensitiveOptions ∧ value ≠ "" then [value] else []
    | none => []
  inline ++ separate

def collectSensitiveValues : List String → List String
  | [] => []
  | arg :: rest => sensitiveValuesOf arg rest.head? ++ collectSensitiveValues rest

/-- Longer secrets first; a stable sort, as `Array.prototype.sort` is. -/
def bySize (secrets : List String) : List String :=
  secrets.insertionSort fun left right =>
    Text.utf16Length right.toList ≤ Text.utf16Length left.toList

def redactWith (sensitiveValues : List String) (value : String) : String :=
  (bySize sensitiveValues).foldl
    (fun current secret =>
      String.ofList (List.intercalate "[Filtered]".toList (Text.split secret.toList current.toList)))
    value

def redact (entry : RepeaterProcessEntry) (value : String) : String :=
  redactWith entry.sensitiveValues value

/-- The listener for `error` that `attachHandlers` registers. -/
def markFailed (message : String) (entry : RepeaterProcessEntry) : RepeaterProcessEntry :=
  { entry with
    child := { entry.child with errorListener := false }
    lastError := some (redact entry message) }

/-- The listener for `exit` that `attachHandlers` registers. -/
def markExited (code : Option Int) (now : Nat) (entry : RepeaterProcessEntry) :
    RepeaterProcessEntry :=
  { entry with
    child := { entry.child with exited := true }
    exitedAt := some now
    exitCode := some code }

def markSignalled (signal : String) (entry : RepeaterProcessEntry) : RepeaterProcessEntry :=
  { entry with child := { entry.child with signals := entry.child.signals ++ [signal] } }

/-- Text of a value that may be `null`. -/
def orNull (text : Option String) : String := text.getD "null"

def exitedEarly (code : Option Int) (signal : Option String) : String :=
  "Repeater command exited before startup completed with code " ++ orNull (code.map toString) ++
    " and signal " ++ orNull signal ++ "."

/-- A call of `run` after the entry was registered. -/
inductive RunPhase where
  | waiting
  /-- `waitForImmediateFailure` has settled, with the message of its rejection. -/
  | settled (failure : Option String)
  | returned (status : RepeaterProcessStatus)
  | threw (message : String)
  deriving DecidableEq, Repr

structure RunCall where
  entry : Nat
  phase : RunPhase
  deriving DecidableEq, Repr

/-- A call of `stop` after its first signal: it races the exit against a timeout,
and once more after `SIGKILL`. -/
inductive StopPhase where
  | terminating
  | killing
  | returned (status : RepeaterProcessStatus)
  | threw (message : String)
  deriving DecidableEq, Repr

structure StopCall where
  entry : Nat
  phase : StopPhase
  deriving DecidableEq, Repr

inductive Spawn where
  | started (pid : Nat)
  /-- No process; the child emits `error` later, and never `exit`. -/
  | failed
  | throws (message : String)
  deriving DecidableEq, Repr

inductive Kill where
  /-- Delivered, or there was no process left to deliver it to. -/
  | done
  /-- The child emits `error` in the call. -/
  | emits (message : String)
  | throws (message : String)
  deriving DecidableEq, Repr

structure RepeaterTools where
  entries : List RepeaterProcessEntry
  processes : InsertionMap String Nat
  runs : List RunCall
  stops : List StopCall

namespace RepeaterTools

def init : RepeaterTools := { entries := [], processes := .empty, runs := [], stops := [] }

/-- The entry registered for an id. -/
def lookup? (tools : RepeaterTools) (id : String) : Option (Nat × RepeaterProcessEntry) :=
  (tools.processes.get? id).bind fun i => (tools.entries[i]?).map (i, ·)

def requireEntry (tools : RepeaterTools) (id : String) : Except String (Nat × RepeaterProcessEntry) :=
  match tools.lookup? id with
  | some found => .ok found
  | none => .error (unknownProcess id)

/-- The checks of `run` before it builds the command line. -/
def accept (tools : RepeaterTools) (id : Option String) : Except String String := do
  let id ← requireId id
  match tools.lookup? id with
  | some (_, existing) => if isRunning existing then .error (alreadyRunning id) else .ok id
  | none => .ok id

def newEntry (id : String) (pid : Option Nat) (sensitiveValues : List String) (now : Nat) :
    RepeaterProcessEntry :=
  { id
    child := { pid, exited := false, errorListener := true, signals := [] }
    startedAt := now
    exitedAt := none
    exitCode := none
    lastError := none
    sensitiveValues }

/-- Registers the entry; from here on the call waits for an immediate failure. -/
def register (tools : RepeaterTools) (entry : RepeaterProcessEntry) : RepeaterTools :=
  { tools with
    entries := tools.entries ++ [entry]
    processes := tools.processes.set entry.id tools.entries.length
    runs := tools.runs ++ [{ entry := tools.entries.length, phase := .waiting }] }

/-- A call that throws in its synchronous part changes nothing. -/
def orUnchanged (tools : RepeaterTools) : Except String RepeaterTools → RepeaterTools
  | .ok next => next
  | .error _ => tools

/-- `run` up to its `await`. A call that throws before it leaves nothing behind. -/
def run (tools : RepeaterTools) (input : RepeaterRunToolInput) (context env : Option String)
    (spawn : Spawn) (now : Nat) : Except String RepeaterTools := do
  let id ← tools.accept input.id
  let token ← resolveToken context env
  let sensitiveValues := (collectSensitiveValues (buildArgs input token)).eraseDups
  match spawn with
  | .started pid => .ok (tools.register (newEntry id (some pid) sensitiveValues now))
  | .failed => .ok (tools.register (newEntry id none sensitiveValues now))
  | .throws message => .error message

/-- `settle` of the calls that wait for this entry. -/
def settle (tools : RepeaterTools) (entry : Nat) (failure : Option String) : RepeaterTools :=
  { tools with
    runs := tools.runs.map fun call =>
      if call.entry = entry ∧ call.phase = .waiting then { call with phase := .settled failure }
      else call }

/-- Event `error`. Without a listener it is thrown; the registry is as before. -/
def emitError (tools : RepeaterTools) (i : Nat) (message : String) : RepeaterTools :=
  match tools.entries[i]? with
  | none => tools
  | some entry =>
    if entry.child.errorListener then
      settle { tools with entries := tools.entries.modify i (markFailed message) } i
        (some (redact entry message))
    else tools

/-- Event `exit`. -/
def emitExit (tools : RepeaterTools) (i : Nat) (code : Option Int) (signal : Option String)
    (now : Nat) : RepeaterTools :=
  settle { tools with entries := tools.entries.modify i (markExited code now) } i
    (some (exitedEarly code signal))

/-- `run` after its `await`. The clean-up spares an entry that is running, or
that another one has replaced. -/
def resume (tools : RepeaterTools) (k : Nat) (call : RunCall) (entry : RepeaterProcessEntry)
    (failure : Option String) : RepeaterTools :=
  match failure with
  | none => { tools with runs := tools.runs.set k { call with phase := .returned (toStatus entry) } }
  | some message =>
    { tools with
      runs := tools.runs.set k { call with phase := .threw message }
      processes :=
        if tools.processes.get? entry.id = some call.entry ∧ isRunning entry = false then
          tools.processes.delete entry.id
        else tools.processes }

def hearsError (tools : RepeaterTools) (i : Nat) : Bool :=
  (tools.entries[i]?).any fun entry => entry.child.errorListener

/-- `child.kill(signal)`; the message is that of an exception, as an `error` that nothing listens
for is one. -/
def kill (tools : RepeaterTools) (i : Nat) (signal : String) : Kill → RepeaterTools × Option String
  | .done => ({ tools with entries := tools.entries.modify i (markSignalled signal) }, none)
  | .emits message =>
    (tools.emitError i message, if tools.hearsError i then none else some message)
  | .throws message => (tools, some message)

/-- `stop` up to its first `await`. -/
def stop (tools : RepeaterTools) (input : RepeaterStopToolInput) (outcome : Kill) :
    Except String RepeaterTools := do
  let id ← requireId input.id
  let (i, entry) ← tools.requireEntry id
  if isRunning entry then
    let (killed, failure) := tools.kill i (input.signal.getD "SIGTERM") outcome
    let phase := match failure with
      | none => .terminating
      | some message => .threw message
    .ok { killed with stops := killed.stops ++ [{ entry := i, phase }] }
  else
    .ok { tools with stops := tools.stops ++ [{ entry := i, phase := .returned (toStatus entry) }] }

/-- `stop` after an `await`: the exit was seen or the timeout elapsed. -/
def continueStop (tools : RepeaterTools) (k : Nat) (call : StopCall) (entry : RepeaterProcessEntry)
    (outcome : Kill) : Option RepeaterTools :=
  let finish (tools : RepeaterTools) (phase : StopPhase) : RepeaterTools :=
    { tools with stops := tools.stops.set k { call with phase } }
  match call.phase with
  | .terminating =>
    if isRunning entry then
      match tools.kill call.entry "SIGKILL" outcome with
      | (killed, none) => some (finish killed .killing)
      | (killed, some message) => some (finish killed (.threw message))
    else some (finish tools (.returned (toStatus entry)))
  | .killing => some (finish tools (.returned (toStatus entry)))
  | _ => none

/-- Every call of `stop` is made before the first of them is awaited; one that
throws rejects its promise and no more. -/
def stopAll (tools : RepeaterTools) (outcomes : String → Kill) : RepeaterTools :=
  tools.processes.keys.foldl
    (fun tools id =>
      tools.orUnchanged (tools.stop { id := some id, signal := none } (outcomes id)))
    tools

def status (tools : RepeaterTools) (id : Option String) : Except String RepeaterProcessStatus := do
  let id ← requireId id
  let (_, entry) ← tools.requireEntry id
  .ok (toStatus entry)

inductive Event where
  | run (input : RepeaterRunToolInput) (context env : Option String) (spawn : Spawn) (now : Nat)
  | childError (entry : Nat) (message : String)
  | childExit (entry : Nat) (code : Option Int) (signal : Option String) (now : Nat)
  | graceElapsed (call : Nat)
  | runResumed (call : Nat)
  | stop (input : RepeaterStopToolInput) (outcome : Kill)
  | stopResumed (call : Nat) (outcome : Kill)
  | stopAll (outcomes : String → Kill)
  | status (id : Option String)

def step (tools : RepeaterTools) : Event → Option RepeaterTools
  | .run input context env spawn now =>
    some (tools.orUnchanged (tools.run input context env spawn now))
  | .childError i message =>
    if i < tools.entries.length then some (tools.emitError i message) else none
  | .childExit i code signal now =>
    match tools.entries[i]? with
    | some entry => if entry.child.live then some (tools.emitExit i code signal now) else none
    | none => none
  | .graceElapsed k =>
    match tools.runs[k]? with
    | some call =>
      if call.phase = .waiting then
        some { tools with runs := tools.runs.set k { call with phase := .settled none } }
      else none
    | none => none
  | .runResumed k =>
    match tools.runs[k]? with
    | some call =>
      match call.phase, tools.entries[call.entry]? with
      | .settled failure, some entry => some (tools.resume k call entry failure)
      | _, _ => none
    | none => none
  | .stop input outcome => some (tools.orUnchanged (tools.stop input outcome))
  | .stopResumed k outcome =>
    match tools.stops[k]? with
    | some call =>
      match tools.entries[call.entry]? with
      | some entry => tools.continueStop k call entry outcome
      | none => none
    | none => none
  | .stopAll outcomes => some (tools.stopAll outcomes)
  | .status _ => some tools

end RepeaterTools

end BrightCli.Source.Mcp
