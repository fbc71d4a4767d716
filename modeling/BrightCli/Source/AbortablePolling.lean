import BrightCli.Source.Scan.BasePolling

/-!
# Pollings that are stopped by an abort signal

Source: `src/Discovery/DiscoveryPolling.ts`,
`src/EntryPoint/HostUpdateJobStatusPolling.ts`, `src/Utils/Backoff.ts`.

The two classes differ in the statuses that end the polling and in their log
lines. Their loop asks first and waits afterwards, and the wait observes the
signal: it is rejected at once when the signal is or becomes aborted, which
leaves the loop through `handleError`. The pause of `Backoff` does not observe
it. A failure that nobody asked for ends the process. After the promise of
`start` has settled no timer and no request is pending. `createBackoff` is the
one of `BasePolling`.
-/
namespace BrightCli.Source.Polling
open BrightCli.Source.Scan (ApiError shouldRetry defaultReconnectTimes)

inductive Outcome where
  | resolved
  /-- `process.exit`. -/
  | exited (code : Nat)
  deriving DecidableEq, Repr

inductive Phase where
  | requesting (depth : Nat)
  | backingOff (depth : Nat)
  | delaying
  | settled (outcome : Outcome)
  deriving DecidableEq, Repr

/-- The descriptor of the timeout is a pending timer or not. -/
structure AbortablePolling where
  aborted : Bool
  timer : Bool
  phase : Phase
  deriving DecidableEq, Repr

/-- A view is missing where the API answers `null`. -/
inductive Event (ν : Type) where
  | delayElapsed
  | statusAnswered (view : Option ν)
  | statusFailed (err : ApiError)
  | retryElapsed
  | timeoutFired
  | stopCalled
  deriving DecidableEq, Repr

namespace AbortablePolling

/-- The end of `start`, with `stop` called from its `finally`. -/
def settle (polling : AbortablePolling) (outcome : Outcome) : AbortablePolling :=
  { polling with aborted := true, timer := false, phase := .settled outcome }

/-- An exception leaves the loop. -/
def handleError (polling : AbortablePolling) : AbortablePolling :=
  polling.settle (if polling.aborted then .resolved else .exited 1)

/-- `abortController.abort()`, with the rejection of a pending delay. -/
def abort (polling : AbortablePolling) : AbortablePolling :=
  let polling := { polling with aborted := true }
  if polling.phase = .delaying then polling.handleError else polling

def stop (polling : AbortablePolling) : AbortablePolling :=
  { polling.abort with timer := false }

/-- The head of `while (!aborted)`. -/
def loop (polling : AbortablePolling) : AbortablePolling :=
  if polling.aborted then polling.settle .resolved else { polling with phase := .requesting 0 }

/-- `start` up to its first await. An absent or zero timeout arms no timer. -/
def start (timeout : Option Nat) : AbortablePolling :=
  loop { aborted := false, timer := timeout.getD 0 ≠ 0, phase := .delaying }

def delay (polling : AbortablePolling) : AbortablePolling :=
  if polling.aborted then polling.handleError else { polling with phase := .delaying }

def failed (polling : AbortablePolling) (depth : Nat) (err : ApiError) : AbortablePolling :=
  if shouldRetry err && depth < defaultReconnectTimes then
    { polling with phase := .backingOff depth }
  else polling.handleError

section
variable {ν : Type} (isFinished : ν → Bool)

/-- Whether the loop goes on after a view. -/
def processView : Option ν → Bool
  | none => false
  | some view => !isFinished view

def answered (polling : AbortablePolling) (view : Option ν) : AbortablePolling :=
  if processView isFinished view then polling.delay else polling.settle .resolved

def step (polling : AbortablePolling) (event : Event ν) : Option AbortablePolling :=
  match event, polling.phase with
  | .timeoutFired, _ =>
    if polling.timer then some { polling.abort with timer := false } else none
  | .stopCalled, _ => some polling.stop
  | .delayElapsed, .delaying => some polling.loop
  | .statusAnswered view, .requesting _ => some (answered isFinished polling view)
  | .statusFailed err, .requesting depth => some (failed polling depth err)
  | .retryElapsed, .backingOff depth => some { polling with phase := .requesting (depth + 1) }
  | _, _ => none

end

end AbortablePolling

namespace DiscoveryPolling

inductive DiscoveryStatus where
  | running | pending | stopped | failed | done | disrupted | scheduled | queued
  deriving DecidableEq, Repr

def isFinished (status : DiscoveryStatus) : Bool :=
  status = .done || status = .stopped || status = .disrupted || status = .failed

def step : AbortablePolling → Event DiscoveryStatus → Option AbortablePolling :=
  AbortablePolling.step isFinished

end DiscoveryPolling

namespace HostUpdateJobStatusPolling

inductive JobStatus where
  | pending | processing | completed | failed
  deriving DecidableEq, Repr

def isFinished (status : JobStatus) : Bool := status = .completed || status = .failed

def step : AbortablePolling → Event JobStatus → Option AbortablePolling :=
  AbortablePolling.step isFinished

end HostUpdateJobStatusPolling

end BrightCli.Source.Polling
