import BrightCli.Lib.Trace
import BrightCli.Source.Scan.Breakpoint

/-!
# Polling of a scan

Source: `src/Scan/BasePolling.ts`, `src/Utils/Backoff.ts`,
`src/Commands/PollingScanStatus.ts`.

`start` is an async generator driven by a `for await` loop. Between two awaits
the code runs to completion, so the machine moves from one await to the next:
the delay, the status request, the pause before a retry. An event is what ends
an await, or one of the two things that can happen at any time, the polling
timeout and a call of `stop`. After the promise of `start` has settled nothing
reads the answers of the API any more; they leave the machine as it is.
-/
namespace BrightCli.Source.Scan

structure ApiError where
  axios : Bool
  status : Option Nat
  code : Option String
  deriving DecidableEq, Repr

def retryableCodes : List String :=
  ["ECONNRESET", "ENETDOWN", "ENETUNREACH", "ETIMEDOUT", "ECONNREFUSED", "ENOTFOUND", "EAI_AGAIN",
    "ESOCKETTIMEDOUT"]

/-- The predicate `createBackoff` passes; a missing status is not above 500. -/
def shouldRetry (err : ApiError) : Bool :=
  (err.axios && (err.status.getD 0 > 500)) ||
    (match err.code with
      | some code => retryableCodes.contains code
      | none => false)

def defaultReconnectTimes : Nat := 20

inductive Failure where
  | breakpoint (exception : BreakpointException)
  | api (err : ApiError)
  deriving DecidableEq, Repr

inductive Outcome where
  | resolved
  | rejected (failure : Failure)
  deriving DecidableEq, Repr

inductive Phase where
  | delaying
  | requesting (depth : Nat)
  | backingOff (depth : Nat)
  | settled (outcome : Outcome)
  deriving DecidableEq, Repr

structure BasePolling where
  active : Bool
  timer : Bool
  phase : Phase
  deriving DecidableEq, Repr

inductive PollEvent where
  | delayElapsed
  | statusAnswered (state : ScanState)
  | statusFailed (err : ApiError)
  | retryElapsed
  | timeoutFired
  | stopCalled
  deriving DecidableEq, Repr

def isRedundant (status : ScanStatus) : Bool :=
  status = .done || status = .stopped || status = .disrupted || status = .failed

namespace BasePolling

/-- `stop`: the flag is cleared and the timeout disarmed. -/
def stop (polling : BasePolling) : BasePolling :=
  { polling with active := false, timer := false }

/-- The `finally` of `start` runs before its promise settles. -/
def settle (polling : BasePolling) (outcome : Outcome) : BasePolling :=
  { polling.stop with phase := .settled outcome }

/-- The head of `while (this.active)`: another delay, or the generator is done. -/
def loop (polling : BasePolling) : BasePolling :=
  if polling.active then { polling with phase := .delaying } else polling.settle .resolved

/-- `start` up to its first await. An absent or zero timeout arms no timer. -/
def start (timeout : Option Nat) : BasePolling :=
  loop { active := true, timer := timeout.getD 0 ≠ 0, phase := .delaying }

/-- A status arrives: a redundant one ends the generator, any other is yielded
to the loop body, which runs the breakpoint. -/
def answered (breakpoint : OnSeverity) (polling : BasePolling) (state : ScanState) : BasePolling :=
  if isRedundant state.status then polling.settle .resolved
  else
    match breakpoint.execute state with
    | .error exception => polling.settle (.rejected (.breakpoint exception))
    | .ok () => polling.loop

/-- A request fails: `Backoff.execute` retries or rethrows through the loop. -/
def failed (polling : BasePolling) (depth : Nat) (err : ApiError) : BasePolling :=
  if shouldRetry err && depth < defaultReconnectTimes then
    { polling with phase := .backingOff depth }
  else polling.settle (.rejected (.api err))

def outcome? (polling : BasePolling) : Option Outcome :=
  match polling.phase with
  | .settled outcome => some outcome
  | _ => none

def step (breakpoint : OnSeverity) (polling : BasePolling) (event : PollEvent) :
    Option BasePolling :=
  match event, polling.phase with
  | .timeoutFired, _ =>
    if polling.timer then some { polling with active := false, timer := false } else none
  | .stopCalled, _ => some polling.stop
  | _, .settled _ => some polling
  | .delayElapsed, .delaying => some { polling with phase := .requesting 0 }
  | .statusAnswered state, .requesting _ => some (answered breakpoint polling state)
  | .statusFailed err, .requesting depth => some (failed polling depth err)
  | .retryElapsed, .backingOff depth => some { polling with phase := .requesting (depth + 1) }
  | _, _ => none

end BasePolling

/-- Exit code of `scan:polling`, once the promise of `start` has settled. -/
def exitCode : Outcome → Nat
  | .resolved => 0
  | .rejected (.breakpoint _) => 50
  | .rejected (.api _) => 1

/-- The events of a run in which the API answers the given states, one to each
request, and nothing else happens. -/
def reports (states : List ScanState) : List PollEvent :=
  states.flatMap fun state => [.delayElapsed, .statusAnswered state]

/-- What `start` ends with when the API reports the given states; `none` while
its promise is still pending. -/
def verdict (type : BreakpointType) (timeout : Option Nat) (states : List ScanState) :
    Option Outcome :=
  (Lib.Trace.run (BasePolling.step (create type)) (.start timeout) (reports states)).bind
    BasePolling.outcome?

end BrightCli.Source.Scan
