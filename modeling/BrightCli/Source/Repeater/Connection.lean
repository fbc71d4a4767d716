import Mathlib.Algebra.Order.Ring.Rat
import BrightCli.Lib.Trace

/-!
# The connection of a repeater

Source: `src/Repeater/DefaultRepeaterServer.ts` (`connect`, `disconnect`,
`deploy`, `handleConnect`, `handleConnectionError`, `handleDisconnect`,
`scheduleReconnection`) and `src/Repeater/ServerRepeaterLauncher.ts` (`run`,
`close`, `handleError`, `reconnectionFailed`).

A step is one callback of the event loop, with everything it calls
synchronously. The launcher's handlers are among that: the wrapper around a
handler is an async function, and it runs the handler before its first `await`.
The launcher subscribes and connects together, so its handlers are registered
exactly while there is a socket. Timers keep their identity: the field
`connectionTimer` is never reset, only overwritten, and `clearTimeout` stops the
timer it names. Delays are exact rational numbers.
-/
namespace BrightCli.Source.Repeater

inductive RepeaterErrorCodes where
  | repeaterNotPermitted
  | repeaterAlreadyStarted
  | repeaterDeactivated
  | repeaterUnauthorized
  | repeaterNoLongerSupported
  | unknownError
  | unexpectedError
  | other (code : String)
  deriving DecidableEq, Repr

/-- An error as the server describes it. `texts` says that message and
remediation are texts where they are present, so that the launcher can
normalise them. -/
structure ErrorData where
  code : RepeaterErrorCodes
  texts : Bool
  deriving DecidableEq, Repr

structure Connection where
  /-- `_socket` is defined, and the launcher's handlers are registered. -/
  socket : Bool
  repeaterRunning : Bool
  connectionAttempts : Nat
  connectionTimer : Option Nat
  /-- Timers that were armed and have neither fired nor been cleared. -/
  pending : List Nat
  /-- Scheduled emissions of `deploy` that have not run. -/
  ticks : Nat
  nextTimer : Nat
  deriving DecidableEq, Repr

namespace Connection

def init : Connection :=
  { socket := false, repeaterRunning := false, connectionAttempts := 0, connectionTimer := none
    pending := [], ticks := 0, nextTimer := 0 }

def clearConnectionTimer (s : Connection) : Connection :=
  { s with pending := s.pending.filter fun timer => some timer ≠ s.connectionTimer }

def disconnect (s : Connection) : Connection :=
  { clearConnectionTimer s with socket := false }

/-- `ServerRepeaterLauncher.close`. -/
def close (s : Connection) : Connection :=
  disconnect { s with repeaterRunning := false }

def isCriticalError (code : RepeaterErrorCodes) : Bool :=
  code ∈ [.repeaterDeactivated, .repeaterNoLongerSupported, .repeaterUnauthorized,
    .repeaterAlreadyStarted, .repeaterNotPermitted, .unexpectedError]

/-- The launcher's handler closes on a critical error. Where it cannot normalise
the texts it throws before that, and the wrapper logs the exception. -/
def handleError (s : Connection) (data : ErrorData) : Connection :=
  if data.texts && isCriticalError data.code then close s else s

def suppressConnectionError (data : ErrorData) : Bool :=
  data.code ∈ [.repeaterUnauthorized, .repeaterNotPermitted]

def scheduleReconnection (s : Connection) : Connection :=
  { s with
    connectionAttempts := s.connectionAttempts + 1
    connectionTimer := some s.nextTimer
    pending := s.pending ++ [s.nextTimer]
    nextTimer := s.nextTimer + 1 }

def minReconnectionDelay : ℚ := 5000

def maxReconnectionDelay : ℚ := 1000

/-- What `Math.random()` returns. -/
def Jitter : Type := { r : ℚ // 0 ≤ r ∧ r < 1 }

/-- The computation of `scheduleReconnection`, for any two constants. -/
def delayWithin (low high : ℚ) (connectionAttempts : Nat) (random : Jitter) : ℚ :=
  let delay := max (low * 2 ^ connectionAttempts) low
  let delay := delay + delay * (3 / 10) * random.val
  min delay high

/-- The delay `scheduleReconnection` arms its timer with. -/
def reconnectionDelay (s : Connection) (random : Jitter) : ℚ :=
  delayWithin minReconnectionDelay maxReconnectionDelay s.connectionAttempts random

/-- The `ERROR` event is handled before the reconnection is scheduled, which
happens in any case. -/
def handleConnectionError (s : Connection) (data : Option ErrorData) : Connection :=
  match data with
  | some data =>
    if suppressConnectionError data then scheduleReconnection (handleError s data)
    else scheduleReconnection s
  | none => scheduleReconnection s

/-- `CONNECTED` makes the launcher deploy, which schedules the emission. -/
def handleConnect (s : Connection) : Connection :=
  { clearConnectionTimer s with connectionAttempts := 0, ticks := s.ticks + 1 }

inductive Event where
  /-- `ServerRepeaterLauncher.run`. -/
  | run
  | close
  | disconnect
  | connected
  | connectError (data : Option ErrorData)
  /-- Event `disconnect` of the socket. -/
  | disconnected (reason : String)
  /-- Event `error` sent by the server. -/
  | serverError (data : ErrorData)
  | reconnectFailed
  | timerFires (timer : Nat)
  | tickFires
  deriving DecidableEq, Repr

/-- Listeners of a socket are removed with it, so its events need one. The event
`reconnect_failed` comes from its manager. A callback of the server reads the
socket when it runs; `Unsocketed` says that there is none, and the state is the
one the exception leaves. -/
def step (s : Connection) : Event → Option Connection
  | .run =>
    if s.repeaterRunning then some s
    else some { s with repeaterRunning := true, socket := true }
  | .close => some (close s)
  | .disconnect => some (disconnect s)
  | .connected => if s.socket then some (handleConnect s) else none
  | .connectError data => if s.socket then some (handleConnectionError s data) else none
  | .disconnected _ => if s.socket then some s else none
  | .serverError data => if s.socket then some (handleError s data) else none
  | .reconnectFailed => if s.socket then some (close s) else some s
  | .timerFires timer =>
    if timer ∈ s.pending then some { s with pending := s.pending.erase timer } else none
  | .tickFires => if 0 < s.ticks then some { s with ticks := s.ticks - 1 } else none

/-- A scheduled callback would run and find no socket. -/
def Unsocketed (s : Connection) : Event → Prop
  | .timerFires _ => s.socket = false
  | .tickFires => s.socket = false
  | _ => False

end Connection

end BrightCli.Source.Repeater
