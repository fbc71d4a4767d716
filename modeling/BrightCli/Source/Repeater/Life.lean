import BrightCli.Lib.EventEmitter
import BrightCli.Source.Repeater.Connection

/-!
# The life of a repeater

Source: `src/Repeater/DefaultRepeaterServer.ts`,
`src/Repeater/ServerRepeaterLauncher.ts`, and `handler` of
`src/Commands/RunRepeater.ts`.

`Connection` takes for granted that the launcher's handlers are registered
exactly while there is a socket. Here the registrations are part of the state: the
emitter of the server, whose listeners are named by the handlers they wrap, the
socket with its identity, and the promises that wait for an event of the socket. A
step is again one callback of the event loop. An emission on the socket calls the
listeners that were there when it began, so a waiter is called even if a listener
before it closed the connection. Listeners of a manager are never removed. A
scheduled callback that finds no socket throws where nothing catches it, which ends the
process with code one.

The payloads are those of a server that keeps to its interface, apart from the
texts of an error. Log lines and the reconnection error kept for them are left out,
and so is the daemon mode of `run`, which registers `close` with the service
manager.
-/
namespace BrightCli.Source.Repeater
open BrightCli.Lib

inductive RepeaterServerEvents where
  | deployed | deploy | connected | disconnected | request | testNetwork | updateAvailable | limits
  | scriptsUpdated | reconnectionFailed | reconnectAttempt | reconnectionSucceeded | error | ping
  deriving DecidableEq, Repr

/-- The handlers of the launcher: its members, and the functions that each call of
`subscribeToEvents` makes anew. -/
inductive Handler where
  | deployRepeater
  | handleError
  | reconnectionFailed
  | requestReceived
  | limitsReceived
  | testingNetwork
  | compileScripts (subscription : Nat)
  | warnOfUpdate (subscription : Nat)
  | warnOfAttempt (subscription : Nat)
  | logReconnection (subscription : Nat)
  deriving DecidableEq, Repr

/-- What an emission carries, as far as a handler reads it. -/
inductive Payload where
  | none
  | error (data : ErrorData)
  | limits (maxBodySize : Nat)
  deriving DecidableEq, Repr

/-- A call of `deploy`, which waits for `deployed` or `error` of its socket. -/
inductive Deployment where
  | waiting (socket : Nat)
  /-- The launcher reports that the repeater has started. -/
  | started
  | failed
  deriving DecidableEq, Repr

@[ext] structure Life where
  events : EventEmitter RepeaterServerEvents Handler
  /-- `_socket`. -/
  socket : Option Nat
  /-- The sockets made so far. -/
  sockets : Nat
  connectionAttempts : Nat
  connectionTimer : Option Nat
  /-- The promise of `connect` waits for `connect` or `error` of the socket. -/
  connecting : Bool
  repeaterRunning : Bool
  subscriptions : Nat
  maxBodySize : Option Nat
  /-- `process.exitCode`. -/
  exitCode : Option Nat
  /-- An uncaught exception has ended the process. -/
  crashed : Bool
  deployments : List Deployment
  /-- Timers that were armed and have neither fired nor been cleared. -/
  pending : List Nat
  ticks : Nat
  nextTimer : Nat
  /-- The calls of handlers so far. -/
  calls : List (RepeaterServerEvents × Handler)
  deriving DecidableEq, Repr

namespace Life

def init : Life :=
  { events := .new, socket := none, sockets := 0, connectionAttempts := 0, connectionTimer := none
    connecting := false, repeaterRunning := false, subscriptions := 0, maxBodySize := none
    exitCode := none, crashed := false, deployments := [], pending := [], ticks := 0, nextTimer := 0
    calls := [] }

def clearConnectionTimer (s : Life) : Life :=
  { s with pending := s.pending.filter fun timer => some timer ≠ s.connectionTimer }

/-- With the listeners of the socket its waiters are gone; their promises stay
pending. -/
def disconnect (s : Life) : Life :=
  { clearConnectionTimer { s with events := s.events.removeAllListeners } with
    socket := none
    connecting := false }

def close (s : Life) : Life :=
  disconnect { s with repeaterRunning := false }

/-- The handlers that `subscribeToEvents` registers, in its order. -/
def subscribed (subscription : Nat) : List (RepeaterServerEvents × Handler) :=
  [(.connected, .deployRepeater), (.error, .handleError), (.reconnectionFailed, .reconnectionFailed),
    (.request, .requestReceived), (.limits, .limitsReceived), (.testNetwork, .testingNetwork),
    (.scriptsUpdated, .compileScripts subscription), (.updateAvailable, .warnOfUpdate subscription),
    (.reconnectAttempt, .warnOfAttempt subscription),
    (.reconnectionSucceeded, .logReconnection subscription)]

def subscribeToEvents (s : Life) : Life :=
  { s with
    events := (subscribed s.subscriptions).foldl (fun events entry => events.on entry.1 entry.2)
      s.events
    subscriptions := s.subscriptions + 1 }

/-- `DefaultRepeaterServer.connect` up to its `await`. -/
def connect (s : Life) : Life :=
  { s with socket := some s.sockets, sockets := s.sockets + 1, connecting := true }

def run (s : Life) : Life :=
  if s.repeaterRunning then s
  else connect (subscribeToEvents { s with repeaterRunning := true })

def handleCriticalError (s : Life) : Life :=
  { close s with exitCode := some 1 }

/-- A call of a handler, up to its first `await`. -/
def handle (payload : Payload) (s : Life) (handler : Handler) : Life :=
  match handler, payload with
  | .deployRepeater, _ =>
    { s with
      ticks := s.ticks + 1
      deployments := s.deployments ++ (s.socket.map Deployment.waiting).toList }
  | .handleError, .error data =>
    if data.texts && Connection.isCriticalError data.code then handleCriticalError s else s
  | .reconnectionFailed, _ => { close s with exitCode := some 1 }
  | .limitsReceived, .limits maxBodySize => { s with maxBodySize := some maxBodySize }
  | _, _ => s

/-- `this.events.emit(event, ...)`. -/
def emit (s : Life) (event : RepeaterServerEvents) (payload : Payload) : Life :=
  s.events.emit event
    (fun s handler => handle payload { s with calls := s.calls ++ [(event, handler)] } handler) s

def scheduleReconnection (s : Life) : Life :=
  let s := emit { s with connectionAttempts := s.connectionAttempts + 1 } .reconnectAttempt .none
  { s with
    connectionTimer := some s.nextTimer
    pending := s.pending ++ [s.nextTimer]
    nextTimer := s.nextTimer + 1 }

def handleConnectionError (s : Life) (data : Option ErrorData) : Life :=
  match data with
  | some data =>
    if Connection.suppressConnectionError data then
      scheduleReconnection (emit s .error (.error data))
    else scheduleReconnection s
  | none => scheduleReconnection s

def handleConnect (s : Life) : Life :=
  emit (clearConnectionTimer { s with connectionAttempts := 0 }) .connected .none

def handleDisconnect (s : Life) (reason : String) : Life :=
  if reason ≠ "io client disconnect" then emit s .disconnected .none else s

inductive SocketEvent where
  | connect
  | connectError (data : Option ErrorData)
  | disconnect (reason : String)
  | deployed
  | request
  | testNetwork
  | error (data : ErrorData)
  | updateAvailable
  | scriptsUpdated
  | limits (maxBodySize : Nat)
  deriving DecidableEq, Repr

inductive ManagerEvent where
  | reconnect
  | reconnectError
  | reconnectFailed
  | reconnectAttempt
  deriving DecidableEq, Repr

/-- The calls of `deploy` that wait on this socket come to an end. -/
def settleDeployments (s : Life) (socket : Nat) (outcome : Deployment) : Life :=
  { s with
    deployments := s.deployments.map fun deployment =>
      if deployment = .waiting socket then outcome else deployment }

/-- The catch clause of the command's handler, when the promise of `connect` rejects. -/
def failStart (s : Life) : Life :=
  { close s with exitCode := some 1 }

/-- The listeners of a socket: those of the server first, then the waiters. -/
def onSocket (s : Life) (socket : Nat) : SocketEvent → Life
  | .connect => { handleConnect s with connecting := false }
  | .connectError data => handleConnectionError s data
  | .disconnect reason => handleDisconnect s reason
  | .deployed => settleDeployments (emit s .deploy .none) socket .started
  | .request => emit s .request .none
  | .testNetwork => emit s .testNetwork .none
  | .error data =>
    let handled := settleDeployments (emit s .error (.error data)) socket .failed
    if s.connecting then failStart handled else handled
  | .updateAvailable => emit s .updateAvailable .none
  | .scriptsUpdated => emit s .scriptsUpdated .none
  | .limits maxBodySize => emit s .limits (.limits maxBodySize)

def onManager (s : Life) : ManagerEvent → Life
  | .reconnect => emit s .reconnectionSucceeded .none
  | .reconnectError => s
  | .reconnectFailed => emit s .reconnectionFailed .none
  | .reconnectAttempt => emit s .reconnectAttempt .none

/-- The getter `socket`, in a callback that the event loop calls. -/
def useSocket (s : Life) : Life :=
  match s.socket with
  | some _ => s
  | none => { s with crashed := true, exitCode := some 1 }

inductive Event where
  | run
  | close
  /-- `SIGTERM`, `SIGINT` or `SIGHUP`. -/
  | signal
  | socket (socket : Nat) (event : SocketEvent)
  | manager (socket : Nat) (event : ManagerEvent)
  | timerFires (timer : Nat)
  | tickFires
  /-- The timer of a call of `deploy`. -/
  | deploymentTimesOut (deployment : Nat)
  deriving DecidableEq, Repr

/-- A callback of a process that runs. -/
def callback (s : Life) : Event → Option Life
  | .run => some (run s)
  | .close => some (close s)
  | .signal => some { close s with exitCode := some 0 }
  | .socket socket event => if s.socket = some socket then some (onSocket s socket event) else none
  | .manager socket event => if socket < s.sockets then some (onManager s event) else none
  | .timerFires timer =>
    if timer ∈ s.pending then some (useSocket { s with pending := s.pending.erase timer }) else none
  | .tickFires => if 0 < s.ticks then some (useSocket { s with ticks := s.ticks - 1 }) else none
  | .deploymentTimesOut i =>
    match s.deployments[i]? with
    | some (.waiting _) => some { s with deployments := s.deployments.set i .failed }
    | _ => none

def step (s : Life) (e : Event) : Option Life := if s.crashed then none else callback s e

end Life

end BrightCli.Source.Repeater
