import BrightCli.Lib.Trace
import BrightCli.Source.Request

/-!
# One WebSocket exchange

Source: `executeRequest`, `connect`, `consume`, `waitForResponse` and
`setTimeout` of `src/RequestExecutor/WsRequestExecutor.ts`.

A step is one event of the client, of its `send`, or of the frame timer,
together with the continuations it wakes. Each pending `once` of `node:events`
is a waiter: it listens for its event and for `error`, and the first of the two
removes both listeners. An `error` that meets no waiter is thrown as an uncaught
exception and ends the process. The client closes some time after the exchange
has settled, or the peer closes it at any time after `open`.
-/
namespace BrightCli.Source.Ws
open BrightCli.Lib BrightCli.Lib.Js

structure IncomingMessage where
  statusCode : Nat
  headers : Value

/-- The events that are awaited with `once`. -/
inductive Awaited where
  | open
  | upgrade
  | close
  deriving DecidableEq, Repr

inductive Phase where
  /-- Awaiting `open` and `upgrade`. -/
  | connecting
  /-- Both have come and `send` is not called yet. -/
  | connected
  /-- Awaiting the callback of `send`. -/
  | sending
  /-- Awaiting a frame or `close`. -/
  | consuming
  | resolved (response : Response)
  | rejected (err : JsError)

structure Exchange where
  phase : Phase
  opened : Bool
  upgraded : Option IncomingMessage
  waiters : List Awaited
  timer : Bool
  closed : Bool
  /-- The one protocol error was emitted. -/
  failed : Bool
  crashed : Bool

namespace Exchange

def init : Exchange :=
  { phase := .connecting, opened := false, upgraded := none, waiters := [.open, .upgrade]
    timer := false, closed := false, failed := false, crashed := false }

/-- The exchange ends; its `finally` clears the timer. -/
def settle (s : Exchange) (phase : Phase) : Exchange := { s with phase, timer := false }

/-- `connect` returns when both of its events have come. -/
def advance (s : Exchange) : Exchange :=
  match s.phase with
  | .connecting => if s.opened && s.upgraded.isSome then { s with phase := .connected } else s
  | _ => s

def headers (s : Exchange) : Value := (s.upgraded.map IncomingMessage.headers).getD .undefined

/-- The response for a frame: `msg.code` is undefined. -/
def frameResponse (s : Exchange) (text : String) : Response :=
  { protocol := "ws"
    statusCode := (s.upgraded.map fun res => .num res.statusCode).getD .undefined
    headers := s.headers
    body := .str text }

/-- The response for a closed connection: `msg.body` is the reason. -/
def closeResponse (s : Exchange) (code : Nat) (reason : Utf8.Bytes) : Response :=
  { protocol := "ws", statusCode := .num code, headers := s.headers, body := .bytes reason }

def timedOut : JsError :=
  { name := "Error", message := "Waiting frame has timed out", code := some "ETIMEDOUT"
    syscall := none }

/-- All waiters reject. Only `connect` and `consume` are awaited by the exchange;
the waiter for `close` outlives a `consume` that a frame has resolved. -/
def emitError (s : Exchange) (err : JsError) : Exchange :=
  if s.waiters = [] then { s with crashed := true }
  else
    match s.phase with
    | .connecting => settle { s with waiters := [] } (.rejected err)
    | .consuming => settle { s with waiters := [] } (.rejected err)
    | _ => { s with waiters := [] }

inductive Event where
  | upgrade (res : IncomingMessage)
  | opened
  | sendCalled
  | sendCompleted (err : Option JsError)
  | message (text : String)
  | closed (code : Nat) (reason : Utf8.Bytes)
  | timeout
  | protocolError (err : JsError)

/-- A frame counts when there is no matcher or the matcher accepts it. -/
def accepts (matcher : Option (String → Bool)) (text : String) : Bool :=
  matcher.all fun test => test text

def handleMessage (matcher : Option (String → Bool)) (s : Exchange) (text : String) : Exchange :=
  match s.phase with
  | .consuming =>
    if accepts matcher text then settle s (.resolved (s.frameResponse text)) else s
  | _ => s

def handleClose (s : Exchange) (code : Nat) (reason : Utf8.Bytes) : Exchange :=
  match s.phase with
  | .consuming =>
    settle { s with closed := true, waiters := s.waiters.erase .close }
      (.resolved (s.closeResponse code reason))
  | _ => { s with closed := true, waiters := s.waiters.erase .close }

/-- The callback of `send`: the frame timer is armed, and `consume` registers
its listeners. -/
def handleSent (s : Exchange) : Option JsError → Exchange
  | none => { s with phase := .consuming, timer := true, waiters := s.waiters ++ [.close] }
  | some err => settle s (.rejected err)

/-- Frames, `close` and protocol errors come between `open` and `close`, and at
most one protocol error is emitted. -/
def step (matcher : Option (String → Bool)) (s : Exchange) (e : Event) : Option Exchange :=
  if s.crashed then none
  else
    match e with
    | .upgrade res =>
      if s.upgraded.isNone && !s.closed then
        some (advance { s with upgraded := some res, waiters := s.waiters.erase .upgrade })
      else none
    | .opened =>
      if !s.opened && !s.closed then
        some (advance { s with opened := true, waiters := s.waiters.erase .open })
      else none
    | .sendCalled =>
      match s.phase with
      | .connected => some { s with phase := .sending }
      | _ => none
    | .sendCompleted err =>
      match s.phase with
      | .sending => some (handleSent s err)
      | _ => none
    | .message text => if s.opened && !s.closed then some (handleMessage matcher s text) else none
    | .closed code reason =>
      if s.opened && !s.closed then some (handleClose s code reason) else none
    | .timeout => if s.timer then some (emitError { s with timer := false } timedOut) else none
    | .protocolError err =>
      if s.opened && !s.closed && !s.failed then some (emitError { s with failed := true } err)
      else none

/-- What `executeRequest` settles with. -/
def outcome? : Phase → Option (Except JsError Response)
  | .resolved response => some (.ok response)
  | .rejected err => some (.error err)
  | _ => none

/-- How a call of `executeRequest` goes: its client cannot be made or fails before the
connection is open, or the connection opens and the events of the client settle the
exchange. -/
inductive Call (matcher : Option (String → Bool)) where
  | unopened (err : JsError)
  | exchanged (events : List Event) (last : Exchange) (outcome : Except JsError Response)
      (ran : Trace.run (step matcher) init events = some last) (alive : last.crashed = false)
      (settled : outcome? last.phase = some outcome)

namespace Call

variable {matcher : Option (String → Bool)}

def outcome : Call matcher → Except JsError Response
  | unopened err => .error err
  | exchanged _ _ outcome _ _ _ => outcome

/-- The events of the client, if it was opened. -/
def events? : Call matcher → Option (List Event)
  | unopened _ => none
  | exchanged events _ _ _ _ _ => some events

end Call

/-- The steps that can be taken, each event with the guards it has passed. -/
inductive Taken (matcher : Option (String → Bool)) (s : Exchange) : Event → Exchange → Prop
  | upgrade (res : IncomingMessage) (fresh : s.upgraded = none) (present : s.closed = false) :
      Taken matcher s (.upgrade res)
        (advance { s with upgraded := some res, waiters := s.waiters.erase .upgrade })
  | opened (fresh : s.opened = false) (present : s.closed = false) :
      Taken matcher s .opened
        (advance { s with opened := true, waiters := s.waiters.erase .open })
  | sendCalled (connected : s.phase = .connected) :
      Taken matcher s .sendCalled { s with phase := .sending }
  | sendCompleted (err : Option JsError) (sending : s.phase = .sending) :
      Taken matcher s (.sendCompleted err) (handleSent s err)
  | message (text : String) (opened : s.opened = true) (present : s.closed = false) :
      Taken matcher s (.message text) (handleMessage matcher s text)
  | closed (code : Nat) (reason : Utf8.Bytes) (opened : s.opened = true)
      (present : s.closed = false) : Taken matcher s (.closed code reason) (handleClose s code reason)
  | timeout (timer : s.timer = true) :
      Taken matcher s .timeout (emitError { s with timer := false } timedOut)
  | protocolError (err : JsError) (opened : s.opened = true) (present : s.closed = false)
      (first : s.failed = false) :
      Taken matcher s (.protocolError err) (emitError { s with failed := true } err)

theorem step_taken {matcher : Option (String → Bool)} {s next : Exchange} {e : Event}
    (stepped : step matcher s e = some next) : s.crashed = false ∧ Taken matcher s e next := by
  unfold step at stepped
  split at stepped
  · cases stepped
  · rename_i running
    refine ⟨by simpa using running, ?_⟩
    cases e with
    | sendCalled =>
      dsimp only at stepped
      split at stepped
      · rename_i connected
        cases stepped
        exact .sendCalled connected
      · cases stepped
    | sendCompleted err =>
      dsimp only at stepped
      split at stepped
      · rename_i sending
        cases stepped
        exact .sendCompleted err sending
      · cases stepped
    | timeout =>
      obtain ⟨timer, same⟩ := Option.ite_none_right_eq_some.mp stepped
      cases same
      exact .timeout timer
    | upgrade res =>
      simp only [Option.ite_none_right_eq_some, Bool.and_eq_true, Bool.not_eq_true',
        Option.isNone_iff_eq_none] at stepped
      obtain ⟨⟨fresh, present⟩, same⟩ := stepped
      cases same
      exact .upgrade res fresh present
    | opened =>
      simp only [Option.ite_none_right_eq_some, Bool.and_eq_true, Bool.not_eq_true'] at stepped
      obtain ⟨⟨fresh, present⟩, same⟩ := stepped
      cases same
      exact .opened fresh present
    | message text =>
      simp only [Option.ite_none_right_eq_some, Bool.and_eq_true, Bool.not_eq_true'] at stepped
      obtain ⟨⟨opened, present⟩, same⟩ := stepped
      cases same
      exact .message text opened present
    | closed code reason =>
      simp only [Option.ite_none_right_eq_some, Bool.and_eq_true, Bool.not_eq_true'] at stepped
      obtain ⟨⟨opened, present⟩, same⟩ := stepped
      cases same
      exact .closed code reason opened present
    | protocolError err =>
      simp only [Option.ite_none_right_eq_some, Bool.and_eq_true, Bool.not_eq_true'] at stepped
      obtain ⟨⟨⟨opened, present⟩, first⟩, same⟩ := stepped
      cases same
      exact .protocolError err opened present first

end Exchange

end BrightCli.Source.Ws
