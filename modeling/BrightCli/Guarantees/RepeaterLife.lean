import BrightCli.Lib.Simulation
import BrightCli.Source.Repeater.Life

/-!
# Subscriptions of a repeater

The launcher subscribes when it runs and everything is unsubscribed when it
closes, however often and in whatever order that happens. So each event that the
launcher listens for has one handler while there is a socket, and none otherwise; every event
that arrives is handled once; and the machine of `Connection`, which knows no
subscriptions, is a faithful abstraction of this one.
-/
namespace BrightCli.Guarantees.RepeaterLife
open BrightCli.Lib BrightCli.Source.Repeater BrightCli.Source.Repeater.Life

/-- The handler of an event among those of one subscription. -/
def handlerOf (subscription : Nat) : RepeaterServerEvents → Option Handler
  | .connected => some .deployRepeater
  | .error => some .handleError
  | .reconnectionFailed => some .reconnectionFailed
  | .request => some .requestReceived
  | .limits => some .limitsReceived
  | .testNetwork => some .testingNetwork
  | .scriptsUpdated => some (.compileScripts subscription)
  | .updateAvailable => some (.warnOfUpdate subscription)
  | .reconnectAttempt => some (.warnOfAttempt subscription)
  | .reconnectionSucceeded => some (.logReconnection subscription)
  | .deployed => none
  | .deploy => none
  | .disconnected => none
  | .ping => none

/-- The registrations there should be. -/
def wiring (s : Life) : List (RepeaterServerEvents × Handler) :=
  match s.socket with
  | some _ => subscribed (s.subscriptions - 1)
  | none => []

structure Wired (s : Life) : Prop where
  registered : s.events.registrations = wiring s
  running : s.repeaterRunning = s.socket.isSome
  made : ∀ socket, s.socket = some socket → socket < s.sockets
  awaited : s.connecting = true → s.socket.isSome

theorem wired_init : Wired init := ⟨rfl, rfl, by simp [init], by simp [init]⟩

theorem listeners_subscribed (subscription : Nat) (event : RepeaterServerEvents) :
    (⟨subscribed subscription⟩ : EventEmitter RepeaterServerEvents Handler).listeners event =
      (handlerOf subscription event).toList := by
  cases event <;> rfl

/-- One handler for an event while there is a socket, and none otherwise. -/
theorem listeners_of_wired {s : Life} (wired : Wired s) (event : RepeaterServerEvents) :
    s.events.listeners event =
      match s.socket with
      | some _ => (handlerOf (s.subscriptions - 1) event).toList
      | none => [] := by
  have same : s.events = ⟨wiring s⟩ := by rw [← wired.registered]
  rw [same]
  unfold wiring
  split
  · exact listeners_subscribed _ _
  · rfl

theorem wired_close (s : Life) : Wired (close s) :=
  ⟨rfl, rfl, by simp [close, disconnect], by simp [close, disconnect]⟩

/-- What a state is wired by does not depend on its other parts. -/
theorem Wired.congr {s t : Life} (wired : Wired s) (events : t.events = s.events)
    (socket : t.socket = s.socket) (sockets : t.sockets = s.sockets)
    (subscriptions : t.subscriptions = s.subscriptions)
    (running : t.repeaterRunning = s.repeaterRunning)
    (connecting : t.connecting = true → s.connecting = true) : Wired t := by
  refine ⟨?_, ?_, ?_, ?_⟩
  · rw [events, wired.registered]
    unfold wiring
    rw [socket, subscriptions]
  · rw [running, socket]
    exact wired.running
  · rw [socket, sockets]
    exact wired.made
  · rw [socket]
    exact fun waits => wired.awaited (connecting waits)

theorem wired_run {s : Life} (wired : Wired s) : Wired (run s) := by
  unfold run
  split
  · exact wired
  · rename_i idle
    have closed : s.socket = none := by
      have stopped := wired.running
      rw [Bool.not_eq_true] at idle
      rw [idle] at stopped
      simpa using stopped.symm
    have empty : s.events.registrations = [] := by
      rw [wired.registered]
      unfold wiring
      rw [closed]
    refine ⟨?_, rfl, ?_, fun _ => rfl⟩
    · simp [connect, subscribeToEvents, wiring, subscribed, EventEmitter.on, empty]
    · intro socket same
      cases same
      exact Nat.lt_succ_self _

/-- The history gains a call. -/
def called (s : Life) (event : RepeaterServerEvents) (handler : Handler) : Life :=
  { s with calls := s.calls ++ [(event, handler)] }

/-- An emission reaches the one handler of its event. -/
theorem emit_of_registered {s : Life} {subscription : Nat}
    (registered : s.events.registrations = subscribed subscription) (event : RepeaterServerEvents)
    (payload : Payload) :
    emit s event payload =
      match handlerOf subscription event with
      | some handler => handle payload (called s event handler) handler
      | none => s := by
  have found : s.events.listeners event = (handlerOf subscription event).toList := by
    have same : s.events = ⟨subscribed subscription⟩ := by rw [← registered]
    rw [same, listeners_subscribed]
  unfold emit EventEmitter.emit
  rw [found]
  cases handlerOf subscription event <;> rfl

theorem emit_of_empty {s : Life} (empty : s.events.registrations = []) (event : RepeaterServerEvents)
    (payload : Payload) : emit s event payload = s := by
  simp [emit, EventEmitter.emit, EventEmitter.listeners, empty]

/-- The launcher closes the connection on this error. -/
def closes (data : ErrorData) : Bool := data.texts && Connection.isCriticalError data.code

theorem registered_of_open {s : Life} {socket : Nat} (wired : Wired s)
    (opened : s.socket = some socket) :
    s.events.registrations = subscribed (s.subscriptions - 1) := by
  rw [wired.registered]
  unfold wiring
  rw [opened]

theorem empty_of_closed {s : Life} (wired : Wired s) (closed : s.socket = none) :
    s.events.registrations = [] := by
  rw [wired.registered]
  unfold wiring
  rw [closed]

section
variable {s : Life} {subscription : Nat}

theorem emit_error (registered : s.events.registrations = subscribed subscription)
    (data : ErrorData) :
    emit s .error (.error data) =
      if closes data then { close (called s .error .handleError) with exitCode := some 1 }
      else called s .error .handleError := by
  rw [emit_of_registered registered]
  rfl

theorem scheduleReconnection_open (registered : s.events.registrations = subscribed subscription) :
    scheduleReconnection s =
      { called s .reconnectAttempt (.warnOfAttempt subscription) with
        connectionAttempts := s.connectionAttempts + 1
        connectionTimer := some s.nextTimer
        pending := s.pending ++ [s.nextTimer]
        nextTimer := s.nextTimer + 1 } := by
  have registered' : ({ s with connectionAttempts := s.connectionAttempts + 1 } :
      Life).events.registrations = subscribed subscription := registered
  unfold scheduleReconnection
  rw [emit_of_registered registered']
  rfl

theorem scheduleReconnection_closed (empty : s.events.registrations = []) :
    scheduleReconnection s =
      { s with
        connectionAttempts := s.connectionAttempts + 1
        connectionTimer := some s.nextTimer
        pending := s.pending ++ [s.nextTimer]
        nextTimer := s.nextTimer + 1 } := by
  have empty' : ({ s with connectionAttempts := s.connectionAttempts + 1 } :
      Life).events.registrations = [] := empty
  unfold scheduleReconnection
  rw [emit_of_empty empty']

/-- Without a critical error the handler schedules the next attempt; after one it
does so too, but there is nobody left to hear of it. -/
theorem handleConnectionError_open (registered : s.events.registrations = subscribed subscription)
    (data : Option ErrorData) :
    handleConnectionError s data =
      match data with
      | some data =>
        if Connection.suppressConnectionError data then
          if closes data then
            scheduleReconnection { close (called s .error .handleError) with exitCode := some 1 }
          else scheduleReconnection (called s .error .handleError)
        else scheduleReconnection s
      | none => scheduleReconnection s := by
  cases data with
  | none => rfl
  | some data =>
    simp only [handleConnectionError, emit_error registered]
    split
    · split <;> rfl
    · rfl

end

theorem closed_twice (s : Life) (socket : Nat) (outcome : Deployment) :
    failStart (settleDeployments { close s with exitCode := some 1 } socket outcome) =
      { close (settleDeployments s socket outcome) with exitCode := some 1 } := by
  have cleared : (clearConnectionTimer (clearConnectionTimer s)).pending =
      (clearConnectionTimer s).pending := by
    simp [clearConnectionTimer]
  apply Life.ext
  case pending => exact cleared
  all_goals rfl

/-- What an event of the socket comes to once its one handler is called. -/
def effect (subscription : Nat) (s : Life) (socket : Nat) : SocketEvent → Life
  | .connect =>
    { called (clearConnectionTimer s) .connected .deployRepeater with
      connectionAttempts := 0
      ticks := s.ticks + 1
      deployments := s.deployments ++ [.waiting socket]
      connecting := false }
  | .connectError data => handleConnectionError s data
  | .disconnect _ => s
  | .deployed => settleDeployments s socket .started
  | .request => called s .request .requestReceived
  | .testNetwork => called s .testNetwork .testingNetwork
  | .error data =>
    let handled := settleDeployments (called s .error .handleError) socket .failed
    if closes data || s.connecting then { close handled with exitCode := some 1 } else handled
  | .updateAvailable => called s .updateAvailable (.warnOfUpdate subscription)
  | .scriptsUpdated => called s .scriptsUpdated (.compileScripts subscription)
  | .limits maxBodySize =>
    { called s .limits .limitsReceived with maxBodySize := some maxBodySize }

theorem onSocket_open {s : Life} {subscription socket : Nat}
    (registered : s.events.registrations = subscribed subscription)
    (opened : s.socket = some socket) (event : SocketEvent) :
    onSocket s socket event = effect subscription s socket event := by
  cases event with
  | connect =>
    have registered' : (clearConnectionTimer { s with connectionAttempts := 0 }).events.registrations =
        subscribed subscription := registered
    simp only [onSocket, handleConnect]
    rw [emit_of_registered registered']
    simp [handlerOf, handle, effect, called, clearConnectionTimer, opened]
  | connectError data => rfl
  | disconnect reason =>
    simp only [onSocket, handleDisconnect, emit_of_registered registered]
    split <;> rfl
  | error data =>
    simp only [onSocket, emit_error registered, effect]
    cases closing : closes data with
    | false => cases waiting : s.connecting <;> rfl
    | true =>
      cases waiting : s.connecting with
      | false => rfl
      | true => exact closed_twice (called s .error .handleError) socket .failed
  | _ =>
    simp only [onSocket, emit_of_registered registered]
    rfl

def managerEffect (subscription : Nat) (s : Life) : ManagerEvent → Life
  | .reconnect => called s .reconnectionSucceeded (.logReconnection subscription)
  | .reconnectError => s
  | .reconnectFailed =>
    { close (called s .reconnectionFailed .reconnectionFailed) with exitCode := some 1 }
  | .reconnectAttempt => called s .reconnectAttempt (.warnOfAttempt subscription)

theorem onManager_open {s : Life} {subscription : Nat}
    (registered : s.events.registrations = subscribed subscription) (event : ManagerEvent) :
    onManager s event = managerEffect subscription s event := by
  cases event with
  | reconnectError => rfl
  | _ =>
    simp only [onManager, emit_of_registered registered]
    rfl

theorem onManager_closed {s : Life} (empty : s.events.registrations = []) (event : ManagerEvent) :
    onManager s event = s := by
  cases event with
  | reconnectError => rfl
  | _ => exact emit_of_empty empty _ _

/-- The steps a wired life can take. -/
inductive Taken (s : Life) : Event → Life → Prop
  | run : Taken s .run (run s)
  | close : Taken s .close (close s)
  | signal : Taken s .signal { close s with exitCode := some 0 }
  | socket (socket : Nat) (event : SocketEvent) (opened : s.socket = some socket) :
      Taken s (.socket socket event) (effect (s.subscriptions - 1) s socket event)
  | manager (socket current : Nat) (event : ManagerEvent) (opened : s.socket = some current) :
      Taken s (.manager socket event) (managerEffect (s.subscriptions - 1) s event)
  | unheard (socket : Nat) (event : ManagerEvent) (closed : s.socket = none) :
      Taken s (.manager socket event) s
  | timerFires (timer : Nat) (armed : timer ∈ s.pending) :
      Taken s (.timerFires timer) (useSocket { s with pending := s.pending.erase timer })
  | tickFires (scheduled : 0 < s.ticks) :
      Taken s .tickFires (useSocket { s with ticks := s.ticks - 1 })
  | deploymentTimesOut (i : Nat) :
      Taken s (.deploymentTimesOut i) { s with deployments := s.deployments.set i .failed }

/-- A process that has ended takes no steps. -/
theorem callback_of_step {s next : Life} {e : Event} (stepped : step s e = some next) :
    s.crashed = false ∧ callback s e = some next := by
  unfold step at stepped
  split at stepped
  · cases stepped
  · rename_i runs
    exact ⟨by simpa using runs, stepped⟩

theorem step_taken {s next : Life} {e : Event} (wired : Wired s) (stepped : step s e = some next) :
    Taken s e next := by
  obtain ⟨-, stepped⟩ := callback_of_step stepped
  cases e with
  | run =>
    cases stepped
    exact .run
  | close =>
    cases stepped
    exact .close
  | signal =>
    cases stepped
    exact .signal
  | socket socket event =>
    obtain ⟨opened, same⟩ := Option.ite_none_right_eq_some.mp stepped
    cases same
    rw [onSocket_open (registered_of_open wired opened) opened]
    exact .socket socket event opened
  | manager socket event =>
    obtain ⟨_, same⟩ := Option.ite_none_right_eq_some.mp stepped
    cases same
    cases opened : s.socket with
    | none =>
      rw [onManager_closed (empty_of_closed wired opened)]
      exact .unheard socket event opened
    | some current =>
      rw [onManager_open (registered_of_open wired opened)]
      exact .manager socket current event opened
  | timerFires timer =>
    obtain ⟨armed, same⟩ := Option.ite_none_right_eq_some.mp stepped
    cases same
    exact .timerFires timer armed
  | tickFires =>
    obtain ⟨scheduled, same⟩ := Option.ite_none_right_eq_some.mp stepped
    cases same
    exact .tickFires scheduled
  | deploymentTimesOut i =>
    simp only [callback] at stepped
    split at stepped
    · cases stepped
      exact .deploymentTimesOut i
    · cases stepped

/-! ## The abstraction -/

def abs (s : Life) : Connection :=
  { socket := s.socket.isSome
    repeaterRunning := s.repeaterRunning
    connectionAttempts := s.connectionAttempts
    connectionTimer := s.connectionTimer
    pending := s.pending
    ticks := s.ticks
    nextTimer := s.nextTimer }

/-- What `Connection` sees of an event. An error that comes before the socket has
connected closes the connection a second time. -/
def seen (s : Life) : Event → List Connection.Event
  | .run => [.run]
  | .close => [.close]
  | .signal => [.close]
  | .socket _ .connect => [.connected]
  | .socket _ (.connectError data) => [.connectError data]
  | .socket _ (.disconnect reason) => [.disconnected reason]
  | .socket _ (.error data) => .serverError data :: if s.connecting then [.close] else []
  | .socket _ _ => []
  | .manager _ .reconnectFailed => [.reconnectFailed]
  | .manager _ _ => []
  | .timerFires timer => [.timerFires timer]
  | .tickFires => [.tickFires]
  | .deploymentTimesOut _ => []

theorem abs_useSocket (s : Life) : abs (useSocket s) = abs s := by
  unfold useSocket
  split <;> rfl

theorem connection_closed_twice (s : Connection) :
    Connection.close (Connection.close s) = Connection.close s := by
  simp [Connection.close, Connection.disconnect, Connection.clearConnectionTimer]

theorem abs_run (s : Life) :
    Connection.step (abs s) .run = some (abs (run s)) := by
  unfold run
  cases running : s.repeaterRunning with
  | true => simp [Connection.step, abs, running]
  | false => simp [Connection.step, abs, running, connect, subscribeToEvents]

theorem abs_scheduleReconnection (s : Life)
    (wired : s.events.registrations = [] ∨ ∃ k, s.events.registrations = subscribed k) :
    abs (scheduleReconnection s) = Connection.scheduleReconnection (abs s) := by
  rcases wired with empty | ⟨k, registered⟩
  · rw [scheduleReconnection_closed empty]
    rfl
  · rw [scheduleReconnection_open registered]
    rfl

theorem abs_handleConnectionError {s : Life} {k : Nat}
    (registered : s.events.registrations = subscribed k) (data : Option ErrorData) :
    abs (handleConnectionError s data) = Connection.handleConnectionError (abs s) data := by
  rw [handleConnectionError_open registered]
  cases data with
  | none => exact abs_scheduleReconnection s (Or.inr ⟨k, registered⟩)
  | some data =>
    have handled : Connection.handleError (abs s) data =
        if closes data then Connection.close (abs s) else abs s := rfl
    simp only [Connection.handleConnectionError, handled]
    split
    · split
      · exact abs_scheduleReconnection _ (Or.inl rfl)
      · exact abs_scheduleReconnection _ (Or.inr ⟨k, registered⟩)
    · exact abs_scheduleReconnection s (Or.inr ⟨k, registered⟩)

theorem handleError_eq (s : Life) (data : ErrorData) :
    Connection.handleError (abs s) data =
      if closes data then Connection.close (abs s) else abs s := rfl

/-- An event of the socket is a run of the connection. -/
theorem effect_matched {s : Life} {socket : Nat} (wired : Wired s) (opened : s.socket = some socket)
    (event : SocketEvent) :
    Trace.run Connection.step (abs s) (seen s (.socket socket event)) =
      some (abs (effect (s.subscriptions - 1) s socket event)) := by
  have present : (abs s).socket = true := by simp [abs, opened]
  cases event with
  | connect =>
    simp only [seen, Trace.run_cons, Connection.step, present, ↓reduceIte, Option.bind_some,
      Trace.run_nil]
    rfl
  | connectError data =>
    simp only [seen, Trace.run_cons, Connection.step, present, ↓reduceIte, Option.bind_some,
      Trace.run_nil, Option.some.injEq]
    exact (abs_handleConnectionError (registered_of_open wired opened) data).symm
  | disconnect reason => simp [seen, Connection.step, present, effect]
  | error data =>
    simp only [seen, Trace.run_cons, Connection.step, present, ↓reduceIte, Option.bind_some,
      handleError_eq, effect]
    cases closing : closes data with
    | false => cases waiting : s.connecting <;> rfl
    | true =>
      cases waiting : s.connecting with
      | false => rfl
      | true =>
        simp only [↓reduceIte, Trace.run_cons, Connection.step, Option.bind_some, Trace.run_nil,
          connection_closed_twice]
        rfl
  | _ => rfl

/-- A step of the life is a run of the connection. -/
theorem step_matched {s next : Life} {e : Event} (wired : Wired s) (stepped : step s e = some next) :
    Trace.run Connection.step (abs s) (seen s e) = some (abs next) := by
  cases step_taken wired stepped with
  | run => simp [seen, abs_run s]
  | close => rfl
  | signal => rfl
  | socket socket event opened => exact effect_matched wired opened event
  | manager socket current event opened =>
    cases event with
    | reconnectFailed =>
      have present : (abs s).socket = true := by simp [abs, opened]
      simp only [seen, Trace.run_cons, Connection.step, present, ↓reduceIte, Option.bind_some,
        Trace.run_nil]
      rfl
    | _ => rfl
  | unheard socket event closed =>
    cases event with
    | reconnectFailed => simp [seen, Connection.step, abs, closed]
    | _ => rfl
  | timerFires timer armed =>
    rw [abs_useSocket]
    simp [seen, Connection.step, abs, armed]
  | tickFires scheduled =>
    rw [abs_useSocket]
    simp [seen, Connection.step, abs, scheduled]
  | deploymentTimesOut i => rfl

/-! ## Wiring -/

theorem wired_failed (s : Life) : Wired { close s with exitCode := some 1 } :=
  (wired_close s).congr rfl rfl rfl rfl rfl id

theorem wired_scheduleReconnection {s : Life} (wired : Wired s) : Wired (scheduleReconnection s) := by
  cases opened : s.socket with
  | none =>
    rw [scheduleReconnection_closed (empty_of_closed wired opened)]
    exact wired.congr rfl rfl rfl rfl rfl id
  | some socket =>
    rw [scheduleReconnection_open (registered_of_open wired opened)]
    exact wired.congr rfl rfl rfl rfl rfl id

theorem wired_useSocket {s : Life} (wired : Wired s) : Wired (useSocket s) := by
  unfold useSocket
  split
  · exact wired
  · exact wired.congr rfl rfl rfl rfl rfl id

theorem wired_called {s : Life} (wired : Wired s) (event : RepeaterServerEvents) (handler : Handler) :
    Wired (called s event handler) := wired.congr rfl rfl rfl rfl rfl id

theorem wired_handleConnectionError {s : Life} {socket : Nat} (wired : Wired s)
    (opened : s.socket = some socket) (data : Option ErrorData) :
    Wired (handleConnectionError s data) := by
  rw [handleConnectionError_open (registered_of_open wired opened)]
  cases data with
  | none => exact wired_scheduleReconnection wired
  | some data =>
    simp only
    split
    · split
      · exact wired_scheduleReconnection (wired_failed _)
      · exact wired_scheduleReconnection (wired_called wired _ _)
    · exact wired_scheduleReconnection wired

theorem wired_effect {s : Life} {socket : Nat} (wired : Wired s) (opened : s.socket = some socket)
    (event : SocketEvent) : Wired (effect (s.subscriptions - 1) s socket event) := by
  cases event with
  | connect => exact wired.congr rfl rfl rfl rfl rfl (by intro waits; cases waits)
  | connectError data => exact wired_handleConnectionError wired opened data
  | error data =>
    simp only [effect]
    split
    · exact wired_failed _
    · exact wired.congr rfl rfl rfl rfl rfl id
  | _ => exact wired.congr rfl rfl rfl rfl rfl id

theorem wired_step {s next : Life} {e : Event} (wired : Wired s) (stepped : step s e = some next) :
    Wired next := by
  cases step_taken wired stepped with
  | run => exact wired_run wired
  | close => exact wired_close s
  | signal => exact (wired_close s).congr rfl rfl rfl rfl rfl id
  | socket socket event opened => exact wired_effect wired opened event
  | manager socket current event opened =>
    cases event with
    | reconnectFailed => exact wired_failed _
    | _ => exact wired.congr rfl rfl rfl rfl rfl id
  | timerFires timer => exact wired_useSocket (wired.congr rfl rfl rfl rfl rfl id)
  | tickFires => exact wired_useSocket (wired.congr rfl rfl rfl rfl rfl id)
  | _ => exact wired.congr rfl rfl rfl rfl rfl id

theorem simulates : Trace.Simulates step Connection.step abs seen Wired where
  keep _ _ _ wired stepped := wired_step wired stepped
  matched _ _ _ wired stepped := step_matched wired stepped

/-- Every life of a repeater is, without its subscriptions, a run of its connection. -/
theorem life_refines_connection (events : List Event) (s : Life)
    (ran : Trace.run step init events = some s) :
    Trace.run Connection.step Connection.init (Trace.image step seen init events) = some (abs s) :=
  (simulates.run wired_init ran).2

/-! ## Calls of the handlers -/

/-- The handlers that an event is for. After a connection error that closed the
connection, nobody is left to hear of the next attempt. -/
def due (s : Life) : Event → List (RepeaterServerEvents × Handler)
  | .socket _ .connect => [(.connected, .deployRepeater)]
  | .socket _ (.connectError data) =>
    match data with
    | some data =>
      if Connection.suppressConnectionError data then
        (.error, .handleError) ::
          if closes data then [] else [(.reconnectAttempt, .warnOfAttempt (s.subscriptions - 1))]
      else [(.reconnectAttempt, .warnOfAttempt (s.subscriptions - 1))]
    | none => [(.reconnectAttempt, .warnOfAttempt (s.subscriptions - 1))]
  | .socket _ .request => [(.request, .requestReceived)]
  | .socket _ .testNetwork => [(.testNetwork, .testingNetwork)]
  | .socket _ (.error _) => [(.error, .handleError)]
  | .socket _ .updateAvailable => [(.updateAvailable, .warnOfUpdate (s.subscriptions - 1))]
  | .socket _ .scriptsUpdated => [(.scriptsUpdated, .compileScripts (s.subscriptions - 1))]
  | .socket _ (.limits _) => [(.limits, .limitsReceived)]
  | .manager _ event =>
    match s.socket, event with
    | some _, .reconnect => [(.reconnectionSucceeded, .logReconnection (s.subscriptions - 1))]
    | some _, .reconnectFailed => [(.reconnectionFailed, .reconnectionFailed)]
    | some _, .reconnectAttempt => [(.reconnectAttempt, .warnOfAttempt (s.subscriptions - 1))]
    | _, _ => []
  | _ => []

theorem calls_scheduleReconnection {s : Life} {subscription : Nat}
    (registered : s.events.registrations = subscribed subscription) :
    (scheduleReconnection s).calls =
      s.calls ++ [(.reconnectAttempt, .warnOfAttempt subscription)] := by
  rw [scheduleReconnection_open registered]
  rfl

theorem calls_handleConnectionError {s : Life} {socket : Nat} (wired : Wired s)
    (opened : s.socket = some socket) (data : Option ErrorData) :
    (handleConnectionError s data).calls =
      s.calls ++ due s (.socket socket (.connectError data)) := by
  have registered := registered_of_open wired opened
  rw [handleConnectionError_open registered]
  cases data with
  | none => exact calls_scheduleReconnection registered
  | some data =>
    simp only [due]
    split
    · split
      · rw [scheduleReconnection_closed rfl]
        rfl
      · have handled : (called s .error .handleError).events.registrations =
            subscribed (s.subscriptions - 1) := registered
        rw [calls_scheduleReconnection handled]
        simp [called]
    · exact calls_scheduleReconnection registered

theorem calls_useSocket (s : Life) : (useSocket s).calls = s.calls := by
  unfold useSocket
  split <;> rfl

theorem calls_step {s next : Life} {e : Event} (wired : Wired s) (stepped : step s e = some next) :
    next.calls = s.calls ++ due s e := by
  cases step_taken wired stepped with
  | run =>
    simp only [due, List.append_nil, run]
    split <;> rfl
  | socket socket event opened =>
    cases event with
    | connectError data => exact calls_handleConnectionError wired opened data
    | error data =>
      simp only [effect]
      split <;> rfl
    | disconnect reason => simp [effect, due]
    | deployed => simp [effect, due, settleDeployments]
    | _ => rfl
  | manager socket current event opened =>
    cases event with
    | reconnectError => simp [managerEffect, due]
    | _ => simp [managerEffect, due, opened, called, close, disconnect, clearConnectionTimer]
  | unheard socket event closed => simp [due, closed]
  | close => simp [due, close, disconnect, clearConnectionTimer]
  | signal => simp [due, close, disconnect, clearConnectionTimer]
  | timerFires timer => simp [due, calls_useSocket]
  | tickFires => simp [due, calls_useSocket]
  | _ => simp [due]

/-- The induction is on the run, from any wired state. -/
theorem calls_run {s last : Life} {events : List Event} (wired : Wired s)
    (ran : Trace.run step s events = some last) :
    last.calls = s.calls ++ Trace.image step due s events := by
  induction events generalizing s with
  | nil =>
    cases ran
    simp [Trace.image]
  | cons e rest ih =>
    rw [Trace.run_cons] at ran
    obtain ⟨next, stepped, ran⟩ := Option.bind_eq_some_iff.mp ran
    rw [ih (wired_step wired stepped) ran, calls_step wired stepped, Trace.image_cons stepped,
      List.append_assoc]

/-- However often the launcher ran and closed, each event that it listens for has its one
handler while there is a socket and none otherwise, and the calls of the handlers
are those the delivered events are for, each event once. -/
theorem events_handled_once (events : List Event) (s : Life)
    (ran : Trace.run step init events = some s) :
    (∀ event, s.events.listeners event =
      match s.socket with
      | some _ => (handlerOf (s.subscriptions - 1) event).toList
      | none => []) ∧
    s.calls = Trace.image step due init events := by
  have wired := (simulates.run wired_init ran).1
  refine ⟨listeners_of_wired wired, ?_⟩
  rw [calls_run wired_init ran]
  rfl

/-- A repeater that connects, loses its connection to a critical error, and is run
again: two subscriptions, and the request of the second socket is received once. -/
def rerun : List Event :=
  [.run, .socket 0 .connect, .socket 0 .request,
    .socket 0 (.error { code := .repeaterDeactivated, texts := true }), .run, .socket 1 .request]

theorem rerun_refines :
    ∃ s, Trace.run step init rerun = some s ∧
      Trace.run Connection.step Connection.init (Trace.image step seen init rerun) = some (abs s) :=
  ⟨_, rfl, life_refines_connection rerun _ rfl⟩

theorem rerun_handled_once :
    ∃ s, Trace.run step init rerun = some s ∧ s.subscriptions = 2 ∧
      s.calls.count (.request, .requestReceived) = 2 ∧
      s.calls = Trace.image step due init rerun :=
  ⟨_, rfl, rfl, by decide, (events_handled_once rerun _ rfl).2⟩

end BrightCli.Guarantees.RepeaterLife
