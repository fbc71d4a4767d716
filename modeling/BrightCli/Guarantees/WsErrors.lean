import BrightCli.Source.Ws.Exchange

/-!
# Errors of a WebSocket client and their listeners

The listeners for `error` are those of the pending `once` calls. There is one
while the handshake is awaited, and from the completed `send` on until the
client has closed or an error has consumed it. There is none while `send` is
called and pending, and none after the exchange was rejected, although the
client may still be open. A protocol error is harmless exactly in the phases
that have a listener; the frame timeout always finds one.
-/
namespace BrightCli.Guarantees.WsErrors
open BrightCli.Lib BrightCli.Lib.Js BrightCli.Source BrightCli.Source.Ws
  BrightCli.Source.Ws.Exchange

/-- The waiters of `connect` that have not been served. -/
def awaiting (s : Exchange) : List Awaited :=
  (if s.opened then [] else [.open]) ++ if s.upgraded.isSome then [] else [.upgrade]

/-- The handshake is complete. -/
def Shaken (s : Exchange) : Prop := s.opened = true ∧ s.upgraded.isSome = true

/-- Waiters and timer of an exchange without a protocol error so far. -/
def Shape (s : Exchange) : Prop :=
  match s.phase with
  | .connecting => ¬ Shaken s ∧ s.waiters = awaiting s ∧ s.timer = false
  | .connected => Shaken s ∧ s.waiters = [] ∧ s.timer = false
  | .sending => Shaken s ∧ s.waiters = [] ∧ s.timer = false
  | .consuming => Shaken s ∧ s.waiters = [.close]
  | .resolved _ => Shaken s ∧ (s.closed = false → s.waiters = [.close]) ∧ s.timer = false
  | .rejected _ => Shaken s ∧ s.waiters = [] ∧ s.timer = false

def Settled : Phase → Prop
  | .resolved _ => True
  | .rejected _ => True
  | _ => False

/-- What every reachable state satisfies. After a protocol error that found a
listener the exchange has settled and its timer is cleared. -/
def Sound (s : Exchange) : Prop :=
  s.crashed = true ∨ (s.failed = true ∧ Settled s.phase ∧ s.timer = false) ∨
    (s.failed = false ∧ Shape s)

/-- A step starts from a process that runs. -/
theorem Sound.of_alive {s : Exchange} (sound : Sound s) (alive : s.crashed = false) :
    (s.failed = true ∧ Settled s.phase ∧ s.timer = false) ∨ (s.failed = false ∧ Shape s) := by
  rcases sound with crashed | holds
  · rw [alive] at crashed
    cases crashed
  · exact holds

/-- Before the first protocol error the shape holds. -/
theorem Sound.shape {s : Exchange} (sound : Sound s) (alive : s.crashed = false)
    (first : s.failed = false) : Shape s := by
  rcases sound.of_alive alive with ⟨failed, -, -⟩ | ⟨-, shape⟩
  · rw [first] at failed
    cases failed
  · exact shape

/-- A phase in which a protocol error finds a listener. -/
def Waiting : Phase → Prop
  | .connecting => True
  | .consuming => True
  | .resolved _ => True
  | _ => False

theorem awaiting_ne_nil {s : Exchange} (unshaken : ¬ Shaken s) : awaiting s ≠ [] := by
  unfold Shaken at unshaken
  unfold awaiting
  cases opened : s.opened <;> cases upgraded : s.upgraded.isSome <;> simp_all

theorem waiters_iff_waiting {s : Exchange} (shape : Shape s) (present : s.closed = false) :
    s.waiters ≠ [] ↔ Waiting s.phase := by
  unfold Shape at shape
  split at shape
  · rename_i phase
    rw [shape.2.1, phase]
    exact iff_of_true (awaiting_ne_nil shape.1) trivial
  · rename_i phase
    simp [shape.2.1, phase, Waiting]
  · rename_i phase
    simp [shape.2.1, phase, Waiting]
  · rename_i phase
    simp [shape.2, phase, Waiting]
  · rename_i response phase
    simp [shape.2.1 present, phase, Waiting]
  · rename_i err phase
    simp [shape.2.1, phase, Waiting]

theorem advance_of_settled {s : Exchange} (settled : Settled s.phase) : advance s = s := by
  unfold advance
  split
  · rename_i phase
    rw [phase] at settled
    exact settled.elim
  · rfl

/-- `connect` has been served one of its events, and only these come before it. -/
theorem sound_advance {s : Exchange} (connecting : s.phase = .connecting)
    (waiters : s.waiters = awaiting s) (timer : s.timer = false) (failed : s.failed = false) :
    Sound (advance s) := by
  refine Or.inr (Or.inr ?_)
  unfold advance
  rw [connecting]
  by_cases shaken : Shaken s
  · have both : (s.opened && s.upgraded.isSome) = true := by simp [shaken.1, shaken.2]
    simp only [both, ↓reduceIte]
    refine ⟨failed, shaken, ?_, timer⟩
    simp [waiters, awaiting, shaken.1, shaken.2]
  · have missing : (s.opened && s.upgraded.isSome) = false := by
      simpa [Shaken] using shaken
    simp only [missing, Bool.false_eq_true, ↓reduceIte]
    refine ⟨failed, ?_⟩
    unfold Shape
    rw [connecting]
    exact ⟨shaken, waiters, timer⟩

/-- In every phase but the first the handshake is complete. -/
theorem connecting_of_unshaken {s : Exchange} (shape : Shape s) (unshaken : ¬ Shaken s) :
    s.phase = .connecting ∧ s.waiters = awaiting s ∧ s.timer = false := by
  unfold Shape at shape
  split at shape
  · rename_i phase
    exact ⟨phase, shape.2⟩
  all_goals exact absurd shape.1 unshaken

theorem sound_upgrade (s : Exchange) (res : IncomingMessage) (sound : Sound s)
    (alive : s.crashed = false) (fresh : s.upgraded = none) :
    Sound (advance { s with upgraded := some res, waiters := s.waiters.erase .upgrade }) := by
  rcases sound.of_alive alive with ⟨failed, settled, timer⟩ | ⟨failed, shape⟩
  · rw [advance_of_settled]
    · exact Or.inr (Or.inl ⟨failed, settled, timer⟩)
    · exact settled
  · have unshaken : ¬ Shaken s := by simp [Shaken, fresh]
    obtain ⟨connecting, waiters, timer⟩ := connecting_of_unshaken shape unshaken
    refine sound_advance connecting ?_ timer failed
    simp only [waiters, awaiting, fresh]
    cases s.opened <;> rfl

theorem sound_opened (s : Exchange) (sound : Sound s) (alive : s.crashed = false)
    (fresh : s.opened = false) :
    Sound (advance { s with opened := true, waiters := s.waiters.erase .open }) := by
  rcases sound.of_alive alive with ⟨failed, settled, timer⟩ | ⟨failed, shape⟩
  · rw [advance_of_settled]
    · exact Or.inr (Or.inl ⟨failed, settled, timer⟩)
    · exact settled
  · have unshaken : ¬ Shaken s := by simp [Shaken, fresh]
    obtain ⟨connecting, waiters, timer⟩ := connecting_of_unshaken shape unshaken
    refine sound_advance connecting ?_ timer failed
    simp only [waiters, awaiting, fresh]
    cases s.upgraded <;> rfl

theorem sound_message (matcher : Option (String → Bool)) (s : Exchange) (text : String)
    (sound : Sound s) : Sound (handleMessage matcher s text) := by
  unfold handleMessage
  split
  · rename_i consuming
    split
    · rcases sound with crashed | ⟨failed, settled, timer⟩ | ⟨failed, shape⟩
      · exact Or.inl crashed
      · rw [consuming] at settled
        exact settled.elim
      · rw [Shape, consuming] at shape
        exact Or.inr (Or.inr ⟨failed, shape.1, fun _ => shape.2, rfl⟩)
    · exact sound
  · exact sound

theorem sound_close (s : Exchange) (code : Nat) (reason : Utf8.Bytes) (sound : Sound s)
    (opened : s.opened = true) : Sound (handleClose s code reason) := by
  unfold handleClose
  rcases sound with crashed | ⟨failed, settled, timer⟩ | ⟨failed, shape⟩
  · split
    · exact Or.inl crashed
    · exact Or.inl crashed
  · split
    · rename_i consuming
      rw [consuming] at settled
      exact settled.elim
    · exact Or.inr (Or.inl ⟨failed, settled, timer⟩)
  · refine Or.inr (Or.inr ?_)
    unfold Shape at shape
    cases phase : s.phase with
    | connecting =>
      rw [phase] at shape
      refine ⟨failed, shape.1, ?_, shape.2.2⟩
      rw [shape.2.1]
      simp only [awaiting, opened]
      cases s.upgraded.isSome <;> rfl
    | connected =>
      rw [phase] at shape
      exact ⟨failed, shape.1, by rw [shape.2.1]; rfl, shape.2.2⟩
    | sending =>
      rw [phase] at shape
      exact ⟨failed, shape.1, by rw [shape.2.1]; rfl, shape.2.2⟩
    | consuming =>
      rw [phase] at shape
      exact ⟨failed, shape.1, (fun still => by cases still), rfl⟩
    | resolved response =>
      rw [phase] at shape
      exact ⟨failed, shape.1, (fun still => by cases still), shape.2.2⟩
    | rejected err =>
      rw [phase] at shape
      exact ⟨failed, shape.1, by rw [shape.2.1]; rfl, shape.2.2⟩

theorem sound_sent (s : Exchange) (err : Option JsError) (sound : Sound s)
    (sending : s.phase = .sending) : Sound (handleSent s err) := by
  rcases sound with crashed | ⟨failed, settled, timer⟩ | ⟨failed, shape⟩
  · cases err <;> exact Or.inl crashed
  · rw [sending] at settled
    exact settled.elim
  · unfold Shape at shape
    rw [sending] at shape
    refine Or.inr (Or.inr ?_)
    cases err with
    | none => exact ⟨failed, shape.1, by simp [handleSent, shape.2.1]⟩
    | some err => exact ⟨failed, shape.1, shape.2.1, rfl⟩

theorem sound_sendCalled (s : Exchange) (sound : Sound s) (connected : s.phase = .connected) :
    Sound { s with phase := .sending } := by
  rcases sound with crashed | ⟨failed, settled, timer⟩ | ⟨failed, shape⟩
  · exact Or.inl crashed
  · rw [connected] at settled
    exact settled.elim
  · unfold Shape at shape
    rw [connected] at shape
    exact Or.inr (Or.inr ⟨failed, shape⟩)

/-- The timer runs only in one phase, which has a listener. -/
theorem consuming_of_timer {s : Exchange} (sound : Sound s) (alive : s.crashed = false)
    (timer : s.timer = true) : s.failed = false ∧ s.phase = .consuming ∧ s.waiters = [.close] ∧
      Shaken s := by
  rcases sound.of_alive alive with ⟨-, -, cleared⟩ | ⟨failed, shape⟩
  · rw [timer] at cleared
    cases cleared
  · unfold Shape at shape
    cases phase : s.phase with
    | consuming =>
      rw [phase] at shape
      exact ⟨failed, rfl, shape.2, shape.1⟩
    | _ =>
      rw [phase, timer] at shape
      exact absurd shape.2.2 (by simp)

/-- The frame timeout rejects the exchange. -/
theorem timeout_rejects {s : Exchange} (sound : Sound s) (alive : s.crashed = false)
    (timer : s.timer = true) :
    emitError { s with timer := false } timedOut =
      { s with timer := false, waiters := [], phase := .rejected timedOut } := by
  obtain ⟨-, consuming, waiters, -⟩ := consuming_of_timer sound alive timer
  simp [emitError, waiters, consuming, settle]

theorem sound_timeout (s : Exchange) (sound : Sound s) (alive : s.crashed = false)
    (timer : s.timer = true) : Sound (emitError { s with timer := false } timedOut) := by
  obtain ⟨failed, -, -, shaken⟩ := consuming_of_timer sound alive timer
  rw [timeout_rejects sound alive timer]
  exact Or.inr (Or.inr ⟨failed, shaken, rfl, rfl⟩)

theorem sound_protocolError (s : Exchange) (err : JsError) (sound : Sound s)
    (alive : s.crashed = false) (first : s.failed = false) :
    Sound (emitError { s with failed := true } err) := by
  unfold emitError
  split
  · exact Or.inl rfl
  · rename_i listened
    have shape := sound.shape alive first
    unfold Shape at shape
    refine Or.inr (Or.inl ?_)
    cases phase : s.phase with
    | connecting => exact ⟨rfl, trivial, rfl⟩
    | consuming => exact ⟨rfl, trivial, rfl⟩
    | connected =>
      rw [phase] at shape
      exact absurd shape.2.1 listened
    | sending =>
      rw [phase] at shape
      exact absurd shape.2.1 listened
    | resolved response =>
      rw [phase] at shape
      exact ⟨rfl, trivial, shape.2.2⟩
    | rejected _ =>
      rw [phase] at shape
      exact absurd shape.2.1 listened

theorem sound_step (matcher : Option (String → Bool)) (s : Exchange) (e : Event) (next : Exchange)
    (sound : Sound s) (stepped : step matcher s e = some next) : Sound next := by
  obtain ⟨alive, taken⟩ := step_taken stepped
  cases taken with
  | upgrade res fresh _ => exact sound_upgrade s res sound alive fresh
  | opened fresh _ => exact sound_opened s sound alive fresh
  | sendCalled connected => exact sound_sendCalled s sound connected
  | sendCompleted err sending => exact sound_sent s err sound sending
  | message text _ _ => exact sound_message matcher s text sound
  | closed code reason opened _ => exact sound_close s code reason sound opened
  | timeout timer => exact sound_timeout s sound alive timer
  | protocolError err _ _ first => exact sound_protocolError s err sound alive first

theorem sound_run (matcher : Option (String → Bool)) (events : List Event) (s : Exchange)
    (reached : Trace.run (step matcher) init events = some s) : Sound s := by
  refine Trace.run_invariant ?_ ?_ reached
  · exact Or.inr (Or.inr ⟨rfl, by simp [Shaken, init], rfl, rfl⟩)
  · intro before e after sound stepped
    exact sound_step matcher before e after sound stepped

/-- An `error` event that the step emits finds a listener. -/
def ErrorHandled (s : Exchange) : Event → Prop
  | .timeout => s.waiters ≠ []
  | .protocolError _ => s.waiters ≠ []
  | _ => True

/-- A protocol error comes in a phase that waits for something. -/
def ErrorAwaited (s : Exchange) : Event → Prop
  | .protocolError _ => Waiting s.phase
  | _ => True

theorem handled_iff_awaited (matcher : Option (String → Bool)) (s : Exchange) (e : Event)
    (next : Exchange) (sound : Sound s) (stepped : step matcher s e = some next) :
    ErrorHandled s e ↔ ErrorAwaited s e := by
  obtain ⟨alive, taken⟩ := step_taken stepped
  cases taken with
  | timeout timer =>
    have waiters := (consuming_of_timer sound alive timer).2.2.1
    exact iff_of_true (by simp [ErrorHandled, waiters]) trivial
  | protocolError err _ present first =>
    exact waiters_iff_waiting (sound.shape alive first) present
  | _ => exact Iff.rfl

/-- Along every run, every `error` event finds a listener exactly when the
protocol error, if it comes, comes while the exchange waits for the handshake
or for a frame, or after a frame or a `close` has resolved it. -/
theorem errors_handled_iff (matcher : Option (String → Bool)) (events : List Event)
    (last : Exchange) (legal : Trace.run (step matcher) init events = some last) :
    Trace.EachStep (step matcher) init ErrorHandled events ↔
      Trace.EachStep (step matcher) init ErrorAwaited events := by
  have pointwise : ∀ seen e s, seen ++ [e] <+: events →
      Trace.run (step matcher) init seen = some s → (ErrorHandled s e ↔ ErrorAwaited s e) := by
    intro seen e s pre reached
    obtain ⟨next, stepped⟩ := Trace.step_of_prefix legal pre reached
    exact handled_iff_awaited matcher s e next (sound_run matcher seen s reached) stepped
  constructor
  · intro handled seen e s pre reached
    exact (pointwise seen e s pre reached).mp (handled seen e s pre reached)
  · intro awaited seen e s pre reached
    exact (pointwise seen e s pre reached).mpr (awaited seen e s pre reached)

def switching : IncomingMessage := { statusCode := 101, headers := .undefined }

def badFrame : JsError :=
  { name := "RangeError", message := "Invalid WebSocket frame: invalid opcode 3"
    code := some "WS_ERR_INVALID_OPCODE", syscall := none }

theorem bad_frame_while_consuming_handled :
    Trace.EachStep (step none) init ErrorHandled
      [.upgrade switching, .opened, .sendCalled, .sendCompleted none, .protocolError badFrame] := by
  rw [errors_handled_iff none _ _ rfl, Trace.eachStep_cons rfl, Trace.eachStep_cons rfl,
    Trace.eachStep_cons rfl, Trace.eachStep_cons rfl, Trace.eachStep_cons rfl]
  exact ⟨trivial, trivial, trivial, trivial, trivial, Trace.eachStep_nil _ _⟩

/-- A bad frame while `send` is pending, and one after the frame timeout while
the client is still closing: both are legal and neither finds a listener. -/
theorem bad_frame_unhandled :
    (∃ s, Trace.run (step none) init [.upgrade switching, .opened, .sendCalled] = some s ∧
      (step none s (.protocolError badFrame)).isSome ∧
      ¬ ErrorHandled s (.protocolError badFrame)) ∧
    ∃ s, Trace.run (step none) init
        [.upgrade switching, .opened, .sendCalled, .sendCompleted none, .timeout] = some s ∧
      (step none s (.protocolError badFrame)).isSome ∧
      ¬ ErrorHandled s (.protocolError badFrame) :=
  ⟨⟨_, rfl, rfl, fun handled => handled rfl⟩, ⟨_, rfl, rfl, fun handled => handled rfl⟩⟩

end BrightCli.Guarantees.WsErrors
