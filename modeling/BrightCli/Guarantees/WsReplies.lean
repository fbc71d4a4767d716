import BrightCli.Guarantees.WsErrors

/-!
# Replies of a WebSocket exchange

The listener for frames is attached when the callback of `send` runs. A reply
that arrives after the call of `send` and before its callback meets no listener
and is dropped. An exchange answers with the first matching frame after the
callback; so it answers with the first reply exactly when the two are the same,
or when there was none.
-/
namespace BrightCli.Guarantees.WsReplies
open BrightCli.Lib BrightCli.Lib.Js BrightCli.Source BrightCli.Source.Ws
  BrightCli.Source.Ws.Exchange BrightCli.Guarantees.WsErrors

/-- The client closes or the frame timeout fires. -/
def ends : Event → Bool
  | .closed _ _ => true
  | .timeout => true
  | _ => false

def calls : Event → Bool
  | .sendCalled => true
  | _ => false

def completes : Event → Bool
  | .sendCompleted none => true
  | _ => false

def isProtocolError : Event → Bool
  | .protocolError _ => true
  | _ => false

section
variable (matcher : Option (String → Bool))

/-- The text of a matching frame. -/
def reply : Event → Option String
  | .message text => if accepts matcher text then some text else none
  | _ => none

/-- The matching frames delivered after the first event that `starts` and
before the end. -/
def repliesAfter (starts : Event → Bool) (events : List Event) : List String :=
  ((events.takeWhile fun e => !ends e).dropWhile fun e => !starts e).filterMap (reply matcher)

/-- The frame an exchange has resolved with. -/
def answered : Phase → Option String
  | .resolved response =>
    match response.body with
    | .str text => some text
    | _ => none
  | _ => none

section
variable (starts : Event → Bool) (seen : List Event) (e : Event)

theorem repliesAfter_ended (ended : seen.any ends = true) :
    repliesAfter matcher starts (seen ++ [e]) = repliesAfter matcher starts seen := by
  have cut : (seen ++ [e]).takeWhile (fun e => !ends e) = seen.takeWhile fun e => !ends e := by
    rw [List.takeWhile_append, if_neg]
    intro whole
    have all := List.takeWhile_eq_self_iff.mp ((List.takeWhile_prefix _).eq_of_length whole)
    obtain ⟨last, member, isEnd⟩ := List.any_eq_true.mp ended
    simpa [isEnd] using all last member
  rw [repliesAfter, cut, repliesAfter]

theorem repliesAfter_running (running : seen.any ends = false) (started : seen.any starts = true) :
    repliesAfter matcher starts (seen ++ [e]) =
      repliesAfter matcher starts seen ++ (reply matcher e).toList := by
  have open_ : ∀ x ∈ seen, (!ends x) = true := by
    intro x member
    simpa using List.any_eq_false.mp running x member
  have whole : seen.takeWhile (fun e => !ends e) = seen := List.takeWhile_eq_self_iff.mpr open_
  have nonempty : (seen.dropWhile fun e => !starts e).isEmpty = false := by
    rw [List.isEmpty_eq_false_iff]
    intro nil
    obtain ⟨first, member, isStart⟩ := List.any_eq_true.mp started
    simpa [isStart] using List.dropWhile_eq_nil_iff.mp nil first member
  have last : ([e].takeWhile fun e => !ends e).filterMap (reply matcher) =
      (reply matcher e).toList := by
    cases isEnd : ends e with
    | true =>
      have silent : reply matcher e = none := by
        cases e <;> simp_all [ends, reply]
      simp [isEnd, silent]
    | false =>
      cases text : reply matcher e <;> simp [isEnd, text]
  unfold repliesAfter
  rw [List.takeWhile_append_of_pos open_, List.dropWhile_append, whole, nonempty]
  simp only [Bool.false_eq_true, ↓reduceIte]
  rw [List.filterMap_append, last]

theorem repliesAfter_unstarted (unstarted : seen.any starts = false) :
    repliesAfter matcher starts seen = [] := by
  have waiting : ∀ x ∈ seen.takeWhile (fun e => !ends e), (!starts x) = true := by
    intro x member
    simpa using List.any_eq_false.mp unstarted x ((List.takeWhile_prefix _).subset member)
  rw [repliesAfter, List.dropWhile_eq_nil_iff.mpr waiting]
  rfl

end

/-- Only frames count. -/
theorem repliesAfter_silent (starts : Event → Bool) (seen : List Event) (e : Event)
    (silent : reply matcher e = none) :
    repliesAfter matcher starts (seen ++ [e]) = repliesAfter matcher starts seen := by
  cases ended : seen.any ends with
  | true => exact repliesAfter_ended matcher starts seen e ended
  | false =>
    cases started : seen.any starts with
    | true =>
      rw [repliesAfter_running matcher starts seen e ended started, silent]
      exact List.append_nil _
    | false =>
      rw [repliesAfter_unstarted matcher starts seen started]
      have open_ : ∀ x ∈ seen, (!ends x) = true := by
        intro x member
        simpa using List.any_eq_false.mp ended x member
      have waiting : ∀ x ∈ seen, (!starts x) = true := by
        intro x member
        simpa using List.any_eq_false.mp started x member
      unfold repliesAfter
      rw [List.takeWhile_append_of_pos open_, List.dropWhile_append_of_pos waiting,
        List.filterMap_eq_nil_iff]
      intro x member
      have own := (List.takeWhile_prefix _).subset ((List.dropWhile_suffix _).subset member)
      rw [List.mem_singleton.mp own, silent]

/-- The exchange has not come to `consume` yet. -/
def Early : Phase → Prop
  | .connecting => True
  | .connected => True
  | .sending => True
  | _ => False

/-- How the events seen so far and the state agree, in a run without protocol
error: the exchange has answered with the first matching frame after the
callback of `send`. -/
structure Tracks (seen : List Event) (s : Exchange) : Prop where
  answer : (repliesAfter matcher completes seen).head? = answered s.phase
  early : Early s.phase → seen.any completes = false
  quiet : Early s.phase → s.closed = false → seen.any ends = false
  live : s.phase = .consuming → s.closed = false →
    seen.any completes = true ∧ seen.any ends = false
  finished : Settled s.phase → answered s.phase = none →
    seen.any completes = false ∨ seen.any ends = true

theorem any_snoc (p : Event → Bool) (seen : List Event) (e : Event) :
    (seen ++ [e]).any p = (seen.any p || p e) := by
  simp

theorem answered_of_early {phase : Phase} (early : Early phase) : answered phase = none := by
  cases phase <;> first | rfl | exact early.elim

theorem not_early_of_settled {phase : Phase} (settled : Settled phase) : ¬ Early phase := by
  cases phase <;> simp_all [Settled, Early]

theorem advance_phase (s : Exchange) :
    (advance s).closed = s.closed ∧
      ((advance s).phase = s.phase ∨ (Early s.phase ∧ Early (advance s).phase)) := by
  unfold advance
  split
  · rename_i connecting
    split
    · rw [connecting]
      exact ⟨rfl, Or.inr ⟨trivial, trivial⟩⟩
    · exact ⟨rfl, Or.inl rfl⟩
  · exact ⟨rfl, Or.inl rfl⟩

section
variable {matcher : Option (String → Bool)} {seen : List Event} {s : Exchange}
  (tracks : Tracks matcher seen s)
include tracks

/-- Events that leave phase and client as they are, or move between the early phases. -/
theorem tracks_silent {e : Event} {next : Exchange} (silent : reply matcher e = none)
    (incomplete : completes e = false) (unended : ends e = false) (closed : next.closed = s.closed)
    (phase : next.phase = s.phase ∨ (Early s.phase ∧ Early next.phase)) :
    Tracks matcher (seen ++ [e]) next := by
  have replies := repliesAfter_silent matcher completes seen e silent
  rcases phase with same | ⟨before, after⟩
  · refine ⟨?_, ?_, ?_, ?_, ?_⟩
    · rw [replies, tracks.answer, same]
    · rw [any_snoc, incomplete, Bool.or_false, same]
      exact tracks.early
    · rw [any_snoc, unended, Bool.or_false, same, closed]
      exact tracks.quiet
    · rw [any_snoc, any_snoc, incomplete, unended, Bool.or_false, Bool.or_false, same, closed]
      exact tracks.live
    · rw [any_snoc, any_snoc, incomplete, unended, Bool.or_false, Bool.or_false, same]
      exact tracks.finished
  · refine ⟨?_, ?_, ?_, ?_, ?_⟩
    · rw [replies, tracks.answer, answered_of_early before, answered_of_early after]
    · intro _
      rw [any_snoc, incomplete, Bool.or_false]
      exact tracks.early before
    · intro _ present
      rw [any_snoc, unended, Bool.or_false]
      exact tracks.quiet before (closed ▸ present)
    · intro consuming
      rw [consuming] at after
      exact after.elim
    · intro settled
      exact absurd after (not_early_of_settled settled)

/-- Outside `consume` a frame changes nothing: before it the window has not
started, and after it the answer stands or the window has ended. -/
theorem answer_of_dropped (e : Event) (incomplete : completes e = false)
    (elsewhere : s.phase ≠ .consuming) :
    (repliesAfter matcher completes (seen ++ [e])).head? = answered s.phase := by
  cases ended : seen.any ends with
  | true => rw [repliesAfter_ended matcher completes seen e ended, tracks.answer]
  | false =>
    cases started : seen.any completes with
    | false =>
      have answer := tracks.answer
      rw [repliesAfter_unstarted matcher completes seen started] at answer
      rw [repliesAfter_unstarted matcher completes (seen ++ [e])
        (by rw [any_snoc, started, incomplete]; rfl)]
      exact answer
    | true =>
      have notEarly : ¬ Early s.phase := by
        intro early
        rw [tracks.early early] at started
        cases started
      have settled : Settled s.phase := by
        cases phase : s.phase <;> simp_all [Early, Settled]
      cases text : answered s.phase with
      | none =>
        rcases tracks.finished settled text with unstarted | finished
        · rw [unstarted] at started
          cases started
        · rw [finished] at ended
          cases ended
      | some first =>
        have answer := tracks.answer
        rw [text] at answer
        rw [repliesAfter_running matcher completes seen e ended started, List.head?_append, answer]
        rfl

/-- A frame is taken by `consume` and by nothing else. -/
theorem tracks_message (text : String) (present : s.closed = false) :
    Tracks matcher (seen ++ [.message text]) (handleMessage matcher s text) := by
  by_cases taken : accepts matcher text = true ∧ s.phase = .consuming
  · obtain ⟨counted, consuming⟩ := taken
    obtain ⟨started, running⟩ := tracks.live consuming present
    have resolved : handleMessage matcher s text =
        settle s (.resolved (s.frameResponse text)) := by
      simp [handleMessage, consuming, counted]
    have none_before : repliesAfter matcher completes seen = [] := by
      have head := tracks.answer
      rw [consuming] at head
      exact List.head?_eq_none_iff.mp head
    have own : reply matcher (.message text) = some text := by simp [reply, counted]
    rw [resolved]
    refine ⟨?_, fun early => early.elim, fun early => early.elim,
      (fun consuming => by cases consuming), (fun _ unanswered => by cases unanswered)⟩
    rw [repliesAfter_running matcher completes seen _ running started, none_before, own]
    rfl
  · have ignored : handleMessage matcher s text = s := by
      unfold handleMessage
      split
      · rename_i consuming
        rw [if_neg fun counted => taken ⟨counted, consuming⟩]
      · rfl
    rw [ignored]
    refine ⟨?_, ?_, ?_, ?_, ?_⟩
    · by_cases counted : accepts matcher text = true
      · exact answer_of_dropped tracks (.message text) rfl fun consuming => taken ⟨counted, consuming⟩
      · rw [repliesAfter_silent matcher completes seen _ (by simp [reply, counted]), tracks.answer]
    · simpa [any_snoc, completes] using tracks.early
    · simpa [any_snoc, ends] using tracks.quiet
    · simpa [any_snoc, completes, ends] using tracks.live
    · simpa [any_snoc, completes, ends] using tracks.finished

/-- The callback of `send` starts `consume`, or ends the exchange. -/
theorem tracks_sent (err : Option JsError) (sending : s.phase = .sending) :
    Tracks matcher (seen ++ [.sendCompleted err]) (handleSent s err) := by
  have early : Early s.phase := by
    rw [sending]
    trivial
  have replies := repliesAfter_silent matcher completes seen (.sendCompleted err) rfl
  have none_before : (repliesAfter matcher completes seen).head? = none := by
    rw [tracks.answer, sending]
    rfl
  cases err with
  | none =>
    refine ⟨by rw [replies, none_before]; rfl, fun early => early.elim, fun early => early.elim, ?_,
      fun settled => settled.elim⟩
    intro _ present
    rw [any_snoc, any_snoc, tracks.quiet early present]
    exact ⟨by simp [completes], rfl⟩
  | some err =>
    refine ⟨by rw [replies, none_before]; rfl, fun early => early.elim, fun early => early.elim,
      (fun consuming => by cases consuming), fun _ _ => Or.inl ?_⟩
    rw [any_snoc, tracks.early early]
    rfl

/-- The window ends: whatever is settled from here on is settled. -/
theorem tracks_ended (e : Event) (next : Exchange) (silent : reply matcher e = none)
    (incomplete : completes e = false) (ended : ends e = true)
    (shut : Early next.phase ∨ next.phase = .consuming → next.closed = true)
    (phase : next.phase = s.phase ∨
      s.phase = .consuming ∧ Settled next.phase ∧ answered next.phase = none) :
    Tracks matcher (seen ++ [e]) next := by
  have replies := repliesAfter_silent matcher completes seen e silent
  have finished : (seen ++ [e]).any ends = true := by
    rw [any_snoc, ended]
    exact Bool.or_true _
  refine ⟨?_, ?_, ?_, ?_, fun _ _ => Or.inr finished⟩
  · rw [replies, tracks.answer]
    rcases phase with same | ⟨consuming, -, unanswered⟩
    · rw [same]
    · rw [consuming, unanswered]
      rfl
  · intro early
    rcases phase with same | ⟨-, settled, -⟩
    · rw [any_snoc, incomplete, Bool.or_false]
      exact tracks.early (same ▸ early)
    · exact absurd early (not_early_of_settled settled)
  · intro early present
    rw [shut (Or.inl early)] at present
    cases present
  · intro consuming present
    rw [shut (Or.inr consuming)] at present
    cases present

theorem tracks_close (code : Nat) (reason : Utf8.Bytes) :
    Tracks matcher (seen ++ [.closed code reason]) (handleClose s code reason) := by
  unfold handleClose
  split
  · rename_i consuming
    exact tracks_ended tracks _ _ rfl rfl rfl (fun _ => rfl) (Or.inr ⟨consuming, trivial, rfl⟩)
  · exact tracks_ended tracks _ _ rfl rfl rfl (fun _ => rfl) (Or.inl rfl)

theorem tracks_timeout (sound : Sound s) (alive : s.crashed = false) (timer : s.timer = true) :
    Tracks matcher (seen ++ [.timeout]) (emitError { s with timer := false } timedOut) := by
  obtain ⟨-, consuming, -, -⟩ := consuming_of_timer sound alive timer
  rw [timeout_rejects sound alive timer]
  refine tracks_ended tracks _ _ rfl rfl rfl ?_ (Or.inr ⟨consuming, trivial, rfl⟩)
  intro unsettled
  rcases unsettled with early | consuming
  · exact early.elim
  · cases consuming

theorem tracks_step (sound : Sound s) (e : Event) (next : Exchange)
    (harmless : isProtocolError e = false) (stepped : step matcher s e = some next) :
    Tracks matcher (seen ++ [e]) next := by
  obtain ⟨alive, taken⟩ := step_taken stepped
  cases taken with
  | upgrade res _ _ =>
    obtain ⟨closed, phase⟩ := advance_phase
      { s with upgraded := some res, waiters := s.waiters.erase .upgrade }
    exact tracks_silent tracks rfl rfl rfl closed phase
  | opened _ _ =>
    obtain ⟨closed, phase⟩ := advance_phase
      { s with opened := true, waiters := s.waiters.erase .open }
    exact tracks_silent tracks rfl rfl rfl closed phase
  | sendCalled connected =>
    refine tracks_silent tracks rfl rfl rfl rfl (Or.inr ⟨?_, trivial⟩)
    rw [connected]
    trivial
  | sendCompleted err sending => exact tracks_sent tracks err sending
  | message text _ present => exact tracks_message tracks text present
  | closed code reason _ _ => exact tracks_close tracks code reason
  | timeout timer => exact tracks_timeout tracks sound alive timer
  | protocolError err _ _ _ => cases harmless

end

/-- In a run without protocol error the exchange has answered with the first
matching frame that came after the callback of `send` and before the end. -/
theorem answered_of_run (events : List Event) (s : Exchange)
    (harmless : events.any isProtocolError = false)
    (reached : Trace.run (step matcher) init events = some s) :
    (repliesAfter matcher completes events).head? = answered s.phase := by
  have tracks : Tracks matcher events s := by
    refine Trace.run_induction
      (P := fun seen s => seen.any isProtocolError = false → Tracks matcher seen s) ?_ ?_ reached
      harmless
    · intro _
      exact ⟨rfl, fun _ => rfl, fun _ _ => rfl, (fun consuming => by cases consuming),
        fun settled => settled.elim⟩
    · intro seen before e after reachedBefore tracks stepped harmless
      rw [any_snoc, Bool.or_eq_false_iff] at harmless
      exact tracks_step (tracks harmless.1) (sound_run matcher seen before reachedBefore) e after
        harmless.2 stepped
  exact tracks.answer

/-- At every point of a run, and so when the exchange has settled, it has
answered with the first reply to its `send` exactly when there was none or the
first matching frame after the callback carries the same text. -/
theorem reply_answered_iff (events : List Event) (s : Exchange)
    (harmless : events.any isProtocolError = false)
    (reached : Trace.run (step matcher) init events = some s) :
    (∀ text, (repliesAfter matcher calls events).head? = some text →
        ∃ response, s.phase = .resolved response ∧ response.body = .str text) ↔
      repliesAfter matcher calls events = [] ∨
        (repliesAfter matcher completes events).head? = (repliesAfter matcher calls events).head? := by
  have answer := answered_of_run matcher events s harmless reached
  have body_iff : ∀ text, (∃ response, s.phase = .resolved response ∧ response.body = .str text) ↔
      answered s.phase = some text := by
    intro text
    cases phase : s.phase with
    | resolved response =>
      simp only [Phase.resolved.injEq, exists_eq_left', answered]
      cases response.body <;> simp
    | _ => simp [answered]
  simp only [body_iff, answer]
  cases replies : repliesAfter matcher calls events with
  | nil => simp
  | cons first rest => simp [eq_comm]

end

theorem late_reply_answered :
    ∃ s, Trace.run (step none) init
        [.upgrade switching, .opened, .sendCalled, .sendCompleted none, .message "pong"] = some s ∧
      ∃ response, s.phase = .resolved response ∧ response.body = .str "pong" := by
  refine ⟨_, rfl, ?_⟩
  exact (reply_answered_iff none
    [.upgrade switching, .opened, .sendCalled, .sendCompleted none, .message "pong"] _ rfl rfl).mpr (Or.inr rfl) "pong" rfl

/-- The reply comes before the callback of `send`: the exchange times out. -/
theorem early_reply_lost :
    ∃ s, Trace.run (step none) init
        [.upgrade switching, .opened, .sendCalled, .message "pong", .sendCompleted none,
          .timeout] = some s ∧
      (repliesAfter none calls
        [.upgrade switching, .opened, .sendCalled, .message "pong", .sendCompleted none,
          .timeout]).head? = some "pong" ∧
      s.phase = .rejected timedOut :=
  ⟨_, rfl, rfl, rfl⟩

end BrightCli.Guarantees.WsReplies
