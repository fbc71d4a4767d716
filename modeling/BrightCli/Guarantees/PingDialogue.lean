import Mathlib.Data.List.Chain
import Mathlib.Data.Nat.Digits.Defs
import BrightCli.Guarantees.BoundedPool
import BrightCli.Guarantees.ChunkIndependence
import BrightCli.Guarantees.PingUrls
import BrightCli.Source.Repeater.Diagnostics

/-!
# The dialogue of a ping

The parent answers when it has read the question, and the child prints nothing in
between, so the question ends its chunk. The child is at rest only before it has an
answer and after its last line, and the parent ends the input when it has read that
line. So no run stops halfway, whatever the order of the probes and the chunks, unless a
read cuts a write: a question or a last line in two pieces is not recognised.
-/
namespace BrightCli.Guarantees.PingDialogue
open BrightCli.Lib BrightCli.Source BrightCli.Source.NetworkTest BrightCli.Source.Wizard
open BrightCli.Source.NetworkTest.ReadlinePlatform BrightCli.Source.Repeater
open BrightCli.Guarantees.BoundedPool BrightCli.Guarantees.PingUrls
open BrightCli.Guarantees.ChunkIndependence (verdict)

/-- URLs that arrive as they were sent. -/
structure Sendable (platform : Platform) (urls : List String) : Prop where
  some_url : urls ≠ []
  parses : ∀ url ∈ urls, (platform.parseUrl url).isSome = true
  edged : ∀ url ∈ urls, url ≠ "" ∧ trim url = url
  plain : ∀ url ∈ urls, ∀ c ∈ url.toList, separates c = false

/-! ## The child -/

inductive Moved (p : Probing) : Probing.Event → Probing → List Print → Prop where
  | passed (url : String) (rest : List String) (phase : p.pool.phase = .looping)
      (items : p.pool.items = url :: rest) :
      Moved p .next
        { p with pool := p.pool.takeItem poolLimit url rest, handlers := p.handlers ++ [none] }
        [.trying url, .cursor]
  | returned (i : Nat) (result : Option Bool) (running : p.handlers[i]? = some none) :
      Moved p (.returned i result)
        { p with
          handlers := p.handlers.set i (some (result.getD false))
          reachedCount := p.reachedCount + (result.getD false).toNat } []
  | reported (i : Nat) (url : String) (result : Bool) (ended : p.handlers[i]? = some (some result))
      (called : p.pool.called[i]? = some url) (pending : p.pool.promises[i]? = some .pending) :
      Moved p (.reported i)
        { p with pool := { p.pool with promises := p.pool.promises.set i (.fulfilled ()) } }
        [.tried url result]
  /-- The pool goes on by itself. -/
  | pooled (event : Probing.Event) (other : ∀ i result, event ≠ .returned i result)
      (own : Pool.Event Unit) (pool : Pool String Unit)
      (stepped : p.pool.step poolLimit own = some pool) (calls : pool.called = p.pool.called)
      (items : pool.items = p.pool.items)
      (pending : ∀ i : Nat, pool.promises[i]? = some .pending ↔ p.pool.promises[i]? = some .pending)
      (count : pool.promises.countP Settlement.isPending = p.pool.promises.countP Settlement.isPending)
      (still : ∀ values, pool.phase = .resolved values ↔ p.pool.phase = .resolved values) :
      Moved p event { p with pool } []
  | resolved (values : List Unit) (phase : p.pool.phase = .collecting)
      (stepped : p.pool.step poolLimit .resolve = some { p.pool with phase := .resolved values }) :
      Moved p .resolve { p with pool := { p.pool with phase := .resolved values } } p.closing

theorem pending_set_iff {promises : List (Settlement Unit)} {i : Nat} {value : Unit}
    (due : promises[i]? = some (.fulfilled value)) (j : Nat) :
    (promises.set i (.removed value))[j]? = some .pending ↔ promises[j]? = some .pending := by
  by_cases same : i = j
  · subst same
    have inside := (List.getElem?_eq_some_iff.mp due).1
    simp [List.getElem?_set_self inside, due]
  · rw [List.getElem?_set_ne same]

theorem probing_moved {p next : Probing} {event : Probing.Event} {prints : List Print}
    (stepped : p.step event = some (next, prints)) : Moved p event next prints := by
  cases event with
  | next =>
    obtain ⟨pool, moved, rest⟩ := Option.bind_eq_some_iff.mp stepped
    cases step_effect moved with
    | passed url others phase items =>
      rw [items] at rest
      cases rest
      exact .passed url others phase items
    | ended phase items =>
      split at rest
      case h_1 found => simp [items] at found
      cases rest
      exact .pooled .next (by simp) .next _ moved rfl rfl (fun _ => Iff.rfl) rfl (by simp [phase])
  | returned i result =>
    simp only [Probing.step] at stepped
    split at stepped
    · rename_i running
      cases stepped
      exact .returned i result running
    · cases stepped
  | reported i =>
    simp only [Probing.step] at stepped
    split at stepped
    · rename_i result url ended called
      obtain ⟨pool, moved, rest⟩ := Option.bind_eq_some_iff.mp stepped
      cases rest
      cases step_effect moved with
      | fulfilled _ _ pending => exact .reported i url result ended called pending
    · cases stepped
  | callback i =>
    obtain ⟨pool, moved, rest⟩ := Option.bind_eq_some_iff.mp stepped
    cases rest
    cases step_effect moved with
    | removed _ value phase due =>
      have count := countP_set_add Settlement.isPending due (.removed value)
      exact .pooled (.callback i) (by simp) (.callback i) _ moved rfl rfl (pending_set_iff due)
        (by simpa [Settlement.isPending] using count) (fun _ => Iff.rfl)
  | resume =>
    obtain ⟨pool, moved, rest⟩ := Option.bind_eq_some_iff.mp stepped
    cases rest
    cases step_effect moved with
    | resumed members i phase raced settled =>
      exact .pooled .resume (by simp) .resume _ moved rfl rfl (fun _ => Iff.rfl) rfl (by simp [phase])
  | resolve =>
    obtain ⟨pool, moved, rest⟩ := Option.bind_eq_some_iff.mp stepped
    cases rest
    cases step_effect moved with
    | resolved values phase all => exact .resolved values phase moved

/-- What two writes in a row can be. -/
def Follows : Print → Print → Prop
  | before, .cursor => ∃ url, before = .trying url
  | before, .summary _ _ => before = .completed
  | _, _ => True

/-- A write after the answer. -/
def Belongs (input : List String) : Print → Prop
  | .introduction | .question => False
  | .trying url | .tried url _ => url ∈ input
  | .summary unreached total => 0 ≤ unreached ∧ unreached ≤ input.length ∧ total = input.length
  | _ => True

/-- A child that has been told the URLs, and what it has printed since it started to probe. -/
structure Probed (input : List String) (p : Probing) (log : List Print) : Prop where
  urls : p.urls = input
  kept : Bookkept poolLimit input p.pool
  made : p.handlers.length = p.pool.called.length
  counted : p.reachedCount = p.handlers.count (some true)
  running : ∀ i : Nat, p.handlers[i]? = some none → p.pool.promises[i]? = some .pending
  reported : ∀ (i : Nat) url, p.pool.called[i]? = some url → p.pool.promises[i]? ≠ some .pending →
    ∃ result, p.handlers[i]? = some (some result) ∧ .tried url result ∈ log
  belongs : ∀ print ∈ log, Belongs input print
  chain : (Print.internalDiagnostic :: log).IsChain Follows
  done : .done ∈ log ↔ ∃ values, p.pool.phase = .resolved values
  summed : ∀ values, p.pool.phase = .resolved values →
    .summary (p.handlers.count (some false)) input.length ∈ log

/-- All that is printed after the answer. -/
theorem Probed.printed_belongs {input : List String} {p : Probing} {log : List Print}
    (probed : Probed input p log) :
    ∀ print ∈ .delimiter :: .internalDiagnostic :: log, Belongs input print := by
  intro print member
  simp only [List.mem_cons] at member
  rcases member with rfl | rfl | own
  · trivial
  · trivial
  · exact probed.belongs print own

theorem probed_start (input : List String) : Probed input (.start input) [] where
  urls := rfl
  kept := bookkept_start (by decide) input
  made := rfl
  counted := rfl
  running i := by simp [Probing.start]
  reported i url := by simp [Probing.start, Pool.start]
  belongs := by simp
  chain := by simp
  done := by simp [Probing.start, Pool.start]
  summed values := by simp [Probing.start, Pool.start]

section
variable {input : List String} {p next : Probing} {log : List Print}

/-- A resolved pool has no pending promise. -/
theorem not_pending_of_resolved (kept : Bookkept poolLimit input p.pool) {values : List Unit}
    (phase : p.pool.phase = .resolved values) (i : Nat) : p.pool.promises[i]? ≠ some .pending := by
  intro pending
  have all := (results_of_resolved kept phase).2.2
  have unknown : none ∈ p.pool.promises.map Settlement.value? :=
    List.mem_map.mpr ⟨.pending, List.mem_of_getElem? pending, rfl⟩
  rw [all] at unknown
  simp at unknown

theorem chain_append (chain : (Print.internalDiagnostic :: log).IsChain Follows) {prints : List Print}
    (own : prints.IsChain Follows) (free : ∀ first ∈ prints.head?, ∀ before, Follows before first) :
    (Print.internalDiagnostic :: (log ++ prints)).IsChain Follows := by
  rw [← List.cons_append]
  exact chain.append own fun before _ first head => free first head before

theorem probed_passed (probed : Probed input p log) {url : String} {rest : List String}
    (phase : p.pool.phase = .looping) (items : p.pool.items = url :: rest) :
    Probed input { p with pool := p.pool.takeItem poolLimit url rest, handlers := p.handlers ++ [none] }
      (log ++ [.trying url, .cursor]) := by
  have same := probed.kept.made
  have length := probed.made
  have listed : url ∈ input := by
    rw [← probed.kept.called, items]
    simp
  have unresolved : ∀ values, (p.pool.takeItem poolLimit url rest).phase ≠ .resolved values := by
    intro values resolved
    simp only [Pool.takeItem] at resolved
    split at resolved <;> cases resolved
  constructor
  case urls => exact probed.urls
  case kept => exact bookkept_takeItem probed.kept phase items
  case made => simp [Pool.takeItem, probed.made]
  case counted => simp [probed.counted]
  case running =>
    intro i running
    rw [Pool.takeItem]
    by_cases old : i < p.handlers.length
    · rw [List.getElem?_append_left old] at running
      rw [List.getElem?_append_left (by omega)]
      exact probed.running i running
    · have last : i = p.handlers.length := by
        have inside := (List.getElem?_eq_some_iff.mp running).1
        simp at inside
        omega
      subst last
      simp [same, length]
  case reported =>
    intro i other called settled
    by_cases old : i < p.handlers.length
    · simp only [Pool.takeItem] at called settled
      rw [List.getElem?_append_left (by omega)] at called settled
      obtain ⟨result, ended, printed⟩ := probed.reported i other called settled
      exact ⟨result, by rw [List.getElem?_append_left old, ended], List.mem_append_left _ printed⟩
    · have last : i = p.pool.promises.length := by
        have inside := (List.getElem?_eq_some_iff.mp called).1
        simp [Pool.takeItem] at inside
        omega
      subst last
      simp [Pool.takeItem] at settled
  case belongs =>
    intro print member
    rcases List.mem_append.mp member with old | new
    · exact probed.belongs print old
    · rcases List.mem_pair.mp new with rfl | rfl
      · exact listed
      · trivial
  case chain =>
    exact chain_append probed.chain (by simp [Follows]) (by simp [Follows])
  case done =>
    have old := probed.done
    simp only [phase, reduceCtorEq, exists_false, iff_false] at old
    simp [old, unresolved]
  case summed => exact fun values resolved => absurd resolved (unresolved values)

theorem probed_returned (probed : Probed input p log) {i : Nat} {result : Bool}
    (running : p.handlers[i]? = some none) :
    Probed input
      { p with
        handlers := p.handlers.set i (some result)
        reachedCount := p.reachedCount + result.toNat } log := by
  have inside := (List.getElem?_eq_some_iff.mp running).1
  have unresolved : ∀ values, p.pool.phase ≠ .resolved values := by
    intro values phase
    exact not_pending_of_resolved probed.kept phase i (probed.running i running)
  constructor
  case urls => exact probed.urls
  case kept => exact probed.kept
  case made => simpa using probed.made
  case counted =>
    have none_here : p.handlers[i] = none := (List.getElem?_eq_some_iff.mp running).2
    rw [List.count_set inside, none_here, ← probed.counted]
    cases result <;> simp
  case running =>
    intro j still
    by_cases same : i = j
    · subst same
      simp [List.getElem?_set_self inside] at still
    · rw [List.getElem?_set_ne same] at still
      exact probed.running j still
  case reported =>
    intro j url called settled
    obtain ⟨own, ended, printed⟩ := probed.reported j url called settled
    refine ⟨own, ?_, printed⟩
    have other : i ≠ j := by
      rintro rfl
      rw [running] at ended
      cases ended
    rw [List.getElem?_set_ne other, ended]
  case belongs => exact probed.belongs
  case chain => exact probed.chain
  case done => exact probed.done
  case summed => exact fun values phase => absurd phase (unresolved values)

theorem probed_reported (probed : Probed input p log) {i : Nat} {url : String} {result : Bool}
    (ended : p.handlers[i]? = some (some result)) (called : p.pool.called[i]? = some url)
    (pending : p.pool.promises[i]? = some .pending) :
    Probed input
      { p with pool := { p.pool with promises := p.pool.promises.set i (.fulfilled ()) } }
      (log ++ [.tried url result]) := by
  have inside := (List.getElem?_eq_some_iff.mp pending).1
  have listed : url ∈ input := by
    rw [← probed.kept.called]
    exact List.mem_append_left _ (List.mem_of_getElem? called)
  have unresolved : ∀ values, p.pool.phase ≠ .resolved values := by
    intro values phase
    exact not_pending_of_resolved probed.kept phase i pending
  constructor
  case urls => exact probed.urls
  case kept => exact bookkept_fulfil probed.kept () pending
  case made => exact probed.made
  case counted => exact probed.counted
  case running =>
    intro j running
    have other : i ≠ j := by
      rintro rfl
      rw [ended] at running
      cases running
    rw [List.getElem?_set_ne other]
    exact probed.running j running
  case reported =>
    intro j own found settled
    by_cases same : i = j
    · subst same
      rw [called] at found
      cases found
      exact ⟨result, ended, by simp⟩
    · rw [List.getElem?_set_ne same] at settled
      obtain ⟨other, known, printed⟩ := probed.reported j own found settled
      exact ⟨other, known, List.mem_append_left _ printed⟩
  case belongs =>
    intro print member
    rcases List.mem_append.mp member with old | new
    · exact probed.belongs print old
    · cases List.mem_singleton.mp new
      exact listed
  case chain => exact chain_append probed.chain (by simp) (by simp [Follows])
  case done =>
    rw [List.mem_append, probed.done]
    simp
  case summed => exact fun values phase => absurd phase (unresolved values)

theorem probed_pooled (probed : Probed input p log) {own : Pool.Event Unit} {pool : Pool String Unit}
    (stepped : p.pool.step poolLimit own = some pool) (calls : pool.called = p.pool.called)
    (pending : ∀ i : Nat, pool.promises[i]? = some .pending ↔ p.pool.promises[i]? = some .pending)
    (still : ∀ values, pool.phase = .resolved values ↔ p.pool.phase = .resolved values) :
    Probed input { p with pool } log := by
  constructor
  case urls => exact probed.urls
  case kept => exact bookkept_step probed.kept stepped
  case made => exact probed.made.trans (congrArg List.length calls.symm)
  case counted => exact probed.counted
  case running => exact fun i running => (pending i).mpr (probed.running i running)
  case reported =>
    intro i url called settled
    exact probed.reported i url (calls ▸ called) (settled ∘ (pending i).mpr)
  case belongs => exact probed.belongs
  case chain => exact probed.chain
  case done => simp only [probed.done, still]
  case summed => exact fun values phase => probed.summed values ((still values).mp phase)

/-- When all promises have fulfilled, every handler has returned. -/
theorem handlers_of_resolved (probed : Probed input p log)
    (settled : ∀ i : Nat, p.pool.promises[i]? ≠ some .pending) : none ∉ p.handlers := by
  intro member
  obtain ⟨i, running⟩ := List.mem_iff_getElem?.mp member
  exact settled i (probed.running i running)

theorem count_returned {handlers : List (Option Bool)} (returned : none ∉ handlers) :
    handlers.count (some true) + handlers.count (some false) = handlers.length := by
  induction handlers with
  | nil => rfl
  | cons first rest ih =>
    rw [List.mem_cons, not_or] at returned
    have others := ih returned.2
    rcases first with _ | _ | _
    · exact absurd rfl returned.1
    · simp
      omega
    · simp
      omega

theorem probed_resolved (probed : Probed input p log) {values : List Unit}
    (stepped : p.pool.step poolLimit .resolve = some { p.pool with phase := .resolved values }) :
    Probed input { p with pool := { p.pool with phase := .resolved values } } (log ++ p.closing) := by
  have kept := bookkept_step probed.kept stepped
  have whole := results_of_resolved kept rfl
  have returned := handlers_of_resolved probed fun i => by
    exact not_pending_of_resolved (p := { p with pool := { p.pool with phase := .resolved values } })
      kept rfl i
  have unreached : ((p.urls.length : Int) - p.reachedCount) = p.handlers.count (some false) := by
    have total := count_returned returned
    have called : p.pool.called = input := whole.1
    rw [probed.made, called, ← probed.counted] at total
    rw [probed.urls]
    omega
  have closes : p.closing = [.lineEnd, .completed,
      .summary (p.handlers.count (some false)) input.length, .delimiter, .done] := by
    rw [Probing.closing, unreached, probed.urls]
  rw [closes]
  constructor
  case urls => exact probed.urls
  case kept => exact kept
  case made => exact probed.made
  case counted => exact probed.counted
  case running => exact probed.running
  case reported =>
    intro i url called settled
    obtain ⟨result, ended, printed⟩ := probed.reported i url called settled
    exact ⟨result, ended, List.mem_append_left _ printed⟩
  case belongs =>
    intro print member
    rcases List.mem_append.mp member with old | new
    · exact probed.belongs print old
    · simp only [List.mem_cons, List.not_mem_nil, or_false] at new
      rcases new with rfl | rfl | rfl | rfl | rfl
      · trivial
      · trivial
      · have few := List.count_le_length (a := some false) (l := p.handlers)
        rw [probed.made, show p.pool.called = input from whole.1] at few
        exact ⟨Int.natCast_nonneg _, Int.ofNat_le.mpr few, rfl⟩
      · trivial
      · trivial
  case chain => exact chain_append probed.chain (by simp [Follows]) (by simp [Follows])
  case done => simp
  case summed => simp

theorem probed_step (probed : Probed input p log) {event : Probing.Event} {prints : List Print}
    (stepped : p.step event = some (next, prints)) : Probed input next (log ++ prints) := by
  cases probing_moved stepped with
  | passed url rest phase items => exact probed_passed probed phase items
  | returned i result running =>
    rw [List.append_nil]
    exact probed_returned probed running
  | reported i url result ended called pending => exact probed_reported probed ended called pending
  | pooled event other own pool moved calls items pending count still =>
    rw [List.append_nil]
    exact probed_pooled probed moved calls pending still
  | resolved values phase moved => exact probed_resolved probed moved

end

/-! ## Both ends -/

section
variable (platform : Platform) (eol : Eol) (input : List String)

/-- The text of some writes in a row. -/
def chunkText (chunk : List Print) : String := String.join (chunk.map (Print.text eol))

/-- No write is cut: a read takes all that has arrived. -/
def Uncut (s : Diagnostics) : Diagnostics.Event → Prop
  | .read writes size => (s.stdout.available (Diagnostics.bytes eol) writes).length = size
  | _ => True

/-- What the parent does to the child's input on a chunk. -/
def reactions (host : String) (chunk : String) : List Input :=
  (if includes chunk urlsQuestion then [.write (urlsAnswer eol input)] else []) ++
    (if includes chunk hostOrIpQuestion then [.write host] else []) ++
    if includes chunk compeledMessage then [.finish] else []

theorem onData_of_parsed {host : String} (parsed : hostAnswer platform eol input = some host)
    (s : Session) (text : String) :
    s.onData platform eol input (Utf8.encode text) =
      { s with
        stdout := s.stdout ++ linesOf text
        stdin := s.stdin ++ reactions eol input host text } := by
  unfold Session.onData reactions Session.put
  rw [Utf8.decode_encode, parsed]
  dsimp only
  split <;> split <;> split <;> simp

theorem hostAnswer_of_sendable (sendable : Sendable platform input) :
    ∃ host, hostAnswer platform eol input = some host := by
  obtain ⟨first, rest, rfl⟩ := List.exists_cons_of_ne_nil sendable.some_url
  have parses := sendable.parses first (by simp)
  obtain ⟨url, parsed⟩ := Option.isSome_iff_exists.mp parses
  exact ⟨url.hostname ++ eol.text, by simp [hostAnswer, parsed]⟩

/-- A text that is among the writes of a chunk. -/
theorem includes_eq_true {text needle : String} (before after : String)
    (whole : text = before ++ (needle ++ after)) : includes text needle = true := by
  subst whole
  simp only [includes, decide_eq_true_eq, String.toList_append]
  exact ⟨before.toList, after.toList, List.append_assoc _ _ _⟩

theorem includes_eq_false {text : String} (needle : String) {c : Char} (own : c ∈ needle.toList)
    (absent : c ∉ text.toList) : includes text needle = false := by
  simp only [includes, decide_eq_false_iff_not]
  exact fun inside => absent (inside.subset own)

theorem chunkText_append (front back : List Print) :
    chunkText eol (front ++ back) =
      chunkText eol front ++ chunkText eol back := by
  rw [chunkText, List.map_append, String.join_append]
  rfl

theorem chunkText_cons (print : Print) (rest : List Print) :
    chunkText eol (print :: rest) = print.text eol ++ chunkText eol rest := by
  rw [chunkText, List.map_cons, String.join_cons]
  rfl

/-! The questions and the last line are told apart by single characters. -/

theorem capital_in_urlsQuestion : 'P' ∈ urlsQuestion.toList := Text.mem_literal (by decide)

theorem capital_in_hostOrIpQuestion : 'I' ∈ hostOrIpQuestion.toList := Text.mem_literal (by decide)

theorem comma_in_compeledMessage : ',' ∈ compeledMessage.toList := Text.mem_literal (by decide)

theorem not_mem_eol {c : Char} (printed : c ≠ '\n' ∧ c ≠ '\r') : c ∉ eol.text.toList := by
  cases eol with
  | posix => exact Text.not_mem_literal (by simp [printed])
  | windows => exact Text.not_mem_literal (by simp [printed])

theorem not_mem_introduction {c : Char} (absent : c ∉ Wizard.ReadlinePlatform.introduction.toList)
    (printed : c ≠ '\n' ∧ c ≠ '\r') : c ∉ (Print.text eol .introduction).toList :=
  Text.not_mem_append (Text.not_mem_append absent (not_mem_eol eol printed))
    (Text.not_mem_literal (by simp [printed]))

theorem not_mem_question {c : Char} (absent : c ∉ urlsQuestion.toList)
    (printed : c ∉ [':', ' ']) : c ∉ (Print.text eol .question).toList :=
  Text.not_mem_append absent (Text.not_mem_literal printed)

theorem chunkText_single (print : Print) : chunkText eol [print] = print.text eol := by
  rw [chunkText_cons]
  exact String.append_empty

theorem reactions_introduction (host : String) :
    reactions eol input host (chunkText eol [.introduction]) = [] := by
  have no_capital : 'P' ∉ (Print.text eol .introduction).toList :=
    not_mem_introduction eol (Text.not_mem_literal (by decide)) (by decide)
  have no_comma : ',' ∉ (Print.text eol .introduction).toList :=
    not_mem_introduction eol (Text.not_mem_literal (by decide)) (by decide)
  rw [chunkText_single]
  unfold reactions
  rw [includes_eq_false urlsQuestion capital_in_urlsQuestion no_capital,
    includes_eq_false hostOrIpQuestion (Text.mem_literal (by decide)) no_capital,
    includes_eq_false compeledMessage comma_in_compeledMessage no_comma]
  rfl

/-- Only the question for URLs is found in the chunk it ends. -/
theorem reactions_question (host : String) {before : List Print}
    (opening : before = [] ∨ before = [.introduction]) :
    reactions eol input host (chunkText eol (before ++ [.question])) =
      [.write (urlsAnswer eol input)] := by
  have whole : chunkText eol (before ++ [.question]) =
      chunkText eol before ++ Print.text eol .question := by
    rw [chunkText_append, chunkText_single]
  have front : ∀ c, c ∉ Wizard.ReadlinePlatform.introduction.toList → c ≠ '\n' ∧ c ≠ '\r' →
      c ∉ (chunkText eol before).toList := by
    intro c absent printed
    rcases opening with rfl | rfl
    · exact Text.not_mem_literal (by simp)
    · rw [chunkText_single]
      exact not_mem_introduction eol absent printed
  have asked : includes (chunkText eol (before ++ [.question])) urlsQuestion = true :=
    includes_eq_true (chunkText eol before) ": " whole
  have no_host : includes (chunkText eol (before ++ [.question])) hostOrIpQuestion =
      false := by
    rw [whole]
    simp only [includes, decide_eq_false_iff_not, String.toList_append]
    intro inside
    obtain ⟨rest, shape⟩ : ∃ rest, hostOrIpQuestion.toList = 'P' :: rest := ⟨_, String.toList_ofList⟩
    rw [shape] at inside
    have behind := Text.infix_behind
      (front 'P' (Text.not_mem_literal (by decide)) (by decide)) inside
    rw [← shape] at behind
    exact not_mem_question eol (Text.not_mem_literal (by decide)) (by decide)
      (behind.subset capital_in_hostOrIpQuestion)
  have no_comma : ',' ∉ (chunkText eol (before ++ [.question])).toList := by
    rw [whole]
    exact Text.not_mem_append (front ',' (Text.not_mem_literal (by decide)) (by decide))
      (not_mem_question eol (Text.not_mem_literal (by decide)) (by decide))
  unfold reactions
  rw [asked, no_host, includes_eq_false compeledMessage comma_in_compeledMessage no_comma]
  rfl

/-- The parent ends the input when it reads the last line. -/
theorem finish_of_done (host : String) {chunk : List Print} (last : .done ∈ chunk) :
    .finish ∈ reactions eol input host (chunkText eol chunk) := by
  obtain ⟨before, after, rfl⟩ := List.append_of_mem last
  have found : includes (chunkText eol (before ++ .done :: after)) compeledMessage =
      true := by
    refine includes_eq_true (chunkText eol before)
      ("\n" ++ chunkText eol after) ?_
    have text : Print.text eol .done = compeledMessage ++ "\n" := rfl
    rw [chunkText_append, chunkText_cons, text, String.append_assoc]
  simp [reactions, found]

/-- Everything a step of the two processes can do. -/
inductive Taken (s : Diagnostics) : Diagnostics.Event → Diagnostics → Prop where
  | read (writes size : Nat) (chunk : Utf8.Bytes) (stdout : Pipe Print UInt8)
      (taken : s.stdout.read Diagnostics.readLimit (Diagnostics.bytes eol) writes size =
        some (chunk, stdout)) (going : s.session.closed = false) :
      Taken s (.read writes size)
        { s with stdout, session := s.session.onData platform eol input chunk }
  | answered (child : s.child = .asking) (running : s.exited = false) (asked : s.session.answers ≠ []) :
      Taken s .answered
        { s with
          child := .probing (.start (processPing (Utf8.encode (String.join s.session.answers))))
          stdout := s.stdout.write [.delimiter, .internalDiagnostic] }
  | child (event : Probing.Event) (p next : Probing) (prints : List Print)
      (child : s.child = .probing p) (running : s.exited = false)
      (moved : p.step event = some (next, prints)) :
      Taken s (.child event) { s with child := .probing next, stdout := s.stdout.write prints }
  | exit (running : s.exited = false) (idle : Diagnostics.idle s.child = true)
      (finished : .finish ∈ s.session.stdin) : Taken s .exit { s with exited := true }
  | close (exited : s.exited = true) (read : s.stdout.pending = []) (going : s.session.closed = false) :
      Taken s .close { s with session := s.session.onClose (some 0) }

theorem step_taken {s next : Diagnostics} {event : Diagnostics.Event}
    (stepped : s.step platform eol input event = some next) : Taken platform eol input s event next := by
  cases event with
  | read writes size =>
    obtain ⟨⟨chunk, stdout⟩, taken, stepped⟩ := Option.bind_eq_some_iff.mp stepped
    obtain ⟨session, reacted, same⟩ := Option.bind_eq_some_iff.mp stepped
    cases same
    simp only [Session.step] at reacted
    split at reacted
    · cases reacted
    · rename_i going
      obtain rfl := Option.some.inj reacted
      rw [Bool.or_eq_true, not_or, Bool.not_eq_true] at going
      exact .read writes size chunk stdout taken going.1
  | answered =>
    simp only [Diagnostics.step] at stepped
    split at stepped
    · rename_i first rest child running answered
      obtain rfl := Option.some.inj stepped
      rw [← answered]
      exact .answered child running (by simp [answered])
    · cases stepped
  | child event =>
    simp only [Diagnostics.step] at stepped
    split at stepped
    · rename_i p child running
      obtain ⟨⟨after, prints⟩, moved, same⟩ := Option.bind_eq_some_iff.mp stepped
      cases same
      exact .child event p after prints child running moved
    · cases stepped
  | exit =>
    simp only [Diagnostics.step] at stepped
    split at stepped
    · rename_i conditions
      cases stepped
      simp only [Bool.and_eq_true, Bool.not_eq_true', List.contains_iff_mem] at conditions
      exact .exit conditions.1.1 conditions.1.2 conditions.2
    · cases stepped
  | close =>
    simp only [Diagnostics.step] at stepped
    split at stepped
    · rename_i conditions
      simp only [Bool.and_eq_true, List.isEmpty_iff] at conditions
      obtain ⟨session, reacted, same⟩ := Option.bind_eq_some_iff.mp stepped
      cases same
      simp only [Session.step] at reacted
      split at reacted
      · cases reacted
      · rename_i going
        obtain rfl := Option.some.inj reacted
        rw [Bool.or_eq_true, not_or, Bool.not_eq_true] at going
        exact .close conditions.1.1 conditions.1.2 going.1
    · cases stepped

/-- How far the dialogue has come. -/
def AtStage (s : Diagnostics) : Ping → Prop
  | .asking =>
    s.stdout.written = Ping.opening ∧ s.exited = false ∧
      s.session.stdin = if s.stdout.pending = [] then [.write (urlsAnswer eol input)] else []
  | .probing p =>
    ∃ log early later, Probed input p log ∧
      (s.stdout.arrivals = early ++ later ∧ early.flatten = Ping.opening ∧
        later.flatten ++ s.stdout.pending = .delimiter :: .internalDiagnostic :: log) ∧
      (.done ∈ later.flatten → .finish ∈ s.session.stdin) ∧
      (s.exited = true → ∃ values, p.pool.phase = .resolved values)

structure Held (s : Diagnostics) : Prop where
  whole : s.stdout.rest = []
  lines : s.session.stdout = s.stdout.arrivals.flatMap fun chunk => linesOf (chunkText eol chunk)
  going : s.session.closed = false → s.session.outcome = .pending
  ended : s.session.closed = true →
    s.exited = true ∧ s.stdout.pending = [] ∧ s.session.outcome = verdict s.session.stdout
  stage : AtStage eol input s s.child

theorem held_start : Held eol input .start where
  whole := rfl
  lines := rfl
  going _ := rfl
  ended := by simp [Diagnostics.start, Session.new]
  stage := ⟨by simp [Diagnostics.start], rfl,
    by simp [Diagnostics.start, Pipe.holding, Ping.opening, Session.new]⟩

variable {platform eol input}

/-- A chunk of the opening, read before the answer. -/
theorem opening_chunk {before chunk rest : List Print} (some_print : chunk ≠ [])
    (whole : before ++ (chunk ++ rest) = Ping.opening) :
    (chunk = [.introduction] ∧ rest ≠ []) ∨
      (rest = [] ∧ ∃ front, (front = [] ∨ front = [.introduction]) ∧ chunk = front ++ [.question]) := by
  rcases before with _ | ⟨first, _ | ⟨second, others⟩⟩
  · rcases chunk with _ | ⟨one, _ | ⟨two, more⟩⟩
    · exact absurd rfl some_print
    · simp only [Ping.opening, List.nil_append, List.cons_append, List.cons.injEq] at whole
      obtain ⟨rfl, rfl⟩ := whole
      exact Or.inl ⟨rfl, by simp⟩
    · simp only [Ping.opening, List.nil_append, List.cons_append, List.cons.injEq,
        List.append_eq_nil_iff] at whole
      obtain ⟨rfl, rfl, rfl, rfl⟩ := whole
      exact Or.inr ⟨rfl, [.introduction], Or.inr rfl, rfl⟩
  · rcases chunk with _ | ⟨one, more⟩
    · exact absurd rfl some_print
    · simp only [Ping.opening, List.nil_append, List.cons_append, List.cons.injEq,
        List.append_eq_nil_iff] at whole
      obtain ⟨-, rfl, rfl, rfl⟩ := whole
      exact Or.inr ⟨rfl, [], Or.inl rfl, rfl⟩
  · have length := congrArg List.length whole
    have positive := List.length_pos_iff.mpr some_print
    simp only [Ping.opening, List.length_append, List.length_cons, List.length_nil] at length
    omega

theorem flatMap_bytes (chunk : List Print) :
    chunk.flatMap (Diagnostics.bytes eol) = Utf8.encode (chunkText eol chunk) := by
  induction chunk with
  | nil => rfl
  | cons print rest ih =>
    rw [List.flatMap_cons, ih, chunkText_cons, Utf8.encode_append, Diagnostics.bytes]

theorem held_read (sendable : Sendable platform input) {s : Diagnostics} {writes size : Nat}
    {read : Utf8.Bytes} {stdout : Pipe Print UInt8} (held : Held eol input s)
    (taken : s.stdout.read Diagnostics.readLimit (Diagnostics.bytes eol) writes size =
      some (read, stdout))
    (uncut : Uncut eol s (.read writes size)) (still : s.session.closed = false) :
    Held eol input { s with stdout, session := s.session.onData platform eol input read } := by
  obtain ⟨chunk, pending, chunks, rfl, some_print, clear, written⟩ :=
    Pipe.read_whole taken held.whole uncut
  obtain ⟨host, parsed⟩ := hostAnswer_of_sendable platform eol input sendable
  rw [flatMap_bytes, onData_of_parsed platform eol input parsed]
  constructor
  case whole => exact clear
  case lines => simp [held.lines, chunks]
  case going => exact held.going
  case ended =>
    intro closed
    rw [still] at closed
    cases closed
  case stage =>
    have stage := held.stage
    show AtStage eol input _ s.child
    cases child : s.child with
    | asking =>
      rw [child] at stage
      obtain ⟨opening, running, stdin⟩ := stage
      refine ⟨written.trans opening, running, ?_⟩
      have waiting : s.stdout.pending ≠ [] := by
        rw [pending]
        simp [some_print]
      rw [if_neg waiting] at stdin
      rw [Pipe.written, pending] at opening
      show s.session.stdin ++ _ = _
      rw [stdin, List.nil_append]
      obtain ⟨rfl, more⟩ | ⟨none_left, front, early, rfl⟩ := opening_chunk some_print opening
      · rw [reactions_introduction, if_neg more]
      · rw [reactions_question eol input host early, if_pos none_left]
    | probing p =>
      rw [child] at stage
      obtain ⟨log, early, later, probed, ⟨split, opening, printed⟩, finish, exited⟩ := stage
      refine ⟨log, early, later ++ [chunk], probed, ⟨?_, opening, ?_⟩, ?_, exited⟩
      · rw [chunks, split, List.append_assoc]
      · rw [pending] at printed
        rw [← printed]
        simp
      · intro last
        rw [List.flatten_append, List.flatten_singleton, List.mem_append] at last
        rcases last with old | new
        · exact List.mem_append_left _ (finish old)
        · exact List.mem_append_right _ (finish_of_done eol input host new)

theorem urls_read (sendable : Sendable platform input) :
    processPing (Utf8.encode (String.join [urlsAnswer eol input])) = input := by
  have one : String.join [urlsAnswer eol input] = urlsAnswer eol input := by
    rw [String.join_cons]
    exact String.append_empty
  rw [one, processPing, question_of_plain eol sendable.plain]
  exact getDelimitedInput_joined sendable.some_url sendable.edged sendable.plain

theorem Held.open_of_running {s : Diagnostics} (held : Held eol input s) (running : s.exited = false) :
    s.session.closed ≠ true := by
  intro closed
  have exited := (held.ended closed).1
  rw [running] at exited
  cases exited

theorem held_answered (sendable : Sendable platform input) {s : Diagnostics}
    (held : Held eol input s) (child : s.child = .asking) (running : s.exited = false)
    (asked : s.session.answers ≠ []) :
    Held eol input
      { s with
        child := .probing (.start (processPing (Utf8.encode (String.join s.session.answers))))
        stdout := s.stdout.write [.delimiter, .internalDiagnostic] } := by
  have stage := held.stage
  rw [child] at stage
  obtain ⟨opening, -, stdin⟩ := stage
  have read : s.stdout.pending = [] := by
    by_contra waiting
    rw [if_neg waiting] at stdin
    simp [Session.answers, stdin] at asked
  rw [if_pos read] at stdin
  have answer : s.session.answers = [urlsAnswer eol input] := by
    simp [Session.answers, stdin]
  have flat : s.stdout.arrivals.flatten = Ping.opening := by
    rw [Pipe.written, read, List.append_nil] at opening
    exact opening
  constructor
  case whole => exact held.whole
  case lines => exact held.lines
  case going => exact held.going
  case ended => exact fun closed => absurd closed (held.open_of_running running)
  case stage =>
    show AtStage eol input _ (.probing _)
    rw [answer, urls_read sendable]
    refine ⟨[], s.stdout.arrivals, [], probed_start input, ⟨by simp [Pipe.write], flat, ?_⟩,
      by simp, ?_⟩
    · simp [Pipe.write, read]
    · intro exited
      change s.exited = true at exited
      rw [running] at exited
      cases exited

theorem held_child {s : Diagnostics} {event : Probing.Event} {p next : Probing}
    {prints : List Print} (held : Held eol input s) (child : s.child = .probing p)
    (running : s.exited = false) (moved : p.step event = some (next, prints)) :
    Held eol input { s with child := .probing next, stdout := s.stdout.write prints } := by
  have stage := held.stage
  rw [child] at stage
  obtain ⟨log, early, later, probed, ⟨split, opening, printed⟩, finish, exited⟩ := stage
  constructor
  case whole => exact held.whole
  case lines => exact held.lines
  case going => exact held.going
  case ended => exact fun closed => absurd closed (held.open_of_running running)
  case stage =>
    refine ⟨log ++ prints, early, later, probed_step probed moved, ⟨split, opening, ?_⟩, finish, ?_⟩
    · change later.flatten ++ (s.stdout.pending ++ prints) = _
      rw [← List.append_assoc, printed]
      rfl
    · intro exited
      change s.exited = true at exited
      rw [running] at exited
      cases exited

theorem held_exit {s : Diagnostics} (held : Held eol input s) (running : s.exited = false)
    (idle : Diagnostics.idle s.child = true) (finished : .finish ∈ s.session.stdin) :
    Held eol input { s with exited := true } := by
  constructor
  case whole => exact held.whole
  case lines => exact held.lines
  case going => exact held.going
  case ended => exact fun closed => absurd closed (held.open_of_running running)
  case stage =>
    have stage := held.stage
    show AtStage eol input _ s.child
    cases child : s.child with
    | asking =>
      -- The input does not end before the child has its answer.
      rw [child] at stage
      rw [stage.2.2] at finished
      split at finished <;> simp at finished
    | probing p =>
      rw [child] at stage idle
      obtain ⟨log, early, later, probed, printed, finish, -⟩ := stage
      refine ⟨log, early, later, probed, printed, finish, fun _ => ?_⟩
      simp only [Diagnostics.idle] at idle
      split at idle
      · rename_i values phase
        exact ⟨values, phase⟩
      · cases idle

theorem held_close {s : Diagnostics} (held : Held eol input s) (exited : s.exited = true)
    (read : s.stdout.pending = []) (going : s.session.closed = false) :
    Held eol input { s with session := s.session.onClose (some 0) } := by
  have pending := held.going going
  have closes : s.session.onClose (some 0) =
      { s.session with closed := true, outcome := verdict s.session.stdout } := by
    simp only [verdict, Session.onClose, Session.settle, pending, Session.new]
    split <;> rfl
  rw [closes]
  constructor
  case whole => exact held.whole
  case lines => exact held.lines
  case going => simp
  case ended => exact fun _ => ⟨exited, read, rfl⟩
  case stage => exact held.stage

theorem held_run (sendable : Sendable platform input) {events : List Diagnostics.Event}
    {s : Diagnostics}
    (ran : Trace.run (Diagnostics.step platform eol input) .start events = some s)
    (uncut : Trace.EachStep (Diagnostics.step platform eol input) .start (Uncut eol) events) :
    Held eol input s := by
  refine Trace.run_induction (P := fun seen s =>
    Trace.EachStep (Diagnostics.step platform eol input) .start (Uncut eol) seen → Held eol input s)
    (fun _ => held_start eol input) (fun seen s e next reached ih stepped each => ?_) ran uncut
  obtain ⟨before, now⟩ := (Trace.eachStep_snoc reached).mp each
  have held := ih before
  cases step_taken platform eol input stepped with
  | read writes size chunk stdout taken going => exact held_read sendable held taken now going
  | answered child running asked => exact held_answered sendable held child running asked
  | child event p after prints child running moved => exact held_child held child running moved
  | exit running idle finished => exact held_exit held running idle finished
  | close exited read going => exact held_close held exited read going

/-! ## Progress -/

/-- The pool waits for no one but the handlers. -/
theorem probing_goes_on {p : Probing} {log : List Print} (probed : Probed input p log)
    (unresolved : ∀ values, p.pool.phase ≠ .resolved values) :
    ∃ event, (p.step event).isSome = true := by
  by_contra! stuck
  have still : ∀ event, p.step event = none := by
    intro event
    simpa using stuck event
  have fulfilled : ∀ promise ∈ p.pool.promises, promise ≠ .pending := by
    rintro promise member rfl
    obtain ⟨i, pending⟩ := List.mem_iff_getElem?.mp member
    have inside := (List.getElem?_eq_some_iff.mp pending).1
    have same := probed.kept.made
    have length := probed.made
    obtain ⟨url, called⟩ : ∃ url, p.pool.called[i]? = some url :=
      ⟨_, List.getElem?_eq_getElem (by omega)⟩
    obtain ⟨handler, found⟩ : ∃ handler, p.handlers[i]? = some handler :=
      ⟨_, List.getElem?_eq_getElem (by omega)⟩
    cases handler with
    | none =>
      have returns := still (.returned i none)
      simp [Probing.step, found] at returns
    | some result =>
      have reports := still (.reported i)
      simp [Probing.step, found, called, Pool.step, pending] at reports
  have stopped : ∀ event, p.pool.step poolLimit event = none := by
    intro event
    by_contra moves
    obtain ⟨pool, moved⟩ := Option.ne_none_iff_exists'.mp moves
    cases event with
    | next =>
      have passes := still .next
      simp only [Probing.step, moved, Option.bind_eq_bind, Option.bind_some] at passes
      split at passes <;> cases passes
    | fulfil i value =>
      cases step_effect moved with
      | fulfilled _ _ pending => exact fulfilled _ (List.mem_of_getElem? pending) rfl
    | callback i =>
      have runs := still (.callback i)
      simp [Probing.step, moved] at runs
    | resume =>
      have resumes := still .resume
      simp [Probing.step, moved] at resumes
    | resolve =>
      have resolves := still .resolve
      simp [Probing.step, moved] at resolves
  obtain ⟨values, resolved⟩ := resolved_of_stopped probed.kept ⟨fulfilled, stopped⟩
  exact unresolved values resolved

/-- No write is empty: each ends with a literal. -/
theorem bytes_ne_nil (eol : Eol) (print : Print) : Diagnostics.bytes eol print ≠ [] := by
  have ends : ∀ front back : String, back ≠ "" → front ++ back ≠ "" := by
    intro front back some_char empty
    have both := congrArg String.toList empty
    rw [String.toList_append, String.toList_empty, List.append_eq_nil_iff] at both
    exact some_char (String.toList_eq_nil_iff.mp both.2)
  rw [Diagnostics.bytes, Ne, Utf8.encode_eq_nil_iff]
  cases print with
  | cursor => exact (by decide : retype ≠ "")
  | lineEnd => cases eol <;> decide
  | _ => exact ends _ _ (by decide)

/-- No write of the child is longer than the buffer of the parent. -/
def Short (eol : Eol) (input : List String) : Prop :=
  ∀ print, print ∈ Ping.opening ∨ Belongs input print →
    (Diagnostics.bytes eol print).length ≤ Diagnostics.readLimit

/-- Only the URLs and their number make writes long. -/
theorem short_of_sizes (eol : Eol) {input : List String} (sizes : ∀ url ∈ input, url.length ≤ 16000)
    (few : input.length < 10 ^ 9) : Short eol input := by
  have bounded : ∀ print : Print, (print.text eol).length ≤ 16360 →
      (Diagnostics.bytes eol print).length ≤ Diagnostics.readLimit := by
    intro print bound
    have encoded := Utf8.length_encode_le (print.text eol)
    simp only [Diagnostics.bytes, Diagnostics.readLimit]
    omega
  have literal : ∀ {chars : List Char}, chars.length ≤ 90 → (String.ofList chars).length ≤ 90 :=
    Text.length_literal_le
  have ending : eol.text.length ≤ 90 := by cases eol <;> decide
  have newline : "\n".length ≤ 90 := by decide
  have trying : ∀ url ∈ input, (Wizard.ReadlinePlatform.tryingText url).length ≤ 90 + 16000 :=
    fun url listed => Text.length_append_le (literal (by decide)) (sizes url listed)
  intro print printed
  apply bounded
  cases print with
  | introduction =>
    exact (Text.length_append_le (Text.length_append_le (literal (by decide)) ending) newline).trans
      (by decide)
  | question =>
    exact (Text.length_append_le (literal (by decide)) (literal (by decide))).trans (by decide)
  | delimiter =>
    exact (Text.length_append_le (Text.length_append_le (Text.length_append_le ending
      (literal (by decide))) ending) newline).trans (by decide)
  | internalDiagnostic =>
    exact (Text.length_append_le (Text.length_append_le (literal (by decide)) ending) newline).trans
      (by decide)
  | trying url =>
    have listed : url ∈ input := by simpa [Ping.opening, Belongs] using printed
    exact (Text.length_append_le (trying url listed) (literal (by decide))).trans (by decide)
  | cursor => exact (literal (by decide)).trans (by decide)
  | tried url result =>
    have listed : url ∈ input := by simpa [Ping.opening, Belongs] using printed
    have verdict : (if result then "Success" else "Failed").length ≤ 90 := by cases result <;> decide
    exact (Text.length_append_le (Text.length_append_le (Text.length_append_le (trying url listed)
      (literal (by decide))) verdict) newline).trans (by decide)
  | lineEnd => exact ending.trans (by decide)
  | completed => exact (Text.length_append_le (literal (by decide)) newline).trans (by decide)
  | summary unreached total =>
    obtain ⟨least, most, rfl⟩ : 0 ≤ unreached ∧ unreached ≤ input.length ∧ total = input.length := by
      simpa [Ping.opening, Belongs] using printed
    obtain ⟨count, rfl⟩ := Int.eq_ofNat_of_zero_le least
    have digits : ∀ n ≤ input.length, (toString n).length ≤ 9 := fun n bound =>
      Nat.repr_length n 9 (by decide) (by omega)
    exact (Text.length_append_le (Text.length_append_le (Text.length_append_le (Text.length_append_le
      (digits count (by omega)) (literal (by decide))) (digits _ (Nat.le_refl _)))
      (literal (by decide))) newline).trans (by decide)
  | done => exact (Text.length_append_le (literal (by decide)) newline).trans (by decide)

/-- The writes of the child on their way to the parent. -/
theorem pending_belongs {s : Diagnostics} (held : Held eol input s) {print : Print}
    (waiting : print ∈ s.stdout.pending) : print ∈ Ping.opening ∨ Belongs input print := by
  have stage := held.stage
  cases child : s.child with
  | asking =>
    rw [child] at stage
    rw [← stage.1]
    exact Or.inl (List.mem_append_right _ waiting)
  | probing p =>
    rw [child] at stage
    obtain ⟨log, early, later, probed, ⟨-, -, printed⟩, -⟩ := stage
    have member := List.mem_append_right later.flatten waiting
    rw [printed] at member
    exact Or.inr (probed.printed_belongs print member)

/-- The parent can read one write at a time. -/
theorem goes_on (short : Short eol input) {s : Diagnostics} (held : Held eol input s)
    (going : s.session.closed = false) :
    ∃ event, (s.step platform eol input event).isSome = true ∧ Uncut eol s event := by
  have pending := held.going going
  by_cases read : s.stdout.pending = []
  · have stage := held.stage
    cases child : s.child with
    | asking =>
      rw [child] at stage
      obtain ⟨-, running, stdin⟩ := stage
      rw [if_pos read] at stdin
      exact ⟨.answered, by simp [Diagnostics.step, child, running, Session.answers, stdin], trivial⟩
    | probing p =>
      rw [child] at stage
      obtain ⟨log, early, later, probed, ⟨-, -, printed⟩, finish, -⟩ := stage
      by_cases exited : s.exited = true
      · exact ⟨.close,
          by simp [Diagnostics.step, exited, read, held.whole, Session.step, going, pending],
          trivial⟩
      rw [Bool.not_eq_true] at exited
      by_cases resolved : ∃ values, p.pool.phase = .resolved values
      · obtain ⟨values, phase⟩ := resolved
        have last : .done ∈ later.flatten := by
          rw [read, List.append_nil] at printed
          simp [printed, probed.done.mpr ⟨values, phase⟩]
        have finished := finish last
        exact ⟨.exit, by simp [Diagnostics.step, exited, child, Diagnostics.idle, phase, finished],
          trivial⟩
      · obtain ⟨event, moves⟩ := probing_goes_on probed (by simpa using resolved)
        obtain ⟨⟨next, prints⟩, moved⟩ := Option.isSome_iff_exists.mp moves
        exact ⟨.child event, by simp [Diagnostics.step, child, exited, moved], trivial⟩
  · obtain ⟨first, others, shape⟩ := List.exists_cons_of_ne_nil read
    have fits := short first (pending_belongs held (by simp [shape]))
    obtain ⟨⟨chunk, stdout⟩, taken⟩ := Option.isSome_iff_exists.mp
      (Pipe.read_one held.whole shape (bytes_ne_nil eol first) fits)
    exact ⟨.read 1 _, by simp [Diagnostics.step, taken, Session.step, going, pending], rfl⟩

/-- The writes that are due when the pool has resolved. -/
def closingWork : PoolPhase Unit → Nat
  | .resolved _ => 0
  | _ => 5

/-- What is left to do: the steps of the pool, the probes, and the writes that follow. -/
def probingWork (p : Probing) : Nat :=
  work p.pool + 4 * p.pool.items.length + p.handlers.count none +
    p.pool.promises.countP Settlement.isPending + closingWork p.pool.phase

theorem closingWork_eq {first second : PoolPhase Unit}
    (same : ∀ values, first = .resolved values ↔ second = .resolved values) :
    closingWork first = closingWork second := by
  cases second with
  | resolved values =>
    rw [(same values).mpr rfl]
  | looping | racing | collecting =>
    cases first with
    | resolved values => cases (same values).mp rfl
    | looping | racing | collecting => rfl

theorem probingWork_step {p next : Probing} {event : Probing.Event} {prints : List Print}
    (stepped : p.step event = some (next, prints)) :
    probingWork next + prints.length < probingWork p := by
  cases probing_moved stepped with
  | passed url rest phase items =>
    have moved : p.pool.step poolLimit .next = some (p.pool.takeItem poolLimit url rest) := by
      simp [Pool.step, phase, items]
    have less := work_step moved
    have closing : closingWork (p.pool.takeItem poolLimit url rest).phase ≤ 5 := by
      cases (p.pool.takeItem poolLimit url rest).phase <;> simp [closingWork]
    simp only [probingWork, phase, items] at less closing ⊢
    simp [Pool.takeItem, closingWork, Settlement.isPending] at less closing ⊢
    omega
  | returned i result running =>
    obtain ⟨inside, none_here⟩ := List.getElem?_eq_some_iff.mp running
    have positive : 0 < p.handlers.count none :=
      List.count_pos_iff.mpr (List.mem_of_getElem? running)
    have fewer : (p.handlers.set i (some (result.getD false))).count none + 1 =
        p.handlers.count none := by
      have same : ((none : Option Bool) == none) = true := rfl
      have other : (some (result.getD false) == none) = false := rfl
      rw [List.count_set inside, none_here, same, other, if_pos rfl, if_neg Bool.false_ne_true]
      omega
    simp only [probingWork, List.length_nil]
    omega
  | reported i url result ended called pending =>
    have moved : p.pool.step poolLimit (.fulfil i ()) =
        some { p.pool with promises := p.pool.promises.set i (.fulfilled ()) } := by
      simp [Pool.step, pending]
    have less := work_step moved
    dsimp only at less
    have fewer := countP_set_add Settlement.isPending pending (.fulfilled ())
    simp only [Settlement.isPending, Bool.toNat_true, Bool.toNat_false] at fewer
    simp only [probingWork, List.length_singleton]
    omega
  | pooled event other own pool moved calls items pending count still =>
    have less := work_step moved
    simp only [probingWork, items, count, closingWork_eq still, List.length_nil]
    omega
  | resolved values phase moved =>
    simp only [probingWork, work, phase, phaseWork, closingWork, Probing.closing, List.length_cons,
      List.length_nil]
    omega

/-- What is left to do for both ends. -/
def dialogueWork (input : List String) (s : Diagnostics) : Nat :=
  (match s.child with
    | .asking => probingWork (.start input) + 3
    | .probing p => probingWork p) +
    s.stdout.pending.length + (!s.exited).toNat + (!s.session.closed).toNat

theorem dialogueWork_start : dialogueWork input .start = 8 * input.length + 14 := by
  simp [dialogueWork, Diagnostics.start, probingWork, Probing.start, work, Pool.start, phaseWork,
    closingWork, Pipe.holding, Ping.opening, Session.new]
  omega

theorem dialogueWork_step (sendable : Sendable platform input) {s next : Diagnostics}
    {event : Diagnostics.Event} (held : Held eol input s) (uncut : Uncut eol s event)
    (stepped : s.step platform eol input event = some next) :
    dialogueWork input next < dialogueWork input s := by
  cases step_taken platform eol input stepped with
  | read writes size read stdout taken going =>
    obtain ⟨chunk, pending, -, rfl, some_print, -, -⟩ := Pipe.read_whole taken held.whole uncut
    obtain ⟨host, parsed⟩ := hostAnswer_of_sendable platform eol input sendable
    have positive := List.length_pos_iff.mpr some_print
    rw [flatMap_bytes, onData_of_parsed platform eol input parsed]
    simp only [dialogueWork, pending, List.length_append]
    omega
  | answered child running asked =>
    have stage := held.stage
    rw [child] at stage
    have answer : s.session.answers = [urlsAnswer eol input] := by
      have stdin := stage.2.2
      split at stdin
      · simp [Session.answers, stdin]
      · simp [Session.answers, stdin] at asked
    simp only [dialogueWork, child, answer, urls_read sendable, Pipe.write, List.length_append,
      List.length_cons, List.length_nil]
    omega
  | child event p after prints child running moved =>
    have less := probingWork_step moved
    simp only [dialogueWork, child, Pipe.write, List.length_append]
    omega
  | exit running idle finished => simp [dialogueWork, running]
  | close exited read going =>
    have closed : (s.session.onClose (some 0)).closed = true := by
      simp only [Session.onClose, Session.settle]
      split <;> split <;> rfl
    simp [dialogueWork, going, closed]

/-! ## What the probes return -/

/-- What the handler of a call has returned. -/
def resultOf (s : Diagnostics) (i : Nat) : Option Bool :=
  match s.child with
  | .asking => none
  | .probing p => p.handlers[i]?.join

theorem handlers_moved {p next : Probing} {event : Probing.Event} {prints : List Print}
    (stepped : p.step event = some (next, prints)) (i : Nat) (result : Bool) :
    next.handlers[i]?.join = some result ↔ p.handlers[i]?.join = some result ∨
      ∃ returned, event = .returned i returned ∧ returned.getD false = result := by
  cases probing_moved stepped with
  | passed url rest phase items =>
    have same : (p.handlers ++ [none])[i]?.join = p.handlers[i]?.join := by
      rcases Nat.lt_trichotomy i p.handlers.length with old | new | beyond
      · rw [List.getElem?_append_left old]
      · simp [new]
      · rw [List.getElem?_eq_none (by simpa using Nat.succ_le_of_lt beyond),
          List.getElem?_eq_none (by omega)]
    simp [same]
  | returned j value running =>
    have inside := (List.getElem?_eq_some_iff.mp running).1
    by_cases here : j = i
    · subst here
      simp [List.getElem?_set_self inside, running]
    · simp [List.getElem?_set_ne here, here]
  | reported j url value ended called pending => simp
  | pooled event other own pool moved calls items pending count still => simp [other]
  | resolved values phase moved => simp

/-- A handler has returned what the probe of its call came to. -/
theorem resultOf_run {events : List Diagnostics.Event} {s : Diagnostics}
    (ran : Trace.run (Diagnostics.step platform eol input) .start events = some s) :
    ∀ i result, resultOf s i = some result ↔
      ∃ returned, .child (.returned i returned) ∈ events ∧ returned.getD false = result := by
  refine Trace.run_induction (P := fun seen s => ∀ i result, resultOf s i = some result ↔
    ∃ returned, .child (.returned i returned) ∈ seen ∧ returned.getD false = result)
    (by simp [resultOf, Diagnostics.start]) (fun seen s e next _ known stepped i result => ?_) ran
  have before := known i result
  cases step_taken platform eol input stepped with
  | read writes size chunk stdout taken going => simpa [resultOf] using before
  | exit running idle finished => simpa [resultOf] using before
  | close exited read going => simpa [resultOf] using before
  | answered child running asked =>
    simp only [resultOf, child] at before
    simpa [resultOf, Probing.start] using before
  | child event p after prints child running moved =>
    have changed := handlers_moved moved i result
    simp only [resultOf, child] at before
    simp only [resultOf, changed, before, List.mem_append, List.mem_singleton,
      Diagnostics.Event.child.injEq]
    constructor
    · rintro (⟨returned, old, same⟩ | ⟨returned, rfl, same⟩)
      · exact ⟨returned, Or.inl old, same⟩
      · exact ⟨returned, Or.inr rfl, same⟩
    · rintro ⟨returned, old | new, same⟩
      · exact Or.inl ⟨returned, old, same⟩
      · exact Or.inr ⟨returned, new.symm, same⟩

end

/-- The dialogue can be brought to its end without a cut. -/
theorem dialogue_closes {platform : Platform} {eol : Eol} {input : List String}
    (sendable : Sendable platform input) (short : Short eol input) :
    ∃ events s, Trace.run (Diagnostics.step platform eol input) .start events = some s ∧
      Trace.EachStep (Diagnostics.step platform eol input) .start (Uncut eol) events ∧
      s.session.closed = true := by
  -- The induction is on what is left to do.
  have complete : ∀ left seen s, dialogueWork input s ≤ left →
      Trace.run (Diagnostics.step platform eol input) .start seen = some s →
      Trace.EachStep (Diagnostics.step platform eol input) .start (Uncut eol) seen →
      ∃ events last, Trace.run (Diagnostics.step platform eol input) .start events = some last ∧
        Trace.EachStep (Diagnostics.step platform eol input) .start (Uncut eol) events ∧
        last.session.closed = true := by
    intro left
    induction left with
    | zero =>
      intro seen s none_left ran uncut
      refine ⟨seen, s, ran, uncut, ?_⟩
      by_contra going
      rw [Bool.not_eq_true] at going
      simp [dialogueWork, going] at none_left
    | succ left ih =>
      intro seen s few ran uncut
      by_cases closed : s.session.closed = true
      · exact ⟨seen, s, ran, uncut, closed⟩
      have held := held_run sendable ran uncut
      obtain ⟨event, moves, whole⟩ : ∃ event, (s.step platform eol input event).isSome = true ∧
          Uncut eol s event := goes_on short held (by simpa using closed)
      obtain ⟨next, stepped⟩ := Option.isSome_iff_exists.mp moves
      have less := dialogueWork_step sendable held whole stepped
      exact ih (seen ++ [event]) next (by omega) (Trace.run_then ran stepped)
        ((Trace.eachStep_snoc ran).mpr ⟨uncut, whole⟩)
  exact complete _ [] .start (Nat.le_refl _) rfl (Trace.eachStep_nil _ _)

/-- As long as no write is cut, the dialogue is over after a number of steps that is linear in
the number of URLs, and until then one of the two processes can go on without a cut. -/
theorem dialogue_ends (platform : Platform) (eol : Eol) (input : List String)
    (sendable : Sendable platform input) (short : Short eol input) (events : List Diagnostics.Event)
    {s : Diagnostics} (ran : Trace.run (Diagnostics.step platform eol input) .start events = some s)
    (uncut : Trace.EachStep (Diagnostics.step platform eol input) .start (Uncut eol) events) :
    events.length ≤ 8 * input.length + 14 ∧
      (s.session.closed = false →
        ∃ event, (s.step platform eol input event).isSome = true ∧ Uncut eol s event) := by
  refine ⟨?_, goes_on short (held_run sendable ran uncut)⟩
  have bound : dialogueWork input s + events.length ≤ 8 * input.length + 14 := by
    refine Trace.run_induction (P := fun seen s =>
        Trace.EachStep (Diagnostics.step platform eol input) .start (Uncut eol) seen →
          dialogueWork input s + seen.length ≤ 8 * input.length + 14)
      (fun _ => by rw [dialogueWork_start]; simp) (fun seen s e next reached ih stepped each => ?_)
      ran uncut
    obtain ⟨before, now⟩ := (Trace.eachStep_snoc reached).mp each
    have bound := ih before
    have less := dialogueWork_step sendable (held_run sendable reached before) now stepped
    rw [List.length_append, List.length_singleton]
    omega
  omega

def twoHosts : List String := ["http://a.test", "http://b.test"]

theorem twoHosts_sendable : Sendable Platform.ascii twoHosts where
  some_url := by decide
  parses := by decide
  edged := by decide
  plain := by
    have plain : (twoHosts.all fun url => url.toList.all fun c => !separates c) = true := by decide
    intro url member c inside
    simpa using List.all_eq_true.mp (List.all_eq_true.mp plain url member) c inside

theorem twoHosts_short (eol : Eol) : Short eol twoHosts :=
  short_of_sizes eol (by decide) (by decide)

theorem two_hosts_end : ∃ events s,
    Trace.run (Diagnostics.step .ascii .posix twoHosts) .start events = some s ∧
      s.session.closed = true ∧ events.length ≤ 30 := by
  obtain ⟨events, s, ran, uncut, closed⟩ := dialogue_closes twoHosts_sendable (twoHosts_short .posix)
  exact ⟨events, s, ran, closed, (dialogue_ends .ascii .posix twoHosts twoHosts_sendable
    (twoHosts_short .posix) events ran uncut).1⟩

end BrightCli.Guarantees.PingDialogue
