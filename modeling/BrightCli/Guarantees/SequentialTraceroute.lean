import BrightCli.Guarantees.ProbeConclusion

/-!
# A traceroute that concludes each probe before the next

`handleReply` decides whether the run goes on and `sendPacket` which hop comes next,
each from counters that the other one leaves. In a run in which every conclusion is
that of the outstanding probe, the counters are those of the number of probes sent
(`Counted`), and the bound on probes and the verdict are read off them. How a probe
was answered is told by the events alone (`Heard`).

A packet holds two bytes of the counter, and a reply is compared with the counter
itself, so all this is for runs that stay below the first counter of more than two
bytes. `silent_run` shows what comes after it.
-/
namespace BrightCli.Guarantees.SequentialTraceroute
open BrightCli.Lib BrightCli.Lib.Js BrightCli.Source.Traceroute BrightCli.Source.Traceroute.State
open BrightCli.Guarantees.ProbeConclusion

/-- Nothing fails, and a step that concludes a probe concludes the outstanding one. -/
def Sequential (s : State) : Event → Prop
  | .immediate accepted => accepted = true
  | .sendCompleted _ error => error = false
  | .message _ _ => True
  | .lookupCompleted k => ∀ reply, s.lookups[k]? = some reply → outstanding s = some reply.1
  | .timerFires timer =>
    ∀ pending, (s.timers.find? fun pending => pending.1 = timer) = some pending →
      outstanding s = some pending.2
  | .socketError => False

instance (s : State) : (event : Event) → Decidable (Sequential s event)
  | .immediate accepted => inferInstanceAs (Decidable (accepted = true))
  | .sendCompleted _ error => inferInstanceAs (Decidable (error = false))
  | .message _ _ => isTrue trivial
  | .lookupCompleted k =>
    inferInstanceAs (Decidable (∀ reply ∈ s.lookups[k]?, outstanding s = some reply.1))
  | .timerFires timer =>
    inferInstanceAs (Decidable (∀ pending ∈ s.timers.find? fun pending => pending.1 = timer,
      outstanding s = some pending.2))
  | .socketError => isFalse id

/-- What the events tell: how many probes were due, who sent a message with the id of
the latest of them that was not looked up yet, and how each conclusion came about, by
a message with its sender or by silence. -/
structure Heard where
  due : Nat
  waiting : List String
  answers : List (Option String)

def carries (id : Nat) (buffer : Utf8.Bytes) : Bool :=
  match parseIdFromIcmpMessage buffer with
  | .ok (some found) => found = id
  | _ => false

def Heard.hear (heard : Heard) : Event → Heard
  | .immediate _ => { heard with due := heard.due + 1 }
  | .message buffer ip =>
    if carries (33433 + heard.due) buffer then { heard with waiting := heard.waiting ++ [ip] }
    else heard
  | .lookupCompleted k =>
    { heard with
      waiting := heard.waiting.eraseIdx k
      answers := heard.answers ++ [heard.waiting[k]?] }
  | .timerFires _ => { heard with answers := heard.answers ++ [none] }
  | _ => heard

def heardIn (events : List Event) : Heard :=
  events.foldl Heard.hear { due := 0, waiting := [], answers := [] }

theorem heardIn_snoc (events : List Event) (event : Event) :
    heardIn (events ++ [event]) = (heardIn events).hear event := by
  simp [heardIn]

/-- The probe that is sent after `k` others. -/
def nthProbe (probes k : Nat) : Probe := { port := 33433 + (k + 1), ttl := 1 + k / probes }

/-- Every counter up to the last one is a port, or no ports are used. -/
def PortsLast (options : Options) (probes hops : Nat) : Prop :=
  options.protocol = .icmp ∨ hops * probes ≤ 32102

/-- The counters after as many probes as were sent, and what the conclusions so far
have led to. -/
structure Counted (probes : Nat) (destinationIp : String) (heard : Heard) (s : State) : Prop where
  port : s.port = 33433 + s.sent.length
  row : s.sent.length + probes = s.ttl * probes + s.probes
  hop : 1 ≤ s.ttl
  sent : s.sent = (List.range s.sent.length).map (nthProbe probes)
  due : heard.due = s.sent.length
  waiting : heard.waiting = s.lookups.map Prod.snd
  answered : heard.answers.length = s.concluded.length
  next : s.outcome = none → s.concluded.length = s.sent.length → s.scheduled = 1
  unfailed : ∀ outcome, s.outcome = some outcome → ∃ reached, outcome = .stopped reached
  stopped : ∀ reached, s.outcome = some (.stopped reached) → s.probes = probes ∧
    0 < s.sent.length ∧ (reached = true ↔ heard.answers.getLast? = some (some destinationIp))

section
variable {options : Options} {probes hops : Nat} {destinationIp : String} {heard : Heard} {s : State}

theorem counted_init :
    Counted probes destinationIp { due := 0, waiting := [], answers := [] } init where
  port := rfl
  row := by simp [init]
  hop := Nat.le_refl 1
  sent := rfl
  due := rfl
  waiting := rfl
  answered := rfl
  next _ _ := rfl
  unfailed := nofun
  stopped := nofun

/-- Timers and sends are not counted. -/
theorem Counted.of_lists (counted : Counted probes destinationIp heard s)
    (timeout : Option Nat) (timers : List (Nat × Nat)) (nextTimer : Nat) (sending : List Nat) :
    Counted probes destinationIp heard { s with timeout, timers, nextTimer, sending } :=
  ⟨counted.port, counted.row, counted.hop, counted.sent, counted.due, counted.waiting,
    counted.answered, counted.next, counted.unfailed, counted.stopped⟩

/-- Lookups are counted as the messages that wait for theirs. -/
theorem Counted.of_lookups (counted : Counted probes destinationIp heard s)
    {lookups : List (Nat × String)} {waiting : List String}
    (same : waiting = lookups.map Prod.snd) :
    Counted probes destinationIp { heard with waiting } { s with lookups } :=
  ⟨counted.port, counted.row, counted.hop, counted.sent, counted.due, same,
    counted.answered, counted.next, counted.unfailed, counted.stopped⟩

/-- The counters of the next probe: a full row is `ttl` rows of probes, and a row that
is not full belongs to the current hop. -/
theorem nextTtl_eq (whole : Whole options probes hops)
    (counted : Counted probes destinationIp heard s) (core : Core options s) :
    nextTtl options s = 1 + s.sent.length / probes ∧
      s.sent.length + 1 + probes = nextTtl options s * probes + nextProbes options s := by
  have row := counted.row
  have few := core.few whole
  have some_probe := whole.some_probe
  obtain ⟨before, rfl_hops⟩ : ∃ before, s.ttl = before + 1 :=
    ⟨s.ttl - 1, by have := counted.hop; omega⟩
  have rows : (before + 1) * probes = before * probes + probes := Nat.succ_mul ..
  rw [rfl_hops, rows] at row
  unfold nextTtl nextProbes
  simp only [whole.row_full_iff]
  split
  · next full =>
    have all : s.sent.length = probes * (before + 1) := by
      rw [Nat.mul_comm, rows]
      omega
    refine ⟨?_, ?_⟩
    · rw [all, Nat.mul_div_cancel_left _ some_probe, rfl_hops]
      omega
    · rw [rfl_hops, Nat.succ_mul, rows]
      omega
  · next part =>
    have inside : s.sent.length = s.probes + probes * before := by
      rw [Nat.mul_comm]
      omega
    refine ⟨?_, ?_⟩
    · rw [inside, Nat.add_mul_div_left _ _ some_probe, Nat.div_eq_of_lt (by omega), rfl_hops]
      omega
    · rw [rfl_hops, rows]
      omega

/-- Where another probe is scheduled there is room for it. -/
theorem length_sent_lt (whole : Whole options probes hops) (core : Core options s)
    (counted : Counted probes destinationIp heard s) (due : 0 < s.scheduled) :
    s.sent.length < hops * probes := by
  have row := counted.row
  have few := core.few whole
  have some_probe := whole.some_probe
  have bound := core.ttl (.inl due)
  rw [whole.maximumHops, Number.natCast_le_natCast] at bound
  by_cases full : s.probes = probes
  · have left := core.row whole due full
    have rows : (s.ttl + 1) * probes ≤ hops * probes := Nat.mul_le_mul_right _ left
    rw [Nat.succ_mul] at rows
    omega
  · have rows : s.ttl * probes ≤ hops * probes := Nat.mul_le_mul_right _ bound
    omega

/-- The next probe goes to a port that there is. -/
theorem goodPort_of_scheduled (whole : Whole options probes hops)
    (ports : PortsLast options probes hops) (core : Core options s)
    (counted : Counted probes destinationIp heard s) (due : 0 < s.scheduled) :
    badPort options (s.port + 1) = false := by
  have room := length_sent_lt whole core counted due
  have port := counted.port
  unfold badPort
  rcases ports with icmp | few
  · simp [icmp]
  · have small : ¬ s.port + 1 ≥ 65536 := by omega
    simp [small]

theorem counted_launched (whole : Whole options probes hops) (core : Core options s)
    (counted : Counted probes destinationIp heard s) (due : 0 < s.scheduled) :
    Counted probes destinationIp { heard with due := heard.due + 1 } (launched options s) := by
  obtain ⟨ttl, row⟩ := nextTtl_eq whole counted core
  have none_left := core.idle due
  have length : (launched options s).sent.length = s.sent.length + 1 := by simp [launched]
  refine ⟨?_, ?_, ?_, ?_, ?_, counted.waiting, counted.answered, ?_, counted.unfailed, ?_⟩
  · rw [length]
    have port := counted.port
    simp only [launched, advanced]
    omega
  · rw [length]
    exact row
  · change 1 ≤ nextTtl options s
    rw [ttl]
    exact Nat.le_add_right 1 _
  · rw [length, List.range_succ, List.map_append, ← counted.sent]
    simp only [launched, nthProbe, counted.port, ttl, List.map_cons, List.map_nil]
    rfl
  · rw [length, ← counted.due]
  · intro _ all
    rw [length] at all
    change s.concluded.length = s.sent.length + 1 at all
    omega
  · intro reached stopped
    cases (running_of_scheduled core due).1 _ stopped

/-- A conclusion of the outstanding probe stops the run, at the end of a row, or has
the next probe scheduled. -/
theorem counted_handleReply (whole : Whole options probes hops) (core : Core options s)
    (counted : Counted probes destinationIp heard s) {probe : Nat} (ip : Option String)
    (pending : outstanding s = some probe) :
    Counted probes destinationIp { heard with answers := heard.answers ++ [ip] }
      (handleReply options destinationIp s probe ip) := by
  obtain ⟨none_due, more⟩ := scheduled_of_outstanding core pending
  have length : (heard.answers ++ [ip]).length = (s.concluded ++ [probe]).length := by
    simp [counted.answered]
  have running : s.outcome = none := by
    cases outcome : s.outcome with
    | none => rfl
    | some result =>
      obtain ⟨reached, rfl⟩ := counted.unfailed result outcome
      cases running_of_outstanding core pending outcome
  unfold handleReply
  dsimp only
  split
  · next ends =>
    unfold emitStop
    simp only [clearTimeout, running]
    refine ⟨counted.port, counted.row, counted.hop, counted.sent, counted.due, counted.waiting,
      length, ?_, ?_, ?_⟩
    · intro unfinished
      cases unfinished
    · intro outcome stopped
      cases stopped
      exact ⟨_, rfl⟩
    · intro reached stopped
      cases stopped
      refine ⟨?_, by dsimp only; omega, ?_⟩
      · have full := ends.1
        rw [whole.amountProbes] at full
        exact (Number.natCast_inj _ _).mp full
      · simp [List.getLast?_append]
  · refine ⟨counted.port, counted.row, counted.hop, counted.sent, counted.due, counted.waiting,
      length, ?_, counted.unfailed, ?_⟩
    · intro _ _
      simp only [clearTimeout]
      omega
    · intro reached stopped
      simp only [clearTimeout, running] at stopped
      cases stopped

theorem timely_of_sequential (whole : Whole options probes hops) {event : Event}
    (sequential : Sequential s event) : Timely options s event := by
  cases event with
  | immediate accepted =>
    intro _ _ _
    exact .inl ⟨probes, hops, whole⟩
  | lookupCompleted k => exact sequential
  | timerFires timer => exact sequential
  | sendCompleted probe error => trivial
  | message buffer ip => trivial
  | socketError => trivial

theorem map_eraseIdx {α β : Type} (f : α → β) (l : List α) (k : Nat) :
    (l.map f).eraseIdx k = (l.eraseIdx k).map f := by
  induction l generalizing k with
  | nil => rfl
  | cons first rest ih =>
    cases k with
    | zero => rfl
    | succ k => simp [ih k]

/-- A message is accepted exactly when it carries the id of the latest probe. -/
theorem receive_eq (s : State) (buffer : Utf8.Bytes) (ip : String) :
    s.receive buffer ip =
      if carries s.port buffer then { s with lookups := s.lookups ++ [(s.port, ip)] } else s := by
  unfold receive carries
  cases parseIdFromIcmpMessage buffer with
  | error reason => rfl
  | ok parsed =>
    cases parsed with
    | none => rfl
    | some id =>
      by_cases current : id = s.port
      · simp [current]
      · simp [current]

theorem counted_receive (counted : Counted probes destinationIp heard s) (buffer : Utf8.Bytes)
    (ip : String) :
    Counted probes destinationIp (heard.hear (.message buffer ip)) (s.receive buffer ip) := by
  have latest : 33433 + heard.due = s.port := by rw [counted.port, counted.due]
  rw [receive_eq, Heard.hear, latest]
  split
  · refine counted.of_lookups ?_
    rw [counted.waiting]
    simp
  · exact counted

theorem counted_step (whole : Whole options probes hops) (ports : PortsLast options probes hops)
    {event : Event} {next : State} (core : Core options s)
    (counted : Counted probes destinationIp heard s) (sequential : Sequential s event)
    (stepped : step options destinationIp s event = some next) :
    Counted probes destinationIp (heard.hear event) next := by
  cases event with
  | immediate accepted =>
    cases show accepted = true from sequential
    simp only [step] at stepped
    split at stepped
    · next due =>
      cases stepped
      rw [sendPacket_accepted core due (goodPort_of_scheduled whole ports core counted due)]
      exact counted_launched whole core counted due
    · cases stepped
  | sendCompleted probe error =>
    cases show error = false from sequential
    simp only [step] at stepped
    split at stepped
    · cases stepped
      exact counted.of_lists _ _ _ _
    · cases stepped
  | message buffer ip =>
    simp only [step] at stepped
    split at stepped
    · cases stepped
    · cases stepped
      exact counted_receive counted buffer ip
  | lookupCompleted k =>
    simp only [step] at stepped
    split at stepped
    · next probe ip found =>
      cases stepped
      have sender : heard.waiting[k]? = some ip := by
        rw [counted.waiting, List.getElem?_map, found]
        rfl
      have unlisted : heard.waiting.eraseIdx k = (s.lookups.eraseIdx k).map Prod.snd := by
        rw [counted.waiting, map_eraseIdx]
      have looked_up := counted.of_lookups unlisted
      have concluded := counted_handleReply whole (core.of_lists _ _ _ _ _) looked_up (some ip)
        (sequential _ found)
      rw [Heard.hear, sender]
      exact concluded
    · cases stepped
  | timerFires timer =>
    simp only [step] at stepped
    split at stepped
    · next probe found =>
      cases stepped
      exact counted_handleReply whole (core.of_lists _ _ _ _ _) (counted.of_lists _ _ _ _) none
        (sequential _ found)
    · cases stepped
  | socketError => exact absurd sequential id

/-- The invariant along every sequential run. -/
theorem counted_run (whole : Whole options probes hops) (ports : PortsLast options probes hops)
    {events : List Event}
    (sequential : Trace.EachStep (step options destinationIp) init Sequential events)
    (reached : Trace.run (step options destinationIp) init events = some s) :
    (Core options s ∧ Owed s) ∧
      Counted probes destinationIp (heardIn events) s := by
  refine Trace.run_induction
    (P := fun seen s => seen <+: events → (Core options s ∧ Owed s) ∧
      Counted probes destinationIp (heardIn seen) s)
    (fun _ => ⟨⟨core_init, owed_of_concluded rfl⟩, counted_init⟩) ?_ reached (List.prefix_refl _)
  intro seen before e next arrived ih stepped pre
  obtain ⟨⟨core, owed⟩, counted⟩ := ih ((List.prefix_append seen [e]).trans pre)
  have good := sequential seen e before pre arrived
  refine ⟨(step_exact core owed stepped).1 (timely_of_sequential whole good), ?_⟩
  rw [heardIn_snoc]
  exact counted_step whole ports core counted good stepped

/-- The probes of one row all have its hop. -/
theorem countP_row (some_probe : 1 ≤ probes) (hops ttl : Nat) :
    ((List.range probes).map fun k =>
        nthProbe probes (hops * probes + k)).countP (·.ttl = ttl) =
      if ttl = hops + 1 then probes else 0 := by
  have hop : ∀ k, k ∈ List.range probes →
      (nthProbe probes (hops * probes + k)).ttl = 1 + hops := by
    intro k inside
    have below := List.mem_range.mp inside
    simp only [nthProbe]
    rw [Nat.mul_comm, Nat.mul_add_div some_probe, Nat.div_eq_of_lt below]
    omega
  rw [List.countP_map]
  split
  · next same =>
    have all : ∀ k ∈ List.range probes, decide
        ((nthProbe probes (hops * probes + k)).ttl = ttl) = true := by
      intro k inside
      rw [hop k inside, same, Nat.add_comm]
      exact decide_eq_true rfl
    exact (List.countP_eq_length.mpr all).trans List.length_range
  · next other =>
    apply List.countP_eq_zero.mpr
    intro k inside
    simp only [Function.comp_apply, hop k inside, decide_eq_true_eq]
    omega

/-- Among whole rows of probes each hop up to the last has one row. -/
theorem countP_rows (some_probe : 1 ≤ probes) (hops ttl : Nat) :
    (((List.range (hops * probes)).map (nthProbe probes)).countP (·.ttl = ttl)) =
      if 1 ≤ ttl ∧ ttl ≤ hops then probes else 0 := by
  induction hops with
  | zero =>
    rw [if_neg (by omega)]
    simp
  | succ hops ih =>
    have row := countP_row some_probe hops ttl
    rw [Nat.succ_mul, List.range_add, List.map_append, List.countP_append, ih, List.map_map]
    change _ + ((List.range probes).map fun k =>
      nthProbe probes (hops * probes + k)).countP (·.ttl = ttl) = _
    rw [row]
    by_cases same : ttl = hops + 1
    · rw [if_neg (by omega), if_pos same, if_pos (by omega), Nat.zero_add]
    · rw [if_neg same, Nat.add_zero]
      by_cases earlier : 1 ≤ ttl ∧ ttl ≤ hops
      · rw [if_pos earlier, if_pos (by omega)]
      · rw [if_neg earlier, if_neg (by omega)]

theorem length_sent_le (whole : Whole options probes hops) (core : Core options s)
    (counted : Counted probes destinationIp heard s) : s.sent.length ≤ hops * probes := by
  cases length : s.sent.length with
  | zero => exact Nat.zero_le _
  | succ n =>
    have last : nthProbe probes n ∈ s.sent := by
      rw [counted.sent, length]
      exact List.mem_map_of_mem (List.mem_range.mpr (Nat.lt_succ_self n))
    have hop := core.hops _ last
    rw [whole.maximumHops, Number.natCast_le_natCast] at hop
    simp only [nthProbe] at hop
    have inside := (Nat.div_lt_iff_lt_mul whole.some_probe).mp
      (show n / probes < hops by omega)
    omega

theorem sent_getElem? (counted : Counted probes destinationIp heard s) {k : Nat} {probe : Probe}
    (found : s.sent[k]? = some probe) : probe = nthProbe probes k := by
  rw [counted.sent, List.getElem?_map] at found
  obtain ⟨index, inside, rfl⟩ := Option.map_eq_some_iff.mp found
  obtain ⟨below, same⟩ := List.getElem?_eq_some_iff.mp inside
  rw [← same, List.getElem_range]

/-- When the run has stopped, every hop that was used has all its probes. -/
theorem rows_full (some_probe : 1 ≤ probes)
    (counted : Counted probes destinationIp heard s) (full : s.probes = probes)
    {probe : Probe} (member : probe ∈ s.sent) :
    s.sent.countP (·.ttl = probe.ttl) = probes := by
  have row := counted.row
  have whole : s.sent.length = s.ttl * probes := by omega
  have sent := counted.sent
  rw [whole] at sent
  obtain ⟨k, found⟩ := List.mem_iff_getElem?.mp member
  have below := (List.getElem?_eq_some_iff.mp found).1
  have hop : probe.ttl = 1 + k / probes := by
    rw [sent_getElem? counted found]
    rfl
  have inside : k / probes < s.ttl :=
    (Nat.div_lt_iff_lt_mul some_probe).mpr (by omega)
  rw [sent, countP_rows some_probe, hop]
  exact if_pos ⟨Nat.le_add_right 1 _, by omega⟩

end

/-- In a run in which every probe is concluded before the next is sent, the probes
have the ids and hops of their number, no hop is beyond the bound, and there are at
most as many probes as hops times probes for a hop. When all probes are concluded the
run has stopped or the next one is scheduled. Where it has stopped, every hop used had
all its probes, and the destination was reached if the last of them was concluded by a
message of the destination with its id. -/
theorem sequential_traceroute_bounded (options : Options) (probes hops : Nat)
    (whole : Whole options probes hops) (few : hops * probes ≤ 32102) (destinationIp : String)
    (events : List Event) (s : State)
    (reached : Trace.run (step options destinationIp) init events = some s)
    (sequential : Trace.EachStep (step options destinationIp) init Sequential events) :
    let answers := (heardIn events).answers
    (∀ k probe, s.sent[k]? = some probe →
      probe.ttl = 1 + k / probes ∧ probe.id = 33433 + (k + 1)) ∧
    (∀ probe ∈ s.sent, probe.ttl ≤ hops) ∧
    s.sent.length ≤ hops * probes ∧
    (s.concluded <+: s.sent.map (·.port) ∧ answers.length = s.concluded.length) ∧
    (s.concluded.length = s.sent.length →
      (s.outcome = none ∧ s.scheduled = 1 ∧ s.sent.length < hops * probes) ∨
      ∃ reached, s.outcome = some (.stopped reached)) ∧
    ∀ reached, s.outcome = some (.stopped reached) →
      s.scheduled = 0 ∧ s.concluded = s.sent.map (·.port) ∧
      (∀ ttl, (∃ probe ∈ s.sent, probe.ttl = ttl) →
        s.sent.countP (·.ttl = ttl) = probes) ∧
      (reached = true ↔ answers[s.sent.length - 1]? = some (some destinationIp)) := by
  intro answers
  obtain ⟨⟨core, _⟩, counted⟩ := counted_run whole (.inr few) sequential reached
  have bound := length_sent_le whole core counted
  refine ⟨?_, ?_, bound, ⟨core.concluded, counted.answered⟩, ?_, ?_⟩
  · intro k probe found
    have below := (List.getElem?_eq_some_iff.mp found).1
    rw [sent_getElem? counted found]
    refine ⟨rfl, ?_⟩
    rw [Probe.id, packetId_eq]
    exact Nat.mod_eq_of_lt (show 33433 + (k + 1) < 65536 by omega)
  · intro probe member
    have hop := core.hops probe member
    rw [whole.maximumHops] at hop
    exact (Number.natCast_le_natCast _ _).mp hop
  · intro all
    cases outcome : s.outcome with
    | none =>
      have due := counted.next outcome all
      exact .inl ⟨rfl, due, length_sent_lt whole core counted (by omega)⟩
    | some result =>
      obtain ⟨reached, rfl⟩ := counted.unfailed result outcome
      exact .inr ⟨reached, rfl⟩
  · intro reached outcome
    obtain ⟨all, none_due⟩ := core.finished _ outcome nofun
    obtain ⟨full, _, verdict⟩ := counted.stopped reached outcome
    refine ⟨none_due, all, ?_, ?_⟩
    · rintro ttl ⟨probe, member, rfl⟩
      exact rows_full whole.some_probe counted full member
    · have length : answers.length = s.sent.length := by
        rw [counted.answered, all]
        simp [ids]
      rw [verdict, List.getLast?_eq_getElem?, length]

/-- Two probes for each of at most three hops. -/
def twoEach : Options := .of { amountProbes := some (2 : Nat), maximumHops := some (3 : Nat) }

/-- An echo reply with a small identifier. -/
def replyTo (id : Nat) : Utf8.Bytes :=
  List.replicate 26 0 ++ [.ofNat (id / 256), .ofNat (id % 256)]

/-- A router answers the first probe and nobody the second; the destination answers
both probes of the second hop. -/
def twoHops : List Event :=
  [.immediate true, .sendCompleted 33434 false, .message (replyTo 33434) "192.0.2.1",
    .lookupCompleted 0,
    .immediate true, .sendCompleted 33435 false, .timerFires 1,
    .immediate true, .sendCompleted 33436 false, .message (replyTo 33436) "192.0.2.9",
    .lookupCompleted 0,
    .immediate true, .message (replyTo 33437) "192.0.2.9", .sendCompleted 33437 false,
    .lookupCompleted 0]

/-- What the run leaves behind: four probes on two hops, and nothing pending. -/
def twoHopsEnd : State :=
  { port := 33437, ttl := 2, probes := 2, timeout := some 3, timers := [], nextTimer := 4
    sending := [], lookups := [], scheduled := 0, closed := true
    outcome := some (.stopped true)
    sent := [⟨33434, 1⟩, ⟨33435, 1⟩, ⟨33436, 2⟩, ⟨33437, 2⟩]
    concluded := [33434, 33435, 33436, 33437] }

theorem two_hops_bounded :
    Trace.run (step twoEach "192.0.2.9") init twoHops = some twoHopsEnd ∧
      (heardIn twoHops).answers[twoHopsEnd.sent.length - 1]? = some (some "192.0.2.9") := by
  have ran : Trace.run (step twoEach "192.0.2.9") init twoHops = some twoHopsEnd := by
    decide +kernel
  have bounded := sequential_traceroute_bounded twoEach 2 3 ⟨by decide, rfl, rfl⟩ (by decide)
    "192.0.2.9" twoHops twoHopsEnd ran (by decide +kernel)
  exact ⟨ran, (bounded.2.2.2.2.2 true rfl).2.2.2.mp rfl⟩

section
variable {options : Options} {probes hops : Nat} {destinationIp : String} {s : State} {n : Nat}

/-- Between two probes, with `n` of them sent and nothing pending but the next one. -/
structure Quiet (n : Nat) (s : State) : Prop where
  sent : s.sent.length = n
  running : s.outcome = none
  scheduled : s.scheduled = 1
  nextTimer : s.nextTimer = n
  timers : s.timers = []
  sending : s.sending = []

/-- The state when the next probe was sent and its timer is armed. -/
def awaiting (options : Options) (s : State) : State :=
  afterSend { launched options s with sending := [] } (s.port + 1) false

/-- A probe that does not end the last row has a next one. -/
theorem not_last (whole : Whole options probes hops) (core : Core options s)
    (counted : Counted probes destinationIp heard s) (due : 0 < s.scheduled)
    (room : s.sent.length + 1 < hops * probes)
    (full : (nextProbes options s : Number) = options.amountProbes) :
    ¬ (nextTtl options s : Number) ≥ options.maximumHops := by
  intro last
  have row := (counted_launched whole core counted due).row
  have length : (launched options s).sent.length = s.sent.length + 1 := by simp [launched]
  rw [length] at row
  change s.sent.length + 1 + probes = nextTtl options s * probes + nextProbes options s at row
  rw [whole.amountProbes, Number.natCast_inj] at full
  rw [whole.maximumHops, ge_iff_le, Number.natCast_le_natCast] at last
  have rows : hops * probes ≤ nextTtl options s * probes := Nat.mul_le_mul_right _ last
  omega

/-- The three steps of a probe that nobody answers. -/
theorem silent_round (whole : Whole options probes hops) (ports : PortsLast options probes hops)
    (core : Core options s) (counted : Counted probes destinationIp heard s) (quiet : Quiet n s)
    (room : n + 1 < hops * probes) :
    step options destinationIp s (.immediate true) = some (launched options s) ∧
    step options destinationIp (launched options s) (.sendCompleted (33434 + n) false) =
      some (awaiting options s) ∧
    Sequential (awaiting options s) (.timerFires n) ∧
    ∃ next, step options destinationIp (awaiting options s) (.timerFires n) = some next ∧
      Quiet (n + 1) next := by
  have due : 0 < s.scheduled := by simp [quiet.scheduled]
  have port : s.port + 1 = 33434 + n := by
    rw [counted.port, quiet.sent]
    omega
  have good := goodPort_of_scheduled whole ports core counted due
  have armed : (awaiting options s).timers = [(n, 33434 + n)] := by
    simp [awaiting, afterSend, launched, advanced, quiet.timers, quiet.nextTimer, port]
  have found : ((awaiting options s).timers.find? fun pending => pending.1 = n) =
      some (n, 33434 + n) := by simp [armed]
  have owner : outstanding (awaiting options s) = some (33434 + n) := by
    rw [← port]
    exact outstanding_launched core due
  have goes_on := not_last whole core counted due (by rw [quiet.sent]; exact room)
  refine ⟨?_, ?_, ?_, ?_⟩
  · simp only [step, if_pos due]
    rw [sendPacket_accepted core due good]
  · have waiting : (launched options s).sending = [33434 + n] := by
      simp [launched, quiet.sending, port]
    simp [step, waiting, awaiting, port]
  · intro pending armed_as
    rw [found] at armed_as
    cases armed_as
    exact owner
  · simp only [step, found]
    refine ⟨_, rfl, ?_⟩
    have idle : (launched options s).scheduled = 0 := by simp [launched, advanced, quiet.scheduled]
    unfold handleReply
    dsimp only
    rw [if_neg]
    · refine ⟨?_, quiet.running, congrArg (· + 1) idle, ?_, ?_, rfl⟩
      · simp [clearTimeout, awaiting, afterSend, launched, quiet.sent]
      · simp [clearTimeout, awaiting, afterSend, launched, advanced, quiet.nextTimer]
      · simp [clearTimeout, armed]
    · rintro ⟨full, none_there | last⟩
      · cases none_there
      · exact goes_on full last

/-- Nobody answers any of the first `n` probes. -/
def silence : Nat → List Event
  | 0 => []
  | n + 1 => silence n ++ [.immediate true] ++ [.sendCompleted (33434 + n) false] ++ [.timerFires n]

/-- However many probes there are, they can all be sent and pass unanswered. -/
theorem silent_run (whole : Whole options probes hops) (ports : PortsLast options probes hops)
    (destinationIp : String) (n : Nat) (room : n < hops * probes) :
    ∃ s, Trace.run (step options destinationIp) init (silence n) = some s ∧
      Trace.EachStep (step options destinationIp) init Sequential (silence n) ∧ Quiet n s := by
  induction n with
  | zero => exact ⟨init, rfl, Trace.eachStep_nil _ _, rfl, rfl, rfl, rfl, rfl, rfl⟩
  | succ n ih =>
    obtain ⟨s, ran, sequential, quiet⟩ := ih (by omega)
    obtain ⟨⟨core, _⟩, counted⟩ := counted_run whole ports sequential ran
    obtain ⟨sends, completes, own, next, fires, quiet_next⟩ :=
      silent_round whole ports core counted quiet room
    have ran₁ := Trace.run_then ran sends
    have ran₂ := Trace.run_then ran₁ completes
    refine ⟨next, Trace.run_then ran₂ fires, ?_, quiet_next⟩
    rw [silence, Trace.eachStep_snoc ran₂, Trace.eachStep_snoc ran₁, Trace.eachStep_snoc ran]
    exact ⟨⟨⟨sequential, rfl⟩, rfl⟩, own⟩

end

/-- Many probes for each of the usual hops. -/
def sixHundredEach : Options := .of { amountProbes := some (600 : Nat) }

/-- The packet of a counter beyond two bytes carries another number. -/
theorem late_probe_renumbered :
    ∃ events s probe, Trace.run (step sixHundredEach "192.0.2.9") init events = some s ∧
      Trace.EachStep (step sixHundredEach "192.0.2.9") init Sequential events ∧
      s.sent[32102]? = some probe ∧ probe.id = 0 ∧ probe.id ≠ 33433 + (32102 + 1) := by
  have whole : Whole sixHundredEach 600 64 := ⟨by decide, rfl, rfl⟩
  obtain ⟨s, ran, sequential, quiet⟩ :=
    silent_run whole (.inl rfl) "192.0.2.9" 32103 (by decide)
  obtain ⟨_, counted⟩ := counted_run whole (.inl rfl) sequential ran
  have inside : 32102 < s.sent.length := by
    rw [quiet.sent]
    decide
  have found := List.getElem?_eq_getElem inside
  have id : s.sent[32102].id = 0 := by
    rw [sent_getElem? counted found, Probe.id, packetId_eq]
    rfl
  refine ⟨silence 32103, s, _, ran, sequential, found, id, ?_⟩
  rw [id]
  decide

end BrightCli.Guarantees.SequentialTraceroute
