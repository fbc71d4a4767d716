import BrightCli.Source.Traceroute

/-!
# One conclusion for each probe

`handleReply` does not know which probe it concludes: it advances whatever is
current. The code therefore relies on being called once for each probe, while a
reply is looked up with the timer still armed, a second copy of it is looked up
as well, and the timer of a probe is armed by the completion of a send that may
come after the reply. The end of a row is found by comparing for equality, and the
last hop by comparing for order, which whole numbers pass and others may miss. Along
every run the probes are concluded in order, one at a time and within the bound on
hops, exactly when no lookup completes and no timer fires for a probe that is not the
outstanding one, and options that are no whole numbers do not lead beyond the bound.
`Orderly` says when the environment and the options bring that about.
-/
namespace BrightCli.Guarantees.ProbeConclusion
open BrightCli.Lib BrightCli.Lib.Js BrightCli.Source.Traceroute BrightCli.Source.Traceroute.State

def ids (s : State) : List Nat := s.sent.map (·.port)

/-- The probe that was sent and not concluded. -/
def outstanding (s : State) : Option Nat := (ids s)[s.concluded.length]?

/-- An outstanding probe is going to be concluded: its send has not completed, or
its own timer is armed, or the run has failed. -/
def Owed (s : State) : Prop :=
  ∀ probe, outstanding s = some probe →
    probe ∈ s.sending ∨ (∃ timer, (timer, probe) ∈ s.timers) ∨ s.outcome = some .failed

/-- Every probe is concluded once and in order: all but the last one sent have
been, and when the run has stopped that one too. -/
structure InOrder (options : Options) (s : State) : Prop where
  concluded : s.concluded <+: ids s
  distinct : (ids s).Nodup
  one : s.sent.length ≤ s.concluded.length + 1
  hops : ∀ probe ∈ s.sent, (probe.ttl : Number) ≤ options.maximumHops
  finished : ∀ reached, s.outcome = some (.stopped reached) → s.concluded = ids s
  owed : Owed s

/-- The counts are whole numbers, with a probe for each hop. -/
structure Whole (options : Options) (probes hops : Nat) : Prop where
  some_probe : 1 ≤ probes
  amountProbes : options.amountProbes = probes
  maximumHops : options.maximumHops = hops

/-- The step concludes the outstanding probe if it concludes one at all. A probe that
goes to a new hop goes to one within the bound, which whole numbers see to. -/
def Timely (options : Options) (s : State) : Event → Prop
  | .lookupCompleted k => ∀ reply, s.lookups[k]? = some reply → outstanding s = some reply.1
  | .timerFires timer =>
    ∀ pending, (s.timers.find? fun pending => pending.1 = timer) = some pending →
      outstanding s = some pending.2
  | .immediate accepted =>
    accepted = true → badPort options (s.port + 1) = false →
      (s.probes : Number) ≥ options.amountProbes →
      (∃ probes hops, Whole options probes hops) ∨
        ((s.ttl + 1 : Nat) : Number) ≤ options.maximumHops
  | _ => True

/-- What the steps keep besides: whatever is scheduled, sent or closed. -/
structure Core (options : Options) (s : State) : Prop where
  concluded : s.concluded <+: ids s
  distinct : (ids s).Nodup
  one : s.sent.length ≤ s.concluded.length + 1
  hops : ∀ probe ∈ s.sent, (probe.ttl : Number) ≤ options.maximumHops
  finished : ∀ outcome, s.outcome = some outcome → outcome ≠ .failed →
    s.concluded = ids s ∧ s.scheduled = 0
  fresh : ∀ probe ∈ s.sent, probe.port ≤ s.port
  single : s.scheduled ≤ 1
  idle : 0 < s.scheduled → s.sent.length = s.concluded.length
  opened : s.closed = true → ∃ outcome, s.outcome = some outcome ∧ outcome ≠ .failed
  ttl : 0 < s.scheduled ∨ s.concluded.length < s.sent.length →
    (s.ttl : Number) ≤ options.maximumHops
  row : ∀ {probes hops}, Whole options probes hops → 0 < s.scheduled → s.probes = probes →
    s.ttl < hops
  few : ∀ {probes hops}, Whole options probes hops → s.probes ≤ probes

section
variable {options : Options} {s : State}

theorem InOrder.of_core (core : Core options s) (owed : Owed s) : InOrder options s :=
  ⟨core.concluded, core.distinct, core.one, core.hops,
    fun _ stopped => (core.finished _ stopped nofun).1, owed⟩

/-- Timers, sends and lookups are no part of the core. -/
theorem Core.of_lists (core : Core options s) (timeout : Option Nat) (timers : List (Nat × Nat))
    (nextTimer : Nat) (sending : List Nat) (lookups : List (Nat × String)) :
    Core options { s with timeout, timers, nextTimer, sending, lookups } :=
  ⟨core.concluded, core.distinct, core.one, core.hops, core.finished, core.fresh, core.single,
    core.idle, core.opened, core.ttl, core.row, core.few⟩

theorem core_init : Core options init where
  concluded := List.prefix_refl _
  distinct := List.nodup_nil
  one := by decide
  hops := by simp [init]
  finished := nofun
  fresh := by simp [init]
  single := Nat.le_refl 1
  idle _ := rfl
  opened := nofun
  ttl _ := options.some_hop
  row whole _ none_sent := by
    have some_probe := whole.some_probe
    change 0 = _ at none_sent
    omega
  few _ := Nat.zero_le _

theorem owed_of_concluded (all : s.sent.length = s.concluded.length) : Owed s := by
  intro probe pending
  have past : (ids s).length ≤ s.concluded.length := by simp [ids, all]
  rw [outstanding, List.getElem?_eq_none past] at pending
  cases pending

/-- One more conclusion keeps the order exactly when it is that of the
outstanding probe. -/
theorem concluded_next_iff (order : s.concluded <+: ids s) (probe : Nat) :
    s.concluded ++ [probe] <+: ids s ↔ outstanding s = some probe := by
  obtain ⟨rest, whole⟩ := order
  rw [outstanding, ← whole, List.prefix_append_right_inj,
    List.getElem?_append_right (Nat.le_refl _), Nat.sub_self]
  cases rest with
  | nil => simp
  | cons next rest => simp [eq_comm]

/-- The outstanding probe is the last one sent. -/
theorem all_concluded (core : Core options s) {probe : Nat} (pending : outstanding s = some probe) :
    s.concluded ++ [probe] = ids s := by
  have order := (concluded_next_iff core.concluded probe).mpr pending
  refine order.eq_of_length_le ?_
  simpa [ids] using core.one

theorem core_emitError (core : Core options s) : Core options s.emitError := by
  refine ⟨core.concluded, core.distinct, core.one, core.hops, ?_, core.fresh, core.single,
    core.idle, ?_, core.ttl, core.row, core.few⟩
  · intro outcome ended unfailed
    cases before : s.outcome with
    | none =>
      rw [emitError, before] at ended
      cases ended
      exact absurd rfl unfailed
    | some earlier =>
      rw [emitError, before] at ended
      exact core.finished outcome (before.trans ended) unfailed
  · intro closed
    obtain ⟨outcome, ended, unfailed⟩ := core.opened closed
    exact ⟨outcome, by simp [emitError, ended], unfailed⟩

/-- A probe is due only where none is outstanding. -/
theorem scheduled_of_outstanding (core : Core options s) {probe : Nat}
    (pending : outstanding s = some probe) :
    s.scheduled = 0 ∧ s.concluded.length < s.sent.length := by
  have all := congrArg List.length (all_concluded core pending)
  simp only [List.length_append, List.length_singleton, ids, List.length_map] at all
  refine ⟨?_, by omega⟩
  by_contra due
  have none_left := core.idle (Nat.pos_of_ne_zero due)
  omega

theorem running_of_scheduled (core : Core options s) (due : 0 < s.scheduled) :
    (∀ outcome, s.outcome = some outcome → outcome = .failed) ∧ s.closed = false := by
  have running : ∀ outcome, s.outcome = some outcome → outcome = .failed := by
    intro outcome ended
    by_contra unfailed
    have none_due := (core.finished outcome ended unfailed).2
    omega
  refine ⟨running, ?_⟩
  by_contra closed
  obtain ⟨outcome, ended, unfailed⟩ := core.opened (by simpa using closed)
  exact unfailed (running outcome ended)

/-- An outstanding probe excludes that the run has ended otherwise than by failing. -/
theorem running_of_outstanding (core : Core options s) {probe : Nat}
    (pending : outstanding s = some probe) {outcome : Outcome} (ended : s.outcome = some outcome) :
    outcome = .failed := by
  by_contra unfailed
  have more := (scheduled_of_outstanding core pending).2
  rw [(core.finished outcome ended unfailed).1] at more
  simp [ids] at more

/-- The hop of the next probe, which is a new one when the row is full. -/
def nextTtl (options : Options) (s : State) : Nat :=
  if (s.probes : Number) ≥ options.amountProbes then s.ttl + 1 else s.ttl

def nextProbes (options : Options) (s : State) : Nat :=
  if (s.probes : Number) ≥ options.amountProbes then 1 else s.probes + 1

/-- The state when a scheduled call of `sendPacket` has prepared its probe. -/
def advanced (options : Options) (s : State) : State :=
  { s with
    scheduled := s.scheduled - 1
    ttl := nextTtl options s
    probes := nextProbes options s
    port := s.port + 1 }

theorem prepare_scheduled (options : Options) (s : State) :
    prepare options { s with scheduled := s.scheduled - 1 } = advanced options s := by
  unfold prepare advanced nextTtl nextProbes
  dsimp only
  split <;> rfl

section
variable {probes hops : Nat}

/-- Whole numbers compare as such. -/
theorem Whole.row_full_iff (whole : Whole options probes hops) (n : Nat) :
    (n : Number) ≥ options.amountProbes ↔ probes ≤ n := by
  rw [whole.amountProbes]
  exact Number.natCast_le_natCast probes n

theorem nextProbes_few (whole : Whole options probes hops) :
    nextProbes options s ≤ probes := by
  have some_probe := whole.some_probe
  unfold nextProbes
  simp only [whole.row_full_iff]
  split <;> omega

end

/-- A full row that has not stopped the run has a hop left. -/
theorem nextTtl_le (core : Core options s) (due : 0 < s.scheduled)
    (timely : (s.probes : Number) ≥ options.amountProbes →
      (∃ probes hops, Whole options probes hops) ∨
        ((s.ttl + 1 : Nat) : Number) ≤ options.maximumHops) :
    (nextTtl options s : Number) ≤ options.maximumHops := by
  unfold nextTtl
  split
  · rename_i full
    rcases timely full with ⟨probes, hops, whole⟩ | left
    · have last := core.row whole due
        (Nat.le_antisymm (core.few whole) ((whole.row_full_iff _).mp full))
      rw [whole.maximumHops]
      exact (Number.natCast_le_natCast _ _).mpr last
    · exact left
  · exact core.ttl (Or.inl due)

/-- Nothing is sent and nothing is scheduled: the counters alone have advanced. -/
theorem core_advanced (core : Core options s) (due : 0 < s.scheduled) :
    Core options (advanced options s) := by
  have single := core.single
  have none_left := core.idle due
  have none_due : (advanced options s).scheduled = 0 := by
    simp only [advanced]
    omega
  refine ⟨core.concluded, core.distinct, core.one, core.hops, ?_, ?_, ?_, fun _ => none_left,
    core.opened, ?_, ?_, fun whole => nextProbes_few whole⟩
  · intro outcome ended unfailed
    exact absurd ((running_of_scheduled core due).1 outcome ended) unfailed
  · intro probe member
    exact Nat.le_succ_of_le (core.fresh probe member)
  · omega
  · rintro (more | more)
    · omega
    · exact absurd none_left.symm (Nat.ne_of_lt more)
  · intro _ _ _ more
    omega

theorem core_refused (core : Core options s) (due : 0 < s.scheduled) :
    Core options (advanced options s).emitError ∧ Owed (advanced options s).emitError :=
  ⟨core_emitError (core_advanced core due), owed_of_concluded (core.idle due)⟩

/-- The process ends with every probe concluded. -/
theorem core_crashed (core : Core options s) (due : 0 < s.scheduled) :
    Core options (advanced options s).crash ∧ Owed (advanced options s).crash := by
  have none_left := core.idle due
  have all : s.concluded = ids s :=
    core.concluded.eq_of_length (by simp [ids, none_left])
  have kept := core_advanced core due
  refine ⟨⟨kept.concluded, kept.distinct, kept.one, kept.hops, fun _ _ _ => ⟨all, rfl⟩, kept.fresh,
    Nat.zero_le 1, fun _ => none_left, fun _ => ⟨.crashed, rfl, nofun⟩, ?_, ?_, kept.few⟩,
    owed_of_concluded none_left⟩
  · rintro (more | more)
    · cases more
    · exact absurd none_left.symm (Nat.ne_of_lt more)
  · intro _ _ _ more
    cases more

/-- The state after the socket has taken the next probe. -/
def launched (options : Options) (s : State) : State :=
  { advanced options s with
    sending := s.sending ++ [s.port + 1]
    sent := s.sent ++ [{ port := s.port + 1, ttl := nextTtl options s }] }

theorem ids_launched (options : Options) (s : State) :
    ids (launched options s) = ids s ++ [s.port + 1] := by
  simp [ids, launched]

theorem core_launched (core : Core options s) (due : 0 < s.scheduled)
    (timely : (s.probes : Number) ≥ options.amountProbes →
      (∃ probes hops, Whole options probes hops) ∨
        ((s.ttl + 1 : Nat) : Number) ≤ options.maximumHops) :
    Core options (launched options s) := by
  have single := core.single
  have none_left := core.idle due
  have hop := nextTtl_le core due timely
  have none_due : (launched options s).scheduled = 0 := by
    simp only [launched, advanced]
    omega
  refine ⟨?_, ?_, ?_, ?_, ?_, ?_, ?_, ?_, core.opened, fun _ => hop, ?_,
    fun whole => nextProbes_few whole⟩
  · rw [ids_launched]
    exact core.concluded.trans (List.prefix_append _ _)
  · rw [ids_launched]
    refine List.nodup_append.mpr ⟨core.distinct, List.pairwise_singleton _ _, ?_⟩
    intro id member other same
    obtain ⟨probe, belongs, rfl⟩ := List.mem_map.mp member
    rw [List.mem_singleton.mp same]
    exact Nat.ne_of_lt (Nat.lt_succ_of_le (core.fresh probe belongs))
  · simp only [launched, advanced, List.length_append, List.length_singleton]
    omega
  · intro probe member
    rcases List.mem_append.mp member with old | new
    · exact core.hops probe old
    · rw [List.mem_singleton.mp new]
      exact hop
  · intro outcome ended unfailed
    exact absurd ((running_of_scheduled core due).1 outcome ended) unfailed
  · intro probe member
    rcases List.mem_append.mp member with old | new
    · exact Nat.le_succ_of_le (core.fresh probe old)
    · rw [List.mem_singleton.mp new]
      exact Nat.le_refl _
  · omega
  · intro more
    omega
  · intro _ _ _ more
    omega

/-- The new probe is the outstanding one, and its send has not completed. -/
theorem outstanding_launched (core : Core options s) (due : 0 < s.scheduled) :
    outstanding (launched options s) = some (s.port + 1) := by
  have none_left := core.idle due
  have length : s.concluded.length = (ids s).length := by simp [ids, none_left]
  unfold outstanding
  rw [ids_launched]
  change (ids s ++ [s.port + 1])[s.concluded.length]? = _
  rw [length, List.getElem?_append_right (Nat.le_refl _), Nat.sub_self]
  rfl

theorem owed_launched (core : Core options s) (due : 0 < s.scheduled) :
    Owed (launched options s) := by
  intro probe pending
  rw [outstanding_launched core due] at pending
  cases pending
  exact Or.inl (List.mem_append_right _ (List.mem_singleton_self _))

theorem sendPacket_accepted (core : Core options s) (due : 0 < s.scheduled)
    (good : badPort options (s.port + 1) = false) :
    sendPacket options { s with scheduled := s.scheduled - 1 } true = launched options s := by
  have still_open := (running_of_scheduled core due).2
  unfold sendPacket
  rw [prepare_scheduled]
  simp [advanced, still_open, launched, good]

theorem sendPacket_bad_port (core : Core options s) (due : 0 < s.scheduled)
    (bad : badPort options (s.port + 1) = true) :
    sendPacket options { s with scheduled := s.scheduled - 1 } true =
      (advanced options s).crash := by
  have still_open := (running_of_scheduled core due).2
  unfold sendPacket
  rw [prepare_scheduled]
  simp [advanced, still_open, bad]

theorem sendPacket_refused :
    sendPacket options { s with scheduled := s.scheduled - 1 } false =
      (advanced options s).emitError := by
  unfold sendPacket
  rw [prepare_scheduled]
  rfl

/-- A send that completes arms the timer of its probe, or fails the run. -/
theorem core_afterSend (core : Core options s) (owed : Owed s) (probe : Nat) (error : Bool) :
    Core options (afterSend { s with sending := s.sending.erase probe } probe error) ∧
      Owed (afterSend { s with sending := s.sending.erase probe } probe error) := by
  have lists := core.of_lists s.timeout s.timers s.nextTimer (s.sending.erase probe) s.lookups
  cases error with
  | true =>
    refine ⟨core_emitError lists, ?_⟩
    intro other pending
    refine Or.inr (Or.inr ?_)
    change s.outcome.or (some .failed) = some .failed
    cases before : s.outcome with
    | none => rfl
    | some outcome =>
      rw [running_of_outstanding (s := s) core pending before]
      rfl
  | false =>
    refine ⟨core.of_lists _ _ _ _ _, ?_⟩
    intro other pending
    by_cases same : other = probe
    · refine Or.inr (Or.inl ⟨s.nextTimer, ?_⟩)
      rw [same]
      exact List.mem_append_right _ (List.mem_singleton_self _)
    · rcases owed other pending with waiting | ⟨timer, armed⟩ | failed
      · exact Or.inl ((List.mem_erase_of_ne same).mpr waiting)
      · exact Or.inr (Or.inl ⟨timer, List.mem_append_left _ armed⟩)
      · exact Or.inr (Or.inr failed)

theorem core_receive (core : Core options s) (owed : Owed s) (buffer : Utf8.Bytes) (ip : String) :
    Core options (s.receive buffer ip) ∧ Owed (s.receive buffer ip) := by
  unfold receive
  split
  · split
    · exact ⟨core.of_lists _ _ _ _ _, owed⟩
    · exact ⟨core, owed⟩
  · exact ⟨core, owed⟩

theorem handleReply_concluded (options : Options) (destinationIp : String) (s : State) (probe : Nat)
    (ip : Option String) :
    (handleReply options destinationIp s probe ip).concluded = s.concluded ++ [probe] ∧
      ids (handleReply options destinationIp s probe ip) = ids s := by
  unfold handleReply
  dsimp only
  split
  · unfold emitStop
    split <;> exact ⟨rfl, rfl⟩
  · exact ⟨rfl, rfl⟩

/-- The conclusion of the outstanding probe, up to the test for the end. -/
theorem core_concluding (core : Core options s) {probe : Nat}
    (pending : outstanding s = some probe) :
    Core options { s.clearTimeout with concluded := s.concluded ++ [probe] } := by
  have all := all_concluded core pending
  have lengths : s.sent.length = (s.concluded ++ [probe]).length := by simp [all, ids]
  obtain ⟨none_due, more⟩ := scheduled_of_outstanding core pending
  refine ⟨all ▸ List.prefix_refl _, core.distinct, Nat.le_succ_of_le (Nat.le_of_eq lengths),
    core.hops, fun _ _ _ => ⟨all, none_due⟩, core.fresh, core.single, fun _ => lengths, core.opened,
    fun _ => core.ttl (Or.inr more), ?_, core.few⟩
  intro _ _ _ due
  exact absurd due (none_due ▸ Nat.lt_irrefl 0)

theorem core_emitStop (core : Core options s) (all : s.concluded = ids s) (none_due : s.scheduled = 0)
    (reached : Bool) : Core options (s.emitStop reached) := by
  unfold emitStop
  split
  · exact ⟨core.concluded, core.distinct, core.one, core.hops, fun _ _ _ => ⟨all, none_due⟩,
      core.fresh, core.single, core.idle, fun _ => ⟨.stopped reached, rfl, nofun⟩, core.ttl, core.row,
      core.few⟩
  · exact core

/-- The end of `handleReply` where the run goes on. -/
theorem core_schedule (core : Core options s) (all : s.concluded = ids s) (none_due : s.scheduled = 0)
    (running : ∀ outcome, s.outcome = some outcome → outcome = .failed)
    (bound : (s.ttl : Number) ≤ options.maximumHops)
    (left : (s.probes : Number) = options.amountProbes → ¬ (s.ttl : Number) ≥ options.maximumHops) :
    Core options { s with scheduled := s.scheduled + 1 } := by
  refine ⟨core.concluded, core.distinct, core.one, core.hops, ?_, core.fresh, ?_, ?_, core.opened,
    fun _ => bound, ?_, core.few⟩
  · intro outcome ended unfailed
    exact absurd (running outcome ended) unfailed
  · exact none_due ▸ Nat.le_refl 1
  · intro _
    simp [all, ids]
  · intro probes hops whole _ full
    have last := left (by rw [whole.amountProbes, ← full])
    rw [whole.maximumHops] at last
    exact Nat.lt_of_not_le fun reached => last ((Number.natCast_le_natCast _ _).mpr reached)

theorem core_handleReply (core : Core options s) (destinationIp : String) {probe : Nat}
    (ip : Option String) (pending : outstanding s = some probe) :
    Core options (handleReply options destinationIp s probe ip) ∧
      Owed (handleReply options destinationIp s probe ip) := by
  have all := all_concluded core pending
  have concluding := core_concluding core pending
  obtain ⟨none_due, more⟩ := scheduled_of_outstanding core pending
  have running : ∀ outcome, s.outcome = some outcome → outcome = .failed :=
    fun _ ended => running_of_outstanding core pending ended
  have kept : Core options (handleReply options destinationIp s probe ip) := by
    unfold handleReply
    dsimp only
    split
    · exact core_emitStop concluding all none_due _
    · rename_i goes_on
      refine core_schedule concluding all none_due running (core.ttl (Or.inr more)) ?_
      intro full last
      exact goes_on ⟨full, Or.inr last⟩
  refine ⟨kept, owed_of_concluded ?_⟩
  obtain ⟨concluded, same⟩ := handleReply_concluded options destinationIp s probe ip
  have lengths := congrArg List.length (all.trans same.symm)
  rw [concluded]
  simpa [ids] using lengths.symm

/-- A conclusion keeps the order exactly when it is that of the outstanding probe. -/
theorem handleReply_exact (core : Core options s) (destinationIp : String) (probe : Nat)
    (ip : Option String) :
    (outstanding s = some probe → Core options (handleReply options destinationIp s probe ip) ∧
      Owed (handleReply options destinationIp s probe ip)) ∧
    (InOrder options (handleReply options destinationIp s probe ip) →
      outstanding s = some probe) := by
  refine ⟨core_handleReply core destinationIp ip, ?_⟩
  intro order
  obtain ⟨concluded, same⟩ := handleReply_concluded options destinationIp s probe ip
  have next_concluded := order.concluded
  rw [concluded, same] at next_concluded
  exact (concluded_next_iff core.concluded probe).mp next_concluded

/-- A new probe keeps the order exactly when its hop is within the bound. -/
theorem sendPacket_exact (core : Core options s) (due : 0 < s.scheduled) (accepted : Bool) :
    (Timely options s (.immediate accepted) →
      Core options (sendPacket options { s with scheduled := s.scheduled - 1 } accepted) ∧
        Owed (sendPacket options { s with scheduled := s.scheduled - 1 } accepted)) ∧
    (InOrder options (sendPacket options { s with scheduled := s.scheduled - 1 } accepted) →
      Timely options s (.immediate accepted)) := by
  cases accepted with
  | false =>
    rw [sendPacket_refused]
    exact ⟨fun _ => core_refused core due, fun _ => nofun⟩
  | true =>
    cases port : badPort options (s.port + 1) with
    | true =>
      rw [sendPacket_bad_port core due port]
      refine ⟨fun _ => core_crashed core due, fun _ _ good => ?_⟩
      rw [port] at good
      cases good
    | false =>
      rw [sendPacket_accepted core due port]
      refine ⟨fun timely => ⟨core_launched core due (timely rfl port), owed_launched core due⟩, ?_⟩
      intro order _ _ full
      have hop := order.hops _ (List.mem_append_right s.sent (List.mem_singleton_self _))
      simp only [nextTtl, full, if_true] at hop
      exact Or.inr hop

theorem step_exact {event : Event} {next : State} (core : Core options s) (owed : Owed s)
    (stepped : step options destinationIp s event = some next) :
    (Timely options s event → Core options next ∧ Owed next) ∧
      (InOrder options next → Timely options s event) := by
  cases event with
  | immediate accepted =>
    simp only [step] at stepped
    split at stepped
    · rename_i due
      cases stepped
      exact sendPacket_exact core due accepted
    · cases stepped
  | sendCompleted probe error =>
    simp only [step] at stepped
    split at stepped
    · cases stepped
      exact ⟨fun _ => core_afterSend core owed probe error, fun _ => trivial⟩
    · cases stepped
  | message buffer ip =>
    simp only [step] at stepped
    split at stepped
    · cases stepped
    · cases stepped
      exact ⟨fun _ => core_receive core owed buffer ip, fun _ => trivial⟩
  | lookupCompleted k =>
    simp only [step] at stepped
    split at stepped
    · rename_i probe ip found
      cases stepped
      have exact_reply := handleReply_exact
        (core.of_lists s.timeout s.timers s.nextTimer s.sending (s.lookups.eraseIdx k))
        destinationIp probe (some ip)
      refine ⟨fun timely => exact_reply.1 (timely (probe, ip) found), ?_⟩
      intro order reply at_k
      rw [found] at at_k
      cases at_k
      exact exact_reply.2 order
    · cases stepped
  | timerFires timer =>
    simp only [step] at stepped
    split at stepped
    · rename_i probe found
      cases stepped
      have exact_reply := handleReply_exact
        (core.of_lists s.timeout (s.timers.filter fun pending => pending.1 ≠ timer) s.nextTimer
          s.sending s.lookups)
        destinationIp probe none
      refine ⟨fun timely => exact_reply.1 (timely _ found), ?_⟩
      intro order pending at_timer
      rw [found] at at_timer
      cases at_timer
      exact exact_reply.2 order
    · cases stepped
  | socketError =>
    cases stepped
    refine ⟨fun _ => ⟨core_emitError core, ?_⟩, fun _ => trivial⟩
    intro probe pending
    rcases owed probe pending with waiting | armed | failed
    · exact Or.inl waiting
    · exact Or.inr (Or.inl armed)
    · exact Or.inr (Or.inr (by simp [emitError, failed]))

/-- The options lead no probe beyond the bound: they are whole, or a row never ends. -/
def Bounded (options : Options) : Prop :=
  (∃ probes hops, Whole options probes hops) ∨ options.amountProbes = .nan ∨
    options.amountProbes = .infinity

/-- What the environment has to do: a message that carries the current identifier
comes while its probe is outstanding, once; its lookup completes after the send
has; the timer does not fire while a lookup is under way. -/
def Orderly (options : Options) (s : State) : Event → Prop
  | .message buffer _ =>
    parseIdFromIcmpMessage buffer = .ok (some s.port) →
      outstanding s = some s.port ∧ s.lookups = []
  | .lookupCompleted _ => s.sending = []
  | .timerFires _ => s.lookups = []
  | .immediate _ => Bounded options
  | _ => True

/-- Whatever is pending belongs to the outstanding probe, and `timeout` is the
handle of its timer. -/
structure Tidy (s : State) : Prop where
  lookups : ∀ reply ∈ s.lookups, outstanding s = some reply.1
  sending : ∀ probe ∈ s.sending, outstanding s = some probe
  timers : ∀ pending ∈ s.timers, outstanding s = some pending.2 ∧ s.timeout = some pending.1
  reply : s.lookups.length ≤ 1
  wait : s.sending.length + s.timers.length ≤ 1

theorem tidy_of_nil (lookups : s.lookups = []) (sending : s.sending = []) (timers : s.timers = []) :
    Tidy s := by
  refine ⟨?_, ?_, ?_, ?_, ?_⟩ <;> simp [lookups, sending, timers]

/-- With nothing outstanding nothing is pending. -/
theorem Tidy.nil (tidy : Tidy s) (idle : outstanding s = none) :
    s.lookups = [] ∧ s.sending = [] ∧ s.timers = [] := by
  refine ⟨?_, ?_, ?_⟩
  · refine List.eq_nil_iff_forall_not_mem.mpr fun reply member => ?_
    cases idle.symm.trans (tidy.lookups reply member)
  · refine List.eq_nil_iff_forall_not_mem.mpr fun probe member => ?_
    cases idle.symm.trans (tidy.sending probe member)
  · refine List.eq_nil_iff_forall_not_mem.mpr fun pending member => ?_
    cases idle.symm.trans (tidy.timers pending member).1

theorem outstanding_none (core : Core options s) (due : 0 < s.scheduled) : outstanding s = none := by
  have past : (ids s).length ≤ s.concluded.length := by simp [ids, core.idle due]
  exact List.getElem?_eq_none past

theorem timely_of_tidy {event : Event} (tidy : Tidy s) (orderly : Orderly options s event) :
    Timely options s event := by
  cases event with
  | immediate accepted =>
    intro _ _ full
    rcases orderly with whole | never | never
    · exact Or.inl whole
    · rw [never] at full
      cases full
    · rw [never] at full
      cases full
  | lookupCompleted k =>
    intro reply found
    exact tidy.lookups reply (List.mem_of_getElem? found)
  | timerFires timer =>
    intro pending found
    exact (tidy.timers pending (List.mem_of_find?_eq_some found)).1
  | _ => trivial

/-- After a conclusion with no other lookup and no send under way nothing is pending. -/
theorem tidy_handleReply (destinationIp : String) (probe : Nat) (ip : Option String)
    (lookups : s.lookups = []) (sending : s.sending = [])
    (timers : ∀ pending ∈ s.timers, s.timeout = some pending.1) :
    Tidy (handleReply options destinationIp s probe ip) := by
  have cleared : s.clearTimeout.timers = [] := by
    refine List.filter_eq_nil_iff.mpr fun pending member => ?_
    simp [timers pending member]
  unfold handleReply
  dsimp only
  split
  · unfold emitStop
    split <;> exact tidy_of_nil lookups sending cleared
  · exact tidy_of_nil lookups sending cleared

theorem tidy_afterSend (tidy : Tidy s) {probe : Nat} (waiting : probe ∈ s.sending) (error : Bool) :
    Tidy (afterSend { s with sending := s.sending.erase probe } probe error) := by
  have wait := tidy.wait
  have some_waiting := List.length_pos_of_mem waiting
  have alone : s.sending = [probe] := by
    obtain ⟨only, single⟩ := List.length_eq_one_iff.mp (show s.sending.length = 1 by omega)
    rw [single, List.mem_singleton] at waiting
    rw [single, waiting]
  have unarmed : s.timers = [] := List.length_eq_zero_iff.mp (by omega)
  have owner := tidy.sending probe waiting
  cases error with
  | true =>
    refine ⟨tidy.lookups, ?_, ?_, tidy.reply, ?_⟩
    · simp [afterSend, emitError, alone]
    · simp [afterSend, emitError, unarmed]
    · simp [afterSend, emitError, alone, unarmed]
  | false =>
    refine ⟨tidy.lookups, ?_, ?_, tidy.reply, ?_⟩
    · simp [afterSend, alone]
    · intro pending member
      change pending ∈ s.timers ++ [(s.nextTimer, probe)] at member
      rw [unarmed, List.nil_append, List.mem_singleton] at member
      rw [member]
      exact ⟨owner, rfl⟩
    · simp [afterSend, alone, unarmed]

/-- Only the send of the new probe is pending. -/
theorem tidy_launched (core : Core options s) (due : 0 < s.scheduled) (lookups : s.lookups = [])
    (sending : s.sending = []) (timers : s.timers = []) : Tidy (launched options s) := by
  refine ⟨?_, ?_, ?_, ?_, ?_⟩
  · simp [launched, advanced, lookups]
  · intro probe member
    simp only [launched, sending, List.nil_append, List.mem_singleton] at member
    rw [member]
    exact outstanding_launched core due
  · simp [launched, advanced, timers]
  · simp [launched, advanced, lookups]
  · simp [launched, advanced, sending, timers]

theorem tidy_receive (tidy : Tidy s) (buffer : Utf8.Bytes) (ip : String)
    (orderly : Orderly options s (.message buffer ip)) : Tidy (s.receive buffer ip) := by
  unfold receive
  split
  · rename_i id parsed
    split
    · rename_i current
      subst current
      obtain ⟨pending, none_yet⟩ := orderly parsed
      refine ⟨?_, tidy.sending, tidy.timers, ?_, tidy.wait⟩
      · intro reply member
        simp only [none_yet, List.nil_append, List.mem_singleton] at member
        rw [member]
        exact pending
      · simp [none_yet]
    · exact tidy
  · exact tidy

theorem tidy_step {event : Event} {next : State} (core : Core options s) (tidy : Tidy s)
    (orderly : Orderly options s event)
    (stepped : step options destinationIp s event = some next) : Tidy next := by
  cases event with
  | immediate accepted =>
    simp only [step] at stepped
    split at stepped
    · rename_i due
      cases stepped
      obtain ⟨lookups, sending, timers⟩ := tidy.nil (outstanding_none core due)
      cases accepted with
      | true =>
        cases port : badPort options (s.port + 1) with
        | true =>
          rw [sendPacket_bad_port core due port]
          exact tidy_of_nil rfl rfl rfl
        | false =>
          rw [sendPacket_accepted core due port]
          exact tidy_launched core due lookups sending timers
      | false =>
        rw [sendPacket_refused]
        exact tidy_of_nil lookups sending timers
    · cases stepped
  | sendCompleted probe error =>
    simp only [step] at stepped
    split at stepped
    · rename_i waiting
      cases stepped
      exact tidy_afterSend tidy waiting error
    · cases stepped
  | message buffer ip =>
    simp only [step] at stepped
    split at stepped
    · cases stepped
    · cases stepped
      exact tidy_receive tidy buffer ip orderly
  | lookupCompleted k =>
    simp only [step] at stepped
    split at stepped
    · rename_i probe ip found
      cases stepped
      refine tidy_handleReply destinationIp probe _ ?_ orderly fun pending member =>
        (tidy.timers pending member).2
      have first := (List.getElem?_eq_some_iff.mp found).1
      have reply := tidy.reply
      refine List.length_eq_zero_iff.mp ?_
      rw [List.length_eraseIdx_of_lt first]
      omega
    · cases stepped
  | timerFires timer =>
    simp only [step] at stepped
    split at stepped
    · rename_i probe found
      cases stepped
      have armed := List.length_pos_of_mem (List.mem_of_find?_eq_some found)
      have wait := tidy.wait
      have none_waiting : s.sending = [] := List.length_eq_zero_iff.mp (by omega)
      exact tidy_handleReply destinationIp probe _ orderly none_waiting fun pending member =>
        (tidy.timers pending (List.mem_of_mem_filter member)).2
    · cases stepped
  | socketError =>
    cases stepped
    exact ⟨tidy.lookups, tidy.sending, tidy.timers, tidy.reply, tidy.wait⟩

end

/-- Along every run the probes are concluded in order, one at a time and within
the bound on hops, exactly when no step concludes a probe that is not outstanding
or sends one beyond the bound; it is enough that the environment is orderly. -/
theorem conclusions_in_order_iff (options : Options) (destinationIp : String)
    (events : List Event) (last : State)
    (legal : Trace.run (step options destinationIp) init events = some last) :
    (Trace.Always (step options destinationIp) init (InOrder options) events ↔
      Trace.EachStep (step options destinationIp) init (Timely options) events) ∧
    (Trace.EachStep (step options destinationIp) init (Orderly options) events →
      Trace.Always (step options destinationIp) init (InOrder options) events) := by
  have start : Core options init ∧ Owed init := ⟨core_init, owed_of_concluded rfl⟩
  have exact_run : Trace.Always (step options destinationIp) init (InOrder options) events ↔
      Trace.EachStep (step options destinationIp) init (Timely options) events := by
    -- The core is kept by timely steps only, so it is carried under the order itself.
    refine Trace.always_iff_eachStep (I := fun s => InOrder options s → Core options s ∧ Owed s)
      (fun _ => start) (InOrder.of_core start.1 start.2) ?_ ?_ legal
    · intro s e next inv order stepped next_order
      obtain ⟨core, owed⟩ := inv order
      have both := step_exact core owed stepped
      exact both.1 (both.2 next_order)
    · intro s e next inv order stepped
      obtain ⟨core, owed⟩ := inv order
      have both := step_exact core owed stepped
      exact ⟨both.2, fun timely => InOrder.of_core (both.1 timely).1 (both.1 timely).2⟩
  refine ⟨exact_run, fun orderly => exact_run.mpr ?_⟩
  intro seen e s pre reached
  have kept : Trace.Always (step options destinationIp) init
      (fun s => Core options s ∧ Owed s ∧ Tidy s) events := by
    refine Trace.always_of_eachStep ⟨start.1, start.2, tidy_of_nil rfl rfl rfl⟩ ?_ orderly
    rintro s e next ⟨core, owed, tidy⟩ good stepped
    obtain ⟨next_core, next_owed⟩ :=
      (step_exact core owed stepped).1 (timely_of_tidy tidy good)
    exact ⟨next_core, next_owed, tidy_step core tidy good stepped⟩
  exact timely_of_tidy (kept seen s ((List.prefix_append seen [e]).trans pre) reached).2.2
    (orderly seen e s pre reached)

/-- Three probes for each of at most 64 hops. -/
def usual : Options := .of {}

/-- An echo reply with the identifier of the first probe. -/
def firstReply : Utf8.Bytes := List.replicate 26 0 ++ [0x82, 0x9a]

/-- The send completes before the reply comes, and the lookup before the timer fires. -/
def promptReply : List Event :=
  [.immediate true, .sendCompleted 33434 false, .message firstReply "192.0.2.1",
    .lookupCompleted 0]

theorem prompt_reply_in_order :
    Trace.Always (step usual "192.0.2.9") init (InOrder usual) promptReply := by
  refine (conclusions_in_order_iff usual "192.0.2.9" promptReply _ rfl).2 ?_
  unfold promptReply
  rw [Trace.eachStep_cons rfl, Trace.eachStep_cons rfl, Trace.eachStep_cons rfl,
    Trace.eachStep_cons rfl]
  exact ⟨Or.inl ⟨3, 64, by decide, rfl, rfl⟩, trivial, fun _ => ⟨rfl, rfl⟩, rfl,
    Trace.eachStep_nil _ _⟩

/-- The timer fires while the reply is looked up: the probe is concluded twice,
and two probes are sent at once. -/
def timerDuringLookup : List Event :=
  [.immediate true, .sendCompleted 33434 false, .message firstReply "192.0.2.1", .timerFires 0,
    .lookupCompleted 0, .immediate true, .immediate true]

theorem concluded_twice :
    ∃ s, Trace.run (step usual "192.0.2.9") init timerDuringLookup = some s ∧
      s.concluded = [33434, 33434] ∧ s.sending = [33435, 33436] ∧
      ¬ InOrder usual s := by
  refine ⟨_, rfl, rfl, rfl, ?_⟩
  intro order
  have twice := order.concluded
  revert twice
  decide

end BrightCli.Guarantees.ProbeConclusion
