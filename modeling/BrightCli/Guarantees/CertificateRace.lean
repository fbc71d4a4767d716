import BrightCli.Source.Http.Race

/-!
# The race between certificates

Whatever the interleaving of the attempts, the call comes to what the executor's
model returns for some order of settlements and some distribution of the material;
so what is proved about `tryRequestWithCertificates` for every world covers every
run. The order is that in which the exchanges ended, and the material is what each
of them started with.
-/
namespace BrightCli.Guarantees.CertificateRace
open BrightCli.Lib BrightCli.Lib.Js BrightCli.Source BrightCli.Source.Certificates
open BrightCli.Source.Http BrightCli.Source.Http.Race

section
variable (world : World)

/-- Everything a step of a race can do. -/
theorem step_cases {s next : Race} {e : Race.Event} (stepped : Race.step world s e = some next) :
    (∃ event attempts, s.attempts.step event = some attempts ∧ next = { s with attempts } ∧
      (∀ i succeeded, event ≠ .exchangeEnded i succeeded) ∧ ∀ i, e ≠ .exchangeEnded i) ∨
    (∃ i cert material, e = .exchangeEnded i ∧
      s.attempts.phases[i]? = some (cert, .exchanging material) ∧
      next = { s with
        attempts := { s.attempts with phases := s.attempts.phases.set i (cert, .settled) }
        promise := s.promise.settle (result world s.request i material).toOption }) := by
  cases e with
  | readCompleted i content =>
    obtain ⟨attempts, moved, same⟩ := Option.bind_eq_some_iff.mp stepped
    cases same
    exact Or.inl ⟨.readCompleted i content, attempts, moved, rfl, by simp, by simp⟩
  | exchangeEnded i =>
    simp only [Race.step] at stepped
    split at stepped
    · rename_i cert material exchanging
      obtain ⟨attempts, moved, same⟩ := Option.bind_eq_some_iff.mp stepped
      cases same
      simp only [Attempts.step, exchanging] at moved
      cases moved
      exact Or.inr ⟨i, cert, material, rfl, exchanging, rfl⟩
    · cases stepped

/-- The attempt that ends with this step, and the material its exchange started with. -/
def ending (s : Race) : Race.Event → Option (Nat × TlsMaterial)
  | .exchangeEnded i =>
    match s.attempts.phases[i]? with
    | some (_, .exchanging material) => some (i, material)
    | _ => none
  | _ => none

/-- The attempts that have ended, in order. -/
def endings (request : Request) (certs : List Cert) (events : List Race.Event) :
    List (Nat × TlsMaterial) :=
  Trace.collect (Race.step world) ending (.start request certs) events

def settlements (request : Request) (ended : List (Nat × TlsMaterial)) : List (Option Response) :=
  ended.map fun entry => (result world request entry.1 entry.2).toOption

/-- What the endings tell of a state. -/
structure Told (request : Request) (certs : List Cert) (ended : List (Nat × TlsMaterial))
    (s : Race) : Prop where
  unchanged : s.request = request
  phases : s.attempts.phases.map Prod.fst = certs
  settled : ∀ i, i ∈ ended.map Prod.fst ↔ ∃ cert, s.attempts.phases[i]? = some (cert, .settled)
  once : (ended.map Prod.fst).Nodup
  promise : s.promise = (settlements world request ended).foldl PromiseAny.settle (.of certs.length)

theorem told_start (request : Request) (certs : List Cert) :
    Told world request certs [] (.start request certs) where
  unchanged := rfl
  phases := by simp [Race.start, Attempts.start, Function.comp_def]
  settled i := by simp [Race.start, Attempts.start]
  once := by simp
  promise := rfl

variable {world} {request : Request} {certs : List Cert} {ended : List (Nat × TlsMaterial)}

/-- A step that ends no exchange settles nothing. -/
theorem settled_of_other {s next : Attempts} {event : Attempts.Event}
    (moved : s.step event = some next) (other : ∀ i succeeded, event ≠ .exchangeEnded i succeeded)
    (i : Nat) :
    (∃ cert, next.phases[i]? = some (cert, .settled)) ↔
      ∃ cert, s.phases[i]? = some (cert, .settled) := by
  have unaffected : ∀ j cert before after, s.phases[j]? = some (cert, before) → before ≠ .settled →
      after ≠ Phase.settled →
      ((∃ own, (s.phases.set j (cert, after))[i]? = some (own, .settled)) ↔
        ∃ own, s.phases[i]? = some (own, .settled)) := by
    intro j cert before after present running unsettled
    by_cases same : j = i
    · subst same
      have bound := (List.getElem?_eq_some_iff.mp present).1
      rw [List.getElem?_set_self bound, present]
      simp [running, unsettled]
    · rw [List.getElem?_set_ne same]
  obtain ⟨j, content, cert, -, present, rfl⟩ | ⟨j, succeeded, cert, material, rfl, -, -⟩ :=
    Attempts.step_cases moved
  · exact unaffected j cert _ _ present (by simp) (by simp)
  · exact absurd rfl (other j succeeded)

theorem certs_set {phases : List (Cert × Phase)} {j : Nat} {cert : Cert} {before : Phase}
    (present : phases[j]? = some (cert, before)) (after : Phase) :
    (phases.set j (cert, after)).map Prod.fst = phases.map Prod.fst := by
  obtain ⟨bound, own⟩ := List.getElem?_eq_some_iff.mp present
  have inside : j < (phases.map Prod.fst).length := by simpa using bound
  have same : (phases.map Prod.fst).set j (phases.map Prod.fst)[j] = phases.map Prod.fst :=
    List.set_getElem_self inside
  rw [List.getElem_map, own] at same
  rw [List.map_set, same]

theorem certs_of_step {s next : Attempts} {event : Attempts.Event}
    (moved : s.step event = some next) : next.phases.map Prod.fst = s.phases.map Prod.fst := by
  obtain ⟨j, content, cert, -, present, rfl⟩ | ⟨j, succeeded, cert, material, rfl, present, rfl⟩ :=
    Attempts.step_cases moved
  all_goals exact certs_set present _

theorem told_step {s next : Race} {e : Race.Event} (told : Told world request certs ended s)
    (stepped : Race.step world s e = some next) :
    Told world request certs (ended ++ (ending s e).toList) next := by
  obtain ⟨event, attempts, moved, rfl, other, silent⟩ | ⟨i, cert, material, rfl, present, rfl⟩ :=
    step_cases world stepped
  · have nothing : ending s e = none := by
      cases e with
      | exchangeEnded i => exact absurd rfl (silent i)
      | readCompleted => rfl
    rw [nothing, Option.toList_none, List.append_nil]
    exact
      { told with
        phases := (certs_of_step moved).trans told.phases
        settled := fun i => (told.settled i).trans (settled_of_other moved other i).symm }
  · have bound := (List.getElem?_eq_some_iff.mp present).1
    have ends : ending s (.exchangeEnded i) = some (i, material) := by simp [ending, present]
    rw [ends, Option.toList_some]
    refine ⟨told.unchanged, ?_, ?_, ?_, ?_⟩
    · exact (certs_set present _).trans told.phases
    · intro j
      rw [List.map_append, List.mem_append, told.settled j]
      by_cases same : i = j
      · subst same
        simp [List.getElem?_set_self bound]
      · simp [List.getElem?_set_ne same, Ne.symm same]
    · -- An attempt that is still exchanging has not ended before.
      have fresh : i ∉ ended.map Prod.fst := by
        simp [told.settled i, present]
      rw [List.map_append, List.map_singleton, ← List.concat_eq_append]
      exact told.once.concat fresh
    · show s.promise.settle _ = _
      rw [told.promise, told.unchanged]
      simp [settlements]

theorem told_run {events : List Race.Event} {s : Race}
    (ran : Trace.run (Race.step world) (.start request certs) events = some s) :
    Told world request certs (endings world request certs events) s := by
  refine Trace.run_induction (P := fun seen s =>
    Told world request certs (endings world request certs seen) s) (told_start world request certs)
    (fun seen mid e next reached told stepped => ?_) ran
  rw [endings, Trace.collect_snoc reached]
  exact told_step told stepped

/-- The settlements of the executor's model, in the order of the endings. -/
def orderOf (certs : List Cert) (ended : List (Nat × TlsMaterial)) : List (Cert × Nat) :=
  ended.filterMap fun entry => certs.zipIdx[entry.1]?

/-- The material with which an attempt's exchange started. -/
def materialOf (ended : List (Nat × TlsMaterial)) (i : Nat) : TlsMaterial :=
  ((ended.find? (·.1 = i)).map Prod.snd).getD { ca := none, pfx := none, passphrase := .undefined }

theorem materialOf_ended (once : (ended.map Prod.fst).Nodup) {entry : Nat × TlsMaterial}
    (listed : entry ∈ ended) : materialOf ended entry.1 = entry.2 := by
  induction ended with
  | nil => simp at listed
  | cons first rest ih =>
    rw [List.map_cons, List.nodup_cons] at once
    rcases List.mem_cons.mp listed with rfl | later
    · simp [materialOf]
    · have different : first.1 ≠ entry.1 := by
        intro same
        exact once.1 (same ▸ List.mem_map_of_mem later)
      simpa [materialOf, List.find?_cons, different] using ih once.2 later

theorem told_complete {s : Race} (told : Told world request certs ended s)
    (complete : ∀ entry ∈ s.attempts.phases, entry.2 = .settled) (i : Nat) :
    i ∈ ended.map Prod.fst ↔ i < certs.length := by
  rw [told.settled, ← told.phases, List.length_map]
  constructor
  · rintro ⟨cert, present⟩
    exact (List.getElem?_eq_some_iff.mp present).1
  · intro bound
    have settled := complete _ (List.getElem_mem bound)
    exact ⟨s.attempts.phases[i].1, by rw [List.getElem?_eq_getElem bound, ← settled]⟩

theorem filterMap_getElem?_range {α : Type} (l : List α) :
    (List.range l.length).filterMap (l[·]?) = l := by
  have each : (List.range l.length).map (l[·]?) = l.map some := by
    apply List.ext_getElem
    · simp
    · intro i _ _
      simp
  calc (List.range l.length).filterMap (l[·]?)
      = ((List.range l.length).map (l[·]?)).filterMap id := by
        rw [List.filterMap_map]
        rfl
    _ = l := by
        rw [each, List.filterMap_map]
        simp

theorem ended_perm (once : (ended.map Prod.fst).Nodup)
    (complete : ∀ i, i ∈ ended.map Prod.fst ↔ i < certs.length) :
    (ended.map Prod.fst).Perm (List.range certs.length) :=
  (List.perm_ext_iff_of_nodup once List.nodup_range).mpr (by simpa using complete)

theorem orderOf_perm (once : (ended.map Prod.fst).Nodup)
    (complete : ∀ i, i ∈ ended.map Prod.fst ↔ i < certs.length) :
    (orderOf certs ended).Perm certs.zipIdx := by
  have all := ended_perm once complete
  rw [← List.length_zipIdx (l := certs) (i := 0)] at all
  have order : orderOf certs ended = (ended.map Prod.fst).filterMap (certs.zipIdx[·]?) := by
    rw [List.filterMap_map]
    rfl
  rw [order]
  exact (all.filterMap _).trans (List.Perm.of_eq (filterMap_getElem?_range _))

theorem orderOf_attempts (complete : ∀ i ∈ ended.map Prod.fst, i < certs.length) :
    (orderOf certs ended).map Prod.snd = ended.map Prod.fst := by
  induction ended with
  | nil => rfl
  | cons first rest ih =>
    have bound : first.1 < certs.length := complete _ (by simp)
    have here : certs.zipIdx[first.1]? = some (certs[first.1], first.1) := by simp [bound]
    have later := ih fun i listed => complete i (List.mem_cons_of_mem _ listed)
    rw [orderOf] at later ⊢
    simp only [List.filterMap_cons, here, List.map_cons, later]

theorem promiseAny_toOption (results : List (Except Value Response)) :
    (promiseAny results).toOption = (results.map Except.toOption).findSome? id := by
  induction results with
  | nil => rfl
  | cons first rest ih =>
    cases first with
    | ok response => rfl
    | error reason => exact ih

/-- The world in which the attempts settle as they did in a run. -/
def settledWorld (world : World) (certs : List Cert) (ended : List (Nat × TlsMaterial))
    (perm : (orderOf certs ended).Perm certs.zipIdx) : World :=
  { world with
    material := materialOf ended
    settlement := fun listed => if listed = certs then orderOf certs ended else listed.zipIdx
    settlement_perm := fun listed => by
      split
      case isTrue same => exact same ▸ perm
      case isFalse => exact .refl _ }

theorem attempt_in_settledWorld (perm : (orderOf certs ended).Perm certs.zipIdx) (i : Nat) :
    attemptWithCertificate (settledWorld world certs ended perm) request i =
      result world request i (materialOf ended i) := rfl

theorem tryRequest_in_settledWorld (perm : (orderOf certs ended).Perm certs.zipIdx)
    (once : (ended.map Prod.fst).Nodup)
    (complete : ∀ i, i ∈ ended.map Prod.fst ↔ i < certs.length) :
    (tryRequestWithCertificates (settledWorld world certs ended perm) request certs).toOption =
      (settlements world request ended).findSome? id := by
  have order : (settledWorld world certs ended perm).settlement certs = orderOf certs ended :=
    if_pos rfl
  have attempts : ∀ entry ∈ ended,
      attemptWithCertificate (settledWorld world certs ended perm) request entry.1 =
        result world request entry.1 entry.2 := by
    intro entry listed
    rw [attempt_in_settledWorld, materialOf_ended once listed]
  have indices : (orderOf certs ended).map Prod.snd = ended.map Prod.fst :=
    orderOf_attempts fun i listed => (complete i).mp listed
  have results : (orderOf certs ended).map (fun entry =>
      attemptWithCertificate (settledWorld world certs ended perm) request entry.2) =
      ended.map fun entry => result world request entry.1 entry.2 := by
    calc (orderOf certs ended).map (fun entry =>
          attemptWithCertificate (settledWorld world certs ended perm) request entry.2)
        = ((orderOf certs ended).map Prod.snd).map
            (attemptWithCertificate (settledWorld world certs ended perm) request) := by
          rw [List.map_map]
          rfl
      _ = ended.map fun entry => result world request entry.1 entry.2 := by
          rw [indices, List.map_map]
          exact List.map_congr_left attempts
  rw [tryRequestWithCertificates, promiseAny_toOption, order, results, List.map_map]
  rfl

end

/-- The answer to the caller does not wait for the attempts that are still running. -/
theorem outcome_stays {world : World} {s last : Race} {events : List Race.Event}
    {outcome : Option Response} (answered : s.promise.outcome = some outcome)
    (ran : Trace.run (Race.step world) s events = some last) :
    last.promise.outcome = some outcome := by
  refine Trace.run_invariant (P := fun s => s.promise.outcome = some outcome) answered
    (fun s e next answered stepped => ?_) ran
  obtain ⟨event, attempts, -, rfl, -, -⟩ | ⟨i, cert, material, -, -, rfl⟩ := step_cases world stepped
  · exact answered
  · simp [PromiseAny.settle, answered]

/-- A race whose attempts have all ended comes to what the executor's model returns
in a world with its own platform, scripts and target, for the order in which the
attempts ended and the material they started with. An answer given on the way is
that answer. -/
theorem race_refines_executor (world : World) (request : Request) (certs : List Cert)
    (events : List Race.Event) {s : Race}
    (ran : Trace.run (Race.step world) (.start request certs) events = some s)
    (complete : ∀ entry ∈ s.attempts.phases, entry.2 = .settled) :
    ∃ perm, ∃ outcome,
      outcome = (tryRequestWithCertificates
        (settledWorld world certs (endings world request certs events) perm) request certs).toOption ∧
      s.promise.outcome = some outcome ∧
      ∀ seen later mid, events = seen ++ later →
        Trace.run (Race.step world) (.start request certs) seen = some mid →
        mid.promise.outcome = none ∨ mid.promise.outcome = some outcome := by
  have told := told_run ran
  have all := told_complete told complete
  have many : (settlements world request (endings world request certs events)).length =
      certs.length := by
    simpa [settlements] using (ended_perm told.once all).length_eq
  have answered : s.promise.outcome =
      some ((settlements world request (endings world request certs events)).findSome? id) := by
    rw [told.promise, (PromiseAny.settled many.le).2, PromiseAny.outcomeOf]
    cases (settlements world request (endings world request certs events)).findSome? id with
    | some response => rfl
    | none => simp [many]
  refine ⟨orderOf_perm told.once all, _, rfl, ?_, ?_⟩
  · rw [tryRequest_in_settledWorld _ told.once all, answered]
  · intro seen later mid split reached
    cases given : mid.promise.outcome with
    | none => exact Or.inl rfl
    | some outcome =>
      rw [split, Trace.run_append, reached] at ran
      have stays := outcome_stays given ran
      rw [tryRequest_in_settledWorld _ told.once all, ← answered, stays]
      exact Or.inr rfl

/-- A target that accepts the second certificate only. -/
def secondAccepted : World :=
  { World.plain with
    perform := fun attempt _ =>
      if attempt = some 1 then .ok { statusCode := 200, rawBody := [], rawHeaders := [], ttfb := 0 }
      else .error { name := "Error", message := "SSL peer certificate", code := none, syscall := none } }

def crossing : List Race.Event :=
  [.readCompleted 1 (some [112]), .readCompleted 0 none, .exchangeEnded 1, .exchangeEnded 0]

def rivals : List Cert :=
  [{ path := "first.pfx", hostname := "*", passphrase := none, port := none },
    { path := "second.pfx", hostname := "*", passphrase := none, port := none }]

/-- The last ending, a rejection, changes nothing. -/
theorem crossing_refines : ∃ s perm,
    Trace.run (Race.step secondAccepted) (.start (.ofUrl "https://a.test/") rivals) crossing =
      some s ∧
    s.promise.outcome = some (tryRequestWithCertificates (settledWorld secondAccepted rivals
      (endings secondAccepted (.ofUrl "https://a.test/") rivals crossing) perm)
      (.ofUrl "https://a.test/") rivals).toOption := by
  obtain ⟨perm, outcome, rfl, answered, -⟩ :=
    race_refines_executor secondAccepted (.ofUrl "https://a.test/") rivals crossing rfl
      (by simp [Race.start, Attempts.start, rivals])
  exact ⟨_, perm, rfl, answered⟩

end BrightCli.Guarantees.CertificateRace
