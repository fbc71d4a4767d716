import BrightCli.Source.Certificates

/-!
# Which credentials an attempt uses

All attempts of one call load their certificate into one request object, which
keeps what an attempt does not overwrite: a certificate authority leaves the key
store of another attempt in place, and a key store the authority. Attribution
holds in every interleaving exactly when the list has nothing to mix up: of two
certificates of different kinds neither brings anything that the original request
does not hold, and each certificate was read and is of a supported kind, so that a
success is never credited to a certificate that was not part of the exchange.
-/
namespace BrightCli.Guarantees.CredentialAttribution
open BrightCli.Lib BrightCli.Lib.Js BrightCli.Source BrightCli.Source.Certificates

/-- The reads complete with the given contents, `none` for a failed read. -/
def Reads (contents : Nat → Option Utf8.Bytes) (events : List Attempts.Event) : Prop :=
  ∀ i content, Attempts.Event.readCompleted i content ∈ events → content = contents i

/-- The material after loading one certificate alone into the original request. -/
def alone (original : Request) (cert : Cert) (content : Option Utf8.Bytes) : TlsMaterial :=
  tls (original.loadCert cert content)

/-- The certificate is part of the material. -/
def Presents (cert : Cert) (content : Option Utf8.Bytes) (material : TlsMaterial) : Prop :=
  content.isSome ∧
    match Request.certKind cert.path with
    | .ca => material.ca = content
    | .pfx => material.pfx = content ∧ material.passphrase = Value.ofOption cert.passphrase
    | .unsupported => False

/-- Attribution over every interleaving of the attempts of one call. -/
structure Attributed (original : Request) (certs : List Cert)
    (contents : Nat → Option Utf8.Bytes) : Prop where
  started : ∀ events s, Reads contents events →
    Trace.run Attempts.step (.start original certs) events = some s →
    ∀ i cert material, s.phases[i]? = some (cert, .exchanging material) →
      material = alone original cert (contents i)
  cached : ∀ events s event cert, Reads contents events →
    Trace.run Attempts.step (.start original certs) events = some s →
    s.adds event = some cert →
    ∃ i material, event = .exchangeEnded i true ∧
      s.phases[i]? = some (cert, .exchanging material) ∧ Presents cert (contents i) material

/-- The certificate brings what the original request holds. -/
def BringsNothing (original : Request) (cert : Cert) (content : Option Utf8.Bytes) : Prop :=
  match Request.certKind cert.path with
  | .ca => content = original.ca
  | .pfx => content = original.pfx ∧ Value.ofOption cert.passphrase = original.passphrase
  | .unsupported => True

section
variable (original : Request) (certs : List Cert) (contents : Nat → Option Utf8.Bytes)

/-- Of two certificates of different kinds neither changes what the other leaves. -/
def KindsApart : Prop :=
  ∀ (i j : Nat) (own other : Cert), certs[i]? = some own → certs[j]? = some other →
    Request.certKind own.path ≠ Request.certKind other.path →
    BringsNothing original other (contents j)

/-- The file was read and its kind is supported. -/
def AllLoaded : Prop :=
  ∀ i cert, certs[i]? = some cert →
    Request.certKind cert.path ≠ .unsupported ∧ (contents i).isSome

theorem presents_alone_iff (cert : Cert) (content : Option Utf8.Bytes) :
    Presents cert content (alone original cert content) ↔
      Request.certKind cert.path ≠ .unsupported ∧ content.isSome := by
  unfold Presents alone Request.loadCert
  cases Request.certKind cert.path <;> simp [tls]

/-- What every interleaving keeps: the fields that a certificate of the list does
not overwrite are the original ones, and so every exchange starts with what its
certificate loads alone. -/
structure Unmixed (s : Attempts) : Prop where
  ca : (∃ cert ∈ certs, Request.certKind cert.path = .pfx) → s.request.ca = original.ca
  pfx : (∃ cert ∈ certs, Request.certKind cert.path = .ca) →
    s.request.pfx = original.pfx ∧ s.request.passphrase = original.passphrase
  attempts : ∀ (i : Nat) cert phase, s.phases[i]? = some (cert, phase) →
    certs[i]? = some cert ∧
      ∀ material, phase = .exchanging material → material = alone original cert (contents i)

variable {original certs contents}

/-- Loading a supported certificate replaces all that the other attempts changed. -/
theorem tls_loadCert_of_unmixed {s : Attempts} (unmixed : Unmixed original certs contents s)
    {i : Nat} {cert : Cert} (listed : certs[i]? = some cert)
    (supported : Request.certKind cert.path ≠ .unsupported) :
    tls (s.request.loadCert cert (contents i)) = alone original cert (contents i) := by
  have member := List.mem_of_getElem? listed
  unfold alone Request.loadCert
  cases kind : Request.certKind cert.path with
  | ca =>
    obtain ⟨pfx, passphrase⟩ := unmixed.pfx ⟨cert, member, kind⟩
    simp only [tls, pfx, passphrase]
  | pfx => simp only [tls, unmixed.ca ⟨cert, member, kind⟩]
  | unsupported => exact absurd kind supported

/-- A load leaves the fields that certificates of the other kind rely on. -/
theorem unmixed_loaded (apart : KindsApart original certs contents) {s : Attempts}
    (unmixed : Unmixed original certs contents s) {i : Nat} {cert : Cert}
    (listed : certs[i]? = some cert) :
    ((∃ other ∈ certs, Request.certKind other.path = .pfx) →
      (s.request.loadCert cert (contents i)).ca = original.ca) ∧
    ((∃ other ∈ certs, Request.certKind other.path = .ca) →
      (s.request.loadCert cert (contents i)).pfx = original.pfx ∧
      (s.request.loadCert cert (contents i)).passphrase = original.passphrase) := by
  have brings : ∀ other ∈ certs, Request.certKind other.path ≠ Request.certKind cert.path →
      BringsNothing original cert (contents i) := by
    intro other member different
    obtain ⟨j, found⟩ := List.mem_iff_getElem?.mp member
    exact apart j i other cert found listed different
  unfold BringsNothing at brings
  unfold Request.loadCert
  cases kind : Request.certKind cert.path with
  | ca =>
    simp only [kind] at brings
    refine ⟨?_, unmixed.pfx⟩
    rintro ⟨other, member, store⟩
    exact brings other member (by simp [store])
  | pfx =>
    simp only [kind] at brings
    refine ⟨unmixed.ca, ?_⟩
    rintro ⟨other, member, authority⟩
    exact brings other member (by simp [authority])
  | unsupported => exact ⟨unmixed.ca, unmixed.pfx⟩

/-- The entry found after one attempt moved on: its own, or an old one. -/
theorem phases_set_cases {phases : List (Cert × Phase)} {i k : Nat} {entry found : Cert × Phase}
    (present : (phases.set i entry)[k]? = some found) :
    (k = i ∧ found = entry) ∨ phases[k]? = some found := by
  rw [List.getElem?_set] at present
  split at present
  · rename_i equal
    split at present
    · cases present
      exact Or.inl ⟨equal.symm, rfl⟩
    · cases present
  · exact Or.inr present

theorem unmixed_step (apart : KindsApart original certs contents)
    (loaded : AllLoaded certs contents) {s next : Attempts} {event : Attempts.Event}
    (unmixed : Unmixed original certs contents s)
    (read : ∀ i content, event = .readCompleted i content → content = contents i)
    (stepped : s.step event = some next) : Unmixed original certs contents next := by
  obtain ⟨i, content, cert, rfl, present, rfl⟩ | ⟨i, succeeded, cert, material, rfl, present, rfl⟩ :=
    Attempts.step_cases stepped
  · have listed := (unmixed.attempts i cert _ present).1
    have content_eq := read i content rfl
    subst content_eq
    have replaced := tls_loadCert_of_unmixed unmixed listed (loaded i cert listed).1
    obtain ⟨ca, pfx⟩ := unmixed_loaded apart unmixed listed
    refine ⟨ca, pfx, ?_⟩
    intro k found phase member
    rcases phases_set_cases member with ⟨rfl, entry⟩ | old
    · cases entry
      refine ⟨listed, ?_⟩
      intro material started
      cases started
      exact replaced
    · exact unmixed.attempts k found phase old
  · refine ⟨unmixed.ca, unmixed.pfx, ?_⟩
    intro k found phase member
    rcases phases_set_cases member with ⟨rfl, entry⟩ | old
    · cases entry
      exact ⟨(unmixed.attempts k cert _ present).1, by simp⟩
    · exact unmixed.attempts k found phase old

theorem unmixed_run (apart : KindsApart original certs contents)
    (loaded : AllLoaded certs contents) {events : List Attempts.Event} {s : Attempts}
    (read : Reads contents events)
    (reached : Trace.run Attempts.step (.start original certs) events = some s) :
    Unmixed original certs contents s := by
  refine Trace.run_induction
    (P := fun seen s => Reads contents seen → Unmixed original certs contents s) ?_ ?_ reached read
  · intro _
    refine ⟨fun _ => rfl, fun _ => ⟨rfl, rfl⟩, ?_⟩
    intro i cert phase member
    simp only [Attempts.start, List.getElem?_map, Option.map_eq_some_iff, Prod.mk.injEq] at member
    obtain ⟨listed, present, rfl, rfl⟩ := member
    exact ⟨present, by simp⟩
  · intro seen before event after _ unmixed stepped read
    have readBefore : Reads contents seen :=
      fun i content member => read i content (List.mem_append_left _ member)
    refine unmixed_step apart loaded (unmixed readBefore) ?_ stepped
    intro i content equal
    exact read i content (by simp [equal])

theorem step_read {s : Attempts} {i : Nat} {cert : Cert} (content : Option Utf8.Bytes)
    (reading : s.phases[i]? = some (cert, .reading)) :
    s.step (.readCompleted i content) =
      some { request := s.request.loadCert cert content
             phases := s.phases.set i
               (cert, .exchanging (tls (s.request.loadCert cert content))) } := by
  simp [Attempts.step, reading]

theorem start_phase (original : Request) {i : Nat} {cert : Cert} (listed : certs[i]? = some cert) :
    (Attempts.start original certs).phases[i]? = some (cert, .reading) := by
  simp [Attempts.start, listed]

/-- One read: the exchange starts with the certificate loaded alone. -/
theorem run_one_read (original : Request) (contents : Nat → Option Utf8.Bytes) {i : Nat}
    {cert : Cert} (listed : certs[i]? = some cert) :
    ∃ s, Trace.run Attempts.step (.start original certs) [.readCompleted i (contents i)] = some s ∧
      s.phases[i]? = some (cert, .exchanging (alone original cert (contents i))) := by
  have reading := start_phase original listed
  have bound := (List.getElem?_eq_some_iff.mp reading).1
  have read := Trace.run_then (Trace.run_nil (.start original certs))
    (step_read (contents i) reading)
  exact ⟨_, read, List.getElem?_set_self bound⟩

/-- Two reads: the second exchange starts with what both of them loaded. -/
theorem run_two_reads (original : Request) (contents : Nat → Option Utf8.Bytes) {i j : Nat}
    {own other : Cert} (different : j ≠ i)
    (listed : certs[i]? = some own) (before : certs[j]? = some other) :
    ∃ s, Trace.run Attempts.step (.start original certs)
        [.readCompleted j (contents j), .readCompleted i (contents i)] = some s ∧
      s.phases[i]? = some (own, .exchanging
        (tls ((original.loadCert other (contents j)).loadCert own (contents i)))) := by
  have reading := start_phase original listed
  have bound := (List.getElem?_eq_some_iff.mp reading).1
  have first := Trace.run_then (Trace.run_nil (.start original certs))
    (step_read (contents j) (start_phase original before))
  have still_reading : ((Attempts.start original certs).phases.set j
      (other, .exchanging (tls (original.loadCert other (contents j)))))[i]? =
      some (own, .reading) := by
    rw [List.getElem?_set_ne different, reading]
  have second := Trace.run_then first (step_read (contents i) still_reading)
  refine ⟨_, second, ?_⟩
  rw [List.getElem?_set_self (by simpa using bound)]
  rfl

section
variable (attributed : Attributed original certs contents)
include attributed

/-- An attempt alone succeeds, and its certificate is cached. -/
theorem allLoaded_of_attributed : AllLoaded certs contents := by
  intro i cert listed
  obtain ⟨s, started, exchanging⟩ := run_one_read original contents listed
  have read : Reads contents [.readCompleted i (contents i)] := by
    intro attempt content member
    simp only [List.mem_singleton, Attempts.Event.readCompleted.injEq] at member
    obtain ⟨rfl, rfl⟩ := member
    rfl
  have added : s.adds (.exchangeEnded i true) = some cert := by
    simp [Attempts.adds, exchanging]
  obtain ⟨k, used, event, present, presents⟩ := attributed.cached _ s _ cert read started added
  cases event
  rw [exchanging] at present
  cases present
  exact (presents_alone_iff original cert (contents i)).mp presents

/-- The exchange that starts second shows what the first certificate brought. -/
theorem kindsApart_of_attributed : KindsApart original certs contents := by
  intro i j own other listed before kinds
  have supported := (allLoaded_of_attributed attributed i own listed).1
  have different : j ≠ i := by
    intro same
    subst same
    rw [listed] at before
    cases before
    exact kinds rfl
  obtain ⟨s, reached, exchanging⟩ :=
    run_two_reads original contents different listed before
  have read : Reads contents
      [.readCompleted j (contents j), .readCompleted i (contents i)] := by
    intro attempt content member
    simp only [List.mem_cons, List.not_mem_nil, or_false,
      Attempts.Event.readCompleted.injEq] at member
    rcases member with ⟨rfl, rfl⟩ | ⟨rfl, rfl⟩ <;> rfl
  have material := attributed.started _ s read reached i own _ exchanging
  unfold BringsNothing
  unfold alone Request.loadCert at material
  cases first : Request.certKind own.path <;> cases second : Request.certKind other.path
  all_goals simp_all [tls]

end

variable (original certs contents)

/-- Attribution survives every interleaving exactly when certificates of different
kinds bring nothing new and each certificate was really loaded. -/
theorem credentials_attributed_iff :
    Attributed original certs contents ↔
      KindsApart original certs contents ∧ AllLoaded certs contents := by
  constructor
  · intro attributed
    exact ⟨kindsApart_of_attributed attributed, allLoaded_of_attributed attributed⟩
  · intro condition
    obtain ⟨apart, loaded⟩ := condition
    constructor
    · intro events s read reached i cert material exchanging
      exact ((unmixed_run apart loaded read reached).attempts i cert _ exchanging).2 material rfl
    · intro events s event cert read reached added
      obtain ⟨i, material, rfl, exchanging⟩ := Attempts.adds_eq_some added
      obtain ⟨listed, own⟩ := (unmixed_run apart loaded read reached).attempts i cert _ exchanging
      refine ⟨i, material, rfl, exchanging, ?_⟩
      rw [own material rfl]
      exact (presents_alone_iff original cert (contents i)).mpr (loaded i cert listed)

end

def clientStore : Cert :=
  { path := "client.pfx", hostname := "*", passphrase := some "secret", port := none }

def rootCert : Cert :=
  { path := "root.pem", hostname := "*", passphrase := none, port := none }

/-- The exchange for `root.pem` starts with the key store of the attempt before it. -/
theorem root_started_with_client_store :
    ¬ Attributed (.ofUrl "https://example.com/") [clientStore, rootCert]
      (fun i => some [UInt8.ofNat i]) := by
  intro attributed
  have material := attributed.started
    [.readCompleted 0 (some [0]), .readCompleted 1 (some [1])] _ (by
        intro i content member
        simp only [List.mem_cons, List.not_mem_nil, or_false,
          Attempts.Event.readCompleted.injEq] at member
        rcases member with ⟨rfl, rfl⟩ | ⟨rfl, rfl⟩ <;> rfl) rfl 1 rootCert _ rfl
  exact absurd (congrArg TlsMaterial.pfx material) (by decide)

end BrightCli.Guarantees.CredentialAttribution
