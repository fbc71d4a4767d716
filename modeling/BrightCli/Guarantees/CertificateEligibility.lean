import BrightCli.Source.Certificates

/-!
# The certificate cache and the certificates of a host

A cached certificate was offered for some URL with the same key, hence with the
same host name and port, so it passes the filter for every URL of that key. The
key determines both parts because a port has no underscore in it: host names
may contain underscores, and the last one is the separator.
-/
namespace BrightCli.Guarantees.CertificateEligibility
open BrightCli.Lib BrightCli.Source BrightCli.Source.Certificates

/-- The URL parser returns a port that is empty or all digits. -/
def PortsAreNumbers (platform : Platform) : Prop :=
  ∀ text url, platform.parseUrl text = some url → url.port.toList.all Char.isDigit = true

theorem portFromURL_no_underscore (url : Helpers.Url)
    (digits : url.port.toList.all Char.isDigit = true) :
    '_' ∉ (Helpers.portFromURL url).toList := by
  unfold Helpers.portFromURL
  split
  · intro member
    exact absurd (List.all_eq_true.mp digits '_' member) (by decide)
  · split
    · decide
    · split <;> decide

theorem append_separator_inj {α : Type} {separator : α} {left₁ left₂ right₁ right₂ : List α}
    (absent₁ : separator ∉ right₁) (absent₂ : separator ∉ right₂)
    (same : left₁ ++ separator :: right₁ = left₂ ++ separator :: right₂) :
    left₁ = left₂ ∧ right₁ = right₂ := by
  rw [List.append_eq_append_iff] at same
  obtain ⟨middle, rfl, tail⟩ | ⟨middle, rfl, tail⟩ := same
  · cases middle with
    | nil => exact ⟨by simp, by simpa using tail⟩
    | cons head rest =>
      simp only [List.cons_append, List.cons.injEq] at tail
      exact absurd (tail.2 ▸ by simp) absent₁
  · cases middle with
    | nil => exact ⟨by simp, by simpa using tail.symm⟩
    | cons head rest =>
      simp only [List.cons_append, List.cons.injEq] at tail
      exact absurd (tail.2 ▸ by simp) absent₂

/-- The key tells host name and port apart. -/
theorem certificateCacheKey_injective (first second : Helpers.Url)
    (digits₁ : first.port.toList.all Char.isDigit = true)
    (digits₂ : second.port.toList.all Char.isDigit = true)
    (same : DefaultCertificatesCache.certificateCacheKey first =
      DefaultCertificatesCache.certificateCacheKey second) :
    first.hostname = second.hostname ∧ Helpers.portFromURL first = Helpers.portFromURL second := by
  have texts := congrArg String.toList same
  simp only [DefaultCertificatesCache.certificateCacheKey, String.toList_append] at texts
  have parts := append_separator_inj (portFromURL_no_underscore first digits₁)
    (portFromURL_no_underscore second digits₂) (by simpa using texts)
  exact ⟨String.toList_injective parts.1, String.toList_injective parts.2⟩

section
variable (platform : Platform) (registeredCerts : List Cert)

/-- Every binding of the cache and every running attempt uses a certificate
that is eligible for its URL. -/
structure Sound (s : Executors) : Prop where
  cached : ∀ key cert, s.cache.get? key = some cert →
    ∃ text url, platform.parseUrl text = some url ∧
      DefaultCertificatesCache.certificateCacheKey url = key ∧
      cert ∈ DefaultCertificatesResolver.eligible url registeredCerts
  attempted : ∀ call ∈ s.calls, ∃ url, platform.parseUrl call.request.url = some url ∧
    ∀ cert ∈ call.phases.map Prod.fst, cert ∈ DefaultCertificatesResolver.eligible url registeredCerts

theorem add_eq (cache : Cache) (request : Request) (cert : Cert) (url : Helpers.Url)
    (parsed : platform.parseUrl request.url = some url) :
    DefaultCertificatesCache.add platform cache request cert =
      if cache.has (DefaultCertificatesCache.certificateCacheKey url) then some cache
      else some (cache.set (DefaultCertificatesCache.certificateCacheKey url) cert) := by
  simp [DefaultCertificatesCache.add, DefaultCertificatesCache.certificateCacheKeyFromRequest, parsed]

/-- A bound key keeps its certificate, and at most the request's key is bound. -/
theorem get?_after_add (cache : Cache) (request : Request) (cert : Cert) (key : String)
    (found : Cert) :
    (cache.get? key = some found →
      ((DefaultCertificatesCache.add platform cache request cert).getD cache).get? key =
        some found) ∧
    (((DefaultCertificatesCache.add platform cache request cert).getD cache).get? key =
        some found →
      cache.get? key = some found ∨
        ∃ url, platform.parseUrl request.url = some url ∧
          DefaultCertificatesCache.certificateCacheKey url = key ∧ found = cert) := by
  cases parsed : platform.parseUrl request.url with
  | none =>
    have thrown : DefaultCertificatesCache.add platform cache request cert = none := by
      simp [DefaultCertificatesCache.add, DefaultCertificatesCache.certificateCacheKeyFromRequest,
        parsed]
    rw [thrown]
    exact ⟨id, Or.inl⟩
  | some url =>
    rw [add_eq platform cache request cert url parsed]
    split
    · exact ⟨id, Or.inl⟩
    · rename_i unbound
      have absent : DefaultCertificatesCache.certificateCacheKey url ∉ cache.keys :=
        fun member => unbound ((InsertionMap.has_iff cache _).mpr member)
      rw [Option.getD_some, InsertionMap.get?_set_of_absent cache _ key cert absent]
      split
      · rename_i equal
        constructor
        · intro bound
          have member := InsertionMap.key_mem_of_get? cache key found bound
          exact absurd (equal ▸ List.mem_map_of_mem member) absent
        · intro bound
          exact Or.inr ⟨url, rfl, equal, (Option.some.inj bound).symm⟩
      · exact ⟨id, Or.inl⟩

/-- The cache only ever narrows the filter down. -/
theorem resolve_of_sound (numbers : PortsAreNumbers platform) (s : Executors)
    (sound : Sound platform registeredCerts s) (request : Request) (url : Helpers.Url)
    (parsed : platform.parseUrl request.url = some url) :
    ∃ certs, DefaultCertificatesResolver.resolve platform s.cache request registeredCerts =
        some certs ∧
      certs.Sublist (DefaultCertificatesResolver.eligible url registeredCerts) := by
  have lookup : DefaultCertificatesCache.get platform s.cache request =
      some (s.cache.get? (DefaultCertificatesCache.certificateCacheKey url)) := by
    simp [DefaultCertificatesCache.get, DefaultCertificatesCache.certificateCacheKeyFromRequest,
      parsed]
  unfold DefaultCertificatesResolver.resolve
  rw [lookup]
  cases bound : s.cache.get? (DefaultCertificatesCache.certificateCacheKey url) with
  | none => exact ⟨_, by simp [parsed], List.Sublist.refl _⟩
  | some cert =>
    refine ⟨[cert], rfl, List.singleton_sublist.mpr ?_⟩
    obtain ⟨text, other, otherParsed, sameKey, member⟩ := sound.cached _ cert bound
    obtain ⟨sameHost, samePort⟩ := certificateCacheKey_injective other url
      (numbers _ _ otherParsed) (numbers _ _ parsed) sameKey
    unfold DefaultCertificatesResolver.eligible at member ⊢
    rwa [sameHost, samePort] at member

theorem sound_of_resolved (numbers : PortsAreNumbers platform) (s next : Executors)
    (request : Request) (sound : Sound platform registeredCerts s)
    (stepped : Executors.step platform registeredCerts s (.resolved request) = some next) :
    Sound platform registeredCerts next := by
  simp only [Executors.step] at stepped
  split at stepped
  · cases stepped
    exact sound
  · cases stepped
    exact sound
  · rename_i certs nonempty resolved
    cases stepped
    refine ⟨sound.cached, ?_⟩
    intro call member
    rcases List.mem_append.mp member with old | new
    · exact sound.attempted call old
    · rw [List.mem_singleton] at new
      subst new
      cases parsed : platform.parseUrl request.url with
      | none =>
        simp [DefaultCertificatesResolver.resolve, DefaultCertificatesCache.get,
          DefaultCertificatesCache.certificateCacheKeyFromRequest, parsed] at resolved
      | some url =>
        obtain ⟨offered, same, sublist⟩ :=
          resolve_of_sound platform registeredCerts numbers s sound request url parsed
        rw [resolved] at same
        cases same
        refine ⟨url, parsed, fun cert offer => sublist.subset ?_⟩
        simpa [Attempts.start] using offer

/-- What one step of an attempt does to the two executors. -/
theorem attempt_cases {s next : Executors} {call : Nat} {event : Attempts.Event}
    (stepped : Executors.step platform registeredCerts s (.attempt call event) = some next) :
    ∃ before after, s.calls[call]? = some before ∧ before.step event = some after ∧
      next.calls = s.calls.set call after ∧
      (next.cache = s.cache ∨ ∃ cert ∈ before.phases.map Prod.fst,
        next.cache =
          (DefaultCertificatesCache.add platform s.cache before.request cert).getD s.cache) := by
  simp only [Executors.step, Option.bind_eq_bind] at stepped
  obtain ⟨before, present, stepped⟩ := Option.bind_eq_some_iff.mp stepped
  obtain ⟨after, advanced, stepped⟩ := Option.bind_eq_some_iff.mp stepped
  refine ⟨before, after, present, advanced, ?_⟩
  split at stepped
  · cases stepped
    exact ⟨rfl, Or.inl rfl⟩
  · rename_i cert added
    cases stepped
    obtain ⟨i, material, -, attempt⟩ := Attempts.adds_eq_some added
    exact ⟨rfl, Or.inr ⟨cert, List.mem_map_of_mem (List.mem_of_getElem? attempt), rfl⟩⟩

theorem sound_of_attempt (s next : Executors) (call : Nat) (event : Attempts.Event)
    (sound : Sound platform registeredCerts s)
    (stepped : Executors.step platform registeredCerts s (.attempt call event) = some next) :
    Sound platform registeredCerts next := by
  obtain ⟨before, after, present, advanced, calls, cache⟩ :=
    attempt_cases platform registeredCerts stepped
  obtain ⟨url, parsed, offered⟩ := sound.attempted before (List.mem_of_getElem? present)
  constructor
  · intro key cert bound
    obtain unchanged | ⟨added, member, updated⟩ := cache
    · exact sound.cached key cert (unchanged ▸ bound)
    · rw [updated] at bound
      rcases (get?_after_add platform s.cache before.request added key cert).2 bound with
        old | ⟨target, targetParsed, sameKey, rfl⟩
      · exact sound.cached key cert old
      · rw [parsed] at targetParsed
        cases targetParsed
        exact ⟨before.request.url, url, parsed, sameKey, offered cert member⟩
  · intro running member
    rw [calls] at member
    rcases List.mem_or_eq_of_mem_set member with old | rfl
    · exact sound.attempted running old
    · obtain ⟨sameUrl, sameCerts⟩ := Attempts.step_frame advanced
      rw [sameUrl, sameCerts]
      exact ⟨url, parsed, offered⟩

theorem sound_of_run (numbers : PortsAreNumbers platform) (events : List Executors.Event)
    (s : Executors)
    (reached : Trace.run (Executors.step platform registeredCerts) .init events = some s) :
    Sound platform registeredCerts s := by
  refine Trace.run_invariant ?_ ?_ reached
  · exact ⟨by simp [Executors.init, InsertionMap.get?], by simp [Executors.init]⟩
  · intro before event after sound stepped
    cases event with
    | resolved request =>
      exact sound_of_resolved platform registeredCerts numbers before after request sound stepped
    | attempt call event =>
      exact sound_of_attempt platform registeredCerts before after call event sound stepped

theorem binding_kept (s next : Executors) (event : Executors.Event)
    (stepped : Executors.step platform registeredCerts s event = some next) (key : String)
    (cert : Cert) (bound : s.cache.get? key = some cert) : next.cache.get? key = some cert := by
  cases event with
  | resolved request =>
    simp only [Executors.step] at stepped
    split at stepped <;> cases stepped <;> exact bound
  | attempt call event =>
    obtain ⟨before, after, -, -, -, unchanged | ⟨added, -, updated⟩⟩ :=
      attempt_cases platform registeredCerts stepped
    · exact unchanged ▸ bound
    · exact updated ▸ (get?_after_add platform s.cache before.request added key cert).1 bound

end

/-- In every state the two executors reach, the resolver returns a sublist of
what the filter alone would return, and a bound key stays bound as it is. -/
theorem resolved_certificates_eligible (platform : Platform) (numbers : PortsAreNumbers platform)
    (registeredCerts : List Cert) (events : List Executors.Event) (s : Executors)
    (reached : Trace.run (Executors.step platform registeredCerts) .init events = some s) :
    (∀ request url, platform.parseUrl request.url = some url →
      ∃ certs, DefaultCertificatesResolver.resolve platform s.cache request registeredCerts =
          some certs ∧
        certs.Sublist (DefaultCertificatesResolver.eligible url registeredCerts)) ∧
    ∀ later next, Trace.run (Executors.step platform registeredCerts) s later = some next →
      ∀ key cert, s.cache.get? key = some cert → next.cache.get? key = some cert := by
  constructor
  · intro request url parsed
    exact resolve_of_sound platform registeredCerts numbers s
      (sound_of_run platform registeredCerts numbers events s reached) request url parsed
  · intro later next continued key cert bound
    refine Trace.run_invariant (P := fun s => s.cache.get? key = some cert) bound ?_ continued
    intro before event after kept stepped
    exact binding_kept platform registeredCerts before after event stepped key cert kept

/-- The parser of `Platform.ascii` returns digits only. -/
theorem ascii_ports : PortsAreNumbers .ascii := by
  intro text url parsed
  simp only [Platform.ascii] at parsed
  split at parsed
  · split at parsed
    · cases parsed
    · cases parsed
      simp
  · cases parsed

def wildcardCert : Cert :=
  { path := "client.pfx", hostname := "*.example.com", passphrase := some "secret", port := none }

/-- One certificate attempt for a host with an underscore, carried to its end. -/
def cachingRun : List Executors.Event :=
  [.resolved (.ofUrl "https://a_b.example.com/"), .attempt 0 (.readCompleted 0 (some [1])),
    .attempt 0 (.exchangeEnded 0 true)]

theorem underscore_host_resolved : ∃ s,
    Trace.run (Executors.step .ascii [wildcardCert]) .init cachingRun = some s ∧
    s.cache.get? "a_b.example.com_443" = some wildcardCert ∧
    ∃ certs, DefaultCertificatesResolver.resolve .ascii s.cache (.ofUrl "https://a_b.example.com:443/x")
        [wildcardCert] = some certs ∧
      certs.Sublist [wildcardCert] := by
  refine ⟨_, rfl, by decide, ?_⟩
  exact (resolved_certificates_eligible .ascii ascii_ports [wildcardCert] cachingRun _ rfl).1
    (.ofUrl "https://a_b.example.com:443/x") _ rfl

end BrightCli.Guarantees.CertificateEligibility
