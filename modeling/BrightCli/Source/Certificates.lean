import BrightCli.Lib.InsertionMap
import BrightCli.Lib.Trace
import BrightCli.Source.Request

/-!
# Client certificates

Source: `src/RequestExecutor/DefaultCertificatesCache.ts`,
`src/RequestExecutor/DefaultCertificatesResolver.ts`, and
`tryRequestWithCertificates` of the HTTP and the WebSocket executor, which are
the same code over one shared cache.

`tryRequestWithCertificates` starts one attempt for each certificate and all of
them work on one `Request` object. From the completion of its read on an attempt
loads the certificate and configures the exchange without waiting for anything
outside the process, so no other attempt comes between the two. Its life is two
events: its file was read, with which the certificate is loaded and the exchange
starts with the material the request holds then, and the exchange ended.
`Executors` puts any number of such calls beside the cache.
-/
namespace BrightCli.Source.Certificates
open BrightCli.Lib BrightCli.Lib.Js

abbrev Cache := InsertionMap String Cert

namespace DefaultCertificatesCache

def certificateCacheKey (url : Helpers.Url) : String :=
  url.hostname ++ "_" ++ Helpers.portFromURL url

/-- `none` where the URL constructor throws. -/
def certificateCacheKeyFromRequest (platform : Platform) (request : Request) : Option String :=
  (platform.parseUrl request.url).map certificateCacheKey

def add (platform : Platform) (cache : Cache) (request : Request) (cert : Cert) : Option Cache := do
  let key ← certificateCacheKeyFromRequest platform request
  if cache.has key then some cache else some (cache.set key cert)

def get (platform : Platform) (cache : Cache) (request : Request) : Option (Option Cert) := do
  let key ← certificateCacheKeyFromRequest platform request
  some (cache.get? key)

end DefaultCertificatesCache

namespace DefaultCertificatesResolver

def matchHostnameAndPort (hostname port : String) (cert : Cert) : Bool :=
  (cert.hostname == hostname || Helpers.wildcardMatches cert.hostname hostname) &&
    match cert.port with
    | none => true
    | some own => own == "" || own == port

/-- The filter behind the cache. -/
def eligible (url : Helpers.Url) (registeredCerts : List Cert) : List Cert :=
  registeredCerts.filter (matchHostnameAndPort url.hostname (Helpers.portFromURL url))

def resolve (platform : Platform) (cache : Cache) (request : Request)
    (registeredCerts : List Cert) : Option (List Cert) := do
  match ← DefaultCertificatesCache.get platform cache request with
  | some cached => some [cached]
  | none =>
    let requestUrl ← platform.parseUrl request.url
    some (eligible requestUrl registeredCerts)

end DefaultCertificatesResolver

/-- What an exchange reads of the request when it is configured. -/
structure TlsMaterial where
  ca : Option Utf8.Bytes
  pfx : Option Utf8.Bytes
  passphrase : Value

def tls (request : Request) : TlsMaterial :=
  { ca := request.ca, pfx := request.pfx, passphrase := request.passphrase }

inductive Phase where
  | reading
  | exchanging (material : TlsMaterial)
  | settled

/-- One call of `tryRequestWithCertificates`. -/
structure Attempts where
  request : Request
  phases : List (Cert × Phase)

namespace Attempts

def start (request : Request) (certs : List Cert) : Attempts :=
  { request, phases := certs.map fun cert => (cert, .reading) }

inductive Event where
  | readCompleted (attempt : Nat) (content : Option Utf8.Bytes)
  | exchangeEnded (attempt : Nat) (succeeded : Bool)
  deriving DecidableEq, Repr

def step (s : Attempts) : Event → Option Attempts
  | .readCompleted i content =>
    match s.phases[i]? with
    | some (cert, .reading) =>
      let request := s.request.loadCert cert content
      some { request, phases := s.phases.set i (cert, .exchanging (tls request)) }
    | _ => none
  | .exchangeEnded i _ =>
    match s.phases[i]? with
    | some (cert, .exchanging _) => some { s with phases := s.phases.set i (cert, .settled) }
    | _ => none

/-- The certificate for which the step calls `certificatesCache.add`. -/
def adds (s : Attempts) : Event → Option Cert
  | .exchangeEnded i true =>
    match s.phases[i]? with
    | some (cert, .exchanging _) => some cert
    | _ => none
  | _ => none

/-- Everything a step of an attempt can do. -/
theorem step_cases {s next : Attempts} {e : Event} (stepped : s.step e = some next) :
    (∃ i content cert, e = .readCompleted i content ∧ s.phases[i]? = some (cert, .reading) ∧
      next = { request := s.request.loadCert cert content
               phases := s.phases.set i
                 (cert, .exchanging (tls (s.request.loadCert cert content))) }) ∨
    (∃ i succeeded cert material, e = .exchangeEnded i succeeded ∧
      s.phases[i]? = some (cert, .exchanging material) ∧
      next = { s with phases := s.phases.set i (cert, .settled) }) := by
  cases e with
  | readCompleted i content =>
    simp only [step] at stepped
    split at stepped
    · rename_i cert present
      cases stepped
      exact Or.inl ⟨i, content, cert, rfl, present, rfl⟩
    · cases stepped
  | exchangeEnded i succeeded =>
    simp only [step] at stepped
    split at stepped
    · rename_i cert material present
      cases stepped
      exact Or.inr ⟨i, succeeded, cert, material, rfl, present, rfl⟩
    · cases stepped

theorem adds_eq_some {s : Attempts} {e : Event} {cert : Cert} (added : s.adds e = some cert) :
    ∃ i material, e = .exchangeEnded i true ∧ s.phases[i]? = some (cert, .exchanging material) := by
  unfold adds at added
  split at added
  · rename_i i
    split at added
    · rename_i present
      cases added
      exact ⟨i, _, rfl, present⟩
    · cases added
  · cases added

theorem loadCert_url (request : Request) (cert : Cert) (content : Option Utf8.Bytes) :
    (request.loadCert cert content).url = request.url := by
  unfold Request.loadCert
  split <;> rfl

/-- An attempt changes neither the target nor the certificates of its call. -/
theorem step_frame {s next : Attempts} {e : Event} (stepped : s.step e = some next) :
    next.request.url = s.request.url ∧ next.phases.map Prod.fst = s.phases.map Prod.fst := by
  have certs_set : ∀ i cert before after, s.phases[i]? = some (cert, before) →
      (s.phases.set i (cert, after)).map Prod.fst = s.phases.map Prod.fst := by
    intro i cert before after present
    have unchanged : (s.phases.map Prod.fst)[i]? = some cert := by simp [present]
    obtain ⟨bound, same⟩ := List.getElem?_eq_some_iff.mp unchanged
    rw [List.map_set, ← same]
    exact List.set_getElem_self bound
  obtain ⟨i, content, cert, -, present, rfl⟩ | ⟨i, succeeded, cert, material, -, present, rfl⟩ :=
    step_cases stepped
  · exact ⟨loadCert_url _ _ _, certs_set _ _ _ _ present⟩
  · exact ⟨rfl, certs_set _ _ _ _ present⟩

end Attempts

/-- Both executors at work: the cache they share and the calls of
`tryRequestWithCertificates` made so far. -/
structure Executors where
  cache : Cache
  calls : List Attempts

namespace Executors

def init : Executors := { cache := .empty, calls := [] }

inductive Event where
  /-- `execute` of either executor reaches `resolve`, for HTTP with the request
  that the script returned. -/
  | resolved (request : Request)
  | attempt (call : Nat) (event : Attempts.Event)

/-- A `resolve` that throws, and one without a certificate, start no attempt. -/
def step (platform : Platform) (registeredCerts : List Cert) (s : Executors) :
    Event → Option Executors
  | .resolved request =>
    match DefaultCertificatesResolver.resolve platform s.cache request registeredCerts with
    | none => some s
    | some [] => some s
    | some certs => some { s with calls := s.calls ++ [Attempts.start request certs] }
  | .attempt call event => do
    let before ← s.calls[call]?
    let after ← before.step event
    let calls := s.calls.set call after
    match before.adds event with
    | none => some { s with calls }
    | some cert =>
      -- The key is computed before anything is written, so a throw writes nothing.
      let cache := (DefaultCertificatesCache.add platform s.cache before.request cert).getD s.cache
      some { cache, calls }

end Executors

end BrightCli.Source.Certificates
