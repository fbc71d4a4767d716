import BrightCli.Guarantees.WildcardGlob
import BrightCli.Source.Certificates

/-!
# Certificates for the port of the connection

A certificate may be restricted to a port. The resolver compares it with the port
of the URL, which is empty where the URL names none or the default of its scheme,
and then fills in the default for two schemes of four. The WebSocket executor uses
the same resolver, so a certificate restricted to the default port is not found
for a `ws` or `wss` target that names no port.
-/
namespace BrightCli.Guarantees.CertificateSelection
open BrightCli.Lib BrightCli.Lib.Glob BrightCli.Source BrightCli.Source.Certificates
  BrightCli.Source.Helpers

def schemes : List String := ["http:", "https:", "ws:", "wss:"]

def defaultPort (protocol : String) : String := if protocol ∈ ["http:", "ws:"] then "80" else "443"

/-- The port that a connection to the URL uses. -/
def effectivePort (url : Url) : String :=
  if url.port ≠ "" then url.port else defaultPort url.protocol

/-- The certificates for a URL: the pattern matches its host, and the port is unset
or that of the connection. -/
def selected (url : Url) (registeredCerts : List Cert) : List Cert :=
  registeredCerts.filter fun cert =>
    wildcardMatches cert.hostname url.hostname &&
      (cert.port.getD "" = "" || cert.port = some (effectivePort url))

/-- The code leaves the port of this URL open where the connection has one. -/
def Unported (url : Url) : Prop := url.port = "" ∧ url.protocol ∈ ["ws:", "wss:"]

/-- A pattern matches the host that is spelled like it, stars included. -/
theorem wildcardMatches_self (s : String) : wildcardMatches s s = true := by
  obtain ⟨first, pieces, shape⟩ := List.exists_cons_of_ne_nil (splitStars_ne_nil s.toList)
  obtain ⟨⟨parts, own, woven, runs⟩, -, -⟩ :=
    (WildcardGlob.splitStars_eq_iff _ _ _).mp shape
  rw [WildcardGlob.wildcardMatches_iff s s first pieces shape]
  refine ⟨parts, own, woven, ?_⟩
  intro part member c inside
  rw [(runs part member).2 c inside]
  decide

/-- The comparison with the host itself adds nothing to the pattern. -/
theorem matchHostnameAndPort_eq (hostname port : String) (cert : Cert) :
    DefaultCertificatesResolver.matchHostnameAndPort hostname port cert =
      (wildcardMatches cert.hostname hostname &&
        (cert.port.getD "" = "" || cert.port = some port)) := by
  have pattern : (cert.hostname == hostname || wildcardMatches cert.hostname hostname) =
      wildcardMatches cert.hostname hostname := by
    by_cases same : cert.hostname = hostname
    · simp [same, wildcardMatches_self]
    · simp [same]
  unfold DefaultCertificatesResolver.matchHostnameAndPort
  rw [pattern]
  cases cert.port with
  | none => simp
  | some own => simp [beq_eq_decide]

theorem portFromURL_of_unported {url : Url} (unported : Unported url) : portFromURL url = "" := by
  obtain ⟨open_port, websocket⟩ := unported
  simp only [List.mem_cons, List.not_mem_nil, or_false] at websocket
  rcases websocket with scheme | scheme <;> simp [portFromURL, open_port, scheme]

theorem portFromURL_of_ported {url : Url} (scheme : url.protocol ∈ schemes)
    (ported : ¬ Unported url) : portFromURL url = effectivePort url := by
  unfold portFromURL effectivePort
  by_cases named : url.port = ""
  · have http : url.protocol = "http:" ∨ url.protocol = "https:" := by
      simp only [schemes, List.mem_cons, List.not_mem_nil, or_false] at scheme
      simp only [Unported, named, List.mem_cons, List.not_mem_nil, or_false, true_and] at ported
      tauto
    rcases http with plain | secure
    · simp [named, plain, defaultPort]
    · simp [named, secure, defaultPort]
  · simp [named]

theorem resolve_of_empty (platform : Platform) (cache : Cache) (empty : cache.entries = [])
    (request : Request) (registeredCerts : List Cert) (url : Url)
    (parsed : platform.parseUrl request.url = some url) :
    DefaultCertificatesResolver.resolve platform cache request registeredCerts =
      some (DefaultCertificatesResolver.eligible url registeredCerts) := by
  have missed : ∀ key, cache.get? key = none := by
    intro key
    simp [InsertionMap.get?, empty]
  simp [DefaultCertificatesResolver.resolve, DefaultCertificatesCache.get,
    DefaultCertificatesCache.certificateCacheKeyFromRequest, parsed, missed]

/-- Two selections of a list are the same when they agree on its elements. -/
theorem filter_eq_filter_iff {α : Type} (p q : α → Bool) (items : List α) :
    items.filter p = items.filter q ↔ ∀ item ∈ items, p item = q item := by
  constructor
  · intro same item member
    have both : item ∈ items.filter p ↔ item ∈ items.filter q := by rw [same]
    rw [List.mem_filter, List.mem_filter] at both
    rw [Bool.eq_iff_iff]
    simpa [member] using both
  · exact List.filter_congr

/-- With an empty cache the resolver selects the certificates for the port of the
connection, unless it leaves the port open and a certificate asks for it. -/
theorem selects_effective_port_iff (platform : Platform) (cache : Cache)
    (empty : cache.entries = []) (request : Request) (registeredCerts : List Cert) (url : Url)
    (parsed : platform.parseUrl request.url = some url) (scheme : url.protocol ∈ schemes) :
    DefaultCertificatesResolver.resolve platform cache request registeredCerts =
        some (selected url registeredCerts) ↔
      (Unported url → ∀ cert ∈ registeredCerts,
        wildcardMatches cert.hostname url.hostname = true →
          cert.port ≠ some (defaultPort url.protocol)) := by
  rw [resolve_of_empty platform cache empty request registeredCerts url parsed, Option.some.injEq,
    DefaultCertificatesResolver.eligible, selected, filter_eq_filter_iff]
  by_cases unported : Unported url
  · have effective : effectivePort url = defaultPort url.protocol := by
      simp [effectivePort, unported.1]
    have nonempty : defaultPort url.protocol ≠ "" := by
      unfold defaultPort
      split <;> decide
    simp only [unported, true_imp_iff]
    refine forall_congr' fun cert => imp_congr_right fun member => ?_
    rw [matchHostnameAndPort_eq, portFromURL_of_unported unported, effective]
    cases matching : wildcardMatches cert.hostname url.hostname with
    | false => simp
    | true =>
      cases own : cert.port with
      | none => simp
      | some port =>
        by_cases blank : port = ""
        · simp [blank, Ne.symm nonempty]
        · simp [blank]
  · simp only [unported, false_imp_iff, iff_true]
    intro cert _
    rw [matchHostnameAndPort_eq, portFromURL_of_ported scheme unported]

def portCert (port : String) : Cert :=
  { path := "a.pem", hostname := "a.test", passphrase := none, port := some port }

theorem https_selects_port :
    DefaultCertificatesResolver.resolve .ascii .empty (.ofUrl "https://a.test/") [portCert "443"] =
      some (selected ⟨"https:", "a.test", ""⟩ [portCert "443"]) := by
  have parsed : Platform.ascii.parseUrl (Request.ofUrl "https://a.test/").url =
      some ⟨"https:", "a.test", ""⟩ := by decide
  refine (selects_effective_port_iff .ascii .empty rfl (.ofUrl "https://a.test/") [portCert "443"] _
    parsed (by decide)).mpr ?_
  intro unported
  revert unported
  simp [Unported]

/-- The certificate for port 443 is not found for `wss`. -/
theorem wss_port_missed :
    DefaultCertificatesResolver.resolve .ascii .empty (.ofUrl "wss://a.test/") [portCert "443"] =
        some [] ∧
      selected ⟨"wss:", "a.test", ""⟩ [portCert "443"] = [portCert "443"] ∧
      Platform.ascii.parseUrl "wss://a.test/" = some ⟨"wss:", "a.test", ""⟩ := by
  decide

end BrightCli.Guarantees.CertificateSelection
