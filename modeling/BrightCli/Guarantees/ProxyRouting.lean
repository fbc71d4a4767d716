import BrightCli.Source.Proxy

/-!
# Routing of HTTP and of WebSocket targets

`resolveProxy` asks the lists of domains before it selects the proxy; the
WebSocket executor does not know the lists, and looks for `https` where the
schemes of its targets are `ws` and `wss`. So once a proxy is configured every
target goes through it, by the agent for plain HTTP. That is what the HTTP
executor and the factory would choose exactly for the hosts the lists select,
and for `wss` when the proxy is a SOCKS proxy, whose agents are one.
-/
namespace BrightCli.Guarantees.ProxyRouting
open BrightCli.Lib BrightCli.Lib.Js BrightCli.Source BrightCli.Source.Http BrightCli.Source.Proxy

def wsUrl (secure : Bool) (host : String) : String := (if secure then "wss://" else "ws://") ++ host

def httpUrl (secure : Bool) (host : String) : String :=
  (if secure then "https://" else "http://") ++ host

/-- Both URL parsers accept the host; `url.parse` may spell it differently, as it does with upper
case and with brackets. -/
structure Target (platform : Platform) (host hostname : String) : Prop where
  http : ∀ secure, ∃ url, platform.legacyParseUrl (httpUrl secure host) = .ok url ∧
    url.hostname = hostname
  ws : ∀ secure, ∃ url, platform.parseUrl (wsUrl secure host) = some url ∧
    url.protocol = if secure then "wss:" else "ws:"

/-- `resolveProxy` selects this proxy for the corresponding HTTP target. -/
def Selects (platform : Platform) (options : RequestExecutorOptions) (secure : Bool)
    (host proxyUrl : String) : Prop :=
  proxyUrl ≠ "" ∧
    resolveProxy platform options (Request.ofUrl (httpUrl secure host)) = .ok (some proxyUrl)

structure RoutedAlike (platform : Platform) (options : RequestExecutorOptions)
    (executor : WsRequestExecutor) (secure : Bool) (host : String) : Prop where
  proxied : (executor.agent (Request.ofUrl (wsUrl secure host))).isSome ↔
    ∃ proxyUrl, Selects platform options secure host proxyUrl
  agent : ∀ proxyUrl, Selects platform options secure host proxyUrl →
    ∃ agent, executor.agent (Request.ofUrl (wsUrl secure host)) = some agent ∧
      DefaultProxyFactory.createProxyForClient platform { proxyUrl } (wsUrl secure host) = .ok agent

/-- The lists of domains leave the host to the proxy. -/
def selected (options : RequestExecutorOptions) (hostname : String) : Bool :=
  !(options.proxyDomains.any fun domains => !hostMatches domains hostname) &&
    !(options.proxyDomainsBypass.any fun domains => hostMatches domains hostname)

def Proxied (options : RequestExecutorOptions) : Prop := options.proxyUrl.getD "" ≠ ""

/-- The configured proxy speaks SOCKS. -/
def Socks (platform : Platform) (options : RequestExecutorOptions) : Prop :=
  ∃ url, platform.parseUrl (options.proxyUrl.getD "") = some url ∧ url.protocol ∈ socksProtocols

section
variable {platform : Platform} {options : RequestExecutorOptions} {executor : WsRequestExecutor}
  {host hostname : String}

theorem resolveProxy_eq (target : Target platform host hostname) (secure : Bool) :
    resolveProxy platform options (Request.ofUrl (httpUrl secure host)) =
      .ok (if selected options hostname then options.proxyUrl else none) := by
  obtain ⟨url, parses, spelled⟩ := target.http secure
  unfold resolveProxy selected
  simp only [Request.ofUrl, parses, Except.mapError, ok_bind, spelled]
  cases options.proxyDomains.any fun domains => !hostMatches domains hostname with
  | true => rfl
  | false =>
    cases options.proxyDomainsBypass.any fun domains => hostMatches domains hostname with
    | true => rfl
    | false => rfl

theorem selects_iff (target : Target platform host hostname) (secure : Bool) (proxyUrl : String) :
    Selects platform options secure host proxyUrl ↔
      selected options hostname = true ∧ proxyUrl ≠ "" ∧ options.proxyUrl = some proxyUrl := by
  unfold Selects
  rw [resolveProxy_eq target]
  cases selected options hostname with
  | true => simp
  | false => simp

/-- Neither `ws` nor `wss` is a secure endpoint. -/
theorem agent_eq (executor : WsRequestExecutor) (secure : Bool) (host : String) :
    executor.agent (Request.ofUrl (wsUrl secure host)) = executor.httpProxyAgent := by
  have insecure : secureEndpoint (Request.ofUrl (wsUrl secure host)) = false := by
    cases secure with
    | true => simp [secureEndpoint, Request.ofUrl, wsUrl, List.isPrefixOf]
    | false => simp [secureEndpoint, Request.ofUrl, wsUrl, List.isPrefixOf]
  simp [WsRequestExecutor.agent, insecure]

/-- What the constructor makes of a configured proxy. -/
theorem new_proxied {proxyUrl : String} (given : options.proxyUrl = some proxyUrl)
    (nonempty : proxyUrl ≠ "") (constructed : WsRequestExecutor.new platform options = .ok executor) :
    ∃ agents, DefaultProxyFactory.createProxy platform { proxyUrl } = .ok agents ∧
      executor = ⟨some agents.httpAgent, some agents.httpsAgent⟩ := by
  unfold WsRequestExecutor.new at constructed
  simp only [given, if_neg nonempty] at constructed
  obtain ⟨agents, created, done⟩ := bind_eq_ok_iff.mp constructed
  cases done
  exact ⟨agents, created, rfl⟩

theorem new_direct (none_given : ¬ Proxied options)
    (constructed : WsRequestExecutor.new platform options = .ok executor) :
    executor.httpProxyAgent = none := by
  unfold WsRequestExecutor.new at constructed
  unfold Proxied at none_given
  cases given : options.proxyUrl with
  | none =>
    rw [given] at constructed
    cases constructed
    rfl
  | some proxyUrl =>
    have empty : proxyUrl = "" := by simpa [given] using none_given
    simp only [given, if_pos empty] at constructed
    cases constructed
    rfl

theorem plain_not_socks {protocol : String} (plain : protocol = "http:" ∨ protocol = "https:") :
    protocol ∉ socksProtocols := by
  rcases plain with rfl | rfl
  · decide
  · decide

/-- The two agents of a proxy are one exactly when it speaks SOCKS. -/
theorem agents_eq_iff {proxyUrl : String} {agents : Agents}
    (created : DefaultProxyFactory.createProxy platform { proxyUrl } = .ok agents) :
    agents.httpsAgent = agents.httpAgent ↔
      ∃ url, platform.parseUrl proxyUrl = some url ∧ url.protocol ∈ socksProtocols := by
  unfold DefaultProxyFactory.createProxy at created
  dsimp only at created
  split at created
  · cases created
  · rename_i url parses
    split at created
    · rename_i plain
      cases created
      refine iff_of_false (by simp [DefaultProxyFactory.createHttpProxy]) ?_
      rintro ⟨other, parsed, socks⟩
      rw [parses] at parsed
      cases parsed
      exact plain_not_socks plain socks
    · split at created
      · rename_i socks
        cases created
        exact iff_of_true rfl ⟨url, parses, socks⟩
      · cases created

theorem createProxyForClient_eq (target : Target platform host hostname) (secure : Bool)
    {proxyUrl : String} {agents : Agents}
    (created : DefaultProxyFactory.createProxy platform { proxyUrl } = .ok agents) :
    DefaultProxyFactory.createProxyForClient platform { proxyUrl } (wsUrl secure host) =
      .ok (if secure then agents.httpsAgent else agents.httpAgent) := by
  obtain ⟨url, parses, protocol⟩ := target.ws secure
  unfold DefaultProxyFactory.createProxyForClient
  rw [created, ok_bind]
  simp only [parses]
  cases secure with
  | true => simp [protocol]
  | false => simp [protocol]

/-- Without a proxy both kinds of target are connected to directly. -/
theorem routed_alike_direct (target : Target platform host hostname) (secure : Bool)
    (direct : ¬ Proxied options)
    (constructed : WsRequestExecutor.new platform options = .ok executor) :
    RoutedAlike platform options executor secure host := by
  have no_agent := new_direct direct constructed
  have none_selected : ∀ proxyUrl, ¬ Selects platform options secure host proxyUrl := by
    intro proxyUrl selects
    obtain ⟨_, nonempty, given⟩ := (selects_iff target secure proxyUrl).mp selects
    exact direct (by simpa [Proxied, given] using nonempty)
  constructor
  · refine iff_of_false (by simp [agent_eq, no_agent]) ?_
    rintro ⟨proxyUrl, selects⟩
    exact none_selected proxyUrl selects
  · intro proxyUrl selects
    exact absurd selects (none_selected proxyUrl)

/-- With a proxy every WebSocket target gets the agent for plain HTTP. -/
theorem routed_alike_proxied_iff (target : Target platform host hostname) (secure : Bool)
    {proxyUrl : String} {agents : Agents} (given : options.proxyUrl = some proxyUrl) (nonempty : proxyUrl ≠ "")
    (created : DefaultProxyFactory.createProxy platform { proxyUrl } = .ok agents) :
    RoutedAlike platform options ⟨some agents.httpAgent, some agents.httpsAgent⟩ secure host ↔
      selected options hostname = true ∧ (secure = true → agents.httpsAgent = agents.httpAgent) := by
  have chosen := createProxyForClient_eq target secure created
  have only : ∀ other, Selects platform options secure host other → other = proxyUrl := by
    intro other selects
    have same := ((selects_iff target secure other).mp selects).2.2
    rw [given] at same
    cases same
    rfl
  constructor
  · intro alike
    obtain ⟨other, selects⟩ := alike.proxied.mp (by simp [agent_eq])
    obtain ⟨agent, used, client⟩ := alike.agent other selects
    rw [only other selects, chosen] at client
    rw [agent_eq] at used
    cases used
    injection client with client
    refine ⟨((selects_iff target secure other).mp selects).1, fun wss => ?_⟩
    rwa [if_pos wss] at client
  · rintro ⟨listed, same_agent⟩
    have selects := (selects_iff target secure proxyUrl).mpr ⟨listed, nonempty, given⟩
    refine ⟨iff_of_true (by simp [agent_eq]) ⟨proxyUrl, selects⟩, ?_⟩
    intro other other_selects
    refine ⟨agents.httpAgent, by rw [agent_eq], ?_⟩
    rw [only other other_selects, chosen]
    cases secure with
    | true => rw [if_pos rfl, same_agent rfl]
    | false => rfl

end

/-- A WebSocket target is routed like the HTTP target of the same host exactly
when no proxy is configured, or the lists of domains select the host as `url.parse`
spells it and, for `wss`, the proxy speaks SOCKS. -/
theorem routed_alike_iff (platform : Platform) (options : RequestExecutorOptions)
    (executor : WsRequestExecutor) (secure : Bool) (host hostname : String)
    (target : Target platform host hostname)
    (constructed : WsRequestExecutor.new platform options = .ok executor) :
    RoutedAlike platform options executor secure host ↔
      (Proxied options → selected options hostname = true ∧
        (secure = true → Socks platform options)) := by
  by_cases configured : Proxied options
  · obtain ⟨proxyUrl, given⟩ : ∃ proxyUrl, options.proxyUrl = some proxyUrl := by
      cases given : options.proxyUrl with
      | none => simp [Proxied, given] at configured
      | some proxyUrl => exact ⟨proxyUrl, rfl⟩
    have nonempty : proxyUrl ≠ "" := by simpa [Proxied, given] using configured
    obtain ⟨agents, created, rfl⟩ := new_proxied given nonempty constructed
    have socks_iff : agents.httpsAgent = agents.httpAgent ↔ Socks platform options := by
      rw [agents_eq_iff created, Socks, given]
      rfl
    rw [routed_alike_proxied_iff target secure given nonempty created, socks_iff]
    exact ⟨fun alike _ => alike, fun condition => condition configured⟩
  · refine iff_of_true (routed_alike_direct target secure configured constructed) ?_
    intro proxied
    exact absurd proxied configured

/-- The platform of the examples, with a legacy parser that knows hosts and spells them in lower
case. -/
def hosts : Platform :=
  { Platform.ascii with
    legacyParseUrl := fun text =>
      match Platform.ascii.parseUrl text with
      | some url =>
        let hostname := String.ofList (url.hostname.toList.map Char.toLower)
        .ok { protocol := url.protocol, host := hostname, hostname, auth := none }
      | none => .ok { protocol := "", host := "", hostname := "", auth := none } }

theorem target_example : Target hosts "a.test" "a.test" where
  http secure := by cases secure <;> exact ⟨_, rfl, by decide⟩
  ws secure := by cases secure <;> exact ⟨_, rfl, by decide⟩

/-- A proxy for one domain only. -/
def domainProxy (proxyUrl domain : String) : RequestExecutorOptions :=
  { timeout := none, proxyUrl := some proxyUrl, headers := none
    headers_plain := plain_of_no_headers
    certs := none, whitelistMimes := []
    maxBodySize := none, maxContentLength := none, reuseConnection := false
    proxyDomains := some [domain], proxyDomainsBypass := none, kerberos := none }

theorem respelled_example : Target hosts "A.Test" "a.test" where
  http secure := by cases secure <;> exact ⟨_, rfl, by decide⟩
  ws secure := by cases secure <;> exact ⟨_, rfl, by decide⟩

theorem routed_alike_through_socks :
    RoutedAlike hosts (domainProxy "socks5://p:1080" "*.test")
      ⟨some (.socksProxy "socks5://p:1080"), some (.socksProxy "socks5://p:1080")⟩ true "A.Test" :=
  (routed_alike_iff hosts (domainProxy "socks5://p:1080" "*.test") _ true "A.Test" "a.test"
    respelled_example (by decide)).mpr fun _ => ⟨by decide, fun _ => ⟨_, rfl, by decide⟩⟩

/-- A host outside the listed domain goes through the proxy all the same, and a
`wss` target of a listed host gets the agent for plain HTTP. -/
theorem domains_ignored :
    ∃ executor, WsRequestExecutor.new hosts (domainProxy "http://p:8080" "*.internal") = .ok executor ∧
      WsRequestExecutor.new hosts (domainProxy "http://p:8080" "*.test") = .ok executor ∧
      ¬ RoutedAlike hosts (domainProxy "http://p:8080" "*.internal") executor false "a.test" ∧
      ¬ RoutedAlike hosts (domainProxy "http://p:8080" "*.test") executor true "a.test" := by
  refine ⟨⟨some (.httpProxy "http://p:8080" false), some (.patchedHttpsProxy "http://p:8080" false)⟩,
    by decide, by decide, ?_, ?_⟩
  · intro alike
    obtain ⟨proxyUrl, selects⟩ := alike.proxied.mp rfl
    have outside := ((selects_iff target_example false proxyUrl).mp selects).1
    revert outside
    decide
  · intro alike
    obtain ⟨agent, used, client⟩ := alike.agent "http://p:8080"
      ((selects_iff target_example true _).mpr ⟨by decide, by decide, rfl⟩)
    cases used
    revert client
    decide

end BrightCli.Guarantees.ProxyRouting
