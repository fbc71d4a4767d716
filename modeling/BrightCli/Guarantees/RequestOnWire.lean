import BrightCli.Lib.Base64
import BrightCli.Source.Http.Curl

/-!
# Target and body of a request

libcurl is told the target of a request and its body as texts. The target is cut
out of the URL by position, so that payloads reach the server as they are:
`request_target_verbatim` shows that nothing of it is lost or changed. The body
goes through a buffer, which is turned into text with its length kept aside; this
is faithful for text, and for decoded base64 exactly when the bytes happen to be
well-formed UTF-8 (`body_posted_iff`). `configureCurl_parts` places both, and the
headers, in the handle that is performed.
-/
namespace BrightCli.Guarantees.RequestOnWire
open BrightCli.Lib BrightCli.Lib.Js BrightCli.Source BrightCli.Source.Http

/-- What an option of the handle is about. -/
inductive Part where
  | target
  | body
  | timeout
  | headers
  | rest
  deriving DecidableEq, Repr

def part : CurlOption → Part
  | .requestTarget _ => .target
  | .postFields _ => .body
  | .postFieldSize _ => .body
  | .timeoutMs _ => .timeout
  | .userAgent _ => .headers
  | .acceptEncoding _ => .headers
  | .httpHeader _ => .headers
  | _ => .rest

theorem setOpts_eq_ok {setOpt : CurlOption → Except JsError Unit} (options : List CurlOption)
    {set handle : List CurlOption} (done : setOpts setOpt set options = .ok handle) :
    handle = set ++ options := by
  induction options generalizing set with
  | nil =>
    cases done
    simp
  | cons option rest ih =>
    obtain ⟨_, -, done⟩ := bind_eq_ok_iff.mp done
    simpa using ih done

theorem part_applyCurlBody {platform : Platform} {request : Request} {body : List CurlOption}
    (made : applyCurlBody platform request = .ok body) : ∀ option ∈ body, part option = .body := by
  unfold applyCurlBody at made
  split at made
  · split at made
    · cases made
      simp
    · dsimp only at made
      rw [← apply_ite (· >>= _)] at made
      obtain ⟨buffer, -, made⟩ := bind_eq_ok_iff.mp made
      cases made
      simp [part]
  · cases made
    simp

theorem part_applyCurlTls (request : Request) :
    ∀ option ∈ applyCurlTls request, part option = .rest := by
  intro option member
  unfold applyCurlTls at member
  rcases List.mem_append.mp member with ca | pfx
  · split at ca
    · simp only [List.mem_singleton] at ca
      rw [ca]
      rfl
    · simp at ca
  · split at pfx
    · rcases List.mem_append.mp pfx with store | passphrase
      · simp only [List.mem_cons, List.not_mem_nil, or_false] at store
        rcases store with rfl | rfl <;> rfl
      · split at passphrase
        · simp only [List.mem_singleton] at passphrase
          rw [passphrase]
          rfl
        · simp at passphrase
    · simp at pfx

theorem part_applyCurlTimeout (options : RequestExecutorOptions) (request : Request) :
    ∀ option ∈ applyCurlTimeout options request, part option = .timeout := by
  intro option member
  unfold applyCurlTimeout at member
  split at member
  · simp only [List.mem_singleton] at member
    rw [member]
    rfl
  · simp at member

theorem part_applyCurlHeaders {platform : Platform} {options : RequestExecutorOptions}
    {request : Request} {headers : List CurlOption}
    (made : applyCurlHeaders platform options request = .ok headers) :
    ∀ option ∈ headers, part option = .headers := by
  obtain ⟨lines, -, made⟩ := bind_eq_ok_iff.mp made
  dsimp only at made
  rw [← apply_ite (· >>= _)] at made
  obtain ⟨kerberos, -, made⟩ := bind_eq_ok_iff.mp made
  cases made
  intro option member
  simp only [List.mem_append, List.mem_singleton, List.mem_ite_nil_left, List.mem_ite_nil_right]
    at member
  rcases member with (rfl | ⟨-, rfl⟩) | ⟨-, rfl⟩ <;> rfl

theorem part_applyCurlKerberos {platform : Platform} {options : RequestExecutorOptions}
    {request : Request} {kerberos : List CurlOption}
    (made : applyCurlKerberos platform options request = .ok kerberos) :
    ∀ option ∈ kerberos, part option = .rest := by
  obtain ⟨applies, -, made⟩ := bind_eq_ok_iff.mp made
  split at made
  · cases made
    intro option member
    rcases List.mem_append.mp member with auth | delegation
    · simp only [List.mem_cons, List.not_mem_nil, or_false] at auth
      rcases auth with rfl | rfl <;> rfl
    · split at delegation
      · simp only [List.mem_singleton] at delegation
        rw [delegation]
        rfl
      · simp at delegation
  · cases made
    simp

theorem filter_part (own wanted : Part) {options : List CurlOption}
    (all : ∀ option ∈ options, part option = own) :
    options.filter (part · = wanted) = if own = wanted then options else [] := by
  split
  · rename_i same
    rw [List.filter_eq_self]
    intro option member
    simp [all option member, same]
  · rename_i different
    rw [List.filter_eq_nil_iff]
    intro option member
    simp [all option member, different]

/-- The handle in the order of the calls. -/
theorem configureCurl_eq_ok {platform : Platform} {options : RequestExecutorOptions}
    {setOpt : CurlOption → Except JsError Unit} {request : Request} {handle : List CurlOption}
    (done : configureCurl platform options setOpt request = .ok handle) :
    ∃ front fixed body secured headers tail, applyCurlBody platform request = .ok body ∧
      applyCurlHeaders platform options request = .ok headers ∧
      (∀ option ∈ front, part option = .rest) ∧ (∀ option ∈ fixed, part option = .rest) ∧
      (∀ option ∈ secured, part option = .rest) ∧ (∀ option ∈ tail, part option = .rest) ∧
      handle = front ++ [.requestTarget (buildRawPath request.url)] ++ fixed ++ body ++ secured ++
        applyCurlTimeout options request ++ headers ++ tail := by
  obtain ⟨url, -, done⟩ := bind_eq_ok_iff.mp done
  obtain ⟨first, started, done⟩ := bind_eq_ok_iff.mp done
  obtain ⟨body, posted, done⟩ := bind_eq_ok_iff.mp done
  obtain ⟨second, filled, done⟩ := bind_eq_ok_iff.mp done
  obtain ⟨headers, listed, done⟩ := bind_eq_ok_iff.mp done
  obtain ⟨third, headed, done⟩ := bind_eq_ok_iff.mp done
  dsimp only at done
  rw [← apply_ite (· >>= _)] at done
  obtain ⟨reuse, -, done⟩ := bind_eq_ok_iff.mp done
  obtain ⟨fourth, pooled, done⟩ := bind_eq_ok_iff.mp done
  obtain ⟨kerberos, authorised, done⟩ := bind_eq_ok_iff.mp done
  obtain ⟨fifth, negotiated, done⟩ := bind_eq_ok_iff.mp done
  obtain ⟨proxyUrl, -, done⟩ := bind_eq_ok_iff.mp done
  have shape := setOpts_eq_ok _ done
  rw [setOpts_eq_ok _ negotiated, setOpts_eq_ok _ pooled, setOpts_eq_ok _ headed,
    setOpts_eq_ok _ filled, setOpts_eq_ok _ started] at shape
  obtain ⟨auth, pool, proxy, restAuth, restPool, restProxy, shape⟩ : ∃ auth pool proxy,
      (∀ option ∈ auth, part option = .rest) ∧ (∀ option ∈ pool, part option = .rest) ∧
      (∀ option ∈ proxy, part option = .rest) ∧
      handle = [] ++ ([.url (url.protocol ++ "//" ++ url.host)] ++ auth ++
        [.requestTarget (buildRawPath request.url), .pathAsIs true, .sslVerifyPeer false,
          .sslVerifyHost 0, .followLocation false]) ++
        (body ++ applyCurlTls request ++ applyCurlTimeout options request) ++ headers ++ pool ++
        kerberos ++ (proxy ++ [.customRequest request.method]) := by
    refine ⟨_, _, _, ?_, ?_, ?_, shape⟩
    · cases url.auth with
      | none => simp
      | some auth => by_cases blank : auth = "" <;> simp [blank, part]
    · cases reuse <;> simp [part]
    · cases proxyUrl with
      | none => simp
      | some proxy => by_cases blank : proxy = "" <;> simp [blank, part]
  refine ⟨.url (url.protocol ++ "//" ++ url.host) :: auth,
    [.pathAsIs true, .sslVerifyPeer false, .sslVerifyHost 0, .followLocation false], body,
    applyCurlTls request, headers, pool ++ kerberos ++ proxy ++ [.customRequest request.method],
    posted, listed, ?_, ?_, part_applyCurlTls request, ?_, ?_⟩
  · simpa [part] using restAuth
  · simp [part]
  · intro option member
    simp only [List.mem_append, List.mem_singleton] at member
    rcases member with ((early | middle) | late) | rfl
    · exact restPool option early
    · exact part_applyCurlKerberos authorised option middle
    · exact restProxy option late
    · rfl
  · rw [shape]
    simp only [List.nil_append, List.append_assoc, List.cons_append]

/-- A configured handle has one request target, the options of the body, the timeout and
the headers, each as its function made them, among options about other things. -/
theorem configureCurl_parts {platform : Platform} {options : RequestExecutorOptions}
    {setOpt : CurlOption → Except JsError Unit} {request : Request} {handle : List CurlOption}
    (done : configureCurl platform options setOpt request = .ok handle) :
    handle.filter (part · = .target) = [.requestTarget (buildRawPath request.url)] ∧
      applyCurlBody platform request = .ok (handle.filter (part · = .body)) ∧
      applyCurlHeaders platform options request = .ok (handle.filter (part · = .headers)) ∧
      applyCurlTimeout options request = handle.filter (part · = .timeout) := by
  obtain ⟨front, fixed, body, secured, headers, tail, posted, listed, restFront, restFixed,
    restSecured, restTail, rfl⟩ := configureCurl_eq_ok done
  have own := part_applyCurlBody posted
  have lines := part_applyCurlHeaders listed
  have waits := part_applyCurlTimeout options request
  simp only [List.filter_append, filter_part .rest _ restFront, filter_part .rest _ restFixed,
    filter_part .rest _ restSecured, filter_part .rest _ restTail, filter_part .body _ own,
    filter_part .headers _ lines, filter_part .timeout _ waits, posted, listed]
  simp [part]

section Target

/-- The characters that end an authority. -/
def Delimiter (c : Char) : Prop := c = '/' ∨ c = '?' ∨ c = '#'

/-- A URI scheme: a letter, then letters, digits, `+`, `-` and `.`. -/
structure SchemeName (scheme : String) : Prop where
  first : ∃ c rest, scheme.toList = c :: rest ∧ c.isAlpha = true
  others : ∀ c ∈ scheme.toList, c.isAlphanum = true ∨ c = '+' ∨ c = '-' ∨ c = '.'

/-- Path, query and fragment as a server expects them: a target starts with a slash. -/
def rawTarget (rest : String) : String :=
  if rest = "" then "/" else if rest.toList.head? = some '/' then rest else "/" ++ rest

theorem colon_not_mem_scheme {scheme : String} (named : SchemeName scheme) : ':' ∉ scheme.toList := by
  intro member
  have known := named.others ':' member
  revert known
  decide

/-- The search for `://` stops behind the first colon of the URL. -/
theorem afterSeparator_scheme (scheme rest : List Char) (free : ':' ∉ scheme) :
    buildRawPath.afterSeparator (scheme ++ ':' :: '/' :: '/' :: rest) = some rest := by
  induction scheme with
  | nil => rfl
  | cons c tail ih =>
    have other : c ≠ ':' := by
      intro same
      apply free
      simp [same]
    rw [List.cons_append, buildRawPath.afterSeparator]
    · exact ih fun member => free (by simp [member])
    · intro after same
      exact absurd same other

theorem dropWhile_authority (authority rest : List Char)
    (plain : ∀ c ∈ authority, ¬ Delimiter c) (starts : ∀ c, rest.head? = some c → Delimiter c) :
    (authority ++ rest).dropWhile (fun c => c ≠ '/' ∧ c ≠ '?' ∧ c ≠ '#') = rest := by
  have passed : ∀ c ∈ authority, decide (c ≠ '/' ∧ c ≠ '?' ∧ c ≠ '#') = true := by
    intro c member
    have ordinary := plain c member
    simp only [Delimiter, not_or] at ordinary
    simp [ordinary]
  rw [List.dropWhile_append_of_pos passed]
  cases rest with
  | nil => rfl
  | cons c tail => rcases starts c rfl with rfl | rfl | rfl <;> rfl

theorem buildRawPath_url (scheme authority rest : String) (named : SchemeName scheme)
    (plain : ∀ c ∈ authority.toList, ¬ Delimiter c)
    (starts : ∀ c, rest.toList.head? = some c → Delimiter c) :
    buildRawPath (scheme ++ "://" ++ authority ++ rest) = rawTarget rest := by
  have separated : buildRawPath.afterSeparator (scheme ++ "://" ++ authority ++ rest).toList =
      some (authority.toList ++ rest.toList) := by
    have found := afterSeparator_scheme scheme.toList (authority.toList ++ rest.toList)
      (colon_not_mem_scheme named)
    simpa using found
  have path := dropWhile_authority authority.toList rest.toList plain starts
  unfold buildRawPath rawTarget
  dsimp only
  rw [separated, Option.getD_some, path]
  cases shape : rest.toList with
  | nil =>
    have empty : rest = "" := String.toList_eq_nil_iff.mp shape
    simp [empty]
  | cons c tail =>
    have nonempty : rest ≠ "" := by
      rintro rfl
      simp at shape
    by_cases slash : c = '/'
    · subst slash
      have same : String.ofList ('/' :: tail) = rest := by rw [← shape, String.ofList_toList]
      simp [nonempty, same]
    · have same : String.ofList ('/' :: c :: tail) = "/" ++ rest := by
        rw [← shape]
        apply String.toList_inj.mp
        simp
      simp [nonempty, slash, same]

theorem rawTarget_whole (rest : String) :
    (rawTarget rest).toList.head? = some '/' ∧ rest.toList <:+ (rawTarget rest).toList := by
  unfold rawTarget
  split
  · rename_i empty
    simp [empty]
  · split
    · rename_i slash
      exact ⟨slash, List.suffix_refl _⟩
    · simp

/-- The target is what follows the authority, character by character, with a
slash in front where it has none of its own. -/
theorem request_target_verbatim (scheme authority rest : String) (named : SchemeName scheme)
    (plain : ∀ c ∈ authority.toList, ¬ Delimiter c)
    (starts : ∀ c, rest.toList.head? = some c → Delimiter c) :
    buildRawPath (scheme ++ "://" ++ authority ++ rest) = rawTarget rest ∧
      (rawTarget rest).toList.head? = some '/' ∧ rest.toList <:+ (rawTarget rest).toList := by
  have cut := buildRawPath_url scheme authority rest named plain starts
  exact ⟨cut, rawTarget_whole rest⟩

/-- A query without a path, with another URL in it. -/
theorem embedded_url_verbatim :
    buildRawPath "http://user:pw@a.test?next=http://b.test/x" = "/?next=http://b.test/x" := by
  have plain : "user:pw@a.test".toList.all (fun c => c ≠ '/' ∧ c ≠ '?' ∧ c ≠ '#') = true := by decide
  have named : "http".toList.all (fun c => c.isAlphanum) = true := by decide
  refine (request_target_verbatim "http" "user:pw@a.test" "?next=http://b.test/x"
    ⟨⟨'h', ['t', 't', 'p'], rfl, by decide⟩, ?_⟩ ?_ ?_).1
  · intro c member
    exact Or.inl (List.all_eq_true.mp named c member)
  · intro c member
    have ordinary := List.all_eq_true.mp plain c member
    simpa [Delimiter] using ordinary
  · intro c first
    cases first
    exact Or.inr (Or.inl rfl)

/-- What libcurl is told: one target, and nothing of the URL's own is missing. -/
theorem handle_target {platform : Platform} {options : RequestExecutorOptions}
    {setOpt : CurlOption → Except JsError Unit} {request : Request} {handle : List CurlOption}
    (done : configureCurl platform options setOpt request = .ok handle)
    {scheme authority rest : String} (url : request.url = scheme ++ "://" ++ authority ++ rest)
    (named : SchemeName scheme) (plain : ∀ c ∈ authority.toList, ¬ Delimiter c)
    (starts : ∀ c, rest.toList.head? = some c → Delimiter c) :
    handle.filter (part · = .target) = [.requestTarget (rawTarget rest)] := by
  rw [(configureCurl_parts done).1, url, buildRawPath_url scheme authority rest named plain starts]

end Target

section Body

/-- The text and the size that are handed over denote the bytes. -/
def Denotes (options : List CurlOption) (bytes : Utf8.Bytes) : Prop :=
  ∃ fields size, options = [.postFields fields, .postFieldSize size] ∧
    (Utf8.encode fields).length = size ∧ Utf8.encode fields = bytes

/-- The bytes a body stands for. -/
def intended (base64 : Base64.Decoder) (request : Request) (body : String) : Utf8.Bytes :=
  match request.encoding with
  | .undefined => Utf8.encode body
  | _ => base64.decode body

/-- What is handed over for a body that was put into a buffer. -/
theorem denotes_buffer_iff (buffer : Utf8.Bytes) :
    Denotes [.postFields (Utf8.decode buffer), .postFieldSize buffer.length] buffer ↔
      Utf8.Valid buffer := by
  rw [← Utf8.encode_decode_iff]
  constructor
  · rintro ⟨fields, size, same, -, encoded⟩
    cases same
    exact encoded
  · intro encoded
    exact ⟨_, _, rfl, by rw [encoded], encoded⟩

section
variable (platform : Platform) (base64 : Base64.Decoder)
  (reads : ∀ text, platform.iconvEncode text (.str "base64") = .ok (base64.decode text))
include reads

theorem applyCurlBody_eq (request : Request) (body : String) (given : request.body = .str body)
    (nonempty : body ≠ "")
    (kind : request.encoding = .undefined ∨ request.encoding = .str "base64") :
    applyCurlBody platform request =
      .ok [.postFields (Utf8.decode (intended base64 request body)),
        .postFieldSize (intended base64 request body).length] := by
  unfold applyCurlBody intended
  rw [given]
  rcases kind with absent | base
  · simp [absent, nonempty, Value.truthy, bind, Except.bind, pure, Except.pure]
  · simp [base, nonempty, Value.truthy, reads, bind, Except.bind, pure, Except.pure]

/-- A body is posted as the bytes it stands for exactly when it is text, or base64
of well-formed UTF-8. -/
theorem body_posted_iff (request : Request) (body : String) (given : request.body = .str body)
    (nonempty : body ≠ "")
    (kind : request.encoding = .undefined ∨ request.encoding = .str "base64") :
    (∃ options, applyCurlBody platform request = .ok options ∧
      Denotes options (intended base64 request body)) ↔
      (request.encoding = .str "base64" → Utf8.Valid (base64.decode body)) := by
  have computed := applyCurlBody_eq platform base64 reads request body given nonempty kind
  have valid_iff : (∃ options, applyCurlBody platform request = .ok options ∧
      Denotes options (intended base64 request body)) ↔ Utf8.Valid (intended base64 request body) := by
    rw [← denotes_buffer_iff, computed]
    constructor
    · rintro ⟨options, same, denotes⟩
      cases same
      exact denotes
    · intro denotes
      exact ⟨_, rfl, denotes⟩
  rw [valid_iff]
  rcases kind with absent | base
  · have text : Utf8.Valid (intended base64 request body) := ⟨body, by simp [intended, absent]⟩
    simp [text, absent]
  · have decoded : intended base64 request body = base64.decode body := by simp [intended, base]
    simp [decoded, base]

end

/-- A platform whose codec is base64. -/
def base64Platform : Platform :=
  { Platform.ascii with
    iconvEncode := fun text _ => .ok (Base64.Decoder.skipping.decode text)
    iconvEncode_throws := fun text _ => .ok (Base64.Decoder.skipping.decode text) }

def base64Request (body : String) : Request :=
  { Request.ofUrl "http://a.test/" with body := .str body, encoding := .str "base64" }

theorem text_in_base64_posted :
    ∃ options, applyCurlBody base64Platform (base64Request "aGk=") = .ok options ∧
      Denotes options (intended .skipping (base64Request "aGk=") "aGk=") :=
  (body_posted_iff base64Platform .skipping (fun _ => rfl) (base64Request "aGk=") "aGk=" rfl
    (by decide) (Or.inr rfl)).mpr fun _ => ⟨"hi", by decide⟩

theorem applyCurlBody_binary :
    applyCurlBody base64Platform (base64Request "/w==") =
      .ok [.postFields "\ufffd", .postFieldSize 1] := by
  have bytes : Base64.Decoder.skipping.decode "/w==" = [0xff] := by decide
  have replaced : Utf8.decode [0xff] = "\ufffd" := by decide
  have nonempty : ("/w==" : String) ≠ "" := by decide
  simp [applyCurlBody, base64Request, base64Platform, nonempty, Value.truthy, bytes, replaced, bind,
    Except.bind, pure, Except.pure]

/-- The byte `0xff` in base64: three bytes of text are announced as one. -/
theorem binary_body_replaced :
    intended .skipping (base64Request "/w==") "/w==" = [0xff] ∧
    ¬ ∃ options, applyCurlBody base64Platform (base64Request "/w==") = .ok options ∧
      Denotes options (intended .skipping (base64Request "/w==") "/w==") := by
  have bytes : intended .skipping (base64Request "/w==") "/w==" = [0xff] := by decide
  refine ⟨bytes, ?_⟩
  rintro ⟨options, posted, fields, size, shape, -, encoded⟩
  rw [applyCurlBody_binary] at posted
  cases posted
  cases shape
  rw [bytes] at encoded
  revert encoded
  decide

end Body

end BrightCli.Guarantees.RequestOnWire
