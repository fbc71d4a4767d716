import BrightCli.Lib.Base64
import BrightCli.Source.Http.Executor

/-!
# Body and headers of a response

What the executor passes on of a response. The body is cut at one of two limits,
kept in different units, and the headers are adjusted to what was kept:
`truncation_faithful` states how the kept bytes, the `content-length` and the text
that is returned fit together, for every body, header map and configuration.

The headers themselves come from libcurl under the names the target chose, and
are stored under the lower-cased ones. Storing is by assignment to an object that
also skips the key of the status record, so a value can be overwritten by that
of a later spelling, taken for the status record or swallowed by the accessor of
the prototype; `header_values_kept_iff` shows that nothing else is ever lost.
-/
namespace BrightCli.Guarantees.ResponseFidelity
open BrightCli.Lib BrightCli.Lib.Js BrightCli.Source BrightCli.Source.Http

section Truncation

variable (platform : Platform) (options : RequestExecutorOptions) (request : Request)
  (body : Utf8.Bytes) (headers : Headers)

/-- The declared content type; a response without one is taken for plain bytes. -/
def declared : Value :=
  ((headers.get? "content-type").filter Value.truthy).getD (.str "application/octet-stream")

/-- The media type of the response, by the package that reads content types. -/
def mediaType : String := (platform.safeParse (declared headers)).type

/-- The declared charset if there is a decoder for it. -/
def charset : String :=
  ((platform.safeParse (declared headers)).charset.filter fun name =>
    name ≠ "" && platform.encodingExists name).getD "utf-8"

/-- A whitelist entry covers the media type of the response. -/
def covers (mime : WhitelistMimeType) : Bool := mime.type.isPrefixOf (mediaType platform headers)

/-- The limit in bytes. The one for other types is given in kibibytes. -/
def byteLimit (bodyLimit contentLimit : Nat) (requestLimit : Option Nat) : Nat :=
  if options.whitelistMimes.any (covers platform headers) then bodyLimit
  else requestLimit.getD contentLimit * 1024

/-- The bytes of a body that are kept, by the limit in bytes. -/
def keptBytes (limit : Nat) (first : Option WhitelistMimeType) : Utf8.Bytes :=
  if body.length ≤ limit then body
  else if first.all (·.allowTruncation.getD false) then body.take limit
  else []

def returnedHeaders (kept : Utf8.Bytes) : Headers :=
  (if request.decompress then headers.delete "content-encoding" else headers).assign
    "content-length" (.str (toString kept.length))

/-- What the executor takes from the declared content type. -/
theorem parseContentType_eq :
    parseContentType platform headers = (mediaType platform headers, charset platform headers) := by
  have header : (if ((headers.get? "content-type").getD .undefined).truthy then
      (headers.get? "content-type").getD .undefined else .str "application/octet-stream") =
        declared headers := by
    unfold declared
    cases headers.get? "content-type" with
    | none => rfl
    | some value => cases truth : value.truthy <;> simp [Option.filter_some, truth]
  unfold parseContentType
  dsimp only
  rw [header, mediaType, charset]
  cases (platform.safeParse (declared headers)).charset with
  | none => rfl
  | some name =>
    dsimp only
    rw [Option.filter_some]
    by_cases usable : name ≠ "" ∧ platform.encodingExists name = true
    · rw [if_pos usable, if_pos (by simpa using usable)]
      rfl
    · rw [if_neg usable, if_neg (by simpa using usable)]
      rfl

variable {options request}

/-- Both limits are natural numbers, so the comparison is one of natural numbers. -/
theorem maxSize_eq_ok {bodyLimit contentLimit : Nat} {requestLimit : Option Nat}
    (maxBody : options.maxBodySize = some bodyLimit)
    (maxContent : options.maxContentLength = some contentLimit)
    (maxRequest : request.maxContentSize = (requestLimit.map fun n : Nat => Value.num n).getD .undefined) :
    maxSize platform options request (options.whitelistMimes.find? (covers platform headers)) =
      .ok (some (byteLimit platform options headers bodyLimit contentLimit requestLimit : Int)) := by
  unfold maxSize byteLimit
  cases found : options.whitelistMimes.find? (covers platform headers) with
  | some mime =>
    have listed : options.whitelistMimes.any (covers platform headers) = true :=
      List.any_eq_true.mpr ⟨mime, List.mem_of_find?_eq_some found, List.find?_some found⟩
    rw [if_pos listed, maxBody]
    rfl
  | none =>
    have unlisted : ¬ options.whitelistMimes.any (covers platform headers) = true := by
      rw [List.any_eq_true]
      rintro ⟨mime, member, covered⟩
      exact List.find?_eq_none.mp found mime member covered
    rw [if_neg unlisted, maxContent, maxRequest]
    cases requestLimit with
    | none => simp [Value.orElse, toNumber]; rfl
    | some n => simp [Value.orElse, toNumber]; rfl

theorem truncateBody_eq (limit : Nat) (allowTruncation : Bool) :
    (if (limit : Int) < body.length then truncateBody body limit allowTruncation else body) =
      if body.length ≤ limit then body else if allowTruncation then body.take limit else [] := by
  by_cases fits : body.length ≤ limit
  · rw [if_neg (by omega), if_pos fits]
  · have natural : ¬ (limit : Int) < 0 := by omega
    rw [if_pos (by omega), if_neg fits, truncateBody, subarray, if_neg natural, Int.toNat_natCast]

theorem truncateResponse_eq {limit : Nat}
    (size : maxSize platform options request
      (options.whitelistMimes.find? (covers platform headers)) = .ok (some (limit : Int))) :
    truncateResponse platform options request body headers =
      (platform.iconvDecode
        (keptBytes body limit (options.whitelistMimes.find? (covers platform headers)))
        (request.encoding.orElse (.str (charset platform headers)))).map fun text =>
          (text, returnedHeaders request headers
            (keptBytes body limit (options.whitelistMimes.find? (covers platform headers)))) := by
  unfold truncateResponse
  dsimp only
  rw [parseContentType_eq, show (options.whitelistMimes.find? fun mime =>
    mime.type.isPrefixOf (mediaType platform headers)) =
      options.whitelistMimes.find? (covers platform headers) from rfl, size]
  simp only [bind, Except.bind]
  rw [truncateBody_eq, keptBytes, returnedHeaders]
  cases options.whitelistMimes.find? (covers platform headers) with
  | none => rfl
  | some mime => rfl

theorem get?_returnedHeaders (kept : Utf8.Bytes) (name : String) (own : name ≠ "content-length") :
    (returnedHeaders request headers kept).get? name =
      if request.decompress ∧ name = "content-encoding" then none else headers.get? name := by
  unfold returnedHeaders PropertyMap.assign
  rw [if_neg (by decide), PropertyMap.get?_set, if_neg own]
  by_cases decoded : request.decompress = true
  · rw [if_pos decoded, PropertyMap.get?_delete]
    simp [decoded]
  · rw [if_neg decoded, if_neg fun both => decoded both.1]

theorem returnedHeaders_length (kept : Utf8.Bytes) :
    (returnedHeaders request headers kept).get? "content-length" =
      some (.str (toString kept.length)) := by
  unfold returnedHeaders PropertyMap.assign
  rw [if_neg (by decide), PropertyMap.get?_set, if_pos rfl]

/-- The kept bytes are the body, or a part of it by the policy of the first
matching whitelist entry; the headers and the returned text are about them. -/
theorem truncation_faithful (platform : Platform) (options : RequestExecutorOptions)
    (request : Request) (body : Utf8.Bytes) (headers : Headers) (bodyLimit contentLimit : Nat)
    (requestLimit : Option Nat) (maxBody : options.maxBodySize = some bodyLimit)
    (maxContent : options.maxContentLength = some contentLimit)
    (maxRequest : request.maxContentSize = (requestLimit.map fun n : Nat => Value.num n).getD .undefined)
    (encodes : ∀ bytes, platform.iconvDecode bytes (.str "base64") = .ok (Base64.encode bytes)) :
    let limit := byteLimit platform options headers bodyLimit contentLimit requestLimit
    ∃ kept returned,
      truncateResponse platform options request body headers =
        (platform.iconvDecode kept
          (request.encoding.orElse (.str (charset platform headers)))).map
            (fun text => (text, returned)) ∧
      (body.length ≤ limit → kept = body) ∧
      (limit < body.length →
        kept = match options.whitelistMimes.find? (covers platform headers) with
          | some mime => if mime.allowTruncation.getD false then body.take limit else []
          | none => body.take limit) ∧
      returned.get? "content-length" = some (.str (toString kept.length)) ∧
      returned.get? "content-encoding" =
        (if request.decompress then none else headers.get? "content-encoding") ∧
      (∀ name, name ≠ "content-length" → name ≠ "content-encoding" →
        returned.get? name = headers.get? name) ∧
      (request.encoding = .str "base64" → ∃ text,
        truncateResponse platform options request body headers = .ok (text, returned) ∧
        ∀ base64 : Base64.Decoder, base64.decode text = kept) := by
  intro limit
  have size := maxSize_eq_ok platform headers maxBody maxContent maxRequest
  have result := truncateResponse_eq platform body headers size
  refine ⟨_, _, result, ?_, ?_, returnedHeaders_length headers _, ?_, ?_, ?_⟩
  · intro fits
    rw [keptBytes, if_pos fits]
  · intro exceeds
    rw [keptBytes, if_neg (by omega)]
    cases options.whitelistMimes.find? (covers platform headers) with
    | none => rfl
    | some mime => rfl
  · rw [get?_returnedHeaders headers _ _ (by decide)]
    simp
  · intro name notLength notEncoding
    rw [get?_returnedHeaders headers _ _ notLength, if_neg fun both => notEncoding both.2]
  · intro kind
    rw [kind, Value.orElse, if_neg (by decide), encodes] at result
    exact ⟨_, result, fun base64 => base64.inverts _⟩

/-- A platform whose decoder writes base64. -/
def base64Platform : Platform :=
  { Platform.ascii with
    iconvDecode := fun bytes _ => .ok (Base64.encode bytes)
    iconvDecode_throws := fun bytes _ => .ok (Base64.encode bytes) }

def pageOptions : RequestExecutorOptions :=
  { World.plain.options with
    whitelistMimes := [{ type := "text/", allowTruncation := some true }]
    maxBodySize := some 2
    maxContentLength := some 1 }

def pageRequest : Request := { Request.ofUrl "http://a.test/" with encoding := .str "base64" }

def pageHeaders : Headers :=
  .ofNames [("content-type", .str "text/html"), ("content-encoding", .str "gzip")] (by decide)
    (by decide)

/-- Three bytes of a whitelisted type, one more than allowed. -/
theorem page_cut_to_two :
    ∃ returned text,
      truncateResponse base64Platform pageOptions pageRequest [104, 105, 33] pageHeaders =
        .ok (text, returned) ∧
      Base64.Decoder.skipping.decode text = [104, 105] ∧
      returned.get? "content-length" = some (.str "2") ∧
      returned.get? "content-encoding" = none := by
  obtain ⟨kept, returned, -, -, exceeds, length, encoding, -, decoded⟩ :=
    truncation_faithful base64Platform pageOptions pageRequest [104, 105, 33] pageHeaders 2 1 none
      rfl rfl rfl fun _ => rfl
  have limit : byteLimit base64Platform pageOptions pageHeaders 2 1 none = 2 := by
    decide +kernel
  have first : pageOptions.whitelistMimes.find? (covers base64Platform pageHeaders) =
      some { type := "text/", allowTruncation := some true } := by decide +kernel
  obtain ⟨text, result, inverse⟩ := decoded rfl
  rw [limit, first] at exceeds
  have two : kept = [104, 105] := exceeds (by decide)
  rw [two] at length inverse
  exact ⟨returned, text, result, inverse _, length, encoding⟩

end Truncation

section ResponseHeaders

variable (platform : Platform)

/-- The received headers that are stored under the lower-cased name, in order. -/
def storedUnder (received : Headers) (name : String) : List (String × Value) :=
  received.entries.filter fun entry =>
    entry.1 ≠ "result" ∧ toLowerCase platform entry.1 = name

/-- Every value of every received header is found under its lower-cased name. -/
def KeepsAll (received returned : Headers) : Prop :=
  ∀ entry ∈ received.entries, ∀ value ∈ headerValues entry.2,
    ∃ stored, returned.get? (toLowerCase platform entry.1) = some stored ∧
      value ∈ headerValues stored

variable {platform}

/-- The last of the headers that share a lower-cased name is the one returned. -/
theorem get?_parseCurlHeaders {received : Headers} {info : List (String × Value)}
    (reads : (info.filter fun entry => entry.1 ≠ "result") =
      received.entries.filter fun entry => entry.1 ≠ "result")
    (earlier : List (List (String × Value))) (name : String) :
    (parseCurlHeaders platform (earlier ++ [info])).get? name =
      if name = "__proto__" then none
      else (storedUnder platform received name).getLast?.map Prod.snd := by
  have folded : parseCurlHeaders platform (earlier ++ [info]) =
      ((received.entries.filter fun entry => entry.1 ≠ "result").map fun entry =>
        (toLowerCase platform entry.1, entry.2)).foldl
          (fun acc entry => acc.assign entry.1 entry.2) PropertyMap.empty := by
    rw [parseCurlHeaders, List.getLast?_concat, Option.getD_some, reads, List.foldl_map]
  rw [folded]
  split
  · rename_i accessor
    rw [accessor, PropertyMap.get?_foldl_assign_proto]
    rfl
  · rename_i ownKey
    rw [PropertyMap.get?_foldl_assign _ _ _ ownKey, List.filter_map, List.getLast?_map,
      List.filter_filter, Option.map_map, storedUnder]
    simp [PropertyMap.get?, PropertyMap.empty, Function.comp_def, Bool.and_comm]

/-- A header value is returned exactly when its name is not the accessor of the
prototype and the last header of that lower-cased name, the status record's key
apart, still has the value. -/
theorem header_values_kept_iff (platform : Platform) (received : Headers)
    (info : List (String × Value))
    (reads : (info.filter fun entry => entry.1 ≠ "result") =
      received.entries.filter fun entry => entry.1 ≠ "result")
    (earlier : List (List (String × Value))) :
    KeepsAll platform received (parseCurlHeaders platform (earlier ++ [info])) ↔
      ∀ entry ∈ received.entries, ∀ value ∈ headerValues entry.2,
        toLowerCase platform entry.1 ≠ "__proto__" ∧
        ∃ last, (storedUnder platform received (toLowerCase platform entry.1)).getLast? = some last ∧
          value ∈ headerValues last.2 := by
  unfold KeepsAll
  refine forall₂_congr fun entry _ => forall₂_congr fun value _ => ?_
  rw [get?_parseCurlHeaders reads]
  constructor
  · rintro ⟨stored, found, member⟩
    split at found
    · cases found
    · rename_i ownKey
      obtain ⟨last, isLast, rfl⟩ := Option.map_eq_some_iff.mp found
      exact ⟨ownKey, last, isLast, member⟩
  · rintro ⟨ownKey, last, isLast, member⟩
    rw [if_neg ownKey, isLast]
    exact ⟨last.2, rfl, member⟩

def separateHeaders : Headers :=
  .ofNames [("Set-Cookie", .str "a=1"), ("Server", .str "b")] (by decide) (by decide)

theorem separate_names_kept :
    KeepsAll .ascii separateHeaders
      (parseCurlHeaders .ascii [("result", .num 200) :: separateHeaders.entries]) := by
  refine (header_values_kept_iff .ascii separateHeaders _ (by rfl) []).mpr ?_
  intro entry member value held
  have alone : storedUnder .ascii separateHeaders (toLowerCase .ascii entry.1) = [entry] := by
    rcases List.mem_pair.mp member with rfl | rfl <;> rfl
  refine ⟨?_, entry, by rw [alone]; rfl, held⟩
  rcases List.mem_pair.mp member with rfl | rfl <;> decide

def spelledTwice : Headers :=
  .ofNames [("Set-Cookie", .str "a=1"), ("set-cookie", .str "b=2")] (by decide) (by decide)

/-- The cookie that was sent under another spelling is gone. -/
theorem spelling_loses_cookie :
    ("Set-Cookie", .str "a=1") ∈ spelledTwice.entries ∧
    (parseCurlHeaders .ascii [("result", .num 200) :: spelledTwice.entries]).get? "set-cookie" =
      some (.str "b=2") ∧
    ¬ KeepsAll .ascii spelledTwice
      (parseCurlHeaders .ascii [("result", .num 200) :: spelledTwice.entries]) := by
  have returned : (parseCurlHeaders .ascii [("result", .num 200) :: spelledTwice.entries]).get?
      "set-cookie" = some (.str "b=2") := by
    have reads : ((("result", .num 200) :: spelledTwice.entries).filter fun entry =>
        entry.1 ≠ "result") = spelledTwice.entries.filter fun entry => entry.1 ≠ "result" := by rfl
    exact (get?_parseCurlHeaders reads [] "set-cookie").trans rfl
  have sent : ("Set-Cookie", .str "a=1") ∈ spelledTwice.entries := by simp [spelledTwice,
    PropertyMap.ofNames]
  refine ⟨sent, returned, ?_⟩
  intro keeps
  obtain ⟨stored, found, member⟩ := keeps _ sent (.str "a=1") (by simp [headerValues])
  rw [show toLowerCase .ascii "Set-Cookie" = "set-cookie" by decide, returned] at found
  cases found
  simp [headerValues] at member

end ResponseHeaders

end BrightCli.Guarantees.ResponseFidelity
