import BrightCli.Lib.Json
import BrightCli.Lib.Utf8

/-!
# The tokens of the wizard

Source: `src/Wizard/FSTokens.ts`, `requestTokens`, `process` and the second half of
`processExternalCommunication` of `src/Wizard/Readline/ReadlinePlatform.ts`, and `test` of
`src/Wizard/Connectivity/AuthConnectivity.ts`.

A session of the wizard asks for an identifier and a token, stores them in the home
directory, and then tests what is stored: the test reads the file again. What the user
answers, whether the file can be written, the address of the API and what it answers are
the session's data; the pattern of a token and `resolve` of `node:url`, which may throw,
are parameters. A write that fails leaves the file as it was.
-/
namespace BrightCli.Source.Wizard
open BrightCli.Lib

structure Credentials where
  repeaterId : String
  authToken : String
  deriving DecidableEq, Repr

/-- The files `.bright-cli` and `.nexploit-cli`. -/
structure Home where
  path : Option Utf8.Bytes
  legacyPath : Option Utf8.Bytes
  deriving DecidableEq, Repr

/-- What reading the tokens throws: of `JSON.parse`, and of taking the members of `undefined`
or `null`. -/
inductive TokensError where
  | syntaxError
  | typeError
  deriving DecidableEq, Repr

namespace FSTokens

def toJson (credentials : Credentials) : Json :=
  .obj [("repeaterId", .str credentials.repeaterId), ("authToken", .str credentials.authToken)]

def writeTokens (home : Home) (credentials : Credentials) : Home :=
  { home with path := some (Utf8.encode (Json.compact (toJson credentials))) }

/-- The first file that exists counts, whatever it holds. -/
def readTokens (home : Home) : Except TokensError (Option Json) :=
  match home.path.or home.legacyPath with
  | none => .ok none
  | some resultRaw =>
    match Json.parse (Utf8.decode resultRaw) with
    | some value => .ok (some value)
    | none => .error .syntaxError

end FSTokens

/-- What is asked of the API. -/
structure AuthRequest where
  url : String
  authorization : String
  deriving DecidableEq, Repr

/-- The member `id` of the answer; `failed` also stands for an answer of which no member
can be read. -/
inductive AuthAnswer where
  | failed
  | answered (id : Option Json)

namespace AuthConnectivity

def isNull : Json → Bool
  | .null => true
  | _ => false

mutual

/-- `${value}` -/
def text : Json → String
  | .null => "null"
  | .bool b => toString b
  | .num n => toString n
  | .str s => s
  | .arr items => String.intercalate "," (elementTexts items)
  | .obj _ => "[object Object]"

/-- The elements of an array that is converted; `null` is empty there. -/
def elementTexts : List Json → List String
  | [] => []
  | item :: rest => (if isNull item then "" else text item) :: elementTexts rest

end

/-- The text of a member that may be missing. -/
def memberText : Option Json → String
  | none => "undefined"
  | some value => text value

/-- `===` of members; objects that were parsed apart are never the same. -/
def strictEquals : Option Json → Option Json → Bool
  | none, none => true
  | some .null, some .null => true
  | some (.bool a), some (.bool b) => a = b
  | some (.num a), some (.num b) => a = b
  | some (.str a), some (.str b) => a = b
  | _, _ => false

/-- `readTokens` and the pattern of its result. -/
def members (home : Home) : Except TokensError (Option Json × Option Json) :=
  match FSTokens.readTokens home with
  | .error err => .error err
  | .ok none => .error .typeError
  | .ok (some .null) => .error .typeError
  | .ok (some value) => .ok (value.field? "repeaterId", value.field? "authToken")

/-- The arguments of `axios.get`; none if `resolve` throws. -/
def request (resolve : String → String → Option String) (url : String)
    (repeaterId authToken : Option Json) : Option AuthRequest := do
  let url ← resolve url ("/api/v1/repeaters/" ++ memberText repeaterId)
  pure { url, authorization := "api-key " ++ memberText authToken }

/-- The rest of `test` after the answer; a failure is caught. -/
def accepted (repeaterId : Option Json) : AuthAnswer → Bool
  | .failed => false
  | .answered id => strictEquals id repeaterId

end AuthConnectivity

/-- The line about the tokens: the request that was sent for it, and its result. -/
structure Verification where
  request : Option AuthRequest
  success : Bool
  deriving DecidableEq, Repr

/-- What a session depends on; `writable` if the file can be written. -/
structure TokensSession where
  repeaterId : String
  authToken : String
  writable : Bool
  url : String
  api : AuthRequest → AuthAnswer

namespace ReadlinePlatform
variable (validates : String → Bool) (resolve : String → String → Option String)

/-- Whether the answers are stored: `requestTokens` up to its last line. -/
def acceptsTokens (session : TokensSession) : Bool :=
  if session.authToken = "" || !validates session.authToken then false
  else if session.repeaterId = "" then false
  else true

/-- The home directory after `requestTokens`; `none` if the write throws. -/
def requestTokens (home : Home) (session : TokensSession) : Option Home :=
  if acceptsTokens validates session then
    if session.writable then
      some (FSTokens.writeTokens home
        { repeaterId := session.repeaterId, authToken := session.authToken })
    else none
  else some home

/-- `process` of `verifyAccess(TestType.AUTH)`: what it throws counts as a failure. -/
def verifyAccess (home : Home) (session : TokensSession) : Verification :=
  match AuthConnectivity.members home with
  | .error _ => { request := none, success := false }
  | .ok (repeaterId, authToken) =>
    match AuthConnectivity.request resolve session.url repeaterId authToken with
    | none => { request := none, success := false }
    | some request =>
      { request := some request
        success := AuthConnectivity.accepted repeaterId (session.api request) }

/-- One session: the home directory it leaves, and what it found out about the tokens. -/
def configure (home : Home) (session : TokensSession) : Home × Option Verification :=
  match requestTokens validates home session with
  | none => (home, none)
  | some next => (next, some (verifyAccess resolve next session))

/-- The home directory after some sessions. -/
def sessions (home : Home) (past : List TokensSession) : Home :=
  past.foldl (fun home session => (configure validates resolve home session).1) home

end ReadlinePlatform

end BrightCli.Source.Wizard
