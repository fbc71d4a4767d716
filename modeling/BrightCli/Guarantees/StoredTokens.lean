import BrightCli.Guarantees.Redaction
import BrightCli.Source.Wizard.Tokens

/-!
# The tokens that the wizard verifies

The two files of the home directory are compared with one register that holds what was
entered last: a session that is given acceptable answers overwrites it, every other session
leaves it alone. `sessions_home` is the refinement; it rests on `readTokens` giving back
what `writeTokens` wrote, through JSON and UTF-8, for every identifier and token. Until
something acceptable has been entered the files are those that were found, the legacy one
included; afterwards the legacy one never counts again.
-/
namespace BrightCli.Guarantees.StoredTokens
open BrightCli.Lib BrightCli.Source.Wizard BrightCli.Source.Wizard.FSTokens
  BrightCli.Source.Wizard.ReadlinePlatform BrightCli.Guarantees.Redaction

/-- What a session enters into the register. -/
def entered? (session : TokensSession) : Option Credentials :=
  if acceptsTokens authToken session && session.writable then
    some { repeaterId := session.repeaterId, authToken := session.authToken }
  else none

/-- What was entered last. -/
def lastEntered (past : List TokensSession) : Option Credentials :=
  (past.filterMap entered?).getLast?

/-- The home directory for a content of the register, over the files that were found. -/
def holding (home : Home) : Option Credentials → Home
  | some credentials => writeTokens home credentials
  | none => home

/-- What is asked of the API for an identifier and a token: the identifier is the end of a
path that is resolved against the address of the API. -/
def asking (resolve : String → String → Option String) (url : String) (credentials : Credentials) :
    Option AuthRequest :=
  (resolve url ("/api/v1/repeaters/" ++ credentials.repeaterId)).map fun url =>
    { url, authorization := "api-key " ++ credentials.authToken }

section
variable {resolve : String → String → Option String} {home : Home} {credentials : Credentials}
  {session : TokensSession}

/-! ## The file -/

theorem readTokens_writeTokens :
    readTokens (writeTokens home credentials) = .ok (some (toJson credentials)) := by
  have parsed := Json.parse_compact (toJson credentials)
  simp only [readTokens, writeTokens, Option.some_or, Utf8.decode_encode, parsed]

theorem members_writeTokens :
    AuthConnectivity.members (writeTokens home credentials) =
      .ok (some (.str credentials.repeaterId), some (.str credentials.authToken)) := by
  rw [AuthConnectivity.members, readTokens_writeTokens]
  rfl

theorem request_text (url : String) :
    AuthConnectivity.request resolve url (some (.str credentials.repeaterId))
      (some (.str credentials.authToken)) = asking resolve url credentials := by
  unfold AuthConnectivity.request asking
  have id : AuthConnectivity.memberText (some (.str credentials.repeaterId)) =
      credentials.repeaterId := rfl
  rw [id]
  cases resolve url ("/api/v1/repeaters/" ++ credentials.repeaterId) <;> rfl

/-- The answer has to name the repeater. -/
theorem accepted_iff (repeaterId : String) (answer : AuthAnswer) :
    AuthConnectivity.accepted (some (.str repeaterId)) answer = true ↔
      answer = .answered (some (.str repeaterId)) := by
  have equals : ∀ id, AuthConnectivity.strictEquals id (some (.str repeaterId)) = true ↔
      id = some (.str repeaterId) := by
    intro id
    unfold AuthConnectivity.strictEquals
    split <;> simp_all
  unfold AuthConnectivity.accepted
  split
  · simp
  · rw [equals]
    simp

/-- The verification of what was written. -/
theorem verifyAccess_writeTokens :
    (verifyAccess resolve (writeTokens home credentials) session).request =
        asking resolve session.url credentials ∧
      ((verifyAccess resolve (writeTokens home credentials) session).success = true ↔
        ∃ request, asking resolve session.url credentials = some request ∧
          session.api request = .answered (some (.str credentials.repeaterId))) := by
  simp only [verifyAccess, members_writeTokens, request_text]
  cases asking resolve session.url credentials with
  | none => simp
  | some request => simp [accepted_iff]

/-! ## The register -/

/-- A write replaces what an earlier one left. -/
theorem holding_some (before : Option Credentials) :
    writeTokens (holding home before) credentials = holding home (some credentials) := by
  cases before <;> rfl

theorem accepted_of_acceptsTokens (accepts : acceptsTokens authToken session = true) :
    authToken session.authToken = true ∧ session.repeaterId ≠ "" := by
  unfold acceptsTokens at accepts
  split at accepts
  · cases accepts
  · rename_i valid
    split at accepts
    · cases accepts
    · rename_i identified
      simp only [Bool.or_eq_true, Bool.not_eq_true', not_or, Bool.not_eq_false] at valid
      exact ⟨valid.2, identified⟩

/-- What is in the register was acceptable. -/
theorem lastEntered_valid {past : List TokensSession} (last : lastEntered past = some credentials) :
    authToken credentials.authToken = true ∧ credentials.repeaterId ≠ "" := by
  obtain ⟨session, -, entry⟩ := List.mem_filterMap.mp (List.mem_of_getLast? last)
  unfold entered? at entry
  split at entry
  · rename_i accepts
    obtain rfl := Option.some.inj entry
    exact accepted_of_acceptsTokens (Bool.and_eq_true_iff.mp accepts).1
  · cases entry

theorem lastEntered_snoc (past : List TokensSession) :
    lastEntered (past ++ [session]) = (entered? session).or (lastEntered past) := by
  unfold lastEntered
  rw [List.filterMap_append]
  cases entry : entered? session with
  | none => simp [entry]
  | some credentials => simp [entry]

/-- One session against the register. -/
theorem configure_home :
    (configure authToken resolve home session).1 = holding home (entered? session) := by
  unfold configure requestTokens entered?
  cases acceptsTokens authToken session <;> cases session.writable <;> rfl

/-- A session that gets to the verification verifies what it leaves behind. -/
theorem configure_verifies {next : Home} {verification : Verification}
    (ended : configure authToken resolve home session = (next, some verification)) :
    verification = verifyAccess resolve next session := by
  unfold configure at ended
  split at ended
  · cases ended
  · obtain ⟨rfl, verified⟩ := Prod.mk.inj ended
    exact (Option.some.inj verified).symm

theorem sessions_home (resolve : String → String → Option String) (past : List TokensSession) :
    sessions authToken resolve home past = holding home (lastEntered past) := by
  induction past using List.reverseRecOn with
  | nil => rfl
  | append_singleton past session ih =>
    have step : sessions authToken resolve home (past ++ [session]) =
        (configure authToken resolve (sessions authToken resolve home past) session).1 := by
      simp [sessions]
    rw [step, ih, configure_home, lastEntered_snoc]
    cases entered? session with
    | none => rfl
    | some credentials => exact holding_some (lastEntered past)

end

/-- The first session stores its answers, the second one has a token that is refused. -/
def entering : TokensSession where
  repeaterId := "r\"\\é"
  authToken := "aaaaaaa.nexa.bbbbbbbbbbbbbbbbbbbbbbbbbbbbbbbb"
  writable := true
  url := "https://a.test"
  api _ := .failed

def repeating : TokensSession where
  repeaterId := "b"
  authToken := "b"
  writable := true
  url := "https://a.test"
  api _ := .answered (some (.str entering.repeaterId))

/-- A resolver for paths that need no other spelling. -/
def joined (url path : String) : Option String := some (url ++ path)

end BrightCli.Guarantees.StoredTokens
