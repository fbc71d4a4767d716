import BrightCli.Lib.Replace
import BrightCli.Guarantees.RepeaterRegistry

/-!
# Redaction of error messages

The secrets are replaced one after the other, each in the text that the replacements
before it have left. The brackets of the marker keep a replacement from bringing
another secret about, and from touching text that belongs to none, so the order of
the secrets plays no part in the two guarantees. Every text that an entry of the
registry keeps of an error went through `redact`, with the token among the secrets.
-/
namespace BrightCli.Guarantees.Redaction
open BrightCli.Lib BrightCli.Source.Mcp BrightCli.Source.Mcp.RepeaterTools
open RepeaterRegistry (Touched)

/-- The secrets that redaction is made for. -/
structure Redactable (secret : String) : Prop where
  nonempty : secret ≠ ""
  no_opening : '[' ∉ secret.toList
  no_closing : ']' ∉ secret.toList
  not_filtered : ¬ secret.toList <:+: "Filtered".toList

/-- `[A-Za-z0-9+/=]` -/
def tokenChar (c : Char) : Bool := c.isAlphanum || c == '+' || c == '/' || c == '='

/-- `AUTH_TOKEN_VALIDATION_REGEXP` of `src/Wizard/Credentials.ts`. -/
def authToken (token : String) : Bool :=
  let chars := token.toList
  chars.length == 45 && (chars.take 7).all tokenChar &&
    ((chars.drop 7).take 6 == ".nexa.".toList || (chars.drop 7).take 6 == ".nexp.".toList) &&
    (chars.drop 13).all tokenChar

theorem char_of_authToken {token : String} (valid : authToken token = true) {c : Char}
    (member : c ∈ token.toList) : tokenChar c = true ∨ c ∈ ".nexap".toList := by
  simp only [authToken, Bool.and_eq_true, Bool.or_eq_true, beq_iff_eq] at valid
  obtain ⟨⟨⟨_, first⟩, middle⟩, last⟩ := valid
  rw [← List.take_append_drop 7 token.toList, ← List.take_append_drop 6 (token.toList.drop 7),
    List.drop_drop, List.mem_append, List.mem_append] at member
  rcases member with front | dotted | back
  · exact .inl (List.all_eq_true.mp first c front)
  · have subset : ".nexa.".toList ⊆ ".nexap".toList ∧ ".nexp.".toList ⊆ ".nexap".toList := by simp
    apply Or.inr
    rcases middle with shape | shape
    · exact subset.1 (shape ▸ dotted)
    · exact subset.2 (shape ▸ dotted)
  · exact .inl (List.all_eq_true.mp last c back)

/-- The tokens that the wizard accepts can be redacted. -/
theorem redactable_of_authToken {token : String} (valid : authToken token = true) :
    Redactable token := by
  have length : token.toList.length = 45 := by
    simp only [authToken, Bool.and_eq_true, beq_iff_eq] at valid
    exact valid.1.1.1
  have no_bracket : ∀ c ∈ token.toList, c ≠ '[' ∧ c ≠ ']' := by
    intro c member
    rcases char_of_authToken valid member with plain | dotted
    · constructor <;> (rintro rfl; revert plain; decide)
    · constructor <;> (rintro rfl; revert dotted; decide)
  constructor
  · rintro rfl
    simp at length
  · intro member
    exact (no_bracket _ member).1 rfl
  · intro member
    exact (no_bracket _ member).2 rfl
  · intro inside
    have short := inside.length_le
    rw [length] at short
    exact absurd short (by decide)

def filtered : List Char := Text.enclosed '[' ']' "Filtered".toList

theorem Redactable.apart {secret : String} (redactable : Redactable secret) :
    Text.Apart '[' ']' "Filtered".toList secret.toList :=
  ⟨by simpa using redactable.nonempty, redactable.no_opening, redactable.no_closing,
    redactable.not_filtered⟩

/-- The replacements for the secrets in the given order. -/
def replaced (secrets : List String) (text : List Char) : List Char :=
  secrets.foldl (fun current secret => Text.replaceAll filtered secret.toList current) text

theorem toList_redactWith (secrets : List String) (message : String) :
    (redactWith secrets message).toList = replaced (bySize secrets) message.toList := by
  unfold redactWith replaced
  induction bySize secrets generalizing message with
  | nil => rfl
  | cons secret rest ih =>
    rw [List.foldl_cons, List.foldl_cons, ih, String.toList_ofList]
    rfl

theorem mem_bySize {secret : String} {secrets : List String} :
    secret ∈ bySize secrets ↔ secret ∈ secrets :=
  (List.perm_insertionSort _ secrets).mem_iff

/-- A secret is gone once its turn has come, and no later replacement brings it back.
The induction is on the secrets that were replaced, the last one first. -/
theorem not_infix_replaced {secret : String} (redactable : Redactable secret)
    {secrets : List String} (member : secret ∈ secrets) (text : List Char) :
    ¬ secret.toList <:+: replaced secrets text := by
  induction secrets using List.reverseRecOn with
  | nil => cases member
  | append_singleton earlier last ih =>
    rw [replaced, List.foldl_append, List.foldl_cons, List.foldl_nil]
    rcases List.mem_append.mp member with before | own
    · intro found
      exact ih before (Text.infix_of_infix_replaceAll redactable.apart found)
    · cases List.mem_singleton.mp own
      exact Text.not_infix_replaceAll redactable.apart _

theorem not_infix_redactWith {secret : String} (redactable : Redactable secret)
    {secrets : List String} (member : secret ∈ secrets) (message : String) :
    ¬ secret.toList <:+: (redactWith secrets message).toList := by
  rw [toList_redactWith]
  exact not_infix_replaced redactable (mem_bySize.mpr member) _

/-- Text that no secret overlaps is left by each replacement, and no secret overlaps
it afterwards. -/
theorem replaced_clear {secrets : List String}
    (redactable : ∀ secret ∈ secrets, Redactable secret) (before text after : List Char)
    (clear : ∀ secret ∈ secrets, Text.Clear secret.toList before text after) :
    replaced secrets (before ++ (text ++ after)) =
      replaced secrets before ++ (text ++ replaced secrets after) := by
  induction secrets generalizing before after with
  | nil => rfl
  | cons secret rest ih =>
    have own := (redactable secret List.mem_cons_self).apart
    simp only [replaced, List.foldl_cons]
    rw [(clear secret List.mem_cons_self).replaceAll_eq own.some_char]
    apply ih
    · intro other member
      exact redactable other (List.mem_cons_of_mem _ member)
    · intro other member
      exact Text.clear_replaceAll (redactable other (List.mem_cons_of_mem _ member)).apart
        (clear other (List.mem_cons_of_mem _ member))

/-- What is redacted contains no secret, whether they overlap or contain each other,
and keeps every part of the message that overlaps no occurrence of a secret. Tokens are
such secrets. -/
theorem redaction_complete :
    (∀ token, authToken token = true → Redactable token) ∧
    ∀ secrets : List String, (∀ secret ∈ secrets, Redactable secret) → ∀ message : String,
      (∀ secret ∈ secrets, ¬ secret.toList <:+: (redactWith secrets message).toList) ∧
      ∀ before text after : String, message = before ++ (text ++ after) →
        (∀ secret ∈ secrets, Text.Clear secret.toList before.toList text.toList after.toList) →
        redactWith secrets message =
          redactWith secrets before ++ (text ++ redactWith secrets after) := by
  refine ⟨fun token => redactable_of_authToken, ?_⟩
  intro secrets redactable message
  refine ⟨?_, ?_⟩
  · intro secret member
    exact not_infix_redactWith (redactable secret member) member message
  · intro before text after shape clear
    rw [← String.toList_inj, shape]
    simp only [toList_redactWith, String.toList_append]
    apply replaced_clear
    · intro secret member
      exact redactable secret (mem_bySize.mp member)
    · intro secret member
      exact clear secret (mem_bySize.mp member)

/-- Two secrets of which the message has an overlapping occurrence. -/
def overlapping : List String := ["abc", "bcd"]

theorem overlapping_redactable : ∀ secret ∈ overlapping, Redactable secret := by
  simp only [overlapping, List.forall_mem_cons]
  refine ⟨⟨by decide, by decide, by decide, by decide⟩,
    ⟨by decide, by decide, by decide, by decide⟩, by simp⟩

theorem overlapping_clear :
    ∀ secret ∈ overlapping, Text.Clear secret.toList "x".toList " y ".toList "abcd".toList := by
  have checked : ∀ secret ∈ overlapping, ∀ i < 9,
      secret.toList <+: ("x".toList ++ (" y ".toList ++ "abcd".toList)).drop i → 4 ≤ i := by decide
  intro secret member i occurs
  have nonempty := (overlapping_redactable secret member).apart.some_char
  have fits := Text.length_of_occursAt nonempty occurs
  have short : i < 9 := Nat.lt_succ_of_le (Nat.le_trans (Nat.le_add_right _ _) fits)
  exact .inr (checked secret member i short occurs)

theorem overlapping_secrets_redacted :
    redactWith overlapping "x y abcd" = "x y [Filtered]d" ∧
    (∀ secret ∈ overlapping, ¬ secret.toList <:+: (redactWith overlapping "x y abcd").toList) ∧
    redactWith overlapping "x y abcd" =
      redactWith overlapping "x" ++ (" y " ++ redactWith overlapping "abcd") := by
  have complete := redaction_complete.2 overlapping overlapping_redactable "x y abcd"
  exact ⟨by decide, complete.1, complete.2 "x" " y " "abcd" rfl overlapping_clear⟩

/-- The token is among the secrets of every process that is started with it. -/
theorem token_collected {context env : Option String} {token : String}
    (resolved : resolveToken context env = .ok token) (input : RepeaterRunToolInput) :
    token ∈ collectSensitiveValues (buildArgs input token) := by
  have nonempty : token ≠ "" := by
    unfold resolveToken at resolved
    split at resolved
    · split at resolved
      · cases resolved
      · rename_i given
        cases resolved
        exact given
    · cases resolved
  obtain ⟨rest, shape⟩ : ∃ rest, buildArgs input token = "--token" :: token :: rest := by
    unfold buildArgs
    cases input.id <;> cases input.hostname <;> exact ⟨_, rfl⟩
  rw [shape, collectSensitiveValues, List.mem_append]
  apply Or.inl
  simp [sensitiveValuesOf, sensitiveOptions, nonempty]

/-- What one step does to the entries. -/
inductive Changed (entries : List RepeaterProcessEntry) : List RepeaterProcessEntry → Prop where
  | touched {next : List RepeaterProcessEntry} (touched : Touched entries next) : Changed entries next
  | exited (i : Nat) (code : Option Int) (now : Nat) :
      Changed entries (entries.modify i (markExited code now))
  | registered (id : String) (pid : Option Nat) (sensitiveValues : List String) (now : Nat) :
      Changed entries (entries ++ [newEntry id pid sensitiveValues now])

/-- A call of `run` that is not refused registers an entry with the token among its
secrets. -/
theorem run_entries {tools next : RepeaterTools} {input : RepeaterRunToolInput}
    {context env : Option String} {spawn : Spawn} {now : Nat}
    (accepted : tools.run input context env spawn now = .ok next) :
    ∃ id pid token, resolveToken context env = .ok token ∧ next.entries = tools.entries ++
      [newEntry id pid (collectSensitiveValues (buildArgs input token)).eraseDups now] := by
  unfold RepeaterTools.run at accepted
  cases found : tools.accept input.id with
  | error message => simp [found, bind, Except.bind] at accepted
  | ok id =>
    cases resolved : resolveToken context env with
    | error message => simp [found, resolved, bind, Except.bind] at accepted
    | ok token =>
      simp only [found, resolved, bind, Except.bind] at accepted
      cases spawn with
      | started pid =>
        cases accepted
        exact ⟨id, some pid, token, rfl, rfl⟩
      | failed =>
        cases accepted
        exact ⟨id, none, token, rfl, rfl⟩
      | throws message => cases accepted

theorem step_changed {tools next : RepeaterTools} {event : Event}
    (stepped : step tools event = some next) : Changed tools.entries next.entries := by
  have same : Changed tools.entries tools.entries := .touched .same
  cases event with
  | run input context env spawn now =>
    cases stepped
    cases called : tools.run input context env spawn now with
    | error message => exact same
    | ok next =>
      obtain ⟨id, pid, token, _, entries⟩ := run_entries called
      rw [orUnchanged, entries]
      exact .registered id pid _ now
  | childError i message =>
    simp only [step] at stepped
    split at stepped
    · cases stepped
      exact .touched (RepeaterRegistry.emitError_quiet tools i message).1
    · cases stepped
  | childExit i code signal now =>
    simp only [step] at stepped
    split at stepped
    · split at stepped
      · cases stepped
        exact .exited i code now
      · cases stepped
    · cases stepped
  | graceElapsed k =>
    simp only [step] at stepped
    split at stepped
    · split at stepped
      · cases stepped
        exact same
      · cases stepped
    · cases stepped
  | runResumed k =>
    simp only [step] at stepped
    split at stepped
    · split at stepped
      · rename_i failure entry _ _
        cases stepped
        cases failure <;> exact same
      · cases stepped
    · cases stepped
  | stop input outcome =>
    cases stepped
    exact .touched (RepeaterRegistry.stop_quiet tools input outcome).1
  | stopResumed k outcome =>
    simp only [step] at stepped
    split at stepped
    · split at stepped
      · exact .touched (RepeaterRegistry.continueStop_quiet tools next k _ _ outcome stepped).1
      · cases stepped
    · cases stepped
  | stopAll outcomes =>
    cases stepped
    exact .touched (RepeaterRegistry.stopAll_quiet tools outcomes).1
  | status id =>
    cases stepped
    exact same

/-- What an entry keeps of an error is a redacted message. -/
def ErrorsRedacted (entries : List RepeaterProcessEntry) : Prop :=
  ∀ entry ∈ entries, ∀ text, entry.lastError = some text →
    ∃ message, text = redactWith entry.sensitiveValues message

theorem forall_mem_modify {P : RepeaterProcessEntry → Prop} {entries : List RepeaterProcessEntry}
    {i : Nat} {update : RepeaterProcessEntry → RepeaterProcessEntry}
    (all : ∀ entry ∈ entries, P entry) (kept : ∀ entry, P entry → P (update entry)) :
    ∀ entry ∈ entries.modify i update, P entry := by
  induction entries generalizing i with
  | nil => simp
  | cons first rest ih =>
    rw [List.forall_mem_cons] at all
    cases i with
    | zero => simpa using ⟨kept first all.1, all.2⟩
    | succ i => simpa using ⟨all.1, ih all.2⟩

theorem errorsRedacted_touched {entries next : List RepeaterProcessEntry}
    (redacted : ErrorsRedacted entries) (touched : Touched entries next) : ErrorsRedacted next := by
  induction touched with
  | same => exact redacted
  | failed _ i message ih =>
    apply forall_mem_modify ih
    intro entry _ text shown
    cases shown
    exact ⟨message, rfl⟩
  | signalled _ i signal ih =>
    apply forall_mem_modify ih
    intro entry kept text shown
    exact kept text shown

theorem errorsRedacted_changed {entries next : List RepeaterProcessEntry}
    (redacted : ErrorsRedacted entries) (changed : Changed entries next) : ErrorsRedacted next := by
  cases changed with
  | touched touched => exact errorsRedacted_touched redacted touched
  | exited i code now => exact forall_mem_modify redacted fun entry kept => kept
  | registered id pid sensitiveValues now =>
    intro entry member text shown
    rcases List.mem_append.mp member with old | new
    · exact redacted entry old text shown
    · cases List.mem_singleton.mp new
      cases shown

/-- The secrets of an entry stay what they were when it was registered. -/
theorem secrets_changed {entries next : List RepeaterProcessEntry} (changed : Changed entries next) :
    entries.map (·.sensitiveValues) <+: next.map (·.sensitiveValues) := by
  cases changed with
  | touched touched =>
    induction touched with
    | same => exact List.prefix_refl _
    | failed _ i message ih =>
      rwa [RepeaterRegistry.map_modify_eq _ _ i (markFailed message) fun _ => rfl]
    | signalled _ i signal ih =>
      rwa [RepeaterRegistry.map_modify_eq _ _ i (markSignalled signal) fun _ => rfl]
  | exited i code now =>
    rw [RepeaterRegistry.map_modify_eq _ _ i (markExited code now) fun _ => rfl]
  | registered id pid sensitiveValues now =>
    rw [List.map_append]
    exact List.prefix_append _ _

theorem errorsRedacted_run {events : List Event} {tools : RepeaterTools}
    (legal : Trace.run step init events = some tools) : ErrorsRedacted tools.entries := by
  apply Trace.run_invariant (P := fun tools => ErrorsRedacted tools.entries) _ _ legal
  · intro entry member
    cases member
  · intro before event next redacted stepped
    exact errorsRedacted_changed redacted (step_changed stepped)

theorem secrets_run {events : List Event} {tools later : RepeaterTools}
    (legal : Trace.run step tools events = some later) :
    tools.entries.map (·.sensitiveValues) <+: later.entries.map (·.sensitiveValues) := by
  apply Trace.run_invariant (P := fun later =>
    tools.entries.map (·.sensitiveValues) <+: later.entries.map (·.sensitiveValues)) _ _ legal
  · exact List.prefix_refl _
  · intro before event next kept stepped
    exact kept.trans (secrets_changed (step_changed stepped))

/-- A process that was started with a token never shows it in the error of its status,
whatever happens later and whatever the messages of its errors are. -/
theorem status_hides_token {earlier events : List Event} {tools next later : RepeaterTools}
    {input : RepeaterRunToolInput} {context env : Option String} {spawn : Spawn} {now : Nat}
    {token : String} (resolved : resolveToken context env = .ok token)
    (redactable : Redactable token) (reached : Trace.run step init earlier = some tools)
    (accepted : tools.run input context env spawn now = .ok next)
    (legal : Trace.run step next events = some later) :
    ∃ entry, later.entries[tools.entries.length]? = some entry ∧
      ∀ text, (toStatus entry).lastError = some text → ¬ token.toList <:+: text.toList := by
  have stepped : step tools (.run input context env spawn now) = some next := by
    simp [step, accepted, orUnchanged]
  have redacted : ErrorsRedacted later.entries := by
    apply errorsRedacted_run
    rw [Trace.run_append, Trace.run_then reached stepped]
    exact legal
  obtain ⟨id, pid, used, found, entries⟩ := run_entries accepted
  rw [resolved] at found
  cases found
  obtain ⟨others, shape⟩ := secrets_run legal
  have secrets : (later.entries.map (·.sensitiveValues))[tools.entries.length]? =
      some (collectSensitiveValues (buildArgs input token)).eraseDups := by
    rw [← shape, entries]
    simp [newEntry]
  rw [List.getElem?_map] at secrets
  obtain ⟨entry, there, own⟩ := Option.map_eq_some_iff.mp secrets
  refine ⟨entry, there, ?_⟩
  intro text shown
  obtain ⟨message, rfl⟩ := redacted entry (List.mem_of_getElem? there) text shown
  apply not_infix_redactWith redactable
  rw [own, List.mem_eraseDups]
  exact token_collected resolved input

end BrightCli.Guarantees.Redaction
