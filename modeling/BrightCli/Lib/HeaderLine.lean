import Mathlib.Data.List.Basic
import Mathlib.Data.List.TakeWhile

/-!
# Lines of a header list

A client such as libcurl is given its custom headers as lines. What it puts on the
wire for a line is a parameter here, of which its documentation tells three things: a
line `name: value` is sent as it is; a line with nothing but blanks after the colon is
not sent, it only keeps a header of that name from being added; and a line `name;`
stands for a header without a value.

On the wire a name ends at the first colon and a header with its line (`Field`). A
header written as name, colon, space and value is therefore sent as it was meant
exactly when its name has no colon, it has no line break, and its value is not blank
(`sent_append_iff`, for a whole list).
-/
namespace BrightCli.Lib.HeaderLine

def isBlank (c : Char) : Bool := c = ' ' || c = '\t'

def isBreak (c : Char) : Bool := c = '\r' || c = '\n'

/-- A header on the wire: its name, and the text after the colon. -/
structure Field where
  name : List Char
  text : List Char
  plain : ':' ∉ name
  oneLine : ∀ c ∈ name ++ text, isBreak c = false

def Field.pair (field : Field) : List Char × List Char := (field.name, field.text)

/-- The usual way to write a header. -/
def written (header : List Char × List Char) : List Char := header.1 ++ ':' :: ' ' :: header.2

/-- The header a reader of the wire makes out to have this name and value. -/
def field (header : List Char × List Char) : List Char × List Char := (header.1, ' ' :: header.2)

/-- The name ends at the colon that was meant to end it, the header with its line, and
there is a value to send. -/
def Sendable (header : List Char × List Char) : Prop :=
  ':' ∉ header.1 ∧ (∀ c ∈ header.1 ++ header.2, isBreak c = false) ∧
    ∃ c ∈ header.2, isBlank c = false

theorem unbroken {text : List Char} (all : text.all (!isBreak ·) = true) :
    ∀ c ∈ text, isBreak c = false := by
  simpa using all

/-- `Sendable` can be evaluated. -/
theorem sendable_of_check {header : List Char × List Char}
    (checked : (!header.1.contains ':' && (header.1 ++ header.2).all (!isBreak ·) &&
      header.2.any (!isBlank ·)) = true) : Sendable header := by
  rw [Bool.and_eq_true, Bool.and_eq_true] at checked
  exact ⟨by simpa using checked.1.1, unbroken checked.1.2, by simpa using checked.2⟩

/-- What is known of a client that is given lines of headers. -/
structure Client where
  /-- The headers on the wire that stem from a line. -/
  sends : List Char → List Field
  as_written : ∀ header, header.1 ≠ [] → Sendable header →
    (sends (written header)).map Field.pair = [field header]
  blank_unsent : ∀ name rest, name ≠ [] → ':' ∉ name → (∀ c ∈ name, isBreak c = false) →
    rest.all isBlank = true → sends (name ++ ':' :: rest) = []
  empty_sent : ∀ name, name ≠ [] → ':' ∉ name → ';' ∉ name → (∀ c ∈ name, isBreak c = false) →
    (sends (name ++ [';'])).map Field.pair = [(name, [])]

namespace Client
variable (client : Client)

/-- What stands on the wire for written headers. -/
def onWire (headers : List (List Char × List Char)) : List (List Char × List Char) :=
  (headers.map written).flatMap fun line => (client.sends line).map Field.pair

theorem onWire_append (headers others : List (List Char × List Char)) :
    client.onWire (headers ++ others) = client.onWire headers ++ client.onWire others := by
  simp [onWire]

variable {client}

theorem onWire_of_sendable {headers : List (List Char × List Char)}
    (names : ∀ header ∈ headers, header.1 ≠ []) (all : ∀ header ∈ headers, Sendable header) :
    client.onWire headers = headers.map field := by
  induction headers with
  | nil => rfl
  | cons first rest ih =>
    have here := client.as_written first (names first (by simp)) (all first (by simp))
    have later := ih (fun header member => names header (by simp [member]))
      (fun header member => all header (by simp [member]))
    rw [onWire] at later ⊢
    rw [List.map_cons, List.flatMap_cons, here, later]
    rfl

/-- Whatever stands on the wire is a header of one line whose name has no colon. -/
theorem oneLine_of_mem {headers : List (List Char × List Char)} {header : List Char × List Char}
    (member : field header ∈ client.onWire headers) :
    ':' ∉ header.1 ∧ ∀ c ∈ header.1 ++ header.2, isBreak c = false := by
  obtain ⟨line, -, sent⟩ := List.mem_flatMap.mp member
  obtain ⟨found, -, same⟩ := List.mem_map.mp sent
  have name : found.name = header.1 := congrArg Prod.fst same
  have text : found.text = ' ' :: header.2 := congrArg Prod.snd same
  refine ⟨name ▸ found.plain, ?_⟩
  intro c inside
  apply found.oneLine
  rw [name, text]
  rcases List.mem_append.mp inside with first | second
  · exact List.mem_append_left _ first
  · exact List.mem_append_right _ (List.mem_cons_of_mem _ second)

/-- A header of one line that is sent at all has a value that is not blank. -/
theorem sendable_of_sent {header : List Char × List Char} (name : header.1 ≠ [])
    (plain : ':' ∉ header.1) (oneLine : ∀ c ∈ header.1 ++ header.2, isBreak c = false)
    (sent : client.sends (written header) ≠ []) : Sendable header := by
  refine ⟨plain, oneLine, ?_⟩
  by_contra blank
  refine sent (client.blank_unsent header.1 (' ' :: header.2) name plain
    (fun c member => oneLine c (List.mem_append_left _ member)) ?_)
  rw [List.all_eq_true]
  intro c member
  rcases List.mem_cons.mp member with rfl | value
  · rfl
  · by_contra visible
    exact blank ⟨c, value, by simpa using visible⟩

/-- A list of headers, followed by others, arrives as it was meant exactly when
each of its headers is sendable. -/
theorem sent_append_iff {headers others : List (List Char × List Char)}
    (names : ∀ header ∈ headers ++ others, header.1 ≠ [])
    (sendable : ∀ header ∈ others, Sendable header) (added : List (List Char × List Char)) :
    client.onWire (headers ++ others) = headers.map field ++ added.map field ↔
      (∀ header ∈ headers, Sendable header) ∧ others = added := by
  have injective : Function.Injective field := by
    rintro ⟨name, value⟩ ⟨name', value'⟩ same
    simpa [field] using same
  have known : ∀ header ∈ headers, header.1 ≠ [] :=
    fun header member => names header (List.mem_append_left _ member)
  have others_sent : client.onWire others = others.map field :=
    onWire_of_sendable (fun header member => names header (List.mem_append_right _ member)) sendable
  constructor
  · intro same
    have reaches : ∀ header ∈ headers, field header ∈ client.onWire (headers ++ others) := by
      intro header member
      rw [same]
      exact List.mem_append_left _ (List.mem_map_of_mem member)
    have clean : ∀ header ∈ headers,
        ':' ∉ header.1 ∧ ∀ c ∈ header.1 ++ header.2, isBreak c = false :=
      fun header member => oneLine_of_mem (reaches header member)
    have all : ∀ header ∈ headers, Sendable header := by
      intro header member
      obtain ⟨line, isLine, sent⟩ := List.mem_flatMap.mp (reaches header member)
      obtain ⟨source, listed, rfl⟩ := List.mem_map.mp isLine
      -- All lines are clean, so the one it stems from is a sendable header's: this one's.
      have whole : Sendable source := by
        rcases List.mem_append.mp listed with own | other
        · obtain ⟨plain, oneLine⟩ := clean source own
          have some_sent : client.sends (written source) ≠ [] := by
            intro none_sent
            rw [none_sent] at sent
            cases sent
          exact sendable_of_sent (known source own) plain oneLine some_sent
        · exact sendable source other
      rw [client.as_written source (names source listed) whole] at sent
      rw [injective (List.mem_singleton.mp sent)]
      exact whole
    refine ⟨all, ?_⟩
    rw [onWire_append, onWire_of_sendable known all, others_sent,
      List.append_cancel_left_eq] at same
    exact injective.list_map same
  · rintro ⟨all, rfl⟩
    rw [onWire_append, onWire_of_sendable known all, others_sent]

end Client

/-! ## A client that keeps to the documentation -/

/-- The header for a line without line breaks. -/
def sent? (line : List Char) : Option (List Char × List Char) :=
  match line.dropWhile (· ≠ ':') with
  | _ :: rest =>
    if rest.all isBlank then none else some (line.takeWhile (· ≠ ':'), rest)
  | [] =>
    match line.dropWhile (· ≠ ';') with
    | _ :: rest => if rest.all isBlank then some (line.takeWhile (· ≠ ';'), []) else none
    | [] => none

theorem sent?_of_colon {name : List Char} (rest : List Char) (plain : ':' ∉ name) :
    sent? (name ++ ':' :: rest) = if rest.all isBlank then none else some (name, rest) := by
  have before : ∀ c ∈ name, decide (c ≠ ':') = true := by
    intro c member
    apply decide_eq_true
    rintro rfl
    exact plain member
  rw [sent?, List.dropWhile_append_of_pos before, List.takeWhile_append_of_pos before]
  simp

theorem sent?_of_semicolon {name : List Char} (plain : ':' ∉ name) (bare : ';' ∉ name) :
    sent? (name ++ [';']) = some (name, []) := by
  have no_colon : ∀ c ∈ name ++ [';'], decide (c ≠ ':') = true := by
    intro c member
    apply decide_eq_true
    rintro rfl
    simp [plain] at member
  have before : ∀ c ∈ name, decide (c ≠ ';') = true := by
    intro c member
    apply decide_eq_true
    rintro rfl
    exact bare member
  rw [sent?, List.dropWhile_eq_nil_iff.mpr no_colon]
  dsimp only
  rw [List.dropWhile_append_of_pos before, List.takeWhile_append_of_pos before]
  simp

/-- A name has no colon, and what is sent is part of the line. -/
theorem sent?_eq_some {line : List Char} {header : List Char × List Char}
    (sent : sent? line = some header) :
    ':' ∉ header.1 ∧ ∀ c ∈ header.1 ++ header.2, c ∈ line := by
  have part : ∀ (p : Char → Bool), ∀ c ∈ line.takeWhile p, c ∈ line :=
    fun p c member => (List.takeWhile_prefix p).subset member
  unfold sent? at sent
  split at sent
  · rename_i first rest dropped
    split at sent
    · cases sent
    · cases sent
      refine ⟨fun colon => by simpa using List.mem_takeWhile_imp colon, ?_⟩
      intro c member
      rcases List.mem_append.mp member with name | text
      · exact part _ c name
      · have inside : c ∈ line.dropWhile (· ≠ ':') := by
          rw [dropped]
          exact List.mem_cons_of_mem _ text
        exact (List.dropWhile_suffix _).subset inside
  · rename_i no_colon
    split at sent
    · split at sent
      · cases sent
        refine ⟨fun colon => ?_, ?_⟩
        · have kept := List.dropWhile_eq_nil_iff.mp no_colon ':' (part _ _ colon)
          simp at kept
        · intro c member
          rw [List.append_nil] at member
          exact part _ c member
      · cases sent
    · cases sent

/-- The field for a line, where one is sent and has no line break. -/
def field? (line : List Char) : Option Field :=
  match found : sent? line with
  | some header =>
    if oneLine : (header.1 ++ header.2).all (!isBreak ·) = true then
      some ⟨header.1, header.2, (sent?_eq_some found).1, unbroken oneLine⟩
    else none
  | none => none

theorem field?_of_sent? {line : List Char} {header : List Char × List Char}
    (sent : sent? line = some header) (oneLine : ∀ c ∈ header.1 ++ header.2, isBreak c = false) :
    (field? line).toList.map Field.pair = [header] := by
  unfold field?
  split
  · rename_i found same
    rw [sent] at same
    cases same
    have unbroken : (header.1 ++ header.2).all (!isBreak ·) = true :=
      List.all_eq_true.mpr fun c member => by simp [oneLine c member]
    rw [dif_pos unbroken]
    rfl
  · rename_i missing
    rw [sent] at missing
    cases missing

theorem field?_of_sent?_none {line : List Char} (unsent : sent? line = none) : field? line = none := by
  unfold field?
  split
  · rename_i found same
    rw [unsent] at same
    cases same
  · rfl

def Client.documented : Client where
  sends line := (field? line).toList
  as_written := by
    rintro header - ⟨plain, oneLine, c, member, visible⟩
    have solid : ¬ (' ' :: header.2).all isBlank = true := by
      intro blank
      rw [List.all_eq_true.mp blank c (List.mem_cons_of_mem _ member)] at visible
      cases visible
    refine field?_of_sent? ?_ ?_
    · rw [written, sent?_of_colon _ plain, if_neg solid]
      rfl
    · intro d inside
      rcases List.mem_append.mp inside with name | text
      · exact oneLine d (List.mem_append_left _ name)
      · rcases List.mem_cons.mp text with rfl | value
        · rfl
        · exact oneLine d (List.mem_append_right _ value)
  blank_unsent name rest _ plain _ blank := by
    rw [field?_of_sent?_none (by rw [sent?_of_colon _ plain, if_pos blank])]
    rfl
  empty_sent name _ plain bare oneLine :=
    field?_of_sent? (sent?_of_semicolon plain bare) (by simpa using oneLine)

end BrightCli.Lib.HeaderLine
