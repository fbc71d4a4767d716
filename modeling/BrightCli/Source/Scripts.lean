import BrightCli.Lib.InsertionMap
import BrightCli.Source.Helpers

/-!
# Virtual scripts

Source: `src/Scripts/VirtualScript.ts`, `src/Scripts/DefaultVirtualScripts.ts`,
`src/Scripts/FSScriptLoader.ts`, and `compileScripts` of
`src/Repeater/DefaultRepeaterCommandHub.ts`.

Whether the engine accepts a source text is the parameter `parses`, applied to
the text the constructor really passes to `vm.Script`. The content of a file is
the parameter `files`, with `none` for a read that fails. A call that throws
returns the message, or the engine's refusal; what it wrote before throwing
stays written, so `compileScripts` returns the store beside its outcome.
-/
namespace BrightCli.Source.Scripts
open BrightCli.Lib

inductive VirtualScriptType where
  | localType
  | remoteType
  deriving DecidableEq, Repr

inductive ScriptError where
  | message (text : String)
  | refusedByEngine
  deriving DecidableEq, Repr

structure VirtualScript where
  id : String
  type : VirtualScriptType
  code : String
  deriving DecidableEq, Repr

def moduleExecArgs : String := "module.exports,module.require,module,__filename,__dirname"

/-- The class `[\u200B-\u200D\uFEFF]`. -/
def isZeroWidth (c : Char) : Bool :=
  c = '\u200b' || c = '\u200c' || c = '\u200d' || c = '\ufeff'

/-- `Module.wrap` without its final semicolon, applied to the module's arguments. -/
def wrapScriptCode (code : String) : String :=
  "(function (exports, require, module, __filename, __dirname) \x7b " ++
    String.ofList (code.toList.filter fun c => !isZeroWidth c) ++ "\n\x7d)" ++
    "(" ++ moduleExecArgs ++ ")"

def VirtualScript.new (parses : String → Bool) (id : String) (type : VirtualScriptType)
    (code : String) : Except ScriptError VirtualScript :=
  if id = "" then .error (.message "ID must be declared explicitly.")
  else if code = "" then .error (.message "Code must be declared explicitly.")
  else if parses (wrapScriptCode code) then .ok { id, type, code }
  else .error .refusedByEngine

abbrev Store := InsertionMap String VirtualScript

namespace DefaultVirtualScripts

def size (store : Store) : Nat := store.size

def delete (store : Store) (key : String) : Store := store.delete key

/-- The typed clear deletes from the map it iterates over. -/
def clear (store : Store) : Option VirtualScriptType → Store
  | none => store.clear
  | some type => store.forEachDelete fun x => if x.type = type then some x.id else none

def find (store : Store) (host : String) : Option VirtualScript :=
  store.values.find? fun script => Helpers.wildcardMatches script.id host

/-- The script is stored before `compile` gives it a context; the constructor
is the only part that can throw. -/
def set (parses : String → Bool) (store : Store) (wildcard : String) (type : VirtualScriptType)
    (code : String) : Except ScriptError Store := do
  let script ← VirtualScript.new parses wildcard type code
  pure (InsertionMap.set store script.id script)

def count (store : Store) (type : VirtualScriptType) : Nat :=
  (store.values.filter fun x => x.type = type).length

end DefaultVirtualScripts

/-- An object from wildcards to paths: its own keys never repeat. -/
structure ScriptPaths where
  entries : List (String × String)
  nodup : (entries.map Prod.fst).Nodup

namespace FSScriptLoader

/-- `loadScript`, from the completion of its read on. -/
def loadScript (parses : String → Bool) (files : String → Option String) (store : Store)
    (entry : String × String) : Except ScriptError Store :=
  match files entry.2 with
  | none => .error (.message ("Error Loading Script: Cannot load " ++ entry.2))
  | some code => DefaultVirtualScripts.set parses store entry.1 .localType code

/-- `load` when its reads complete in the given order. All reads are started
at once, so one that fails does not keep the others from storing their script. -/
def load (parses : String → Bool) (files : String → Option String) (store : Store)
    (completions : List (String × String)) : Store :=
  completions.foldl
    (fun store entry =>
      match loadScript parses files store entry with
      | .ok next => next
      | .error _ => store) store

/-- The promise of `load` fulfils: no `loadScript` threw. -/
def Completed (parses : String → Bool) (files : String → Option String)
    (completions : List (String × String)) : Prop :=
  ∀ entry ∈ completions, ∀ store, ∃ next, loadScript parses files store entry = .ok next

end FSScriptLoader

/-- Payload of a `scripts-updated` event. -/
inductive ScriptsUpdate where
  | single (code : String)
  | map (entries : List (String × String))
  deriving DecidableEq, Repr

/-- The wildcard and code pairs an update carries. -/
def ScriptsUpdate.scripts : ScriptsUpdate → List (String × String)
  | .single code => [("*", code)]
  | .map entries => entries

namespace DefaultRepeaterCommandHub

/-- Sets one script after the other until one throws. -/
def setRemote (parses : String → Bool) (store : Store) :
    List (String × String) → Store × Except ScriptError Unit
  | [] => (store, .ok ())
  | (wildcard, code) :: rest =>
    match DefaultVirtualScripts.set parses store wildcard .remoteType code with
    | .ok next => setRemote parses next rest
    | .error err => (store, .error err)

def compileScripts (parses : String → Bool) (store : Store) (script : ScriptsUpdate) :
    Store × Except ScriptError Unit :=
  let cleared := DefaultVirtualScripts.clear store (some .remoteType)
  if DefaultVirtualScripts.size cleared ≠ 0 then (cleared, .ok ())
  else setRemote parses cleared script.scripts

end DefaultRepeaterCommandHub

section
variable (parses : String → Bool)

/-- The constructor accepts exactly a named, non-empty script the engine parses. -/
def Accepted (id code : String) : Prop :=
  id ≠ "" ∧ code ≠ "" ∧ parses (wrapScriptCode code) = true

instance (id code : String) : Decidable (Accepted parses id code) :=
  inferInstanceAs (Decidable (_ ∧ _ ∧ _))

theorem set_of_accepted (store : Store) (wildcard : String) (type : VirtualScriptType)
    (code : String) (accepted : Accepted parses wildcard code) :
    DefaultVirtualScripts.set parses store wildcard type code =
      .ok (InsertionMap.set store wildcard ⟨wildcard, type, code⟩) := by
  obtain ⟨named, nonempty, parsed⟩ := accepted
  simp [DefaultVirtualScripts.set, VirtualScript.new, named, nonempty, parsed, bind, Except.bind,
    pure, Except.pure]

theorem set_eq_ok_iff (store : Store) (wildcard : String) (type : VirtualScriptType)
    (code : String) (next : Store) :
    DefaultVirtualScripts.set parses store wildcard type code = .ok next ↔
      Accepted parses wildcard code ∧
        next = InsertionMap.set store wildcard ⟨wildcard, type, code⟩ := by
  by_cases accepted : Accepted parses wildcard code
  · rw [set_of_accepted parses store wildcard type code accepted]
    simp [accepted, eq_comm]
  · refine ⟨fun stored => absurd ?_ accepted, fun both => absurd both.1 accepted⟩
    unfold DefaultVirtualScripts.set VirtualScript.new at stored
    by_cases named : wildcard = ""
    · simp [named, bind, Except.bind] at stored
    · by_cases nonempty : code = ""
      · simp [named, nonempty, bind, Except.bind] at stored
      · by_cases parsed : parses (wrapScriptCode code) = true
        · exact ⟨named, nonempty, parsed⟩
        · simp [named, nonempty, parsed, bind, Except.bind] at stored

variable (files : String → Option String)

/-- The file can be read and the constructor accepts what it holds. -/
def loadable (entry : String × String) : Bool :=
  match files entry.2 with
  | none => false
  | some code => decide (Accepted parses entry.1 code)

/-- The entry a successful `loadScript` stores. -/
def localEntry (entry : String × String) : String × VirtualScript :=
  (entry.1, { id := entry.1, type := .localType, code := (files entry.2).getD "" })

theorem loadScript_of_loadable (store : Store) (entry : String × String)
    (able : loadable parses files entry = true) :
    FSScriptLoader.loadScript parses files store entry =
      .ok (InsertionMap.set store entry.1 (localEntry files entry).2) := by
  unfold loadable at able
  unfold FSScriptLoader.loadScript localEntry
  cases content : files entry.2 with
  | none => simp [content] at able
  | some code =>
    simp only [content, decide_eq_true_eq] at able
    simp only [set_of_accepted parses store _ _ _ able, Option.getD_some]

theorem loadScript_of_not_loadable (store : Store) (entry : String × String)
    (unable : loadable parses files entry = false) (next : Store) :
    FSScriptLoader.loadScript parses files store entry ≠ .ok next := by
  unfold loadable at unable
  unfold FSScriptLoader.loadScript
  cases content : files entry.2 with
  | none => simp
  | some code =>
    simp only [content, decide_eq_false_iff_not] at unable
    intro stored
    exact unable ((set_eq_ok_iff parses _ _ _ _ _).mp stored).1

theorem completed_iff (completions : List (String × String)) :
    FSScriptLoader.Completed parses files completions ↔
      ∀ entry ∈ completions, loadable parses files entry = true := by
  constructor
  · intro completed entry member
    obtain ⟨next, stored⟩ := completed entry member .empty
    by_contra unable
    exact loadScript_of_not_loadable parses files .empty entry (by simpa using unable) next stored
  · intro able entry member store
    exact ⟨_, loadScript_of_loadable parses files store entry (able entry member)⟩

/-- The store after the reads completed in some order: the accepted scripts,
in the order of completion. -/
theorem load_entries (completions : List (String × String))
    (unique : (completions.map Prod.fst).Nodup) (store : Store)
    (fresh : ∀ entry ∈ completions, entry.1 ∉ store.keys) :
    (FSScriptLoader.load parses files store completions).entries =
      store.entries ++ (completions.filter (loadable parses files)).map (localEntry files) := by
  induction completions generalizing store with
  | nil => simp [FSScriptLoader.load]
  | cons head rest ih =>
    have nodup := List.nodup_cons.mp unique
    cases able : loadable parses files head with
    | true =>
      have absent : head.1 ∉ store.keys := fresh head (by simp)
      have still_fresh : ∀ entry ∈ rest,
          entry.1 ∉ (InsertionMap.set store head.1 (localEntry files head).2).keys := by
        intro entry member present
        rw [InsertionMap.keys_set, if_neg absent] at present
        rcases List.mem_append.mp present with old | new
        · exact fresh entry (by simp [member]) old
        · rw [List.mem_singleton] at new
          exact nodup.1 (new ▸ List.mem_map_of_mem member)
      have stepped := ih nodup.2 _ still_fresh
      rw [InsertionMap.entries_set_of_absent _ _ _ absent] at stepped
      unfold FSScriptLoader.load at stepped ⊢
      rw [List.foldl_cons, loadScript_of_loadable parses files store head able, stepped]
      simp [able, localEntry]
    | false =>
      have stepped := ih nodup.2 store fun entry member => fresh entry (by simp [member])
      unfold FSScriptLoader.load at stepped ⊢
      rw [List.foldl_cons]
      cases result : FSScriptLoader.loadScript parses files store head with
      | ok next => exact absurd result (loadScript_of_not_loadable parses files store head able next)
      | error err => simpa [able] using stepped

end

end BrightCli.Source.Scripts
