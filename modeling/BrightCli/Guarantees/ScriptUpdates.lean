import BrightCli.Guarantees.ScriptSeparation

/-!
# Updates of remote scripts

`compileScripts` empties the store before it constructs the new scripts, and stores
each one as soon as it is constructed. When the constructor throws, the scripts
before the refused one are stored, and those of the previous update are gone.
`update_atomic_iff` says for which updates and stores this goes unnoticed.
-/
namespace BrightCli.Guarantees.ScriptUpdates
open BrightCli.Lib BrightCli.Source BrightCli.Source.Scripts
open BrightCli.Guarantees.ScriptSeparation (KeyedById)

/-- The entry a script of an update is stored as. -/
def remoteEntry (script : String × String) : String × VirtualScript :=
  (script.1, { id := script.1, type := .remoteType, code := script.2 })

/-- The scripts of an update up to the first that the constructor refuses. -/
def accepted (parses : String → Bool) (scripts : List (String × String)) : List (String × String) :=
  scripts.takeWhile fun script => decide (Accepted parses script.1 script.2)

/-- The update is made as a whole, or refused for one of its scripts with the store
as it was. -/
def Atomic (parses : String → Bool) (store : Store) (update : ScriptsUpdate) : Prop :=
  let result := DefaultRepeaterCommandHub.compileScripts parses store update
  (result.2 = .ok () ∧ result.1.entries = update.scripts.map remoteEntry) ∨
  ((∃ err, result.2 = .error err) ∧
    (∃ script ∈ update.scripts, ¬ Accepted parses script.1 script.2) ∧
    result.1.entries = store.entries)

section
variable (parses : String → Bool)

/-- The constructor throws on the first script it refuses, and the store keeps the
scripts before it. The induction is on the scripts still to be set. -/
theorem setRemote_result (scripts : List (String × String))
    (distinct : (scripts.map Prod.fst).Nodup) (store : Store)
    (fresh : ∀ script ∈ scripts, script.1 ∉ store.keys) :
    (DefaultRepeaterCommandHub.setRemote parses store scripts).1.entries =
        store.entries ++ (accepted parses scripts).map remoteEntry ∧
      ((DefaultRepeaterCommandHub.setRemote parses store scripts).2 = .ok () ↔
        ∀ script ∈ scripts, Accepted parses script.1 script.2) := by
  induction scripts generalizing store with
  | nil => simp [DefaultRepeaterCommandHub.setRemote, accepted]
  | cons head rest ih =>
    obtain ⟨wildcard, code⟩ := head
    obtain ⟨unrepeated, distinctRest⟩ := List.nodup_cons.mp distinct
    by_cases able : Accepted parses wildcard code
    · have absent : wildcard ∉ store.keys := fresh (wildcard, code) (by simp)
      have stored := set_of_accepted parses store wildcard .remoteType code able
      have freshRest : ∀ script ∈ rest, script.1 ∉
          (InsertionMap.set store wildcard ⟨wildcard, .remoteType, code⟩).keys := by
        intro script member present
        rw [InsertionMap.keys_set, if_neg absent] at present
        rcases List.mem_append.mp present with old | new
        · exact fresh script (by simp [member]) old
        · rw [List.mem_singleton] at new
          have repeated : script.1 ∈ rest.map Prod.fst := List.mem_map_of_mem member
          rw [new] at repeated
          exact unrepeated repeated
      obtain ⟨entries, returned⟩ := ih distinctRest _ freshRest
      rw [DefaultRepeaterCommandHub.setRemote, stored]
      constructor
      · rw [entries, InsertionMap.entries_set_of_absent _ _ _ absent]
        simp [accepted, able, remoteEntry]
      · rw [returned]
        simp [able]
    · cases result : DefaultVirtualScripts.set parses store wildcard .remoteType code with
      | ok next => exact absurd ((set_eq_ok_iff parses _ _ _ _ _).mp result).1 able
      | error err =>
        rw [DefaultRepeaterCommandHub.setRemote, result]
        simp [accepted, able]

section
variable {store : Store} (keyed : KeyedById store)
  (remote : ∀ entry ∈ store.entries, entry.2.type = .remoteType) (update : ScriptsUpdate)
  (distinct : (update.scripts.map Prod.fst).Nodup)
include keyed remote distinct

/-- What an update leaves behind, whether it returns or throws. -/
theorem compileScripts_result :
    (DefaultRepeaterCommandHub.compileScripts parses store update).1.entries =
        (accepted parses update.scripts).map remoteEntry ∧
      ((DefaultRepeaterCommandHub.compileScripts parses store update).2 = .ok () ↔
        ∀ script ∈ update.scripts, Accepted parses script.1 script.2) := by
  have emptied : (DefaultVirtualScripts.clear store (some .remoteType)).entries = [] := by
    rw [ScriptSeparation.entries_clear keyed, List.filter_eq_nil_iff]
    intro entry member
    simp [remote entry member]
  have vacant :
      ¬ DefaultVirtualScripts.size (DefaultVirtualScripts.clear store (some .remoteType)) ≠ 0 := by
    simp [DefaultVirtualScripts.size, InsertionMap.size, emptied]
  rw [DefaultRepeaterCommandHub.compileScripts, if_neg vacant]
  have result := setRemote_result parses update.scripts distinct
    (DefaultVirtualScripts.clear store (some .remoteType)) (by simp [InsertionMap.keys, emptied])
  rwa [emptied, List.nil_append] at result

/-- An update is all or nothing exactly when the constructor takes all of its
scripts, or the store holds already what the update stores before it throws. -/
theorem update_atomic_iff :
    Atomic parses store update ↔
      (∀ script ∈ update.scripts, Accepted parses script.1 script.2) ∨
        store.entries = (accepted parses update.scripts).map remoteEntry := by
  obtain ⟨entries, returned⟩ := compileScripts_result parses keyed remote update distinct
  unfold Atomic
  dsimp only
  rw [returned, entries]
  by_cases all : ∀ script ∈ update.scripts, Accepted parses script.1 script.2
  · have whole : accepted parses update.scripts = update.scripts := by
      rw [accepted, List.takeWhile_eq_self_iff]
      intro script member
      simpa using all script member
    exact iff_of_true (Or.inl ⟨all, by rw [whole]⟩) (Or.inl all)
  · have thrown : ∃ err,
        (DefaultRepeaterCommandHub.compileScripts parses store update).2 = .error err := by
      cases outcome : (DefaultRepeaterCommandHub.compileScripts parses store update).2 with
      | ok value => exact absurd (returned.mp outcome) all
      | error err => exact ⟨err, rfl⟩
    have refused : ∃ script ∈ update.scripts, ¬ Accepted parses script.1 script.2 := by
      simpa using all
    simp only [all, false_and, false_or, thrown, refused, true_and]
    exact eq_comm

end

end

/-- The store after the update `*: code`. -/
def afterSingle (code : String) : Store :=
  (DefaultRepeaterCommandHub.compileScripts (fun _ => true) .empty (.single code)).1

theorem afterSingle_entries : (afterSingle "a").entries = [remoteEntry ("*", "a")] := by decide

theorem replaced_atomically :
    Atomic (fun _ => true) (afterSingle "a") (.map [("a.test", "b"), ("b.test", "c")]) := by
  refine (update_atomic_iff (fun _ => true) ?_ ?_ (.map [("a.test", "b"), ("b.test", "c")])
    (by decide)).mpr (Or.inl (by decide))
  · simp [KeyedById, afterSingle_entries, remoteEntry]
  · simp [afterSingle_entries, remoteEntry]

/-- The second script of the update is empty: the first one is stored, and the
script of the previous update is gone. -/
theorem refused_update_loses_scripts :
    ¬ Atomic (fun _ => true) (afterSingle "a") (.map [("a.test", "b"), ("b.test", "")]) := by
  intro atomic
  rcases atomic with ⟨returned, -⟩ | ⟨-, -, kept⟩
  · revert returned
    decide
  · revert kept
    decide

end BrightCli.Guarantees.ScriptUpdates
