import BrightCli.Lib.Trace
import BrightCli.Source.Scripts

/-!
# Local and remote scripts never mix

The repeater first loads its local scripts and then receives
`scripts-updated` events. One step of the machine is one such event, whether
`compileScripts` returns or throws midway. `scripts_separated` states what holds
after every number of events: with local scripts the store never changes, and
without any it holds remote scripts of the latest update only. The lookup by
host is decided by the moment of insertion, which the map records.
-/
namespace BrightCli.Guarantees.ScriptSeparation
open BrightCli.Lib BrightCli.Lib.Trace
open BrightCli.Source BrightCli.Source.Scripts

def step (parses : String → Bool) (store : Store) (update : ScriptsUpdate) : Option Store :=
  some (DefaultRepeaterCommandHub.compileScripts parses store update).1

/-- Every script is stored under its own id. -/
def KeyedById (store : Store) : Prop := ∀ entry ∈ store.entries, entry.1 = entry.2.id

/-- `find` returns the earliest inserted script whose wildcard matches, and
setting a stored wildcard again does not move it. -/
structure FindsEarliest (parses : String → Bool) (store : Store) : Prop where
  found : ∀ host script, DefaultVirtualScripts.find store host = some script →
    (script.id, script) ∈ store.entries ∧ Helpers.wildcardMatches script.id host = true ∧
      ∀ other, (other.id, other) ∈ store.entries → other ≠ script →
        Helpers.wildcardMatches other.id host = true → store.InsertedBefore script.id other.id
  missed : ∀ host, DefaultVirtualScripts.find store host = none ↔
    ∀ entry ∈ store.entries, Helpers.wildcardMatches entry.2.id host = false
  resets : ∀ wildcard type code next stamp, store.insertedAt wildcard = some stamp →
    DefaultVirtualScripts.set parses store wildcard type code = .ok next →
      next.insertedAt wildcard = some stamp

section
variable (parses : String → Bool)

theorem keyedById_set {store : Store} (keyed : KeyedById store) (script : VirtualScript) :
    KeyedById (InsertionMap.set store script.id script) := by
  intro entry member
  rcases InsertionMap.mem_entries_set store script.id script entry member with rfl | ⟨old, _⟩
  · rfl
  · exact keyed entry old

/-- Clearing one type in place leaves exactly the other scripts, in order. -/
theorem entries_clear {store : Store} (keyed : KeyedById store) (type : VirtualScriptType) :
    (DefaultVirtualScripts.clear store (some type)).entries =
      store.entries.filter fun entry => entry.2.type ≠ type := by
  have own : ∀ entry ∈ store.entries, ∀ key,
      (if entry.2.type = type then some entry.2.id else none) = some key → key = entry.1 := by
    intro entry member key chosen
    split at chosen
    · cases chosen
      exact (keyed entry member).symm
    · cases chosen
  rw [DefaultVirtualScripts.clear, InsertionMap.entries_forEachDelete store _ own]
  apply List.filter_congr
  intro entry _
  by_cases same : entry.2.type = type <;> simp [same]

theorem keyedById_clear {store : Store} (keyed : KeyedById store) (type : VirtualScriptType) :
    KeyedById (DefaultVirtualScripts.clear store (some type)) := by
  intro entry member
  rw [entries_clear keyed] at member
  exact keyed entry (List.mem_filter.mp member).1

/-- What a store may hold after some of an update's scripts were set on top of
scripts that all came from that update. -/
def FromUpdate (update : List (String × String)) (store : Store) : Prop :=
  ∀ entry ∈ store.entries, entry.2.type = .remoteType ∧ (entry.2.id, entry.2.code) ∈ update

/-- The induction is on the scripts still to be set; a throw stops it with
what was set so far. -/
theorem setRemote_keeps (update pending : List (String × String)) (sub : pending ⊆ update)
    (store : Store) (keyed : KeyedById store) (origin : FromUpdate update store) :
    KeyedById (DefaultRepeaterCommandHub.setRemote parses store pending).1 ∧
      FromUpdate update (DefaultRepeaterCommandHub.setRemote parses store pending).1 := by
  induction pending generalizing store with
  | nil => exact ⟨keyed, origin⟩
  | cons head rest ih =>
    obtain ⟨wildcard, code⟩ := head
    unfold DefaultRepeaterCommandHub.setRemote
    cases result : DefaultVirtualScripts.set parses store wildcard .remoteType code with
    | error err => exact ⟨keyed, origin⟩
    | ok next =>
      obtain ⟨_, rfl⟩ := (set_eq_ok_iff parses _ _ _ _ _).mp result
      refine ih (fun pair member => sub (by simp [member])) _ (keyedById_set keyed ⟨wildcard, _, code⟩) ?_
      intro entry member
      rcases InsertionMap.mem_entries_set store wildcard _ entry member with rfl | ⟨old, _⟩
      · exact ⟨rfl, sub (by simp)⟩
      · exact origin entry old

/-- One event on a store that holds a local script changes nothing. -/
theorem compileScripts_of_local {store : Store} (keyed : KeyedById store)
    (locals : ∀ entry ∈ store.entries, entry.2.type = .localType) (loaded : store.entries ≠ [])
    (update : ScriptsUpdate) :
    (DefaultRepeaterCommandHub.compileScripts parses store update).1.entries = store.entries := by
  have kept : (DefaultVirtualScripts.clear store (some .remoteType)).entries = store.entries := by
    rw [entries_clear keyed, List.filter_eq_self]
    intro entry member
    simp [locals entry member]
  have occupied :
      DefaultVirtualScripts.size (DefaultVirtualScripts.clear store (some .remoteType)) ≠ 0 := by
    rw [DefaultVirtualScripts.size, InsertionMap.size, kept]
    simpa using loaded
  rw [DefaultRepeaterCommandHub.compileScripts, if_pos occupied]
  exact kept

/-- One event on a store without local scripts leaves scripts of that event. -/
theorem compileScripts_of_remote {store : Store} (keyed : KeyedById store)
    (remotes : ∀ entry ∈ store.entries, entry.2.type = .remoteType) (update : ScriptsUpdate) :
    KeyedById (DefaultRepeaterCommandHub.compileScripts parses store update).1 ∧
      FromUpdate update.scripts (DefaultRepeaterCommandHub.compileScripts parses store update).1 := by
  have emptied : (DefaultVirtualScripts.clear store (some .remoteType)).entries = [] := by
    rw [entries_clear keyed, List.filter_eq_nil_iff]
    intro entry member
    simp [remotes entry member]
  have vacant :
      ¬ DefaultVirtualScripts.size (DefaultVirtualScripts.clear store (some .remoteType)) ≠ 0 := by
    simp [DefaultVirtualScripts.size, InsertionMap.size, emptied]
  rw [DefaultRepeaterCommandHub.compileScripts, if_neg vacant]
  refine setRemote_keeps parses update.scripts update.scripts (List.Subset.refl _) _
    (keyedById_clear keyed _) ?_
  intro entry member
  rw [emptied] at member
  cases member

theorem findsEarliest_of_keyed {store : Store} (keyed : KeyedById store) :
    FindsEarliest parses store := by
  have lookup : ∀ host, DefaultVirtualScripts.find store host =
      (store.entries.find? fun entry => Helpers.wildcardMatches entry.2.id host).map Prod.snd := by
    intro host
    rw [DefaultVirtualScripts.find, InsertionMap.values, List.find?_map]
    rfl
  refine ⟨?_, ?_, ?_⟩
  · intro host script found
    rw [lookup] at found
    obtain ⟨entry, selected, rfl⟩ := Option.map_eq_some_iff.mp found
    obtain ⟨stored, accepted, earliest⟩ := store.find?_earliest _ entry selected
    rw [← keyed entry stored]
    refine ⟨stored, keyed entry stored ▸ accepted, ?_⟩
    intro other member different matching
    refine earliest (other.id, other) member matching ?_
    intro same
    have equal : (other.id, other) = entry :=
      List.inj_on_of_nodup_map store.keys_nodup member stored same
    exact different (congrArg Prod.snd equal)
  · intro host
    rw [lookup, Option.map_eq_none_iff, List.find?_eq_none]
    exact ⟨fun none entry member => by simpa using none entry member,
      fun unmatched entry member => by simpa using unmatched entry member⟩
  · intro wildcard type code next stamp present stored
    obtain ⟨_, rfl⟩ := (set_eq_ok_iff parses _ _ _ _ _).mp stored
    exact InsertionMap.insertedAt_set_of_present store wildcard _ stamp present

/-- Where the content of the store comes from, after local scripts were loaded
and updates seen. -/
structure Provenance (files : String → Option String) (completions : List (String × String))
    (updates : List ScriptsUpdate) (store : Store) : Prop where
  keyed : KeyedById store
  locals : completions ≠ [] → store.entries = completions.map (localEntry files)
  remotes : completions = [] → ∀ entry ∈ store.entries, entry.2.type = .remoteType ∧
    ∃ update, updates.getLast? = some update ∧ (entry.2.id, entry.2.code) ∈ update.scripts

theorem provenance_of_load (files : String → Option String) (completions : List (String × String))
    (unique : (completions.map Prod.fst).Nodup)
    (completed : FSScriptLoader.Completed parses files completions) :
    Provenance files completions [] (FSScriptLoader.load parses files .empty completions) := by
  have able := (completed_iff parses files completions).mp completed
  have loaded : (FSScriptLoader.load parses files .empty completions).entries =
      completions.map (localEntry files) := by
    rw [load_entries parses files completions unique .empty (by simp [InsertionMap.keys])]
    simp [List.filter_eq_self.mpr able]
  refine ⟨?_, fun _ => loaded, ?_⟩
  · intro entry member
    rw [loaded] at member
    obtain ⟨source, _, rfl⟩ := List.mem_map.mp member
    rfl
  · intro nothing entry member
    rw [loaded, nothing] at member
    cases member

/-- One update, whether it returns or throws. -/
theorem provenance_step (files : String → Option String) (completions : List (String × String))
    (seen : List ScriptsUpdate) (store : Store) (before : Provenance files completions seen store)
    (update : ScriptsUpdate) :
    Provenance files completions (seen ++ [update])
      (DefaultRepeaterCommandHub.compileScripts parses store update).1 := by
  by_cases nothing : completions = []
  · have all_remote : ∀ entry ∈ store.entries, entry.2.type = .remoteType :=
      fun entry member => (before.remotes nothing entry member).1
    obtain ⟨keyed, origin⟩ := compileScripts_of_remote parses before.keyed all_remote update
    refine ⟨keyed, fun some_local => absurd nothing some_local, ?_⟩
    intro _ entry member
    exact ⟨(origin entry member).1, update, by simp, (origin entry member).2⟩
  · have kept := before.locals nothing
    have all_local : ∀ entry ∈ store.entries, entry.2.type = .localType := by
      intro entry member
      rw [kept] at member
      obtain ⟨source, _, rfl⟩ := List.mem_map.mp member
      rfl
    have unchanged := compileScripts_of_local parses before.keyed all_local
      (by simpa [kept] using nothing) update
    refine ⟨?_, fun _ => unchanged.trans kept, fun empty => absurd empty nothing⟩
    intro entry member
    rw [unchanged] at member
    exact before.keyed entry member

/-- After the local scripts were loaded, in any order of completion, and after
any number of updates, each of which may have thrown midway. -/
theorem scripts_separated (files : String → Option String) (scripts : ScriptPaths)
    (completions : List (String × String)) (order : completions.Perm scripts.entries)
    (completed : FSScriptLoader.Completed parses files completions)
    (updates : List ScriptsUpdate) (store : Store)
    (reached : run (step parses) (FSScriptLoader.load parses files .empty completions) updates =
      some store) :
    Provenance files completions updates store ∧ FindsEarliest parses store := by
  have unique : (completions.map Prod.fst).Nodup := (order.map Prod.fst).nodup_iff.mpr scripts.nodup
  have provenance : Provenance files completions updates store := by
    refine run_induction (P := Provenance files completions)
      (provenance_of_load parses files completions unique completed) ?_ reached
    intro seen before update after _ ih stepped
    cases stepped
    exact provenance_step parses files completions seen before ih update
  exact ⟨provenance, findsEarliest_of_keyed parses provenance.keyed⟩

end

def catchAll : ScriptPaths := ⟨[("*", "a.js")], by decide⟩

/-- The second script of three has no code. -/
def throwingUpdate : ScriptsUpdate := .map [("a.test", "a"), ("b.test", ""), ("c.test", "c")]

/-- A local script for every host, then a cloud script the repeater refuses; and no local script,
then an update that is replaced by one that throws midway. -/
theorem kept_local_and_thrown_midway :
    (∃ store, run (step fun _ => true)
        (FSScriptLoader.load (fun _ => true) (fun _ => some "a") .empty catchAll.entries)
        [.single "b"] = some store ∧
      store.entries = [("*", ⟨"*", .localType, "a"⟩)] ∧
      Provenance (fun _ => some "a") catchAll.entries [.single "b"] store ∧
      FindsEarliest (fun _ => true) store) ∧
    ∃ store, run (step fun _ => true) .empty [.single "b", throwingUpdate] = some store ∧
      store.entries = [("a.test", ⟨"a.test", .remoteType, "a"⟩)] ∧
      Provenance (fun _ => none) [] [.single "b", throwingUpdate] store ∧
      FindsEarliest (fun _ => true) store := by
  have completed : FSScriptLoader.Completed (fun _ => true) (fun _ => some "a") catchAll.entries :=
    (completed_iff _ _ _).mpr (by decide)
  have nothing : FSScriptLoader.Completed (fun _ => true) (fun _ => none) [] :=
    (completed_iff _ _ _).mpr (by decide)
  exact ⟨⟨_, rfl, rfl, scripts_separated (fun _ => true) (fun _ => some "a") catchAll catchAll.entries
      (List.Perm.refl _) completed [.single "b"] _ rfl⟩,
    ⟨_, rfl, rfl, scripts_separated (fun _ => true) (fun _ => none) ⟨[], by decide⟩ []
      (List.Perm.refl _) nothing [.single "b", throwingUpdate] _ rfl⟩⟩

end BrightCli.Guarantees.ScriptSeparation
