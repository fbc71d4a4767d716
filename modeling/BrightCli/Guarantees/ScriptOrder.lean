import BrightCli.Source.Scripts

/-!
# Script selection and the order of file reads

`FSScriptLoader.load` starts all reads at once and every `loadScript` stores
its script when its own read completes, so the place of a script in the store
is the place of its read among the completions, while `find` resolves colliding
wildcards by place. `selection_fixed_iff` says for which maps this does not
show: no order of completion can matter only when at most one of the files
gives a script at all.
-/
namespace BrightCli.Guarantees.ScriptOrder
open BrightCli.Lib
open BrightCli.Source BrightCli.Source.Scripts

/-- The promise: the ordered content of the store does not depend on the order
in which the reads complete, and a host gets the script of the first wildcard
of the given map that matches it. -/
structure SelectionFixed (parses : String → Bool) (files : String → Option String)
    (scripts : ScriptPaths) : Prop where
  content : ∀ first second, first.Perm scripts.entries → second.Perm scripts.entries →
    (FSScriptLoader.load parses files .empty first).entries =
      (FSScriptLoader.load parses files .empty second).entries
  selects : ∀ completions, completions.Perm scripts.entries → ∀ host,
    DefaultVirtualScripts.find (FSScriptLoader.load parses files .empty completions) host =
      (scripts.entries.find? fun entry => Helpers.wildcardMatches entry.1 host).map
        fun entry => (localEntry files entry).2

section
variable (parses : String → Bool) (files : String → Option String) (scripts : ScriptPaths)

theorem loaded_entries (completions : List (String × String))
    (order : completions.Perm scripts.entries) :
    (FSScriptLoader.load parses files .empty completions).entries =
      (completions.filter (loadable parses files)).map (localEntry files) := by
  have unique : (completions.map Prod.fst).Nodup := (order.map Prod.fst).nodup_iff.mpr scripts.nodup
  rw [load_entries parses files completions unique .empty (by simp [InsertionMap.keys])]
  simp

theorem find_loaded (completions : List (String × String))
    (order : completions.Perm scripts.entries) (host : String) :
    DefaultVirtualScripts.find (FSScriptLoader.load parses files .empty completions) host =
      ((completions.filter (loadable parses files)).find? fun entry =>
        Helpers.wildcardMatches entry.1 host).map fun entry => (localEntry files entry).2 := by
  rw [DefaultVirtualScripts.find, InsertionMap.values,
    loaded_entries parses files scripts completions order, List.map_map, List.find?_map]
  rfl

/-- A list without repetitions that reads the same backwards has one element at most. -/
theorem length_le_one_of_reverse_eq {α : Type} (l : List α) (unique : l.Nodup)
    (same : l.reverse = l) : l.length ≤ 1 := by
  match l with
  | [] => simp
  | [_] => simp
  | first :: second :: rest =>
    have ends : (first :: second :: rest).reverse.head? = some first := by rw [same]; rfl
    rw [List.head?_reverse, List.getLast?_cons_cons] at ends
    exact absurd (List.mem_of_getLast? ends) (List.nodup_cons.mp unique).1

/-- Dropping refused elements does not change a search whose first match is kept. -/
theorem find?_filter_of_first {α : Type} (p q : α → Bool) (l : List α)
    (first : ∀ x, l.find? q = some x → p x = true) : (l.filter p).find? q = l.find? q := by
  induction l with
  | nil => rfl
  | cons head rest ih =>
    cases hq : q head with
    | true =>
      have hp : p head = true := first head (by simp [hq])
      simp [hp, hq]
    | false =>
      have tail := ih fun x found => first x (by simpa [hq] using found)
      cases hp : p head <;> simpa [hp, hq] using tail

theorem loaded_nodup :
    ((scripts.entries.filter (loadable parses files)).map (localEntry files)).Nodup := by
  have keys : ((scripts.entries.filter (loadable parses files)).map Prod.fst).Nodup :=
    scripts.nodup.sublist (List.filter_sublist.map Prod.fst)
  refine List.Nodup.of_map Prod.fst ?_
  rw [List.map_map]
  exact keys

/-- With at most one script the order of completion leaves no choice. -/
theorem loadable_of_perm (short : (scripts.entries.filter (loadable parses files)).length ≤ 1)
    (completions : List (String × String)) (order : completions.Perm scripts.entries) :
    completions.filter (loadable parses files) =
      scripts.entries.filter (loadable parses files) := by
  have perm := order.filter (loadable parses files)
  rcases shape : scripts.entries.filter (loadable parses files) with _ | ⟨only, rest⟩
  · rw [shape] at perm
    exact perm.eq_nil
  · have none_left : rest = [] := by
      rw [shape] at short
      exact List.eq_nil_of_length_eq_zero (by simpa using short)
    rw [shape, none_left] at perm
    rw [none_left]
    exact List.perm_singleton.mp perm

section
variable {parses files scripts} (fixed : SelectionFixed parses files scripts)
include fixed

/-- Compare the completions in map order with the same completions reversed. -/
theorem at_most_one_of_fixed : (scripts.entries.filter (loadable parses files)).length ≤ 1 := by
  have same := fixed.content scripts.entries.reverse scripts.entries
    (List.reverse_perm _) (List.Perm.refl _)
  rw [loaded_entries parses files scripts _ (List.reverse_perm _),
    loaded_entries parses files scripts _ (List.Perm.refl _), List.filter_reverse,
    List.map_reverse] at same
  have short := length_le_one_of_reverse_eq _ (loaded_nodup parses files scripts) same
  simpa using short

theorem first_loadable_of_fixed (host : String) (entry : String × String)
    (first : (scripts.entries.find? fun entry => Helpers.wildcardMatches entry.1 host) =
      some entry) : loadable parses files entry = true := by
  have selected := fixed.selects scripts.entries (List.Perm.refl _) host
  rw [find_loaded parses files scripts _ (List.Perm.refl _), first, Option.map_some] at selected
  obtain ⟨chosen, found, same⟩ := Option.map_eq_some_iff.mp selected
  obtain ⟨member, able⟩ := List.mem_filter.mp (List.mem_of_find?_eq_some found)
  have key : chosen.1 = entry.1 := congrArg VirtualScript.id same
  have equal : chosen = entry := List.inj_on_of_nodup_map scripts.nodup member
    (List.mem_of_find?_eq_some first) key
  rw [← equal]
  exact able

end

/-- Timing cannot show exactly when at most one file gives a script and no
host's first wildcard is one whose script was refused. -/
theorem selection_fixed_iff :
    SelectionFixed parses files scripts ↔
      (scripts.entries.filter (loadable parses files)).length ≤ 1 ∧
      ∀ host entry,
        (scripts.entries.find? fun entry => Helpers.wildcardMatches entry.1 host) = some entry →
          loadable parses files entry = true := by
  constructor
  · intro fixed
    exact ⟨at_most_one_of_fixed fixed, first_loadable_of_fixed fixed⟩
  · intro condition
    obtain ⟨short, first_loads⟩ := condition
    have content := loadable_of_perm parses files scripts short
    constructor
    · intro first second order₁ order₂
      rw [loaded_entries parses files scripts _ order₁, loaded_entries parses files scripts _ order₂,
        content first order₁, content second order₂]
    · intro completions order host
      rw [find_loaded parses files scripts _ order, content completions order,
        find?_filter_of_first _ _ _ (first_loads host)]

end

/-- A specific wildcard before a general one, both readable and accepted. -/
def colliding : ScriptPaths := ⟨[("*.example.com", "a.js"), ("*", "b.js")], by decide⟩

/-- The general script's file is read first, so it shadows the specific one. -/
theorem colliding_depends_on_timing :
    ¬ SelectionFixed (fun _ => true) (fun path => some path) colliding := by
  intro fixed
  have selected := fixed.selects colliding.entries.reverse (List.reverse_perm _) "x.example.com"
  revert selected
  decide

end BrightCli.Guarantees.ScriptOrder
