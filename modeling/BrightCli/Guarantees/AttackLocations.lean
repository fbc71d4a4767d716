import Mathlib.Data.List.Nodup
import BrightCli.Source.Scan.AttackParamLocations

/-!
# Deprecated attack parameter locations

The two blocks of `replaceDeprecatedAttackParamLocations` run one after the other on
the same list. `replaceDeprecatedAttackParamLocations_some` gives the list they
leave: what was not deprecated, then each new name that stands for a deprecated one
and was not there already. The guarantees are read off it.
-/
namespace BrightCli.Guarantees.AttackLocations
open BrightCli.Source.Scan

def Deprecated (loc : AttackParamLocation) : Prop :=
  loc = .artificalFragment ∨ loc = .artificalQuery

instance (loc : AttackParamLocation) : Decidable (Deprecated loc) :=
  inferInstanceAs (Decidable (_ ∨ _))

/-- The renaming the migration is meant to carry out. -/
def renamed : AttackParamLocation → AttackParamLocation
  | .artificalFragment => .artificialFragment
  | .artificalQuery => .artificialQuery
  | loc => loc

/-- What one block appends. -/
def added (deprecated replacement : AttackParamLocation) (locations : List AttackParamLocation) :
    List AttackParamLocation :=
  if deprecated ∈ locations ∧ replacement ∉ locations then [replacement] else []

def kept (locations : List AttackParamLocation) : List AttackParamLocation :=
  locations.filter fun loc => ¬ Deprecated loc

def migrated (locations : List AttackParamLocation) : List AttackParamLocation :=
  kept locations ++ added .artificalFragment .artificialFragment locations ++
    added .artificalQuery .artificialQuery locations

theorem mem_added {deprecated replacement loc : AttackParamLocation}
    {locations : List AttackParamLocation} :
    loc ∈ added deprecated replacement locations ↔
      loc = replacement ∧ deprecated ∈ locations ∧ replacement ∉ locations := by
  unfold added
  split
  · next both => simp [both]
  · next neither => simp [neither]

theorem nodup_added (deprecated replacement : AttackParamLocation)
    (locations : List AttackParamLocation) : (added deprecated replacement locations).Nodup := by
  unfold added
  split
  · exact List.nodup_singleton replacement
  · exact List.nodup_nil

theorem mem_kept {loc : AttackParamLocation} {locations : List AttackParamLocation} :
    loc ∈ kept locations ↔ loc ∈ locations ∧ ¬ Deprecated loc := by
  simp [kept]

variable {ρ : Type}

theorem replaceDeprecated_some {deprecated replacement : AttackParamLocation}
    (different : replacement ≠ deprecated) (config : ScanConfig ρ)
    (locations : List AttackParamLocation) :
    replaceDeprecated deprecated replacement { config with attackParamLocations := some locations } =
      { config with
        attackParamLocations := some (locations.filter (fun loc => loc ≠ deprecated) ++
          added deprecated replacement locations) } := by
  by_cases present : deprecated ∈ locations
  · by_cases there : replacement ∈ locations
    · simp [replaceDeprecated, added, present, there, different]
    · simp [replaceDeprecated, added, present, there]
  · have nothing : locations.filter (fun loc => loc ≠ deprecated) = locations := by
      apply List.filter_eq_self.mpr
      intro loc member
      have other : loc ≠ deprecated := ne_of_mem_of_not_mem member present
      simpa using other
    rw [nothing]
    simp [replaceDeprecated, added, present]

theorem replaceDeprecatedAttackParamLocations_some (config : ScanConfig ρ)
    (locations : List AttackParamLocation) :
    replaceDeprecatedAttackParamLocations { config with attackParamLocations := some locations } =
      { config with attackParamLocations := some (migrated locations) } := by
  unfold replaceDeprecatedAttackParamLocations
  rw [replaceDeprecated_some (by decide), replaceDeprecated_some (by decide)]
  -- The second block sees a list that the first one changed in the other name only.
  have front : (locations.filter (fun loc => loc ≠ .artificalFragment) ++
      added .artificalFragment .artificialFragment locations).filter
        (fun loc => loc ≠ .artificalQuery) =
      kept locations ++ added .artificalFragment .artificialFragment locations := by
    rw [List.filter_append, List.filter_filter]
    congr 1
    · apply List.filter_congr
      intro loc _
      cases loc <;> decide
    · apply List.filter_eq_self.mpr
      intro loc member
      rw [(mem_added.mp member).1]
      decide
  have back : added .artificalQuery .artificialQuery
      (locations.filter (fun loc => loc ≠ .artificalFragment) ++
        added .artificalFragment .artificialFragment locations) =
      added .artificalQuery .artificialQuery locations := by
    simp [added]
  rw [front, back]
  rfl

theorem mem_migrated {loc : AttackParamLocation} {locations : List AttackParamLocation} :
    loc ∈ migrated locations ↔ ∃ old ∈ locations, renamed old = loc := by
  simp only [migrated, List.mem_append, mem_kept, mem_added]
  constructor
  · rintro ((⟨member, current⟩ | ⟨rfl, member, _⟩) | ⟨rfl, member, _⟩)
    · refine ⟨loc, member, ?_⟩
      cases loc <;> simp_all [renamed, Deprecated]
    · exact ⟨_, member, rfl⟩
    · exact ⟨_, member, rfl⟩
  · rintro ⟨old, member, rfl⟩
    by_cases current : renamed old ∈ locations
    · refine .inl (.inl ⟨current, ?_⟩)
      cases old <;> simp [renamed, Deprecated]
    · cases old <;> simp_all [renamed, Deprecated]

theorem not_deprecated_of_mem_migrated {loc : AttackParamLocation}
    {locations : List AttackParamLocation} (member : loc ∈ migrated locations) :
    ¬ Deprecated loc := by
  obtain ⟨old, _, rfl⟩ := mem_migrated.mp member
  cases old <;> simp [renamed, Deprecated]

theorem nodup_migrated {locations : List AttackParamLocation} (distinct : locations.Nodup) :
    (migrated locations).Nodup := by
  unfold migrated
  apply List.Nodup.append
  · apply List.Nodup.append (distinct.filter _) (nodup_added ..)
    intro loc old new
    obtain ⟨rfl, _, absent⟩ := mem_added.mp new
    exact absent (mem_kept.mp old).1
  · exact nodup_added ..
  · intro loc earlier later
    obtain ⟨rfl, _, absent⟩ := mem_added.mp later
    rcases List.mem_append.mp earlier with old | new
    · exact absent (mem_kept.mp old).1
    · cases (mem_added.mp new).1

/-- A list without deprecated values is left as it is. -/
theorem migrated_of_current {locations : List AttackParamLocation}
    (current : ∀ loc ∈ locations, ¬ Deprecated loc) : migrated locations = locations := by
  have nothing : ∀ deprecated replacement, Deprecated deprecated →
      added deprecated replacement locations = [] := by
    intro deprecated replacement isDeprecated
    exact if_neg fun both => current deprecated both.1 isDeprecated
  have all : kept locations = locations := by
    apply List.filter_eq_self.mpr
    intro loc member
    exact decide_eq_true (current loc member)
  rw [migrated, nothing _ _ (.inl rfl), nothing _ _ (.inr rfl), all]
  simp

/-- For every list, with whatever order and repetitions. What was not deprecated
stays in front, in its order, and what follows it was not in the list. -/
theorem migration_preserves_meaning (config : ScanConfig ρ)
    (locations : List AttackParamLocation) :
    let given : ScanConfig ρ := { config with attackParamLocations := some locations }
    ∃ result, replaceDeprecatedAttackParamLocations given =
        { config with attackParamLocations := some result } ∧
      (∀ loc ∈ result, ¬ Deprecated loc) ∧
      (∀ loc, loc ∈ result ↔ ∃ old ∈ locations, renamed old = loc) ∧
      (∃ new, result = (locations.filter fun loc => ¬ Deprecated loc) ++ new ∧
        ∀ loc ∈ new, loc ∉ locations) ∧
      (locations.Nodup → result.Nodup) ∧
      replaceDeprecatedAttackParamLocations (replaceDeprecatedAttackParamLocations given) =
        replaceDeprecatedAttackParamLocations given := by
  intro given
  have once := replaceDeprecatedAttackParamLocations_some config locations
  refine ⟨migrated locations, once, ?_, ?_, ?_, nodup_migrated, ?_⟩
  · intro loc member
    exact not_deprecated_of_mem_migrated member
  · intro loc
    exact mem_migrated
  · refine ⟨_, List.append_assoc .., ?_⟩
    intro loc member
    rcases List.mem_append.mp member with fragment | query
    · obtain ⟨rfl, _, absent⟩ := mem_added.mp fragment
      exact absent
    · obtain ⟨rfl, _, absent⟩ := mem_added.mp query
      exact absent
  · rw [once, replaceDeprecatedAttackParamLocations_some config (migrated locations),
      migrated_of_current fun loc member => not_deprecated_of_mem_migrated member]

/-- A missing list stays missing. -/
theorem replaceDeprecatedAttackParamLocations_none (config : ScanConfig ρ)
    (absent : config.attackParamLocations = none) :
    replaceDeprecatedAttackParamLocations config = config := by
  simp [replaceDeprecatedAttackParamLocations, replaceDeprecated, absent]

/-- No request for a scan names a deprecated location, whatever the user has given. -/
theorem sent_locations_current (config : ScanConfig ρ) (locations : List AttackParamLocation)
    (sent : (replaceDeprecatedAttackParamLocations
      (applyDefaultSettings config)).attackParamLocations = some locations) :
    ∀ loc ∈ locations, ¬ Deprecated loc := by
  cases given : (applyDefaultSettings config).attackParamLocations with
  | none =>
    rw [replaceDeprecatedAttackParamLocations_none _ given, given] at sent
    cases sent
  | some before =>
    have whole : applyDefaultSettings config =
        { applyDefaultSettings config with attackParamLocations := some before } := by
      rw [← given]
    rw [whole, replaceDeprecatedAttackParamLocations_some] at sent
    cases sent
    intro loc member
    exact not_deprecated_of_mem_migrated member

end BrightCli.Guarantees.AttackLocations
