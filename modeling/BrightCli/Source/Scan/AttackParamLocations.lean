import Mathlib.Data.List.Basic

/-!
# Attack parameter locations of a scan

Source: `src/Scan/Scans.ts` (`AttackParamLocation`) and `src/Scan/RestScans.ts`
(`applyDefaultSettings`, `replaceDeprecatedAttackParamLocations`).

`rest` stands for the settings the two functions pass on. `exclusions` and
`discoveryTypes`, which `applyDefaultSettings` also sets, are not read by the
second function and are left out.
-/
namespace BrightCli.Source.Scan

inductive AttackParamLocation where
  /-- Deprecated, as the next one: the misspelt names. -/
  | artificalFragment
  | artificalQuery
  | artificialFragment
  | artificialQuery
  | body
  | fragment
  | header
  | path
  | query
  deriving DecidableEq, Repr

def attackParamLocationsDefault : List AttackParamLocation := [.body, .fragment, .query]

structure ScanConfig (ρ : Type) where
  attackParamLocations : Option (List AttackParamLocation)
  templateId : Option String
  rest : ρ
  deriving DecidableEq, Repr

variable {ρ : Type}

/-- An empty template id counts as none. -/
def applyDefaultSettings (scanConfig : ScanConfig ρ) : ScanConfig ρ :=
  { scanConfig with
    attackParamLocations :=
      match scanConfig.attackParamLocations with
      | some locations => some locations
      | none =>
        if scanConfig.templateId.getD "" ≠ "" then none else some attackParamLocationsDefault }

/-- The block of the function that is there once for each deprecated name. -/
def replaceDeprecated (deprecated replacement : AttackParamLocation) (scanConfig : ScanConfig ρ) :
    ScanConfig ρ :=
  match scanConfig.attackParamLocations with
  | none => scanConfig
  | some locations =>
    if deprecated ∈ locations then
      let kept := locations.filter fun loc => loc ≠ deprecated
      { scanConfig with
        attackParamLocations :=
          some (if replacement ∈ kept then kept else kept ++ [replacement]) }
    else scanConfig

def replaceDeprecatedAttackParamLocations (scanConfig : ScanConfig ρ) : ScanConfig ρ :=
  replaceDeprecated .artificalQuery .artificialQuery
    (replaceDeprecated .artificalFragment .artificialFragment scanConfig)

end BrightCli.Source.Scan
