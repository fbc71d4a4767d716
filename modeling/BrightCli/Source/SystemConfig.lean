import BrightCli.Lib.JsValue
import BrightCli.Lib.Trace

/-!
# Rotation of the system config file

Source: `src/Config/SystemConfigManager.ts`.

The file is given by what `readFile` and `JSON.parse` make of it, and a write
leaves what `JSON.stringify` describes, with the date as its ISO text.
`rotateIfNecessary` reads the clock at three places: for the default record,
before it reads the file; for the comparison; and for the record it writes. A
call of it carries the three readings, the answer to its request, if it makes
one, and whether its write succeeds.
-/
namespace BrightCli.Source.SystemConfig
open BrightCli.Lib BrightCli.Lib.Js

/-- What is found under the path. Parsed data has no accessors. -/
inductive File where
  | missing
  | unreadable (e : JsError)
  | invalid (e : JsError)
  | json (value : Value) (data : ∃ entries, value.spreadEntries = .ok entries)

/-- The greatest time value of a `Date`, in milliseconds. -/
def maxTime : Int := 8640000000000000

/-- The class `Date`: the time value of `new Date(value)`, missing for an invalid
date, and `toISOString`. -/
structure Dates where
  new : Value → Except JsError (Option Int)
  toISOString : Int → String
  new_toISOString : ∀ time, -maxTime ≤ time → time ≤ maxTime →
    new (.str (toISOString time)) = .ok (some time)

/-- `properties` are those of the parsed file, its own `updatedAt` included,
which the date replaces. -/
structure SystemConfigFile where
  properties : List (String × Value)
  updatedAt : Option Int

inductive Response where
  | failed
  | answered (data : Value)

structure Call where
  started : Int
  checked : Int
  stamped : Int
  started_le_checked : started ≤ checked
  checked_le_stamped : checked ≤ stamped
  stamped_valid : -maxTime ≤ stamped ∧ stamped ≤ maxTime
  response : Response
  writes : Bool

def rotationInterval : Int := 3600000

def defaultConfigFile (now : Int) : SystemConfigFile :=
  { properties := [("data", .obj [] [] none)], updatedAt := some now }

/-- `{...fileConfig, updatedAt: new Date(fileConfig.updatedAt)}`. -/
def datedConfig (dates : Dates) (fileConfig : Value) : Except Value SystemConfigFile := do
  let properties ← fileConfig.spreadEntries
  let updatedAt ← fileConfig.get "updatedAt"
  let date ← (dates.new updatedAt).mapError JsError.toValue
  pure { properties, updatedAt := date }

def getConfigFile (dates : Dates) (now : Int) : File → SystemConfigFile
  | .json fileConfig _ =>
    match datedConfig dates fileConfig with
    | .ok configFile => configFile
    | .error _ => defaultConfigFile now
  | .missing => defaultConfigFile now
  | .unreadable _ => defaultConfigFile now
  | .invalid _ => defaultConfigFile now

/-- The life time of an invalid date is `NaN`, and no comparison with it holds. -/
def needsRotation (production : Bool) (now : Int) (configFile : SystemConfigFile) : Bool :=
  production &&
    match configFile.updatedAt with
    | some updatedAt => now - updatedAt ≥ rotationInterval
    | none => false

/-- What `JSON.stringify(configFile)` describes; an invalid date is `null`. -/
def toJson (dates : Dates) (configFile : SystemConfigFile) : Value :=
  .obj (PropertyMap.setEntries configFile.properties "updatedAt"
    (match configFile.updatedAt with
      | some time => .str (dates.toISOString time)
      | none => .null)) [] none

def updateConfigFile (dates : Dates) (writes : Bool) (file : File) (configFile : SystemConfigFile) :
    File :=
  if writes then .json (toJson dates configFile) ⟨_, rfl⟩ else file

/-- The body of the answer, or `undefined` when the request fails. -/
def fetchNewConfig : Response → Value
  | .failed => .undefined
  | .answered data => data

structure Rotation where
  file : File
  /-- `fetchNewConfig` was called. -/
  attempted : Bool
  /-- The value returned. -/
  rotated : Bool

def rotateIfNecessary (dates : Dates) (production : Bool) (file : File) (call : Call) : Rotation :=
  let configFile := getConfigFile dates call.started file
  if needsRotation production call.checked configFile then
    let newConfig := fetchNewConfig call.response
    if newConfig.truthy then
      { file := updateConfigFile dates call.writes file
          { properties := [("data", newConfig)], updatedAt := some call.stamped }
        attempted := true
        rotated := true }
    else
      { file := updateConfigFile dates call.writes file
          { configFile with updatedAt := some call.stamped }
        attempted := true
        rotated := false }
  else { file, attempted := false, rotated := false }

/-- The file and the last reading of the clock. -/
structure State where
  file : File
  clock : Int

/-- Calls follow each other, and the clock does not go back. -/
def step (dates : Dates) (production : Bool) (s : State) (call : Call) : Option State :=
  if s.clock ≤ call.started then
    some { file := (rotateIfNecessary dates production s.file call).file, clock := call.stamped }
  else none

end BrightCli.Source.SystemConfig
