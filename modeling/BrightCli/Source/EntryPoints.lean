import BrightCli.Lib.JsValue

/-!
# Entry points of a project

Source: `src/EntryPoint/RestEntryPoints.ts` (`entrypoints`).

The answer of the REST client to the `n`-th request is a parameter; an answer that
is an error leaves the loop. The result is given with the requests that were sent.
-/
namespace BrightCli.Source.EntryPoints
open BrightCli.Lib.Js

structure EntryPoint where
  id : String
  method : String
  url : String
  responseStatus : Int
  connectivity : String
  lastUpdated : String
  lastEdited : String
  lastValidated : String
  parametersCount : Int
  responseTime : Int
  status : String
  openIssuesCount : Int
  closedIssuesCount : Int
  createdAt : String
  deriving DecidableEq, Repr

structure EntryPointsListOptions where
  projectId : String
  limit : Option Nat
  connectivity : Option (List String)
  status : Option (List String)
  deriving DecidableEq, Repr

/-- A request: the path and the parameters of its query. -/
structure Query where
  path : String
  nextId : Option String
  nextCreatedAt : Option String
  connectivity : Option (List String)
  status : Option (List String)
  limit : Int
  deriving DecidableEq, Repr

/-- The `data` of an answer. -/
structure Answer where
  items : Option (List EntryPoint)
  deriving DecidableEq, Repr

abbrev Client := Nat → Query → Except JsError Answer

def entrypointsPaginationBatchSize : Int := 50

def query (options : EntryPointsListOptions) (remaining : Int)
    (nextId nextCreatedAt : Option String) : Query :=
  { path := "/api/v2/projects/" ++ options.projectId ++ "/entry-points"
    nextId, nextCreatedAt
    connectivity := options.connectivity
    status := options.status
    limit := min remaining entrypointsPaginationBatchSize }

/-- The loop of `entrypoints`, from any of its iterations on. -/
def collect (get : Client) (options : EntryPointsListOptions) (remaining : Int)
    (nextId nextCreatedAt : Option String) (sent : List Query) (data : List EntryPoint) :
    List Query × Except JsError (List EntryPoint) :=
  if 0 < remaining then
    let asked := query options remaining nextId nextCreatedAt
    match get sent.length asked with
    | .error err => (sent ++ [asked], .error err)
    | .ok answer =>
      match (answer.items.getD []).getLast? with
      | none => (sent ++ [asked], .ok data)
      | some last =>
        collect get options (remaining - entrypointsPaginationBatchSize) (some last.id)
          (some last.createdAt) (sent ++ [asked]) (data ++ answer.items.getD [])
  else (sent, .ok data)
termination_by remaining.toNat
decreasing_by
  unfold entrypointsPaginationBatchSize
  omega

def entrypoints (get : Client) (options : EntryPointsListOptions) :
    List Query × Except JsError (List EntryPoint) :=
  collect get options (options.limit.getD 10) none none [] []

end BrightCli.Source.EntryPoints
