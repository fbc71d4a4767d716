import BrightCli.Lib.PropertyMap
import BrightCli.Lib.Uri
import BrightCli.Source.Platform

/-!
# Headers given on the command line

Source: `src/Utils/Helpers.ts` (`parseHeaders`, `parseHeader`),
`src/Commands/RunScan.ts`, `src/Commands/RunDiscovery.ts`,
`src/Scan/RestScans.ts` (`prepareScanConfig`),
`src/Discovery/RestDiscoveries.ts` (`prepareConfig`).

Of the two commands and of the two configurations that are posted only the
headers are modelled. An option that was not given is `undefined`.
-/
namespace BrightCli.Source.Headers
open BrightCli.Lib

inductive ParseError where
  /-- `parseHeader` returns nothing for an empty string, which is not iterable. -/
  | notIterable
  /-- `URIError` of `decodeURIComponent`. -/
  | malformed
  deriving DecidableEq, Repr

def decoded (item : String) : Except ParseError String :=
  match Uri.decodeURIComponent (trim item) with
  | some text => .ok text
  | none => .error .malformed

/-- What follows the first colon. -/
def headerValue (header : String) : String :=
  String.ofList (List.intercalate [':'] (header.toList.splitOn ':').tail)

def headerName (header : String) : String :=
  String.ofList ((header.toList.splitOn ':').headD [])

def parseHeader (header : String) : Except ParseError (String × String) :=
  if header = "" then .error .notIterable
  else do
    let key ← decoded (headerName header)
    let value ← decoded (headerValue header)
    .ok (key, value)

/-- One step of the `reduce` of `parseHeaders`. -/
def addHeader (acc : PropertyMap String) (header : String) :
    Except ParseError (PropertyMap String) := do
  let parsed ← parseHeader header
  .ok (acc.set parsed.1 parsed.2)

def parseHeaders (headers : List String) : Except ParseError (PropertyMap String) :=
  headers.foldlM addHeader .empty

structure Header where
  name : String
  value : String
  mergeStrategy : String
  deriving DecidableEq, Repr

/-- The part of both REST clients that turns the entries of an object into headers. -/
def headersOf (entries : Option (List (String × String))) : Option (List Header) :=
  entries.map fun entries =>
    entries.map fun entry => { name := entry.1, value := entry.2, mergeStrategy := "replace" }

/-- `Object.entries` of an array of strings. -/
def arrayEntries (items : List String) : List (String × String) :=
  items.zipIdx.map fun item => (toString item.2, item.1)

namespace RestScans

def prepareScanConfig : Option (PropertyMap String) → Option (List Header) :=
  fun headers => headersOf (headers.map PropertyMap.entries)

end RestScans

namespace RestDiscoveries

/-- The configuration is cast to its type; what arrives as headers is the array of
the arguments. -/
def prepareConfig (headers : Option (List String)) : Option (List Header) :=
  headersOf (headers.map arrayEntries)

end RestDiscoveries

/-- The headers that `scan:run` posts. -/
def RunScan.handler (header : Option (List String)) : Except ParseError (Option (List Header)) := do
  let headers ← parseHeaders (header.getD [])
  .ok (RestScans.prepareScanConfig (some headers))

/-- The headers that `discovery:run` posts. -/
def RunDiscovery.handler (header : Option (List String)) :
    Except ParseError (Option (List Header)) :=
  .ok (RestDiscoveries.prepareConfig header)

end BrightCli.Source.Headers
