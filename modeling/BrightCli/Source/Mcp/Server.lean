import BrightCli.Lib.Json
import BrightCli.Source.Mcp.RepeaterTools

/-!
# The MCP server

Source: `callTool`, `executeTool` and `close` of `src/Mcp/McpServer.ts`.

A request to call a tool is a step up to the first `await` of the tool, and its reply
is another one, after the call of the tool has ended. Of the arguments only the members
that the tools read are given; the SDK does not check them against `inputSchema`.
`toISOString` of a date is a parameter. The listing of the tools, and the JSON-RPC
messages around a request and its reply, belong to the SDK.
-/
namespace BrightCli.Source.Mcp
open BrightCli.Lib

/-- The arguments of a call; every member is missing from `{}`. An `id` that is not a
string counts as missing. -/
structure ToolInput where
  id : Option String
  hostname : Option String
  signal : Option String
  deriving DecidableEq, Repr

/-- The one block of content is a text. -/
structure CallToolResult where
  isError : Bool
  text : String
  deriving DecidableEq, Repr

/-- A member that is `undefined` is left out of the text. -/
def member (key : String) : Option Json → List (String × Json)
  | some value => [(key, value)]
  | none => []

section
variable (iso : Nat → String)

/-- What `JSON.stringify` sees of a status. -/
def statusJson (status : RepeaterProcessStatus) : Json :=
  .obj ([("id", .str status.id), ("running", .bool status.running)] ++
    member "pid" (status.pid.map fun pid => .num pid) ++
    [("startedAt", .str (iso status.startedAt))] ++
    member "exitedAt" (status.exitedAt.map fun at_ => .str (iso at_)) ++
    member "exitCode" (status.exitCode.map fun code => code.elim .null .num) ++
    member "lastError" (status.lastError.map .str))

def success (status : RepeaterProcessStatus) : CallToolResult :=
  { isError := false, text := (statusJson iso status).pretty }

end

def failure (message : String) : CallToolResult := { isError := true, text := message }

inductive ToolCall where
  /-- Awaits a call of `run`, or of `stop`. -/
  | running (run : Nat)
  | stopping (stop : Nat)
  | replied (result : CallToolResult)
  deriving DecidableEq, Repr

structure Server where
  tools : RepeaterTools
  calls : List ToolCall

namespace Server

def init : Server := { tools := .init, calls := [] }

/-- A request, and what the world makes of it. -/
structure Request where
  name : String
  input : ToolInput
  /-- `extra.authInfo?.token` and `process.env.BRIGHT_TOKEN`. -/
  token : Option String
  env : Option String
  spawn : Spawn
  kill : Kill
  now : Nat

variable (iso : Nat → String)

/-- The tools after the call has begun, and what is awaited. -/
def executeTool (tools : RepeaterTools) (request : Request) :
    Except String (RepeaterTools × ToolCall) :=
  let input := request.input
  if request.name = "runRepeater" then do
    let next ← tools.run { id := input.id, hostname := input.hostname } request.token request.env
      request.spawn request.now
    .ok (next, .running tools.runs.length)
  else if request.name = "stopRepeater" then do
    let next ← tools.stop { id := input.id, signal := input.signal } request.kill
    .ok (next, .stopping tools.stops.length)
  else if request.name = "repeaterStatus" then do
    let status ← tools.status input.id
    .ok (tools, .replied (success iso status))
  else .error ("Unknown tool: " ++ request.name)

def callTool (server : Server) (request : Request) : Server :=
  match executeTool iso server.tools request with
  | .ok (tools, call) => { tools, calls := server.calls ++ [call] }
  | .error message => { server with calls := server.calls ++ [.replied (failure message)] }

/-- What `callTool` goes on with after its `await`; `none` while it waits. -/
def outcome (tools : RepeaterTools) : ToolCall → Option CallToolResult
  | .running k =>
    match tools.runs[k]?.map RunCall.phase with
    | some (.returned status) => some (success iso status)
    | some (.threw message) => some (failure message)
    | _ => none
  | .stopping k =>
    match tools.stops[k]?.map StopCall.phase with
    | some (.returned status) => some (success iso status)
    | some (.threw message) => some (failure message)
    | _ => none
  | .replied _ => none

inductive Event where
  | call (request : Request)
  | childError (entry : Nat) (message : String)
  | childExit (entry : Nat) (code : Option Int) (signal : Option String) (now : Nat)
  | graceElapsed (run : Nat)
  | runResumed (run : Nat)
  | stopResumed (stop : Nat) (outcome : Kill)
  | reply (call : Nat)
  /-- `close` up to the end of `stopAll`; the connection is closed later. -/
  | close (outcomes : String → Kill)

/-- The event of the tools that an event of the server is, unless it is a request or a reply. -/
def Event.tools : Event → Option RepeaterTools.Event
  | .call _ | .reply _ => none
  | .childError i message => some (.childError i message)
  | .childExit i code signal now => some (.childExit i code signal now)
  | .graceElapsed k => some (.graceElapsed k)
  | .runResumed k => some (.runResumed k)
  | .stopResumed k outcome => some (.stopResumed k outcome)
  | .close outcomes => some (.stopAll outcomes)

def reply (server : Server) (i : Nat) : Option Server := do
  let call ← server.calls[i]?
  let result ← outcome iso server.tools call
  some { server with calls := server.calls.set i (.replied result) }

def step (server : Server) (event : Event) : Option Server :=
  match event with
  | .call request => some (server.callTool iso request)
  | .reply i => server.reply iso i
  | other => do
    let inner ← other.tools
    let tools ← server.tools.step inner
    some { server with tools }

end Server

end BrightCli.Source.Mcp
