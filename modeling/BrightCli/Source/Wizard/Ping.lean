import BrightCli.Source.NetworkTest
import BrightCli.Source.Pool

/-!
# The wizard of `configure --ping`

Source: `start`, `configure`, `processPing`, `question` and `process` of
`src/Wizard/Readline/ReadlinePlatform.ts`, for the option `ping`; at a log level at
which nothing else is printed.

A `Print` is one write to the standard output. The probe of a URL is a call of
`verifyAccess`; it may throw, as `new URL` before it may. The continuation after
its `await` counts, the one of `process` prints; in between others may run.
-/
namespace BrightCli.Source.Wizard
open BrightCli.Lib BrightCli.Source.NetworkTest BrightCli.Source.NetworkTest.ReadlinePlatform

namespace ReadlinePlatform

def internalDiagnostic (eol : Eol) : String :=
  "Starting INTERNAL communication diagnostics:" ++ eol.text

def delimiter (eol : Eol) : String := eol.text ++ "\r--" ++ eol.text

def introduction : String :=
  "Next step is to validate the connection to your INTERNAL (local) target application(s)."

def tryingText (url : String) : String := "Trying to reach " ++ url

end ReadlinePlatform

open ReadlinePlatform

inductive Print where
  | introduction
  | question
  | delimiter
  | internalDiagnostic
  /-- The two writes at the start of `process`. -/
  | trying (url : String)
  | cursor
  /-- The line at its end. -/
  | tried (url : String) (result : Bool)
  | lineEnd
  | completed
  | summary (unreached : Int) (total : Nat)
  | done
  deriving DecidableEq, Repr

namespace Print

def resultText (url : String) (result : Bool) : String :=
  tryingText url ++ "... " ++ if result then "Success" else "Failed"

def summaryText (unreached : Int) (total : Nat) : String :=
  toString unreached ++ " out of " ++ toString total ++ " URLs could not be reached."

/-- `console.log` ends its line with a newline on every platform. -/
def text (eol : Eol) : Print → String
  | .introduction => ReadlinePlatform.introduction ++ eol.text ++ "\n"
  | .question => urlsQuestion ++ ": "
  | .delimiter => ReadlinePlatform.delimiter eol ++ "\n"
  | .internalDiagnostic => ReadlinePlatform.internalDiagnostic eol ++ "\n"
  | .trying url => tryingText url ++ "..."
  | .cursor => retype
  | .tried url result => resultText url result ++ "\n"
  | .lineEnd => eol.text
  | .completed => "INTERNAL communication diagnostics completed." ++ "\n"
  | .summary unreached total => summaryText unreached total ++ "\n"
  | .done => compeledMessage ++ "\n"

end Print

def poolLimit : Nat := 250

/-- `processPing` after the answer. -/
structure Probing where
  urls : List String
  pool : Pool String Unit
  /-- What the handler of each call of `process` returned, `none` before it did. -/
  handlers : List (Option Bool)
  reachedCount : Nat
  deriving DecidableEq, Repr

namespace Probing

def start (urls : List String) : Probing :=
  { urls, pool := .start urls, handlers := [], reachedCount := 0 }

inductive Event where
  | next
  /-- The probe ends; `none` where it throws. -/
  | returned (i : Nat) (result : Option Bool)
  /-- `process` goes on after its handler. -/
  | reported (i : Nat)
  | callback (i : Nat)
  | resume
  | resolve
  deriving DecidableEq, Repr

/-- The output after the pool has resolved, up to the end of `start`. -/
def closing (p : Probing) : List Print :=
  [.lineEnd, .completed, .summary (p.urls.length - p.reachedCount) p.urls.length, .delimiter, .done]

def step (p : Probing) : Event → Option (Probing × List Print)
  | .next => do
    let pool ← p.pool.step poolLimit .next
    match p.pool.items with
    | url :: _ => some ({ p with pool, handlers := p.handlers ++ [none] }, [.trying url, .cursor])
    | [] => some ({ p with pool }, [])
  | .returned i result =>
    match p.handlers[i]? with
    | some none =>
      some ({ p with
        handlers := p.handlers.set i (some (result.getD false))
        reachedCount := p.reachedCount + (result.getD false).toNat }, [])
    | _ => none
  | .reported i =>
    match p.handlers[i]?, p.pool.called[i]? with
    | some (some result), some url => do
      let pool ← p.pool.step poolLimit (.fulfil i ())
      some ({ p with pool }, [.tried url result])
    | _, _ => none
  | .callback i => do
    let pool ← p.pool.step poolLimit (.callback i)
    some ({ p with pool }, [])
  | .resume => do
    let pool ← p.pool.step poolLimit .resume
    some ({ p with pool }, [])
  | .resolve => do
    let pool ← p.pool.step poolLimit .resolve
    some ({ p with pool }, p.closing)

end Probing

inductive Ping where
  | asking
  | probing (p : Probing)
  deriving DecidableEq, Repr

/-- What is printed before the answer. -/
def Ping.opening : List Print := [.introduction, .question]

end BrightCli.Source.Wizard
