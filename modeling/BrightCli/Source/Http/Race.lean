import BrightCli.Lib.PromiseAny
import BrightCli.Source.Http.Executor

/-!
# The attempts of one call

Source: `tryRequestWithCertificates` of `src/RequestExecutor/HttpRequestExecutor.ts`.

`tryRequestWithCertificates` of the executor's model is a function: its world
tells it in which order the attempts settle and which material each of them finds
in the request they share. Here the attempts run side by side, as events, and feed
the promise of `Promise.any`. What an exchange comes to is what the world makes of
it with the material it started with.
-/
namespace BrightCli.Source.Http
open BrightCli.Lib BrightCli.Lib.Js BrightCli.Source.Certificates

structure Race where
  /-- The request before any certificate was loaded into it. -/
  request : Request
  attempts : Attempts
  promise : PromiseAny Response

namespace Race

def start (request : Request) (certs : List Cert) : Race :=
  { request, attempts := .start request certs, promise := .of certs.length }

/-- The result of an attempt whose exchange started with this material. Nothing else
in the shared request changes. -/
def result (world : World) (request : Request) (i : Nat) (material : TlsMaterial) :
    Except Value Response :=
  attemptWithCertificate { world with material := fun _ => material } request i

inductive Event where
  | readCompleted (attempt : Nat) (content : Option Utf8.Bytes)
  | exchangeEnded (attempt : Nat)
  deriving DecidableEq, Repr

def step (world : World) (s : Race) : Event → Option Race
  | .readCompleted i content => do
    let attempts ← s.attempts.step (.readCompleted i content)
    some { s with attempts }
  | .exchangeEnded i =>
    match s.attempts.phases[i]? with
    | some (_, .exchanging material) => do
      let settlement := (result world s.request i material).toOption
      let attempts ← s.attempts.step (.exchangeEnded i settlement.isSome)
      some { s with attempts, promise := s.promise.settle settlement }
    | _ => none

end Race

end BrightCli.Source.Http
