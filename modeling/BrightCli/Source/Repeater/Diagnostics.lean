import BrightCli.Lib.Pipe
import BrightCli.Source.Wizard.Ping

/-!
# The two ends of a ping

Source: `testNetwork` of `src/Repeater/DefaultRepeaterCommandHub.ts` with the child it
spawns, `ReadlinePlatform.start` of `src/Wizard/Readline/ReadlinePlatform.ts`.

A read of the parent takes some of what has arrived of the child's output, at most as
much as its buffer holds, so a chunk has several writes or part of one. The child is not
killed: it exits when the wizard is idle and its standard input has ended. `close` comes
when it has exited and all its output is read.
-/
namespace BrightCli.Source.Repeater
open BrightCli.Lib BrightCli.Source.NetworkTest BrightCli.Source.Wizard

structure Diagnostics where
  child : Ping
  stdout : Pipe Print UInt8
  session : Session
  exited : Bool

namespace Diagnostics

/-- The buffer for a read of a stream. -/
def readLimit : Nat := 65536

def bytes (eol : Eol) (print : Print) : Utf8.Bytes := Utf8.encode (print.text eol)

def start : Diagnostics :=
  { child := .asking, stdout := .holding Ping.opening, session := .new, exited := false }

inductive Event where
  /-- A read of this many bytes, when so many more writes have arrived. -/
  | read (writes size : Nat)
  /-- The child reads its answer. -/
  | answered
  | child (event : Probing.Event)
  | exit
  | close
  deriving DecidableEq, Repr

def idle : Ping → Bool
  | .asking => true
  | .probing p =>
    match p.pool.phase with
    | .resolved _ => true
    | _ => false

section
variable (platform : Platform) (eol : Eol) (input : List String)

def step (s : Diagnostics) : Event → Option Diagnostics
  | .read writes size => do
    let (chunk, stdout) ← s.stdout.read readLimit (bytes eol) writes size
    let session ← s.session.step platform eol input (.data chunk)
    some { s with stdout, session }
  | .answered =>
    match s.child, s.exited, s.session.answers with
    | .asking, false, first :: rest =>
      let urls := ReadlinePlatform.processPing (Utf8.encode (String.join (first :: rest)))
      some { s with
        child := .probing (.start urls)
        stdout := s.stdout.write [.delimiter, .internalDiagnostic] }
    | _, _, _ => none
  | .child event =>
    match s.child, s.exited with
    | .probing p, false => do
      let (p, prints) ← p.step event
      some { s with child := .probing p, stdout := s.stdout.write prints }
    | _, _ => none
  | .exit =>
    if !s.exited && idle s.child && s.session.stdin.contains .finish then some { s with exited := true }
    else none
  | .close =>
    if s.exited && s.stdout.pending.isEmpty && s.stdout.rest.isEmpty then do
      let session ← s.session.step platform eol input (.close (some 0))
      some { s with session }
    else none

end

end Diagnostics

end BrightCli.Source.Repeater
