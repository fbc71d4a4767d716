import Mathlib.Data.List.Infix
import BrightCli.Lib.Trace
import BrightCli.Source.Platform

/-!
# Network diagnostics

Source: `testNetwork` and `processOutput` of
`src/Repeater/DefaultRepeaterCommandHub.ts`, and of
`src/Wizard/Readline/ReadlinePlatform.ts` the prompts, `getDelimitedInput` and
the answer to `question` that `processPing` passes to it.

A session is the parent's side of the dialogue with the child process. The
handler of a chunk decodes it on its own, collects its lines and answers at most
once to each of the prompts it finds in it. An exception of `new URL` in the
handler is nobody's and ends the process. The promise settles once.
-/
namespace BrightCli.Source.NetworkTest
open BrightCli.Lib

namespace ReadlinePlatform

def urlsQuestion : String := "Please enter the target URLs to test (separated by commas)"

def hostOrIpQuestion : String := "Please enter the target hostname or IP to test"

def compeledMessage : String := "Communication diagnostics done, close the terminal to exit."

end ReadlinePlatform

open ReadlinePlatform

/-- `os.EOL`. -/
inductive Eol where
  | posix
  | windows
  deriving DecidableEq, Repr

def Eol.text : Eol → String
  | .posix => "\n"
  | .windows => "\r\n"

/-- What the parent does to the child's standard input. -/
inductive Input where
  | write (text : String)
  | finish
  deriving DecidableEq, Repr

inductive Outcome where
  | pending
  | resolved (text : String)
  | rejected (message : String)
  /-- An uncaught exception. -/
  | crashed
  deriving DecidableEq, Repr

structure Session where
  stdout : List String
  stdin : List Input
  outcome : Outcome
  closed : Bool
  deriving DecidableEq, Repr

inductive Event where
  | data (chunk : Utf8.Bytes)
  /-- Event `error` of the child, with the message of its error. -/
  | failed (message : String)
  /-- The code is missing when a signal ended the child. -/
  | close (code : Option Int)
  deriving DecidableEq, Repr

/-- `text.indexOf(needle) > -1`. -/
def includes (text needle : String) : Bool := needle.toList <:+: text.toList

/-- The lines of a chunk that are not empty. -/
def linesOf (chunk : String) : List String :=
  ((chunk.toList.splitOn '\n').map String.ofList).filter (0 < ·.length)

/-- The control code by which a line is typed again. -/
def retype : String := "\x1b[1G"

def endsWith (text ending : String) : Bool := ending.toList <:+ text.toList

def startsWith (text start : String) : Bool := start.toList <+: text.toList

/-- The first filter of `processOutput`. -/
def dropRetyped : List String → List String
  | [] => []
  | element :: rest =>
    if endsWith element retype || rest.head? = some retype then dropRetyped rest
    else element :: dropRetyped rest

def processOutput (input : List String) : String :=
  String.intercalate "\n" ((dropRetyped input).filter fun x => !startsWith x urlsQuestion)

section
variable (platform : Platform) (eol : Eol) (input : List String)

/-- What is written for `URLS_QUESTION`. -/
def urlsAnswer : String := String.intercalate "," input ++ eol.text

/-- What is written for `HOST_OR_IP_QUESTION`, unless `new URL` throws. -/
def hostAnswer : Option String :=
  match input with
  | [] => none
  | first :: _ => (platform.parseUrl first).map fun url => url.hostname ++ eol.text

namespace Session

def new : Session := { stdout := [], stdin := [], outcome := .pending, closed := false }

def put (s : Session) (action : Input) : Session := { s with stdin := s.stdin ++ [action] }

/-- The handler of `data`. -/
def onData (s : Session) (data : Utf8.Bytes) : Session :=
  let chunk := Utf8.decode data
  let s := { s with stdout := s.stdout ++ linesOf chunk }
  let s := if includes chunk urlsQuestion then s.put (.write (urlsAnswer eol input)) else s
  let finish := fun s : Session => if includes chunk compeledMessage then s.put .finish else s
  if includes chunk hostOrIpQuestion then
    match hostAnswer platform eol input with
    | some answer => finish (s.put (.write answer))
    | none => { s with outcome := .crashed }
  else finish s

def settle (s : Session) (outcome : Outcome) : Session :=
  if s.outcome = .pending then { s with outcome } else s

def codeText : Option Int → String
  | some code => toString code
  | none => "null"

/-- The handler of `close`. -/
def onClose (s : Session) (code : Option Int) : Session :=
  let s := { s with closed := true }
  if code ≠ some 0 ∨ s.stdout.length = 0 then
    s.settle (.rejected ("\"Network Diagnostic\" did not start successfully. " ++
      "Process exited with code " ++ codeText code))
  else s.settle (.resolved (processOutput s.stdout))

/-- Output comes before the child is closed, and nothing after a crash. -/
def step (s : Session) : Event → Option Session
  | .data chunk =>
    if s.closed || s.outcome = .crashed then none else some (s.onData platform eol input chunk)
  | .failed message => if s.outcome = .crashed then none else some (s.settle (.rejected message))
  | .close code => if s.closed || s.outcome = .crashed then none else some (s.onClose code)

/-- The texts written to the child's standard input. -/
def answers (s : Session) : List String :=
  s.stdin.filterMap fun action =>
    match action with
    | .write text => some text
    | .finish => none

end Session

/-- The whole dialogue with a child that prints these chunks and exits with code 0. -/
def testNetwork (chunks : List Utf8.Bytes) : Option Session :=
  Trace.run (Session.step platform eol input) .new (chunks.map .data ++ [.close (some 0)])

end

/-- The characters that end a line for `readline`. -/
def isLineEnding (c : Char) : Bool := c = '\n' || c = '\r'

namespace ReadlinePlatform

/-- The answer to a question: the first line of the input. -/
def question (stdin : Utf8.Bytes) : String :=
  String.ofList ((Utf8.decode stdin).toList.takeWhile fun c => !isLineEnding c)

/-- `getDelimitedInput` with a delimiter of one character. -/
def getDelimitedInput (value : String) (delimiter : Char) : List String :=
  let inputVal := trim value
  if inputVal = "" then []
  else (((inputVal.toList.splitOn delimiter).map String.ofList).map trim).filter (· ≠ "")

/-- The URLs that `processPing` reads. -/
def processPing (stdin : Utf8.Bytes) : List String := getDelimitedInput (question stdin) ','

end ReadlinePlatform

end BrightCli.Source.NetworkTest
