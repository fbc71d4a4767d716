import Mathlib.Data.List.DropRight
import BrightCli.Lib.RegExp

/-!
# Helpers

Source: `src/Utils/Helpers.ts` (`wildcardToRegExp`, `regExpEscape`,
`portFromURL`, `getExecArgs`, `escapeShellArgument`). A `Url` is what the WHATWG
parser returns of a URL, restricted to the members the client reads.
-/
namespace BrightCli.Source.Helpers
open BrightCli.Lib

/-- `s.split(/\*+/)`: the pieces between maximal runs of stars. -/
def splitStars : List Char → List (List Char)
  | [] => [[]]
  | c :: rest =>
    if c = '*' then
      if rest.head? = some '*' then splitStars rest else [] :: splitStars rest
    else
      match splitStars rest with
      | piece :: pieces => (c :: piece) :: pieces
      | [] => [[c]]

/-- The pattern text handed to the `RegExp` constructor. -/
def wildcardToRegExp (s : String) : List Char :=
  '^' :: (List.intercalate ['.', '*'] ((splitStars s.toList).map RegExp.escape) ++ ['$'])

/-- `Helpers.wildcardToRegExp(wildcard).test(host)`. -/
def wildcardMatches (wildcard host : String) : Bool :=
  RegExp.test (wildcardToRegExp wildcard) host.toList

structure Url where
  protocol : String
  hostname : String
  port : String
  deriving DecidableEq, Repr

def portFromURL (url : Url) : String :=
  if url.port ≠ "" then url.port
  else if url.protocol = "http:" then "80"
  else if url.protocol = "https:" then "443"
  else ""

/-- `val.replace(/(\\*)"/g, '$1$1\\"')`. The backslashes of a run are held back
until the character after it is known. -/
def escapeQuotes (pending : Nat) : List Char → List Char
  | [] => List.replicate pending '\\'
  | c :: rest =>
    if c = '\\' then escapeQuotes (pending + 1) rest
    else if c = '"' then
      List.replicate (pending + pending + 1) '\\' ++ '"' :: escapeQuotes 0 rest
    else List.replicate pending '\\' ++ c :: escapeQuotes 0 rest

/-- `val.replace(/(\\*)$/, '$1$1')`. -/
def doubleTrailing (val : List Char) : List Char := val ++ val.rtakeWhile (· = '\\')

/-- `META_CHARS_REGEXP`. -/
def metaChars : List Char := "()][%!^\"`<>&|;, *?".toList

def escapeMeta (val : List Char) : List Char :=
  val.flatMap fun c => if c ∈ metaChars then ['^', c] else [c]

def escapeShellArgument (val : String) : String :=
  String.ofList (escapeMeta ('"' :: (doubleTrailing (escapeQuotes 0 val.toList) ++ ['"'])))

/-- The running process; `execPath` is normalised, `entrypoint` is that of a
packaged executable. -/
structure Process where
  argv : List String
  execArgv : List String
  execPath : String
  entrypoint : Option String
  win : Bool
  deriving DecidableEq, Repr

structure ExecOptions where
  excluded : Option (List String) := none
  included : Option (List String) := none
  excludeAll : Bool := false
  escape : Bool := true
  spawn : Bool := false
  deriving DecidableEq, Repr

structure CommandArgs where
  command : String
  args : List String
  shell : Bool
  windowsVerbatimArguments : Bool
  deriving DecidableEq, Repr

/-- The arguments before any escaping. -/
def plainExecArgs (process : Process) (options : ExecOptions) : List String :=
  let args := process.argv.drop 1
  let args := if options.excludeAll then args.take 1 else args
  let args := args ++ options.included.getD []
  let args := args.filter fun arg => arg ∉ options.excluded.getD []
  (process.execArgv ++ args).filter fun arg =>
    match process.entrypoint with
    | some entrypoint => options.spawn || !entrypoint.toList.isPrefixOf arg.toList
    | none => true

def getExecArgs (process : Process) (options : ExecOptions) : CommandArgs :=
  let args := plainExecArgs process options
  if process.win && options.escape then
    { command := "\"" ++ process.execPath ++ "\""
      args := args.map escapeShellArgument
      shell := process.win
      windowsVerbatimArguments := true }
  else
    { command := process.execPath, args, shell := process.win, windowsVerbatimArguments := false }

theorem splitStars_ne_nil (s : List Char) : splitStars s ≠ [] := by
  induction s with
  | nil => simp [splitStars]
  | cons c rest ih =>
    unfold splitStars
    split
    · split
      · exact ih
      · simp
    · split <;> simp

/-- The constructor accepts the pattern of every wildcard, so `test` reads it
as literals with gaps and the lookup by host cannot throw. -/
theorem wildcardToRegExp_parses (s : String) :
    RegExp.parse (wildcardToRegExp s) =
      some (List.intercalate [.dotStar] ((splitStars s.toList).map (·.map .lit))) := by
  obtain ⟨piece, pieces, shape⟩ := List.exists_cons_of_ne_nil (splitStars_ne_nil s.toList)
  rw [wildcardToRegExp, shape]
  exact RegExp.parse_joined piece pieces

example : wildcardMatches "*.example.com" "test.sub.example.com" = true := by decide

example : wildcardMatches "a.b" "axb" = false := by decide

end BrightCli.Source.Helpers
