import BrightCli.Lib.CommandLine
import BrightCli.Source.Helpers

/-!
# Arguments survive the Windows command line

Every meta character of an argument is behind a caret, the quotes around it
included, so the command processor is never in a quotation and gives back the
quoted argument (`uncaret_escapeMeta`). Within the quotation the runtime reads
runs of backslashes by their parity, and the two replacements of the source make
every run that precedes a quote, the closing one included, come out as it was
(`argvFrom_quotedBody`).
-/
namespace BrightCli.Guarantees.ShellQuoting
open BrightCli.Lib.CommandLine BrightCli.Source.Helpers

/-- What stands between the quotes: `escapeQuotes` with the backslashes doubled
that the closing quote follows. -/
def quotedBody (pending : Nat) : List Char → List Char
  | [] => backslashes (2 * pending)
  | c :: rest =>
    if c = '\\' then quotedBody (pending + 1) rest
    else if c = '"' then backslashes (2 * pending + 1) ++ '"' :: quotedBody 0 rest
    else backslashes pending ++ c :: quotedBody 0 rest

theorem doubleTrailing_backslashes (n : Nat) :
    doubleTrailing (List.replicate n '\\') = backslashes (2 * n) := by
  have all : (List.replicate n '\\').rtakeWhile (· = '\\') = List.replicate n '\\' := by
    rw [List.rtakeWhile_eq_self_iff]
    intro c member
    simpa using List.eq_of_mem_replicate member
  rw [doubleTrailing, all, ← List.replicate_add, ← Nat.two_mul]
  rfl

/-- Only what follows the last other character counts as trailing. -/
theorem doubleTrailing_append {c : Char} (other : c ≠ '\\') (front tail : List Char) :
    doubleTrailing (front ++ c :: tail) = front ++ c :: doubleTrailing tail := by
  have same : (front ++ c :: tail).rtakeWhile (· = '\\') = tail.rtakeWhile (· = '\\') := by
    unfold List.rtakeWhile
    rw [List.reverse_append, List.reverse_cons, List.append_assoc, List.takeWhile_append]
    split
    · rename_i full
      have whole := List.takeWhile_prefix (p := fun c => decide (c = '\\')) (l := tail.reverse)
      rw [whole.eq_of_length full]
      simp [other]
    · rfl
  rw [doubleTrailing, same, doubleTrailing, List.append_assoc, List.cons_append]

theorem doubleTrailing_escapeQuotes (pending : Nat) (val : List Char) :
    doubleTrailing (escapeQuotes pending val) = quotedBody pending val := by
  induction val generalizing pending with
  | nil => exact doubleTrailing_backslashes pending
  | cons c rest ih =>
    unfold escapeQuotes quotedBody
    by_cases slash : c = '\\'
    · rw [if_pos slash, if_pos slash, ih]
    · rw [if_neg slash, if_neg slash]
      by_cases quote : c = '"'
      · rw [if_pos quote, if_pos quote, doubleTrailing_append (by decide), ih, ← Nat.two_mul]
        rfl
      · rw [if_neg quote, if_neg quote, doubleTrailing_append slash, ih]
        rfl

theorem uncaret_escapeMeta (val rest : List Char) :
    uncaret (escapeMeta val ++ rest) = val ++ uncaret rest := by
  induction val with
  | nil => rfl
  | cons c tail ih =>
    have cons_meta : escapeMeta (c :: tail) =
        (if c ∈ metaChars then ['^', c] else [c]) ++ escapeMeta tail := rfl
    rw [cons_meta]
    split
    · exact congrArg (c :: ·) ih
    · rename_i plain
      have no_caret : c ≠ '^' := by
        rintro rfl
        exact plain (by decide)
      rw [List.append_assoc, List.singleton_append, uncaret_plain no_caret, ih]
      rfl

/-- Reading the body of a quotation and its closing quote gives the held back
backslashes and the argument. The induction follows the characters of the
argument. -/
theorem argvFrom_quotedBody (val argument rest : List Char) (pending : Nat) :
    argvFrom (some argument) true 0 (quotedBody pending val ++ '"' :: rest) =
      argvFrom (some (argument ++ backslashes pending ++ val)) false 0 rest := by
  induction val generalizing argument pending with
  | nil =>
    rw [quotedBody, argvFrom_toggle, List.append_nil]
    rfl
  | cons c tail ih =>
    unfold quotedBody
    by_cases slash : c = '\\'
    · rw [if_pos slash, ih, slash]
      have moved : backslashes (pending + 1) = backslashes pending ++ ['\\'] :=
        List.replicate_succ'
      rw [moved]
      simp
    · rw [if_neg slash]
      by_cases quote : c = '"'
      · rw [if_pos quote, List.append_assoc, List.cons_append, argvFrom_quote, ih, quote]
        simp [backslashes]
      · rw [if_neg quote, List.append_assoc, List.cons_append, argvFrom_quoted _ _ _ slash quote, ih]
        simp [backslashes]

/-- The quoted argument, before the meta characters are escaped. -/
def quote (val : List Char) : List Char := '"' :: (quotedBody 0 val ++ ['"'])

theorem argvFrom_quote_then (val rest : List Char) :
    argvFrom none false 0 (quote val ++ rest) = argvFrom (some val) false 0 rest := by
  rw [quote, List.cons_append, List.append_assoc, argvFrom_open]
  exact argvFrom_quotedBody val [] rest 0

theorem escapeShellArgument_toList (val : String) :
    (escapeShellArgument val).toList = escapeMeta (quote val.toList) := by
  rw [escapeShellArgument, String.toList_ofList, doubleTrailing_escapeQuotes]
  rfl

/-- The text of the command: the arguments joined with single spaces. -/
def joined (args : List String) : List Char := List.intercalate [' '] (args.map String.toList)

theorem joined_cons_cons (first second : String) (rest : List String) :
    joined (first :: second :: rest) = first.toList ++ ' ' :: joined (second :: rest) := by
  simp [joined, List.intercalate]

/-- The command processor gives back the quoted arguments. -/
theorem uncaret_joined (args : List String) :
    uncaret (joined (args.map escapeShellArgument)) =
      List.intercalate [' '] (args.map fun arg => quote arg.toList) := by
  induction args with
  | nil => rfl
  | cons first rest ih =>
    cases rest with
    | nil =>
      have alone := uncaret_escapeMeta (quote first.toList) []
      simpa [joined, escapeShellArgument_toList, uncaret] using alone
    | cons second rest =>
      rw [List.map_cons, List.map_cons, joined_cons_cons, escapeShellArgument_toList,
        uncaret_escapeMeta, uncaret_plain (by decide), ← List.map_cons, ih]
      simp [List.intercalate]

/-- The runtime reads the quoted arguments as what they quote. -/
theorem argv_quoted (args : List String) :
    argv (List.intercalate [' '] (args.map fun arg => quote arg.toList)) =
      args.map String.toList := by
  unfold argv
  induction args with
  | nil => rfl
  | cons first rest ih =>
    cases rest with
    | nil =>
      have alone := argvFrom_quote_then first.toList []
      rw [List.append_nil] at alone
      rw [List.map_singleton, List.intercalate_singleton, alone, argvFrom_end, List.map_singleton]
    | cons second rest =>
      rw [List.map_cons, List.map_cons, List.intercalate_cons_cons, List.append_assoc,
        List.singleton_append, argvFrom_quote_then, argvFrom_space]
      exact congrArg (first.toList :: ·) ih

theorem ofList_toList_map (args : List String) :
    (args.map String.toList).map String.ofList = args := by
  rw [List.map_map]
  exact List.map_id'' (fun _ => String.ofList_toList) args

/-- Both stages together recover the arguments, whatever they contain. -/
theorem arguments_recovered (args : List String) :
    (argv (uncaret (joined (args.map escapeShellArgument)))).map String.ofList = args := by
  rw [uncaret_joined, argv_quoted, ofList_toList_map]

example : (escapeShellArgument "a\\\"b c\\").toList = "^\"a\\\\\\^\"b^ c\\\\^\"".toList := by decide

/-- On Windows a child gets the arguments that it gets elsewhere without a shell. -/
theorem spawned_arguments (process : Process) (options : ExecOptions) (windows : process.win = true)
    (escaped : options.escape = true) :
    (argv (uncaret (joined (getExecArgs process options).args))).map String.ofList =
      (getExecArgs { process with win := false } options).args := by
  have args : (getExecArgs process options).args =
      (plainExecArgs process options).map escapeShellArgument := by
    simp [getExecArgs, windows, escaped]
  rw [args, uncaret_joined, argv_quoted, ofList_toList_map]
  rfl

end BrightCli.Guarantees.ShellQuoting
