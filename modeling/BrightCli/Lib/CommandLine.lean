import Mathlib.Data.List.Basic

/-!
# How Windows takes a command line apart

Two stages read the text of a command. The command processor, outside of quotes,
replaces a caret and the character after it by that character. The C runtime of
the started program then splits the text into arguments: blanks separate them
unless they are quoted, and backslashes are special only before a quote, where
`2n` of them denote `n` and leave the quote to open or close a quotation, and
`2n + 1` denote `n` and a literal quote.
-/
namespace BrightCli.Lib.CommandLine

def uncaret : List Char → List Char
  | '^' :: c :: rest => c :: uncaret rest
  | c :: rest => c :: uncaret rest
  | [] => []

def isBlank (c : Char) : Bool := c = ' ' || c = '\t'

def backslashes (n : Nat) : List Char := List.replicate n '\\'

/-- `current` is the argument being read, if one has begun, and `pending` counts
the backslashes directly before the next character. -/
def argvFrom (current : Option (List Char)) (quoted : Bool) (pending : Nat) :
    List Char → List (List Char)
  | [] =>
    match current with
    | none => []
    | some argument => [argument ++ backslashes pending]
  | c :: rest =>
    let begun := current.getD []
    if c = '\\' then argvFrom (some begun) quoted (pending + 1) rest
    else if c = '"' then
      if pending % 2 = 0 then
        argvFrom (some (begun ++ backslashes (pending / 2))) (!quoted) 0 rest
      else argvFrom (some (begun ++ backslashes (pending / 2) ++ ['"'])) quoted 0 rest
    else if isBlank c && !quoted then
      match current with
      | none => argvFrom none false 0 rest
      | some argument => (argument ++ backslashes pending) :: argvFrom none false 0 rest
    else argvFrom (some (begun ++ backslashes pending ++ [c])) quoted 0 rest

def argv (line : List Char) : List (List Char) := argvFrom none false 0 line

example : argv "\"a b\" c\\\\\"d\"".toList = ["a b".toList, "c\\d".toList] := by decide

theorem uncaret_plain {c : Char} (plain : c ≠ '^') (rest : List Char) :
    uncaret (c :: rest) = c :: uncaret rest := by
  cases rest with
  | nil => simp [uncaret]
  | cons d rest => simp [uncaret, plain]

section
variable (argument : List Char) (quoted : Bool) (pending : Nat) (rest : List Char)

theorem argvFrom_backslashes (n : Nat) :
    argvFrom (some argument) quoted pending (backslashes n ++ rest) =
      argvFrom (some argument) quoted (pending + n) rest := by
  induction n generalizing pending with
  | zero => rfl
  | succ n ih =>
    calc argvFrom (some argument) quoted pending (backslashes (n + 1) ++ rest)
        = argvFrom (some argument) quoted (pending + 1) (backslashes n ++ rest) := rfl
      _ = argvFrom (some argument) quoted (pending + (n + 1)) rest := by
        rw [ih, Nat.add_assoc, Nat.add_comm 1 n]

/-- An even number of backslashes leaves the quote its meaning. -/
theorem argvFrom_toggle (n : Nat) :
    argvFrom (some argument) quoted 0 (backslashes (2 * n) ++ '"' :: rest) =
      argvFrom (some (argument ++ backslashes n)) (!quoted) 0 rest := by
  rw [argvFrom_backslashes]
  simp [argvFrom]

/-- An odd number of backslashes makes the quote a character. -/
theorem argvFrom_quote (n : Nat) :
    argvFrom (some argument) quoted 0 (backslashes (2 * n + 1) ++ '"' :: rest) =
      argvFrom (some (argument ++ backslashes n ++ ['"'])) quoted 0 rest := by
  have half : (2 * n + 1) / 2 = n := by omega
  rw [argvFrom_backslashes]
  simp [argvFrom, half, Nat.add_mod]

/-- Within a quotation any other character stands for itself. -/
theorem argvFrom_quoted {c : Char} (n : Nat) (slash : c ≠ '\\') (quote : c ≠ '"') :
    argvFrom (some argument) true 0 (backslashes n ++ c :: rest) =
      argvFrom (some (argument ++ backslashes n ++ [c])) true 0 rest := by
  rw [argvFrom_backslashes]
  simp [argvFrom, slash, quote]

theorem argvFrom_open : argvFrom none false 0 ('"' :: rest) = argvFrom (some []) true 0 rest := rfl

theorem argvFrom_space :
    argvFrom (some argument) false 0 (' ' :: rest) = argument :: argvFrom none false 0 rest := by
  simp [argvFrom, isBlank, backslashes]

theorem argvFrom_end : argvFrom (some argument) quoted 0 [] = [argument] := by
  simp [argvFrom, backslashes]

end

end BrightCli.Lib.CommandLine
