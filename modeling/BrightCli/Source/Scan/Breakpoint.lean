/-!
# Severities, scan states and breakpoints

Source: `src/Scan/Severity.ts`, `src/Scan/Scans.ts`, `src/Scan/Breakpoint.ts`,
`src/Scan/Breakpoints/OnSeverity.ts`, `src/Scan/DefaultBreakpointFactory.ts`.

`severityRanges` is kept as the table the source builds, in the order of
`Object.values(Severity)`. `Severity.rank` is the independent reading of "at or
above": nothing in the source computes it.
-/
namespace BrightCli.Source.Scan

inductive Severity where
  | medium | high | low | critical
  deriving DecidableEq, Repr

namespace Severity

/-- `Object.values(Severity)`. -/
def values : List Severity := [medium, high, low, critical]

def text : Severity → String
  | medium => "Medium"
  | high => "High"
  | low => "Low"
  | critical => "Critical"

def rank : Severity → Nat
  | low => 0
  | medium => 1
  | high => 2
  | critical => 3

end Severity

def severityRanges : List (Severity × List Severity) :=
  Severity.values.map fun severity =>
    match severity with
    | .critical => (severity, [.critical])
    | .high => (severity, [.high, .critical])
    | .medium => (severity, [.medium, .high, .critical])
    | .low => (severity, Severity.values)

inductive ScanStatus where
  | running | pending | stopped | failed | done | disrupted | scheduled | queued
  deriving DecidableEq, Repr

structure ScanState where
  numberOfLowSeverityIssues : Int
  numberOfMediumSeverityIssues : Int
  numberOfHighSeverityIssues : Int
  numberOfCriticalSeverityIssues : Int
  status : ScanStatus
  deriving DecidableEq, Repr

/-- The computed member access with key `numberOf${severity}SeverityIssues`. -/
def ScanState.issues (state : ScanState) : Severity → Int
  | .low => state.numberOfLowSeverityIssues
  | .medium => state.numberOfMediumSeverityIssues
  | .high => state.numberOfHighSeverityIssues
  | .critical => state.numberOfCriticalSeverityIssues

structure BreakpointException where
  message : String
  deriving DecidableEq, Repr

structure OnSeverity where
  severity : Severity
  breakSeverities : List Severity
  deriving DecidableEq, Repr

namespace OnSeverity

def new (severity : Severity) : OnSeverity :=
  { severity, breakSeverities := (severityRanges.lookup severity).getD [] }

def breakOn (breakpoint : OnSeverity) : BreakpointException :=
  { message := "Bright CLI found a first " ++ breakpoint.severity.text ++ " issue." }

def isExcepted (breakpoint : OnSeverity) (stats : ScanState) : Bool :=
  breakpoint.breakSeverities.any fun severity => decide (stats.issues severity > 0)

/-- `Breakpoint.execute`, inherited. -/
def execute (breakpoint : OnSeverity) (stats : ScanState) : Except BreakpointException Unit :=
  if breakpoint.isExcepted stats then .error breakpoint.breakOn else .ok ()

end OnSeverity

inductive BreakpointType where
  | any | mediumIssue | highIssue | criticalIssue
  deriving DecidableEq, Repr

/-- `DefaultBreakpointFactory.create`; the enumeration leaves no default case. -/
def create : BreakpointType → OnSeverity
  | .any => .new .low
  | .highIssue => .new .high
  | .mediumIssue => .new .medium
  | .criticalIssue => .new .critical

/-- The state shows an issue at or above the severity. -/
def Shows (severity : Severity) (state : ScanState) : Prop :=
  ∃ found : Severity, severity.rank ≤ found.rank ∧ 0 < state.issues found

/-- The range table lists exactly the severities at or above its key. -/
theorem mem_breakSeverities (severity found : Severity) :
    found ∈ (OnSeverity.new severity).breakSeverities ↔ severity.rank ≤ found.rank := by
  cases severity <;> cases found <;> decide

theorem isExcepted_iff (severity : Severity) (state : ScanState) :
    (OnSeverity.new severity).isExcepted state = true ↔ Shows severity state := by
  simp only [OnSeverity.isExcepted, List.any_eq_true, mem_breakSeverities, decide_eq_true_eq,
    Shows, gt_iff_lt]

theorem create_eq_new (type : BreakpointType) : create type = .new (create type).severity := by
  cases type <;> rfl

/-- The breakpoint of every command-line choice fires on exactly the states
that show an issue at or above its severity. -/
theorem create_isExcepted_iff (type : BreakpointType) (state : ScanState) :
    (create type).isExcepted state = true ↔ Shows (create type).severity state := by
  rw [create_eq_new]
  exact isExcepted_iff _ state

end BrightCli.Source.Scan
