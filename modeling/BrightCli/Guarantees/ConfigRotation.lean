import BrightCli.Source.SystemConfig

/-!
# When the system config is rotated

A call asks for a new config exactly when the stored date is an hour old
(`attempted_iff`). A file that gives no date is replaced by a default record
stamped with the time of the call itself, and nothing is written; a stored date
that is not a date compares as `NaN`. So neither ever becomes an hour old, and
the run stays as it is (`stuck_forever`), while a date in the future holds the
rotation back until it is reached. Once a record has been written, calls an hour
apart never both pass without a request (`attempts_resume`).
-/
namespace BrightCli.Guarantees.ConfigRotation
open BrightCli.Lib BrightCli.Lib.Js BrightCli.Source.SystemConfig

/-- The file holds a record with this date. -/
def Dated (dates : Dates) (file : File) (date : Option Int) : Prop :=
  ∃ value data updatedAt, file = .json value data ∧ value.get "updatedAt" = .ok updatedAt ∧
    dates.new updatedAt = .ok date

/-- There is no record in the file whose `updatedAt` can be read. -/
def Undated (dates : Dates) (file : File) : Prop := ∀ date, ¬ Dated dates file date

/-- A stored date is an hour old when the call compares it; or there is none, and
reading the file took an hour. -/
def Due (dates : Dates) (file : File) (call : Call) : Prop :=
  (∃ updatedAt, Dated dates file (some updatedAt) ∧
    updatedAt + rotationInterval ≤ call.checked) ∨
  (Undated dates file ∧ call.started + rotationInterval ≤ call.checked)

/-- The data that `read` returns from the file. -/
def storedData (dates : Dates) (file : File) : Option Value :=
  (getConfigFile dates 0 file).properties.lookup "data"

def KeepsData (dates : Dates) (file : File) (call : Call) : Prop :=
  (rotateIfNecessary dates true file call).attempted = true →
    (fetchNewConfig call.response).truthy = false →
    storedData dates (rotateIfNecessary dates true file call).file = storedData dates file

/-- One of two calls, the second on the file the first leaves, attempts to fetch
a config, and a failed fetch keeps the data. -/
structure NotStuck (dates : Dates) (file : File) (first second : Call) : Prop where
  attempted : (rotateIfNecessary dates true file first).attempted = true ∨
    (rotateIfNecessary dates true (rotateIfNecessary dates true file first).file second).attempted =
      true
  first_keeps : KeepsData dates file first
  second_keeps : KeepsData dates (rotateIfNecessary dates true file first).file second

section
variable {dates : Dates} {file : File}

theorem undated_of_not_json (other : ∀ value data, file ≠ .json value data) :
    Undated dates file := by
  rintro date ⟨value, data, -, same, -⟩
  exact other value data same

/-- The two ways of `getConfigFile`. -/
theorem getConfigFile_cases (dates : Dates) (file : File) :
    (∃ properties date, Dated dates file date ∧
      ∀ now, getConfigFile dates now file = { properties, updatedAt := date }) ∨
    (Undated dates file ∧ ∀ now, getConfigFile dates now file = defaultConfigFile now) := by
  cases file with
  | missing => exact Or.inr ⟨undated_of_not_json (by simp), fun _ => rfl⟩
  | unreadable e => exact Or.inr ⟨undated_of_not_json (by simp), fun _ => rfl⟩
  | invalid e => exact Or.inr ⟨undated_of_not_json (by simp), fun _ => rfl⟩
  | json value data =>
    obtain ⟨properties, spread⟩ := data
    cases read : value.get "updatedAt" with
    | error thrown =>
      refine Or.inr ⟨?_, fun now => by simp [getConfigFile, datedConfig, spread, read, bind, Except.bind]⟩
      rintro date ⟨_, _, updatedAt, same, found, -⟩
      cases same
      rw [read] at found
      cases found
    | ok updatedAt =>
      cases made : dates.new updatedAt with
      | error e =>
        refine Or.inr ⟨?_, fun now => by
          simp [getConfigFile, datedConfig, spread, read, made, Except.mapError, bind, Except.bind]⟩
        rintro date ⟨_, _, other, same, found, valid⟩
        cases same
        rw [read] at found
        cases found
        rw [made] at valid
        cases valid
      | ok date =>
        refine Or.inl ⟨properties, date, ⟨value, _, updatedAt, rfl, read, made⟩, fun now => ?_⟩
        simp [getConfigFile, datedConfig, spread, read, made, Except.mapError, bind, Except.bind,
          pure, Except.pure]

theorem dated_unique {first second : Option Int} (one : Dated dates file first)
    (other : Dated dates file second) : first = second := by
  obtain ⟨value, data, updatedAt, rfl, read, made⟩ := one
  obtain ⟨_, _, _, same, read', made'⟩ := other
  cases same
  rw [read] at read'
  cases read'
  rw [made] at made'
  cases made'
  rfl

theorem attempted_eq (production : Bool) (call : Call) :
    (rotateIfNecessary dates production file call).attempted =
      needsRotation production call.checked (getConfigFile dates call.started file) := by
  unfold rotateIfNecessary
  dsimp only
  split
  · rename_i needed
    rw [needed]
    split <;> rfl
  · rename_i unneeded
    simp only [unneeded]

/-- When a call asks for a new config. -/
theorem attempted_iff (call : Call) :
    (rotateIfNecessary dates true file call).attempted = true ↔ Due dates file call := by
  rw [attempted_eq]
  unfold Due needsRotation
  rcases getConfigFile_cases dates file with ⟨properties, date, dated, loaded⟩ | ⟨undated, loaded⟩
  · rw [loaded]
    have known : ¬ Undated dates file := fun undated => undated date dated
    cases date with
    | none =>
      simp only [Bool.and_false, Bool.false_eq_true, known, false_and, or_false, false_iff]
      rintro ⟨updatedAt, other, -⟩
      cases dated_unique dated other
    | some updatedAt =>
      simp only [Bool.true_and, decide_eq_true_eq, known, false_and, or_false]
      constructor
      · intro old
        exact ⟨updatedAt, dated, by omega⟩
      · rintro ⟨other, same, old⟩
        cases dated_unique dated same
        omega
  · rw [loaded]
    simp only [defaultConfigFile, Bool.true_and, decide_eq_true_eq, undated, true_and]
    constructor
    · intro old
      exact Or.inr (by omega)
    · rintro (⟨updatedAt, dated, -⟩ | old)
      · exact absurd dated (undated _)
      · omega

/-- A call that asks for nothing writes nothing. -/
theorem file_of_not_attempted {production : Bool} {call : Call}
    (idle : ¬ (rotateIfNecessary dates production file call).attempted = true) :
    (rotateIfNecessary dates production file call).file = file := by
  rw [attempted_eq] at idle
  unfold rotateIfNecessary
  simp only [idle, Bool.false_eq_true, if_false]

theorem written_dated (configFile : SystemConfigFile) {time : Int} (low : -maxTime ≤ time)
    (high : time ≤ maxTime) :
    Dated dates (.json (toJson dates { configFile with updatedAt := some time }) ⟨_, rfl⟩)
      (some time) := by
  refine ⟨_, _, .str (dates.toISOString time), rfl, ?_, dates.new_toISOString time low high⟩
  simp [toJson, Value.get, PropertyMap.lookup_setEntries_self]

/-- What is written is read back, but for the date. -/
theorem storedData_written (configFile : SystemConfigFile) {time : Int} (low : -maxTime ≤ time)
    (high : time ≤ maxTime) :
    storedData dates (.json (toJson dates { configFile with updatedAt := some time }) ⟨_, rfl⟩) =
      configFile.properties.lookup "data" := by
  unfold storedData getConfigFile datedConfig toJson
  simp only [Value.spreadEntries, Value.get, List.lookup_nil, PropertyMap.lookup_setEntries_self,
    Option.getD_some, ok_bind, dates.new_toISOString time low high, Except.mapError, pure, Except.pure]
  exact PropertyMap.lookup_setEntries_of_ne _ _ (by decide)

theorem storedData_eq (now : Int) :
    (getConfigFile dates now file).properties.lookup "data" = storedData dates file := by
  unfold storedData
  rcases getConfigFile_cases dates file with ⟨properties, date, -, loaded⟩ | ⟨-, loaded⟩
  · rw [loaded, loaded]
  · rw [loaded, loaded]
    rfl

/-- A failed fetch keeps the data, from every file. -/
theorem keeps_data (call : Call) : KeepsData dates file call := by
  intro attempted failed
  rw [attempted_eq] at attempted
  unfold rotateIfNecessary updateConfigFile
  simp only [attempted, if_true, failed, Bool.false_eq_true, if_false]
  split
  · rw [storedData_written _ call.stamped_valid.1 call.stamped_valid.2, storedData_eq]
  · rfl

end

/-- Two calls do not both pass without a request, and no failed request loses
data, exactly when the file has a date that is an hour old at the second call;
without a date, one of the calls has to spend an hour on reading the file. -/
theorem not_stuck_iff (dates : Dates) (file : File) (first second : Call)
    (ordered : first.stamped ≤ second.started) :
    NotStuck dates file first second ↔
      (∃ updatedAt, Dated dates file (some updatedAt) ∧
        updatedAt + rotationInterval ≤ second.checked) ∨
      (Undated dates file ∧ (first.started + rotationInterval ≤ first.checked ∨
        second.started + rotationInterval ≤ second.checked)) := by
  have clock : first.checked ≤ second.checked := by
    have := first.checked_le_stamped
    have := second.started_le_checked
    omega
  have attempts : ((rotateIfNecessary dates true file first).attempted = true ∨
      (rotateIfNecessary dates true (rotateIfNecessary dates true file first).file second).attempted =
        true) ↔ Due dates file first ∨ Due dates file second := by
    by_cases asked : (rotateIfNecessary dates true file first).attempted = true
    · exact iff_of_true (Or.inl asked) (Or.inl ((attempted_iff first).mp asked))
    · rw [file_of_not_attempted asked, attempted_iff, attempted_iff]
  constructor
  · intro notStuck
    rcases attempts.mp notStuck.attempted with
      (⟨updatedAt, dated, old⟩ | ⟨undated, slow⟩) | (⟨updatedAt, dated, old⟩ | ⟨undated, slow⟩)
    · exact Or.inl ⟨updatedAt, dated, Int.le_trans old clock⟩
    · exact Or.inr ⟨undated, Or.inl slow⟩
    · exact Or.inl ⟨updatedAt, dated, old⟩
    · exact Or.inr ⟨undated, Or.inr slow⟩
  · intro condition
    refine ⟨attempts.mpr ?_, keeps_data first, keeps_data second⟩
    rcases condition with old | ⟨undated, slow | slow⟩
    · exact Or.inr (Or.inl old)
    · exact Or.inl (Or.inr ⟨undated, slow⟩)
    · exact Or.inr (Or.inr ⟨undated, slow⟩)

/-- The class `Date` with a sign and a tally for its texts; only numbers and such
texts are dates. -/
def tallies : Dates where
  new
    | .num n => .ok (some n)
    | .str s =>
      match s.toList with
      | '+' :: rest => .ok (some rest.length)
      | '-' :: rest => .ok (some (-rest.length))
      | _ => .ok none
    | _ => .ok none
  toISOString time :=
    String.ofList ((if 0 ≤ time then '+' else '-') :: List.replicate time.natAbs '|')
  new_toISOString time _ _ := by
    by_cases positive : 0 ≤ time
    · simp only [positive, if_true, String.toList_ofList, List.length_replicate]
      congr 2
      omega
    · simp only [positive, if_false, String.toList_ofList, List.length_replicate]
      congr 2
      omega

/-- A call at one instant that gets no answer. -/
def refused (time : Int) (valid : -maxTime ≤ time ∧ time ≤ maxTime) : Call :=
  { started := time, checked := time, stamped := time
    started_le_checked := Int.le_refl _, checked_le_stamped := Int.le_refl _
    stamped_valid := valid, response := .failed, writes := true }

theorem epoch_not_stuck :
    NotStuck tallies (.json (.obj [("updatedAt", .num 0)] [] none) ⟨_, rfl⟩)
      (refused 0 (by decide)) (refused 3600000 (by decide)) :=
  (not_stuck_iff tallies _ (refused 0 (by decide)) (refused 3600000 (by decide)) (by decide)).mpr
    (Or.inl ⟨0, ⟨_, _, .num 0, rfl, rfl, rfl⟩, by decide⟩)

/-- Without a file, neither of two calls an hour apart asks for a config. -/
theorem missing_file_stuck :
    (refused 0 (by decide)).started + rotationInterval ≤ (refused 3600000 (by decide)).started ∧
      ¬ NotStuck tallies .missing (refused 0 (by decide)) (refused 3600000 (by decide)) := by
  refine ⟨by decide, ?_⟩
  intro notStuck
  have attempted := notStuck.attempted
  revert attempted
  decide

/-- The comparison follows the start of the call within the hour. -/
def Brisk (call : Call) : Prop := call.checked < call.started + rotationInterval

/-- From a file without a valid date no run of brisk calls, however long, asks
for a config or changes the file. -/
theorem stuck_forever (dates : Dates) (s₀ : State)
    (unstamped : ∀ updatedAt, ¬ Dated dates s₀.file (some updatedAt)) (calls : List Call)
    (brisk : ∀ call ∈ calls, Brisk call) (last : State)
    (legal : Trace.run (step dates true) s₀ calls = some last) :
    last.file = s₀.file ∧ Trace.EachStep (step dates true) s₀
      (fun s call => (rotateIfNecessary dates true s.file call).attempted = false) calls := by
  refine Trace.run_induction
    (P := fun seen s => (∀ call ∈ seen, Brisk call) → s.file = s₀.file ∧
      Trace.EachStep (step dates true) s₀
        (fun s call => (rotateIfNecessary dates true s.file call).attempted = false) seen)
    (fun _ => ⟨rfl, Trace.eachStep_nil _ _⟩) ?_ legal brisk
  intro seen s call next reached ih stepped brisk
  obtain ⟨same, each⟩ := ih fun other member => brisk other (by simp [member])
  have idle : ¬ (rotateIfNecessary dates true s.file call).attempted = true := by
    rw [attempted_iff, same]
    rintro (⟨updatedAt, dated, -⟩ | ⟨-, slow⟩)
    · exact unstamped updatedAt dated
    · have := brisk call (by simp)
      unfold Brisk at this
      omega
  refine ⟨?_, (Trace.eachStep_snoc reached).mpr ⟨each, by simpa using idle⟩⟩
  unfold step at stepped
  split at stepped
  · cases stepped
    exact (file_of_not_attempted idle).trans same
  · cases stepped

/-- The file carries a date, and not one of the future. -/
def Stamped (dates : Dates) (s : State) : Prop :=
  ∃ updatedAt, Dated dates s.file (some updatedAt) ∧ updatedAt ≤ s.clock

/-- A call keeps the date or writes its own. -/
theorem stamped_step {dates : Dates} {s next : State} {call : Call} (stamped : Stamped dates s)
    (stepped : step dates true s call = some next) : Stamped dates next := by
  obtain ⟨updatedAt, dated, past⟩ := stamped
  unfold step at stepped
  split at stepped
  · rename_i later
    cases stepped
    have now : updatedAt ≤ call.stamped := by
      have := call.started_le_checked
      have := call.checked_le_stamped
      omega
    by_cases asked : (rotateIfNecessary dates true s.file call).attempted = true
    · rw [attempted_eq] at asked
      unfold Stamped rotateIfNecessary updateConfigFile
      simp only [asked, if_true]
      cases writes : call.writes with
      | true =>
        refine ⟨call.stamped, ?_, Int.le_refl _⟩
        split
        · exact written_dated { properties := _, updatedAt := some call.stamped }
            call.stamped_valid.1 call.stamped_valid.2
        · exact written_dated (getConfigFile dates call.started s.file)
            call.stamped_valid.1 call.stamped_valid.2
      | false =>
        refine ⟨updatedAt, ?_, now⟩
        split
        · exact dated
        · exact dated
    · refine ⟨updatedAt, ?_, now⟩
      dsimp only
      rw [file_of_not_attempted asked]
      exact dated
  · cases stepped

/-- In every run from a stamped file, two calls in succession an hour apart do
not both pass without a request. -/
theorem attempts_resume (dates : Dates) (s₀ : State) (stamped : Stamped dates s₀)
    (calls : List Call) (s : State) (reached : Trace.run (step dates true) s₀ calls = some s)
    (first second : Call) (legal : s.clock ≤ first.started)
    (apart : first.started + rotationInterval ≤ second.started) :
    NotStuck dates s.file first second := by
  have kept : Stamped dates s :=
    Trace.run_invariant stamped (fun _ _ _ before stepped => stamped_step before stepped) reached
  obtain ⟨updatedAt, dated, past⟩ := kept
  have := second.started_le_checked
  have old : updatedAt + rotationInterval ≤ second.checked := by omega
  refine ⟨?_, keeps_data first, keeps_data second⟩
  by_cases asked : (rotateIfNecessary dates true s.file first).attempted = true
  · exact Or.inl asked
  · rw [file_of_not_attempted asked]
    exact Or.inr ((attempted_iff second).mpr (Or.inl ⟨updatedAt, dated, old⟩))

end BrightCli.Guarantees.ConfigRotation
