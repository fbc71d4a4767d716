import BrightCli.Lib.PropertyMap
import BrightCli.Lib.Utf8

/-!
# ECMAScript values

Values as a program meets them when it does not know where they come from: a
payload off the wire, the result of a user's script, or whatever was thrown.
Besides plain data an object may have properties whose read throws, given with
what they throw, and a function of its own that converts it, given with what that
returns or throws. Computations that may throw are `Except Value`, since anything
can be thrown. Other functions appear as objects with the properties that are read
from them, so a property `toString` among the data of an object is one that cannot
be called.

Whatever an operation on a value throws is an error of the runtime or one of the
values that its getters and conversions throw, its `traps`. `ThrowsOnly` is the
rule by which that is followed through a program.
-/
namespace BrightCli.Lib.Js
open BrightCli.Lib

inductive Value where
  | undefined
  | null
  | bool (b : Bool)
  | num (n : Int)
  | str (s : String)
  | bytes (b : Utf8.Bytes)
  | regexp (source flags : String)
  | arr (items : List Value)
  | obj (props : List (String × Value)) (getters : List (String × Value))
      (conversion : Option (Except Value String))
  deriving Repr

/-- Errors that the runtime or a package throws: plain objects without traps. -/
structure JsError where
  name : String
  message : String
  code : Option String
  syscall : Option String
  deriving DecidableEq, Repr

namespace Value

def ofOption : Option String → Value
  | some s => .str s
  | none => .undefined

def nullish : Value → Bool
  | .undefined => true
  | .null => true
  | _ => false

def truthy : Value → Bool
  | .undefined => false
  | .null => false
  | .bool b => b
  | .num n => n ≠ 0
  | .str s => s ≠ ""
  | _ => true

/-- `a ?? b`. -/
def orElse (a b : Value) : Value := if a.nullish then b else a

/-- `a ?? b` where the evaluation of `b` may throw. -/
def orElseEval (a : Value) (b : Except Value Value) : Except Value Value :=
  if a.nullish then b else .ok a

end Value

def JsError.toValue (e : JsError) : Value :=
  .obj [("name", .str e.name), ("message", .str e.message), ("code", Value.ofOption e.code),
    ("syscall", Value.ofOption e.syscall)] [] none

def typeError (message : String) : Value :=
  JsError.toValue { name := "TypeError", message, code := none, syscall := none }

/-- `new Error(message)`. -/
def plainError (message : String) : Value :=
  JsError.toValue { name := "Error", message, code := none, syscall := none }

namespace Value

/-- Property read. A key that is absent reads as `undefined`. -/
def get (v : Value) (key : String) : Except Value Value :=
  match v with
  | .undefined => .error (typeError ("Cannot read properties of undefined (reading '" ++ key ++ "')"))
  | .null => .error (typeError ("Cannot read properties of null (reading '" ++ key ++ "')"))
  | .obj props getters _ =>
    match getters.lookup key with
    | some thrown => .error thrown
    | none => .ok ((props.lookup key).getD .undefined)
  | _ => .ok .undefined

def cannotConvert : JsError :=
  { name := "TypeError", message := "Cannot convert object to primitive value"
    code := none, syscall := none }

/-- `String(v)` of an object. A property `toString` of its own hides the inherited
method; where that cannot be called, `valueOf` is tried and gives no text either. -/
def objectText (props getters : List (String × Value)) (conversion : Option (Except Value String)) :
    Except Value String :=
  match conversion, getters.lookup "toString", props.lookup "toString" with
  | some result, _, _ => result
  | none, some thrown, _ => .error thrown
  | none, none, none => .ok "[object Object]"
  | none, none, some _ =>
    match getters.lookup "valueOf" with
    | some thrown => .error thrown
    | none => .error cannotConvert.toValue

mutual

/-- `String(v)`. -/
def toText : Value → Except Value String
  | .undefined => .ok "undefined"
  | .null => .ok "null"
  | .bool b => .ok (if b then "true" else "false")
  | .num n => .ok (toString n)
  | .str s => .ok s
  | .bytes b => .ok (Utf8.decode b)
  | .regexp source flags => .ok ("/" ++ source ++ "/" ++ flags)
  | .arr items => do
    let texts ← elementTexts items
    pure (String.intercalate "," texts)
  | .obj props getters conversion => objectText props getters conversion

/-- The texts `Array.prototype.join` puts its separator between. -/
def elementTexts : List Value → Except Value (List String)
  | [] => .ok []
  | .undefined :: rest => do
    let texts ← elementTexts rest
    pure ("" :: texts)
  | .null :: rest => do
    let texts ← elementTexts rest
    pure ("" :: texts)
  | v :: rest => do
    let text ← toText v
    let texts ← elementTexts rest
    pure (text :: texts)

end

/-- The pattern that `new RegExp(v)` compiles. -/
def patternText : Value → Except Value String
  | .regexp source _ => .ok source
  | v => v.toText

/-- `items.join(separator)`. -/
def join (separator : String) (items : List Value) : Except Value String := do
  let texts ← elementTexts items
  pure (String.intercalate separator texts)

/-- Own enumerable properties, as `{...v}` copies them. -/
def spreadEntries : Value → Except Value (List (String × Value))
  | .obj props getters _ =>
    match getters with
    | (_, thrown) :: _ => .error thrown
    | [] => .ok props
  | .arr items => .ok (items.zipIdx.map fun item => (toString item.2, item.1))
  | .str s => .ok (s.toList.zipIdx.map fun c => (toString c.2, .str (String.singleton c.1)))
  | .bytes b => .ok (b.zipIdx.map fun x => (toString x.2, .num x.1.toNat))
  | _ => .ok []

/-- The `%s` of `util.format`: `toString` is read, and an object with a conversion of
its own is converted; everything else is inspected. -/
def format : Value → Except Value Unit
  | .obj _ getters conversion =>
    match conversion, getters.lookup "toString" with
    | some (.error thrown), _ => .error thrown
    | some (.ok _), _ => .ok ()
    | none, some thrown => .error thrown
    | none, none => .ok ()
  | _ => .ok ()

mutual

/-- What `JSON.stringify` throws: it reads every property. -/
def stringify : Value → Except Value Unit
  | .arr items => stringifyItems items
  | .obj props getters _ =>
    match getters with
    | (_, thrown) :: _ => .error thrown
    | [] => stringifyProps props
  | _ => .ok ()

def stringifyItems : List Value → Except Value Unit
  | [] => .ok ()
  | v :: rest => do
    stringify v
    stringifyItems rest

def stringifyProps : List (String × Value) → Except Value Unit
  | [] => .ok ()
  | (_, v) :: rest => do
    stringify v
    stringifyProps rest

end

mutual

/-- Plain data: no read and no conversion of any part throws. -/
def plain : Value → Bool
  | .arr items => plainItems items
  | .obj props getters conversion => getters.isEmpty && conversion.isNone && plainProps props
  | _ => true

def plainItems : List Value → Bool
  | [] => true
  | v :: rest => plain v && plainItems rest

def plainProps : List (String × Value) → Bool
  | [] => true
  | (_, v) :: rest => plain v && plainProps rest

end

theorem plainItems_iff (items : List Value) :
    plainItems items = true ↔ ∀ v ∈ items, v.plain = true := by
  induction items with
  | nil => simp [plainItems]
  | cons head rest ih => simp [plainItems, ih]

theorem plainProps_iff (props : List (String × Value)) :
    plainProps props = true ↔ ∀ entry ∈ props, entry.2.plain = true := by
  induction props with
  | nil => simp [plainProps]
  | cons head rest ih =>
    obtain ⟨key, v⟩ := head
    simp [plainProps, ih]

theorem plain_obj_iff (props getters : List (String × Value))
    (conversion : Option (Except Value String)) :
    plain (.obj props getters conversion) = true ↔
      getters = [] ∧ conversion = none ∧ ∀ entry ∈ props, entry.2.plain = true := by
  rw [plain, Bool.and_eq_true, Bool.and_eq_true, List.isEmpty_iff, Option.isNone_iff_eq_none,
    plainProps_iff, and_assoc]

def conversionTraps : Option (Except Value String) → List Value
  | some (.error thrown) => [thrown]
  | _ => []

mutual

/-- What the getters and conversions in a value throw. -/
def traps : Value → List Value
  | .arr items => itemTraps items
  | .obj props getters conversion =>
    getters.map Prod.snd ++ conversionTraps conversion ++ propTraps props
  | _ => []

def itemTraps : List Value → List Value
  | [] => []
  | v :: rest => traps v ++ itemTraps rest

def propTraps : List (String × Value) → List Value
  | [] => []
  | (_, v) :: rest => traps v ++ propTraps rest

end

/-- An object has a text: its own conversion gives one, or the inherited one is not
hidden. -/
def convertibleObject (props getters : List (String × Value)) :
    Option (Except Value String) → Bool
  | some result => result.isOk
  | none => (getters.lookup "toString").isNone && (props.lookup "toString").isNone

mutual

/-- `String(v)` gives a text. -/
def convertible : Value → Bool
  | .arr items => joinable items
  | .obj props getters conversion => convertibleObject props getters conversion
  | _ => true

/-- So does `join`, for which missing elements are empty. -/
def joinable : List Value → Bool
  | [] => true
  | v :: rest => convertible v && joinable rest

end

theorem joinable_iff (items : List Value) :
    joinable items = true ↔ ∀ v ∈ items, v.convertible = true := by
  induction items with
  | nil => simp [joinable]
  | cons head rest ih => simp [joinable, ih]

mutual

theorem traps_of_plain (v : Value) (data : v.plain = true) : v.traps = [] := by
  cases v with
  | arr items =>
    rw [plain] at data
    rw [traps]
    exact itemTraps_of_plain items data
  | obj props getters conversion =>
    rw [plain, Bool.and_eq_true, Bool.and_eq_true, List.isEmpty_iff,
      Option.isNone_iff_eq_none] at data
    obtain ⟨⟨rfl, rfl⟩, own⟩ := data
    rw [traps, propTraps_of_plain props own]
    rfl
  | _ => rfl

theorem itemTraps_of_plain (items : List Value) (data : plainItems items = true) :
    itemTraps items = [] := by
  cases items with
  | nil => rfl
  | cons head rest =>
    rw [plainItems, Bool.and_eq_true] at data
    rw [itemTraps, traps_of_plain head data.1, itemTraps_of_plain rest data.2]
    rfl

theorem propTraps_of_plain (props : List (String × Value)) (data : plainProps props = true) :
    propTraps props = [] := by
  cases props with
  | nil => rfl
  | cons head rest =>
    obtain ⟨key, v⟩ := head
    rw [plainProps, Bool.and_eq_true] at data
    rw [propTraps, traps_of_plain v data.1, propTraps_of_plain rest data.2]
    rfl

end

end Value

@[simp] theorem ok_bind {ε α β : Type} (a : α) (f : α → Except ε β) : (.ok a >>= f) = f a := rfl

theorem bind_eq_ok_iff {ε α β : Type} {x : Except ε α} {f : α → Except ε β} {b : β} :
    x >>= f = .ok b ↔ ∃ a, x = .ok a ∧ f a = .ok b := by
  cases x with
  | error e => simp [bind, Except.bind]
  | ok a => simp [bind, Except.bind]

theorem mapError_eq_ok_iff {α ε δ : Type} {f : ε → δ} {x : Except ε α} {value : α} :
    x.mapError f = .ok value ↔ x = .ok value := by
  cases x <;> simp [Except.mapError]

theorem bind_eq_error_iff {α β : Type} {x : Except Value α} {f : α → Except Value β}
    {thrown : Value} :
    x >>= f = .error thrown ↔ x = .error thrown ∨ ∃ a, x = .ok a ∧ f a = .error thrown := by
  cases x with
  | error e => simp [bind, Except.bind]
  | ok a => simp [bind, Except.bind]

/-- The computation throws nothing but such values. -/
def ThrowsOnly {α : Type} (P : Value → Prop) (x : Except Value α) : Prop :=
  ∀ thrown, x = .error thrown → P thrown

/-- An error of the runtime or of a package. -/
def IsError (thrown : Value) : Prop := ∃ e : JsError, thrown = e.toValue

/-- Nothing in the value throws anything but such values. -/
def Value.Tame (P : Value → Prop) (v : Value) : Prop := ∀ thrown ∈ v.traps, P thrown

/-- What a function throws that reads and converts the value in ways of its own. -/
def Value.ThrownOf (v thrown : Value) : Prop := IsError thrown ∨ thrown ∈ v.traps

namespace ThrowsOnly

variable {α β : Type} {P : Value → Prop}

theorem ok (a : α) : ThrowsOnly P (.ok a) := by
  intro thrown failed
  cases failed

theorem error {thrown : Value} (own : P thrown) : ThrowsOnly P (.error thrown : Except Value α) := by
  intro other failed
  cases failed
  exact own

theorem mapError (errors : ∀ e : JsError, P e.toValue) (x : Except JsError α) :
    ThrowsOnly P (x.mapError JsError.toValue) := by
  cases x with
  | ok a => exact ok a
  | error e => exact error (errors e)

theorem of_value (errors : ∀ e : JsError, P e.toValue) {v : Value} (tame : v.Tame P)
    {x : Except Value α} (own : ThrowsOnly v.ThrownOf x) : ThrowsOnly P x := by
  intro thrown failed
  rcases own thrown failed with ⟨e, rfl⟩ | trap
  · exact errors e
  · exact tame thrown trap

theorem bind {x : Except Value α} {f : α → Except Value β} (first : ThrowsOnly P x)
    (next : ∀ a, x = .ok a → ThrowsOnly P (f a)) : ThrowsOnly P (x >>= f) := by
  intro thrown failed
  rcases bind_eq_error_iff.mp failed with stopped | ⟨a, passed, failed⟩
  · exact first thrown stopped
  · exact next a passed thrown failed

theorem mapM (f : α → Except Value β) (items : List α)
    (each : ∀ item ∈ items, ThrowsOnly P (f item)) : ThrowsOnly P (items.mapM f) := by
  induction items with
  | nil => exact ok []
  | cons head rest ih =>
    rw [List.mapM_cons]
    refine bind (each head (by simp)) fun first _ => ?_
    exact bind (ih fun item member => each item (by simp [member])) fun others _ => ok _

/-- Where nothing may be thrown there is a result. -/
theorem eq_ok {x : Except Value α} (never : ThrowsOnly (fun _ => False) x) : ∃ a, x = .ok a := by
  cases x with
  | ok a => exact ⟨a, rfl⟩
  | error thrown => exact (never thrown rfl).elim

end ThrowsOnly

namespace Value

variable {P : Value → Prop}

theorem tame_of_plain {v : Value} (data : v.plain = true) : v.Tame P := by
  intro thrown member
  rw [traps_of_plain v data] at member
  cases member

theorem tame_arr_iff (items : List Value) : (Value.arr items).Tame P ↔ ∀ v ∈ items, v.Tame P := by
  have traps_eq : (Value.arr items).traps = itemTraps items := by rw [traps]
  rw [Tame, traps_eq]
  induction items with
  | nil => simp [itemTraps]
  | cons head rest ih =>
    have rest_eq : (Value.arr rest).traps = itemTraps rest := by rw [traps]
    simp only [itemTraps, List.mem_append, List.mem_cons, or_imp, forall_and, forall_eq,
      ih rest_eq]
    rfl

theorem tame_propTraps_iff (props : List (String × Value)) :
    (∀ thrown ∈ propTraps props, P thrown) ↔ ∀ entry ∈ props, entry.2.Tame P := by
  induction props with
  | nil => simp [propTraps]
  | cons head rest ih =>
    obtain ⟨key, v⟩ := head
    simp only [propTraps, List.mem_append, List.mem_cons, or_imp, forall_and, forall_eq, ih]
    rfl

theorem mem_conversionTraps {conversion : Option (Except Value String)} {thrown : Value} :
    thrown ∈ conversionTraps conversion ↔ conversion = some (.error thrown) := by
  unfold conversionTraps
  split
  · simp [eq_comm]
  · rename_i other
    simpa using fun failed => other thrown failed

theorem tame_obj_iff (props getters : List (String × Value))
    (conversion : Option (Except Value String)) :
    (Value.obj props getters conversion).Tame P ↔
      (∀ entry ∈ getters, P entry.2) ∧ (∀ thrown, conversion = some (.error thrown) → P thrown) ∧
        ∀ entry ∈ props, entry.2.Tame P := by
  have traps_eq : (Value.obj props getters conversion).traps =
      getters.map Prod.snd ++ conversionTraps conversion ++ propTraps props := by rw [traps]
  rw [Tame, traps_eq, ← tame_propTraps_iff]
  simp only [List.mem_append, List.mem_map, mem_conversionTraps, or_imp, forall_and,
    forall_exists_index, and_imp, forall_apply_eq_imp_iff₂]
  exact and_assoc

theorem mem_of_lookup {entries : List (String × Value)} {key : String} {v : Value}
    (found : entries.lookup key = some v) : ∃ entry ∈ entries, entry.2 = v := by
  induction entries with
  | nil => cases found
  | cons head rest ih =>
    rw [List.lookup_cons] at found
    split at found
    · cases found
      exact ⟨head, by simp, rfl⟩
    · obtain ⟨entry, member, same⟩ := ih found
      exact ⟨entry, by simp [member], same⟩

/-- Reading a property throws what its getter does, or the error for a missing object. -/
theorem get_throwsOnly (errors : ∀ e : JsError, P e.toValue) {v : Value} (tame : v.Tame P)
    (key : String) : ThrowsOnly P (v.get key) := by
  cases v with
  | undefined => exact .error (errors _)
  | null => exact .error (errors _)
  | obj props getters conversion =>
    rw [tame_obj_iff] at tame
    unfold get
    dsimp only
    split
    · rename_i thrown found
      obtain ⟨entry, member, rfl⟩ := mem_of_lookup found
      exact .error (tame.1 entry member)
    · exact .ok _
  | _ => exact .ok _

/-- What is read from a tame value is tame. -/
theorem get_tame {v : Value} (tame : v.Tame P) {key : String} {read : Value}
    (done : v.get key = .ok read) : read.Tame P := by
  have nothing : (Value.undefined).Tame P := tame_of_plain rfl
  cases v with
  | undefined => cases done
  | null => cases done
  | obj props getters conversion =>
    rw [tame_obj_iff] at tame
    unfold get at done
    dsimp only at done
    split at done
    · cases done
    · cases done
      cases found : props.lookup key with
      | none => exact nothing
      | some v =>
        obtain ⟨entry, member, rfl⟩ := mem_of_lookup found
        exact tame.2.2 entry member
  | _ =>
    cases done
    exact nothing

theorem objectText_throwsOnly (errors : ∀ e : JsError, P e.toValue)
    {props getters : List (String × Value)} {conversion : Option (Except Value String)}
    (tame : (Value.obj props getters conversion).Tame P) :
    ThrowsOnly P (objectText props getters conversion) := by
  rw [tame_obj_iff] at tame
  have read : ∀ key thrown, getters.lookup key = some thrown → P thrown := by
    intro key thrown found
    obtain ⟨entry, member, rfl⟩ := mem_of_lookup found
    exact tame.1 entry member
  unfold objectText
  split
  · intro thrown failed
    exact tame.2.1 thrown (by rw [failed])
  · rename_i found
    exact .error (read _ _ found)
  · exact .ok _
  · split
    · rename_i found
      exact .error (read _ _ found)
    · exact .error (errors _)

mutual

theorem toText_throwsOnly (errors : ∀ e : JsError, P e.toValue) (v : Value) (tame : v.Tame P) :
    ThrowsOnly P v.toText := by
  cases v with
  | arr items =>
    rw [toText]
    exact .bind (elementTexts_throwsOnly errors items ((tame_arr_iff items).mp tame)) fun _ _ => .ok _
  | obj props getters conversion =>
    rw [toText]
    exact objectText_throwsOnly errors tame
  | _ =>
    rw [toText]
    exact .ok _

theorem elementTexts_throwsOnly (errors : ∀ e : JsError, P e.toValue) (items : List Value)
    (tame : ∀ v ∈ items, v.Tame P) : ThrowsOnly P (elementTexts items) := by
  cases items with
  | nil => exact .ok []
  | cons head rest =>
    have others := elementTexts_throwsOnly errors rest fun v member => tame v (by simp [member])
    have own := toText_throwsOnly errors head (tame head (by simp))
    cases head with
    | undefined =>
      rw [elementTexts]
      exact .bind others fun _ _ => .ok _
    | null =>
      rw [elementTexts]
      exact .bind others fun _ _ => .ok _
    | _ =>
      rw [elementTexts]
      · exact .bind own fun _ _ => .bind others fun _ _ => .ok _
      all_goals simp

end

theorem join_throwsOnly (errors : ∀ e : JsError, P e.toValue) (separator : String)
    {items : List Value} (tame : ∀ v ∈ items, v.Tame P) : ThrowsOnly P (join separator items) :=
  .bind (elementTexts_throwsOnly errors items tame) fun _ _ => .ok _

/-- Copying the properties of a value reads them. -/
theorem spreadEntries_throwsOnly {v : Value} (tame : v.Tame P) : ThrowsOnly P v.spreadEntries := by
  cases v with
  | obj props getters conversion =>
    rw [tame_obj_iff] at tame
    unfold spreadEntries
    dsimp only
    split
    · rename_i key thrown rest
      exact .error (tame.1 (key, thrown) (by simp))
    · exact .ok _
  | _ => exact .ok _

theorem spreadEntries_tame {v : Value} (tame : v.Tame P) {entries : List (String × Value)}
    (spread : v.spreadEntries = .ok entries) : ∀ entry ∈ entries, entry.2.Tame P := by
  cases v with
  | obj props getters conversion =>
    rw [tame_obj_iff] at tame
    cases getters with
    | nil =>
      cases spread
      exact tame.2.2
    | cons first rest => cases spread
  | arr items =>
    rw [tame_arr_iff] at tame
    cases spread
    intro entry member
    obtain ⟨item, listed, rfl⟩ := List.mem_map.mp member
    exact tame item.1 (List.fst_mem_of_mem_zipIdx listed)
  | str s =>
    cases spread
    intro entry member
    obtain ⟨c, -, rfl⟩ := List.mem_map.mp member
    exact tame_of_plain rfl
  | bytes b =>
    cases spread
    intro entry member
    obtain ⟨x, -, rfl⟩ := List.mem_map.mp member
    exact tame_of_plain rfl
  | _ =>
    cases spread
    simp

mutual

/-- Writing a value as JSON reads all of it and nothing else. -/
theorem stringify_throwsOnly (v : Value) (tame : v.Tame P) : ThrowsOnly P v.stringify := by
  cases v with
  | arr items =>
    rw [stringify]
    exact stringifyItems_throwsOnly items ((tame_arr_iff items).mp tame)
  | obj props getters conversion =>
    rw [tame_obj_iff] at tame
    cases getters with
    | nil =>
      rw [stringify]
      exact stringifyProps_throwsOnly props tame.2.2
    | cons first rest =>
      rw [stringify]
      exact .error (tame.1 first (by simp))
  | _ =>
    rw [stringify]
    · exact .ok _
    all_goals simp

theorem stringifyItems_throwsOnly (items : List Value) (tame : ∀ v ∈ items, v.Tame P) :
    ThrowsOnly P (stringifyItems items) := by
  cases items with
  | nil => exact .ok _
  | cons head rest =>
    rw [stringifyItems]
    exact .bind (stringify_throwsOnly head (tame head (by simp))) fun _ _ =>
      stringifyItems_throwsOnly rest fun v member => tame v (by simp [member])

theorem stringifyProps_throwsOnly (props : List (String × Value))
    (tame : ∀ entry ∈ props, entry.2.Tame P) : ThrowsOnly P (stringifyProps props) := by
  cases props with
  | nil => exact .ok _
  | cons head rest =>
    obtain ⟨key, v⟩ := head
    rw [stringifyProps]
    exact .bind (stringify_throwsOnly v (tame (key, v) (by simp))) fun _ _ =>
      stringifyProps_throwsOnly rest fun entry member => tame entry (by simp [member])

end

theorem objectText_ok_iff (props getters : List (String × Value))
    (conversion : Option (Except Value String)) :
    (∃ text, objectText props getters conversion = .ok text) ↔
      convertibleObject props getters conversion = true := by
  unfold objectText convertibleObject
  cases conversion with
  | some result => cases result <;> simp [Except.isOk, Except.toBool]
  | none =>
    cases getters.lookup "toString" <;> cases props.lookup "toString" <;>
      cases getters.lookup "valueOf" <;> simp

mutual

theorem toText_ok_iff (v : Value) : (∃ text, v.toText = .ok text) ↔ v.convertible = true := by
  cases v with
  | arr items =>
    rw [toText, convertible, ← elementTexts_ok_iff items]
    constructor
    · rintro ⟨text, converted⟩
      obtain ⟨texts, joined, -⟩ := bind_eq_ok_iff.mp converted
      exact ⟨texts, joined⟩
    · rintro ⟨texts, joined⟩
      exact ⟨_, by rw [joined]; rfl⟩
  | obj props getters conversion =>
    rw [toText, convertible]
    exact objectText_ok_iff props getters conversion
  | _ => simp [toText, convertible]

theorem elementTexts_ok_iff (items : List Value) :
    (∃ texts, elementTexts items = .ok texts) ↔ joinable items = true := by
  cases items with
  | nil => simp [elementTexts, joinable]
  | cons head rest =>
    rw [joinable, Bool.and_eq_true, ← toText_ok_iff head, ← elementTexts_ok_iff rest]
    cases head with
    | undefined =>
      rw [elementTexts]
      simp [bind_eq_ok_iff, toText, pure, Except.pure]
    | null =>
      rw [elementTexts]
      simp [bind_eq_ok_iff, toText, pure, Except.pure]
    | _ =>
      rw [elementTexts]
      · simp [bind_eq_ok_iff, pure, Except.pure]
      all_goals simp

end

end Value

end BrightCli.Lib.Js
