import Mathlib.Algebra.Group.Nat.Defs
import Mathlib.Data.List.Basic
import Mathlib.Data.List.Induction

/-!
# Own properties of an object

The string-keyed own properties of an ECMAScript object in the order in which
`Object.entries` lists them: array indices first, ascending, then the other
keys in the order of their creation. The order is a field of the structure, so
a map whose keys repeat or are out of order cannot be built. Rebuilding a map
from its own entries, which is what spreading an object into a fresh one does,
gives the map back (`ofEntries_entries`).
-/
namespace BrightCli.Lib

/-- The array index a key denotes: a decimal numeral without leading zeros, below `2 ^ 32 - 1`. -/
def arrayIndex? (key : String) : Option Nat :=
  match key.toNat? with
  | some n => if toString n = key ∧ n < 2 ^ 32 - 1 then some n else none
  | none => none

/-- `first` may stand before `second` in the listing order. -/
def ListedBefore (first second : String) : Prop :=
  match arrayIndex? first, arrayIndex? second with
  | some i, some j => i < j
  | some _, none => True
  | none, some _ => False
  | none, none => first ≠ second

instance (first second : String) : Decidable (ListedBefore first second) := by
  unfold ListedBefore
  split <;> infer_instance

structure PropertyMap (ν : Type) where
  entries : List (String × ν)
  ordered : entries.Pairwise fun first second => ListedBefore first.1 second.1

namespace PropertyMap

variable {ν : Type}

/-- Insertion of an absent key at the place the order gives it. -/
def insertEntry (key : String) (value : ν) : List (String × ν) → List (String × ν)
  | [] => [(key, value)]
  | head :: rest =>
    if ListedBefore head.1 key then head :: insertEntry key value rest
    else (key, value) :: head :: rest

def setEntries (entries : List (String × ν)) (key : String) (value : ν) : List (String × ν) :=
  if key ∈ entries.map Prod.fst then
    entries.map fun entry => if entry.1 = key then (key, value) else entry
  else insertEntry key value entries

theorem listedBefore_irrefl (key : String) : ¬ ListedBefore key key := by
  unfold ListedBefore
  cases arrayIndex? key <;> simp

theorem toString_of_arrayIndex? {key : String} {n : Nat} (index : arrayIndex? key = some n) :
    toString n = key := by
  unfold arrayIndex? at index
  split at index
  · split at index
    next canonical => cases index; exact canonical.1
    · cases index
  · cases index

theorem arrayIndex?_injective {first second : String} {n : Nat} (h₁ : arrayIndex? first = some n)
    (h₂ : arrayIndex? second = some n) : first = second :=
  (toString_of_arrayIndex? h₁).symm.trans (toString_of_arrayIndex? h₂)

theorem arrayIndex?_of_not_digit {key : String} {c : Char} (member : c ∈ key.toList)
    (other : c.isDigit = false) : arrayIndex? key = none := by
  cases index : arrayIndex? key with
  | none => rfl
  | some n =>
    rw [← toString_of_arrayIndex? index, Nat.toString_eq_repr, Nat.toList_repr] at member
    rw [Nat.isDigit_of_mem_toDigits (by decide) (by decide) member] at other
    cases other

/-- Two different keys are comparable unless the second is an index before a plain key. -/
theorem listedBefore_of_not {first second : String} (different : first ≠ second)
    (other : ¬ ListedBefore first second) : ListedBefore second first := by
  unfold ListedBefore at *
  cases i : arrayIndex? first with
  | none =>
    cases j : arrayIndex? second with
    | none => simp [i, j] at other; exact absurd other different
    | some n => simp
  | some m =>
    cases j : arrayIndex? second with
    | none => simp [i, j] at other
    | some n =>
      simp only [i, j] at other ⊢
      have : m ≠ n := by
        rintro rfl
        exact different (arrayIndex?_injective i j)
      omega

theorem listedBefore_trans {first second third : String} (h₁ : ListedBefore first second)
    (h₂ : ListedBefore second third) (different : first ≠ third) : ListedBefore first third := by
  unfold ListedBefore at *
  generalize arrayIndex? first = i at *
  generalize arrayIndex? second = j at *
  generalize arrayIndex? third = k at *
  match i, j, k with
  | none, none, none => exact different
  | some _, _, none => trivial
  | some i, some j, some k => exact Nat.lt_trans h₁ h₂

theorem mem_insertEntry {key : String} {value : ν} {entries : List (String × ν)}
    {entry : String × ν} (member : entry ∈ insertEntry key value entries) :
    entry = (key, value) ∨ entry ∈ entries := by
  induction entries with
  | nil => simpa [insertEntry] using member
  | cons head rest ih =>
    rw [insertEntry] at member
    split at member
    · rcases List.mem_cons.mp member with rfl | tail
      · simp
      · rcases ih tail with new | old
        · exact Or.inl new
        · simp [old]
    · simpa using member

theorem insertEntry_ordered (key : String) (value : ν) (entries : List (String × ν))
    (absent : key ∉ entries.map Prod.fst)
    (ordered : entries.Pairwise fun first second => ListedBefore first.1 second.1) :
    (insertEntry key value entries).Pairwise fun first second => ListedBefore first.1 second.1 := by
  induction entries with
  | nil => simp [insertEntry]
  | cons head rest ih =>
    obtain ⟨after_head, tail⟩ := List.pairwise_cons.mp ordered
    have key_ne_head : head.1 ≠ key := fun same => absent (by simp [same])
    have absent_rest : key ∉ rest.map Prod.fst := fun member => absent (by simp [member])
    rw [insertEntry]
    split
    next head_first =>
      refine List.pairwise_cons.mpr ⟨?_, ih absent_rest tail⟩
      intro entry member
      rcases mem_insertEntry member with rfl | old
      · exact head_first
      · exact after_head entry old
    next key_first =>
      have before_head := listedBefore_of_not key_ne_head key_first
      refine List.pairwise_cons.mpr ⟨?_, ordered⟩
      intro entry member
      rcases List.mem_cons.mp member with rfl | old
      · exact before_head
      · refine listedBefore_trans before_head (after_head entry old) ?_
        intro same
        exact absent_rest (List.mem_map.mpr ⟨entry, old, same.symm⟩)

theorem lookup_cons_of_ne {key other : String} (value : ν) (entries : List (String × ν))
    (different : other ≠ key) : ((key, value) :: entries).lookup other = entries.lookup other := by
  rw [List.lookup_cons, beq_eq_false_iff_ne.mpr different]

theorem lookup_insertEntry_self (key : String) (value : ν) (entries : List (String × ν))
    (absent : key ∉ entries.map Prod.fst) : (insertEntry key value entries).lookup key = some value := by
  induction entries with
  | nil => simp [insertEntry]
  | cons head rest ih =>
    obtain ⟨name, old⟩ := head
    have different : key ≠ name := fun same => absent (by simp [same])
    rw [insertEntry]
    split
    · rw [lookup_cons_of_ne old _ different]
      exact ih fun member => absent (by simp [member])
    · simp

theorem lookup_insertEntry_of_ne {key other : String} (value : ν) (entries : List (String × ν))
    (different : other ≠ key) : (insertEntry key value entries).lookup other = entries.lookup other := by
  induction entries with
  | nil => rw [insertEntry, lookup_cons_of_ne value _ different]
  | cons head rest ih =>
    obtain ⟨name, old⟩ := head
    rw [insertEntry]
    split
    · rw [List.lookup_cons, List.lookup_cons, ih]
    · rw [lookup_cons_of_ne value _ different]

theorem lookup_setEntries_self (entries : List (String × ν)) (key : String) (value : ν) :
    (setEntries entries key value).lookup key = some value := by
  unfold setEntries
  split
  · rename_i present
    induction entries with
    | nil => simp at present
    | cons head rest ih =>
      obtain ⟨name, old⟩ := head
      by_cases same : name = key
      · simp [same]
      · have tail : key ∈ rest.map Prod.fst := by simpa [Ne.symm same] using present
        rw [List.map_cons, if_neg same, lookup_cons_of_ne old _ (Ne.symm same)]
        exact ih tail
  · rename_i absent
    exact lookup_insertEntry_self key value entries absent

theorem lookup_setEntries_of_ne (entries : List (String × ν)) {key other : String} (value : ν)
    (different : other ≠ key) :
    (setEntries entries key value).lookup other = entries.lookup other := by
  unfold setEntries
  split
  · clear *- different
    induction entries with
    | nil => rfl
    | cons head rest ih =>
      obtain ⟨name, old⟩ := head
      by_cases same : name = key
      · rw [List.map_cons, if_pos same, lookup_cons_of_ne value _ different, ih, same,
          lookup_cons_of_ne old _ different]
      · rw [List.map_cons, if_neg same, List.lookup_cons, List.lookup_cons, ih]
  · exact lookup_insertEntry_of_ne value entries different

theorem setEntries_ordered (entries : List (String × ν)) (key : String) (value : ν)
    (ordered : entries.Pairwise fun first second => ListedBefore first.1 second.1) :
    (setEntries entries key value).Pairwise fun first second =>
      ListedBefore first.1 second.1 := by
  unfold setEntries
  split
  · refine List.pairwise_map.mpr (ordered.imp ?_)
    intro first second before
    have keeps : ∀ entry : String × ν,
        (if entry.1 = key then (key, value) else entry).1 = entry.1 := by
      intro entry
      split <;> simp_all
    rw [keeps, keeps]
    exact before
  next absent => exact insertEntry_ordered key value entries absent ordered

def empty : PropertyMap ν := ⟨[], List.Pairwise.nil⟩

/-- Creation or overwriting of an own property. -/
def set (m : PropertyMap ν) (key : String) (value : ν) : PropertyMap ν :=
  ⟨setEntries m.entries key value, setEntries_ordered m.entries key value m.ordered⟩

/-- Assignment with brackets: `__proto__` reaches the accessor of the prototype
and never becomes an own property. -/
def assign (m : PropertyMap ν) (key : String) (value : ν) : PropertyMap ν :=
  if key = "__proto__" then m else m.set key value

def delete (m : PropertyMap ν) (key : String) : PropertyMap ν :=
  ⟨m.entries.filter fun entry => entry.1 ≠ key, m.ordered.filter _⟩

def get? (m : PropertyMap ν) (key : String) : Option ν := m.entries.lookup key

def spread (m : PropertyMap ν) (entries : List (String × ν)) : PropertyMap ν :=
  entries.foldl (fun acc entry => acc.set entry.1 entry.2) m

def ofEntries (entries : List (String × ν)) : PropertyMap ν := empty.spread entries

theorem ext {m n : PropertyMap ν} (same : m.entries = n.entries) : m = n := by
  cases m
  cases n
  cases same
  rfl

theorem mem_set {m : PropertyMap ν} {key : String} {value : ν} {entry : String × ν}
    (member : entry ∈ (m.set key value).entries) : entry = (key, value) ∨ entry ∈ m.entries := by
  unfold set setEntries at member
  dsimp only at member
  split at member
  · obtain ⟨old, present, rfl⟩ := List.mem_map.mp member
    split
    · exact Or.inl rfl
    · exact Or.inr present
  · exact mem_insertEntry member

/-- What holds of the entries of an object and of those spread into it holds of
the result. -/
theorem forall_spread {P : String × ν → Prop} (m : PropertyMap ν) (added : List (String × ν))
    (own : ∀ entry ∈ m.entries, P entry) (new : ∀ entry ∈ added, P entry) :
    ∀ entry ∈ (m.spread added).entries, P entry := by
  induction added generalizing m with
  | nil => exact own
  | cons head rest ih =>
    refine ih (m.set head.1 head.2) ?_ fun entry member => new entry (by simp [member])
    intro entry member
    rcases mem_set member with rfl | old
    · exact new head (by simp)
    · exact own entry old

theorem insertEntry_last (key : String) (value : ν) (entries : List (String × ν))
    (before : ∀ entry ∈ entries, ListedBefore entry.1 key) :
    insertEntry key value entries = entries ++ [(key, value)] := by
  induction entries with
  | nil => rfl
  | cons head rest ih =>
    rw [insertEntry, if_pos (before head (by simp)), ih fun entry member =>
      before entry (by simp [member])]
    rfl

theorem setEntries_last (key : String) (value : ν) (entries : List (String × ν))
    (before : ∀ entry ∈ entries, ListedBefore entry.1 key) :
    setEntries entries key value = entries ++ [(key, value)] := by
  have absent : key ∉ entries.map Prod.fst := by
    intro present
    obtain ⟨entry, member, same⟩ := List.mem_map.mp present
    have := before entry member
    rw [same] at this
    exact listedBefore_irrefl key this
  rw [setEntries, if_neg absent, insertEntry_last key value entries before]

/-- An object literal that spreads an object has its properties, in its order. -/
theorem ofEntries_entries (m : PropertyMap ν) : ofEntries m.entries = m := by
  apply ext
  obtain ⟨entries, ordered⟩ := m
  dsimp only
  induction entries using List.reverseRecOn with
  | nil => rfl
  | append_singleton front last ih =>
    obtain ⟨front_ordered, _, before⟩ := List.pairwise_append.mp ordered
    have built := ih front_ordered
    have grown : (ofEntries (front ++ [last])).entries =
        setEntries (ofEntries front).entries last.1 last.2 := by
      simp [ofEntries, spread, set]
    rw [grown, built]
    exact setEntries_last last.1 last.2 front fun entry member => before entry member last (by simp)

/-- The object literal with the given keys, none of which is a numeral. -/
def ofNames (entries : List (String × ν))
    (names : (entries.all fun entry => entry.1.toList.any (!·.isDigit)) = true)
    (distinct : (entries.map Prod.fst).Nodup) : PropertyMap ν where
  entries
  ordered := by
    have plain : ∀ entry ∈ entries, arrayIndex? entry.1 = none := by
      intro entry member
      obtain ⟨c, occurs, other⟩ := List.any_eq_true.mp (List.all_eq_true.mp names entry member)
      exact arrayIndex?_of_not_digit occurs (by simpa using other)
    refine (List.pairwise_map.mp distinct).imp_of_mem fun {first second} left right different => ?_
    rw [ListedBefore, plain first left, plain second right]
    exact different

theorem get?_set (m : PropertyMap ν) (key other : String) (value : ν) :
    (m.set key value).get? other = if other = key then some value else m.get? other := by
  unfold get? set
  split
  · rename_i same
    rw [same, lookup_setEntries_self]
  · rename_i different
    rw [lookup_setEntries_of_ne m.entries value different]

theorem get?_delete (m : PropertyMap ν) (key other : String) :
    (m.delete key).get? other = if other = key then none else m.get? other := by
  unfold get? delete
  dsimp only
  induction m.entries with
  | nil => simp
  | cons head rest ih =>
    obtain ⟨name, value⟩ := head
    by_cases gone : name = key
    · rw [List.filter_cons_of_neg (by simpa using gone), ih]
      split
      · rfl
      · rename_i different
        rw [lookup_cons_of_ne value rest (by rwa [gone])]
    · rw [List.filter_cons_of_pos (by simpa using gone), List.lookup_cons, List.lookup_cons, ih]
      by_cases same : other = name
      · simp [same, gone]
      · simp [beq_eq_false_iff_ne.mpr same]

theorem get?_assign (m : PropertyMap ν) (key other : String) (value : ν)
    (ownKey : other ≠ "__proto__") :
    (m.assign key value).get? other = if other = key then some value else m.get? other := by
  unfold assign
  split
  · rename_i accessor
    rw [if_neg fun same => ownKey (same.trans accessor)]
  · exact get?_set m key other value

/-- The last of the assignments to a key counts. -/
theorem get?_foldl_assign (entries : List (String × ν)) (m : PropertyMap ν) (key : String)
    (ownKey : key ≠ "__proto__") :
    (entries.foldl (fun acc entry => acc.assign entry.1 entry.2) m).get? key =
      ((entries.filter (·.1 = key)).getLast?.map Prod.snd).or (m.get? key) := by
  induction entries using List.reverseRecOn with
  | nil => rfl
  | append_singleton front last ih =>
    rw [List.foldl_append, List.foldl_cons, List.foldl_nil, get?_assign _ _ _ _ ownKey,
      List.filter_append]
    by_cases same : key = last.1
    · simp [same]
    · simp [same, Ne.symm same, ih]

/-- The accessor of the prototype is never an own property. -/
theorem get?_foldl_assign_proto (entries : List (String × ν)) (m : PropertyMap ν) :
    (entries.foldl (fun acc entry => acc.assign entry.1 entry.2) m).get? "__proto__" =
      m.get? "__proto__" := by
  induction entries generalizing m with
  | nil => rfl
  | cons head rest ih =>
    rw [List.foldl_cons, ih]
    unfold assign
    split
    · rfl
    · rename_i other
      rw [get?_set, if_neg (Ne.symm other)]

theorem keys_nodup (m : PropertyMap ν) : (m.entries.map Prod.fst).Nodup := by
  refine List.pairwise_map.mpr (m.ordered.imp fun {first second} before same => ?_)
  rw [same] at before
  exact listedBefore_irrefl second.1 before

theorem mem_entries_iff (m : PropertyMap ν) (key : String) (value : ν) :
    (key, value) ∈ m.entries ↔ m.get? key = some value := by
  have distinct := keys_nodup m
  unfold get?
  generalize m.entries = entries at distinct
  induction entries with
  | nil => simp
  | cons head rest ih =>
    obtain ⟨name, held⟩ := head
    rw [List.map_cons, List.nodup_cons] at distinct
    by_cases same : key = name
    · subst same
      have absent : (key, value) ∉ rest := fun member =>
        distinct.1 (List.mem_map.mpr ⟨_, member, rfl⟩)
      simp [absent, eq_comm]
    · rw [lookup_cons_of_ne held rest same]
      simp [same, ih distinct.2]

/-- With distinct keys, the last entry of a key is the only one. -/
theorem getLast?_filter_key (m : PropertyMap ν) (key : String) :
    (m.entries.filter (·.1 = key)).getLast?.map Prod.snd = m.get? key := by
  apply Option.ext
  intro value
  rw [← mem_entries_iff, Option.map_eq_some_iff]
  constructor
  · rintro ⟨⟨name, held⟩, isLast, rfl⟩
    obtain ⟨member, same⟩ := List.mem_filter.mp (List.mem_of_getLast? isLast)
    cases of_decide_eq_true same
    exact member
  · intro member
    have found : (key, value) ∈ m.entries.filter (·.1 = key) :=
      List.mem_filter.mpr ⟨member, decide_eq_true rfl⟩
    obtain ⟨last, isLast⟩ := Option.isSome_iff_exists.mp
      (List.getLast?_isSome.mpr (List.ne_nil_of_mem found))
    obtain ⟨lastMember, same⟩ := List.mem_filter.mp (List.mem_of_getLast? isLast)
    refine ⟨last, isLast, ?_⟩
    have held := (mem_entries_iff m last.1 last.2).mp lastMember
    rw [of_decide_eq_true same, (mem_entries_iff m key value).mp member] at held
    exact (Option.some.inj held).symm

/-- The last of the entries of a key counts. -/
theorem get?_spread_entries (m : PropertyMap ν) (entries : List (String × ν)) (key : String) :
    (m.spread entries).get? key =
      ((entries.filter (·.1 = key)).getLast?.map Prod.snd).or (m.get? key) := by
  rw [spread]
  induction entries using List.reverseRecOn with
  | nil => rfl
  | append_singleton front last ih =>
    rw [List.foldl_append, List.foldl_cons, List.foldl_nil, get?_set, List.filter_append]
    by_cases same : key = last.1
    · simp [same]
    · simp [same, Ne.symm same, ih]

theorem get?_spread (m added : PropertyMap ν) (key : String) :
    (m.spread added.entries).get? key = (added.get? key).or (m.get? key) := by
  rw [get?_spread_entries, getLast?_filter_key]

theorem get?_ofEntries (entries : List (String × ν)) (key : String) :
    (ofEntries entries).get? key = (entries.filter (·.1 = key)).getLast?.map Prod.snd := by
  rw [ofEntries, get?_spread_entries]
  exact Option.or_none

section Map

variable {μ : Type} (f : ν → μ)

/-- The map with its values replaced. -/
def map (m : PropertyMap ν) : PropertyMap μ where
  entries := m.entries.map fun entry => (entry.1, f entry.2)
  ordered := by
    rw [List.pairwise_map]
    exact m.ordered

theorem map_injective {f : ν → μ} (injective : Function.Injective f) :
    Function.Injective (map f) := by
  intro m n same
  have entries : (m.entries.map fun entry => (entry.1, f entry.2)) =
      n.entries.map fun entry => (entry.1, f entry.2) := congrArg PropertyMap.entries same
  refine ext (Function.Injective.list_map ?_ entries)
  intro first second equal
  obtain ⟨keys, values⟩ := Prod.mk.inj equal
  exact Prod.ext keys (injective values)

theorem insertEntry_map (key : String) (value : ν) (entries : List (String × ν)) :
    insertEntry key (f value) (entries.map fun entry => (entry.1, f entry.2)) =
      (insertEntry key value entries).map fun entry => (entry.1, f entry.2) := by
  induction entries with
  | nil => rfl
  | cons head rest ih =>
    rw [List.map_cons, insertEntry, insertEntry, ih]
    split <;> rfl

theorem map_set (m : PropertyMap ν) (key : String) (value : ν) :
    (m.set key value).map f = (m.map f).set key (f value) := by
  apply ext
  unfold set map setEntries
  dsimp only
  rw [List.map_map]
  split
  · rw [if_pos (by assumption), List.map_map, List.map_map]
    apply List.map_congr_left
    intro entry _
    dsimp only [Function.comp]
    split <;> rfl
  · rw [if_neg (by assumption), insertEntry_map]

theorem map_assign (m : PropertyMap ν) (key : String) (value : ν) :
    (m.assign key value).map f = (m.map f).assign key (f value) := by
  unfold assign
  split
  · rfl
  · exact map_set f m key value

theorem map_spread (entries : List (String × ν)) (m : PropertyMap ν) :
    (m.spread entries).map f = (m.map f).spread (entries.map fun entry => (entry.1, f entry.2)) := by
  induction entries generalizing m with
  | nil => rfl
  | cons head rest ih =>
    exact (ih (m.set head.1 head.2)).trans (by rw [map_set]; rfl)

end Map

end PropertyMap

end BrightCli.Lib
