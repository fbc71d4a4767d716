import Mathlib.Data.List.Induction
import Mathlib.Data.List.Nodup

/-!
# Insertion-ordered maps

The `Map` of ECMAScript, kept as the list of the mutations made on it, so that
the moment an entry was inserted is a fact about the map and not a convention
about its representation. `entries` replays the mutations: setting a present
key keeps its place, setting an absent one appends, deleting closes the gap.

The results are about every history: keys never repeat, the iteration order is
the order of `insertedAt`, and a search in iteration order returns the entry
inserted first (`find?_earliest`).
-/
namespace BrightCli.Lib

inductive Mutation (κ ν : Type) where
  | set (key : κ) (value : ν)
  | delete (key : κ)
  deriving DecidableEq, Repr

structure InsertionMap (κ ν : Type) where
  history : List (Mutation κ ν)
  deriving Repr

namespace InsertionMap

variable {κ ν : Type} [DecidableEq κ]

def applyMutation (entries : List (κ × ν)) : Mutation κ ν → List (κ × ν)
  | .set key value =>
    if key ∈ entries.map Prod.fst then
      entries.map fun entry => if entry.1 = key then (key, value) else entry
    else entries ++ [(key, value)]
  | .delete key => entries.filter fun entry => entry.1 ≠ key

def entries (m : InsertionMap κ ν) : List (κ × ν) := m.history.foldl applyMutation []

def keys (m : InsertionMap κ ν) : List κ := m.entries.map Prod.fst

def values (m : InsertionMap κ ν) : List ν := m.entries.map Prod.snd

def size (m : InsertionMap κ ν) : Nat := m.entries.length

def get? (m : InsertionMap κ ν) (key : κ) : Option ν :=
  (m.entries.find? fun entry => entry.1 = key).map Prod.snd

def has (m : InsertionMap κ ν) (key : κ) : Bool := decide (key ∈ m.keys)

def empty : InsertionMap κ ν := ⟨[]⟩

def set (m : InsertionMap κ ν) (key : κ) (value : ν) : InsertionMap κ ν :=
  ⟨m.history ++ [.set key value]⟩

def delete (m : InsertionMap κ ν) (key : κ) : InsertionMap κ ν :=
  ⟨m.history ++ [.delete key]⟩

def clear (m : InsertionMap κ ν) : InsertionMap κ ν :=
  m.keys.foldl delete m

/-- `forEach` with a callback that may delete one key: entries are visited in
order, and one that was removed before its turn is not visited. -/
def forEachDelete (m : InsertionMap κ ν) (victim : ν → Option κ) : InsertionMap κ ν :=
  m.entries.foldl
    (fun acc entry =>
      if acc.has entry.1 then
        match victim entry.2 with
        | some key => acc.delete key
        | none => acc
      else acc) m

/-- Position in the history of the mutation that inserted the key, for a key
that is still present: later sets do not move it, a delete forgets it. -/
def stampStep (key : κ) (clock : Nat × Option Nat) : Mutation κ ν → Nat × Option Nat
  | .set touched _ =>
    (clock.1 + 1, if touched = key then some (clock.2.getD clock.1) else clock.2)
  | .delete touched => (clock.1 + 1, if touched = key then none else clock.2)

def insertedAt (m : InsertionMap κ ν) (key : κ) : Option Nat :=
  (m.history.foldl (stampStep key) (0, none)).2

/-- Both keys are present and the first was inserted before the second. -/
def InsertedBefore (m : InsertionMap κ ν) (first second : κ) : Prop :=
  ∃ i j, m.insertedAt first = some i ∧ m.insertedAt second = some j ∧ i < j

@[simp] theorem entries_empty : (empty : InsertionMap κ ν).entries = [] := rfl

theorem entries_set (m : InsertionMap κ ν) (key : κ) (value : ν) :
    (m.set key value).entries = applyMutation m.entries (.set key value) := by
  simp [entries, set]

@[simp] theorem entries_delete (m : InsertionMap κ ν) (key : κ) :
    (m.delete key).entries = m.entries.filter fun entry => entry.1 ≠ key := by
  simp [entries, delete, applyMutation]

theorem keys_set (m : InsertionMap κ ν) (key : κ) (value : ν) :
    (m.set key value).keys = if key ∈ m.keys then m.keys else m.keys ++ [key] := by
  unfold keys
  rw [entries_set, applyMutation]
  split
  · rw [List.map_map]
    apply List.map_congr_left
    intro entry _
    by_cases same : entry.1 = key <;> simp [same]
  · simp

theorem keys_delete (m : InsertionMap κ ν) (key : κ) :
    (m.delete key).keys = m.keys.filter fun present => present ≠ key := by
  simp only [keys, entries_delete, List.filter_map, Function.comp_def]

theorem entries_set_of_absent (m : InsertionMap κ ν) (key : κ) (value : ν)
    (absent : key ∉ m.keys) : (m.set key value).entries = m.entries ++ [(key, value)] := by
  rw [entries_set, applyMutation]
  exact if_neg absent

theorem mem_entries_set (m : InsertionMap κ ν) (key : κ) (value : ν) (entry : κ × ν)
    (member : entry ∈ (m.set key value).entries) :
    entry = (key, value) ∨ (entry ∈ m.entries ∧ entry.1 ≠ key) := by
  rw [entries_set, applyMutation] at member
  split at member
  · obtain ⟨old, belongs, rfl⟩ := List.mem_map.mp member
    by_cases same : old.1 = key
    · exact Or.inl (if_pos same)
    · rw [if_neg same]
      exact Or.inr ⟨belongs, same⟩
  next absent =>
    rcases List.mem_append.mp member with belongs | fresh
    · refine Or.inr ⟨belongs, fun same => absent ?_⟩
      exact same ▸ List.mem_map_of_mem belongs
    · exact Or.inl (List.mem_singleton.mp fresh)

private theorem stamp_clock (key : κ) (history : List (Mutation κ ν)) :
    (history.foldl (stampStep key) (0, none)).1 = history.length := by
  induction history using List.reverseRecOn with
  | nil => rfl
  | append_singleton seen mutation ih =>
    rw [List.foldl_append, List.length_append, ← ih]
    cases mutation <;> rfl

theorem insertedAt_set (m : InsertionMap κ ν) (key : κ) (value : ν) (other : κ) :
    (m.set key value).insertedAt other =
      if key = other then some ((m.insertedAt other).getD m.history.length)
      else m.insertedAt other := by
  simp only [insertedAt, set, List.foldl_append, List.foldl_cons, List.foldl_nil, stampStep,
    stamp_clock]

theorem insertedAt_delete (m : InsertionMap κ ν) (key other : κ) :
    (m.delete key).insertedAt other = if key = other then none else m.insertedAt other := by
  simp only [insertedAt, delete, List.foldl_append, List.foldl_cons, List.foldl_nil, stampStep]

/-- Re-setting a present key keeps its place. -/
theorem insertedAt_set_of_present (m : InsertionMap κ ν) (key : κ) (value : ν) (stamp : Nat)
    (present : m.insertedAt key = some stamp) : (m.set key value).insertedAt key = some stamp := by
  simp [insertedAt_set, present]

/-- What relates the iteration order to the moments of insertion. -/
private structure Ranked (m : InsertionMap κ ν) : Prop where
  present : ∀ key, key ∈ m.keys ↔ (m.insertedAt key).isSome
  past : ∀ key stamp, m.insertedAt key = some stamp → stamp < m.history.length
  ordered : m.keys.Pairwise m.InsertedBefore

private theorem Ranked.set {m : InsertionMap κ ν} (ranked : Ranked m) (key : κ) (value : ν) :
    Ranked (m.set key value) := by
  have length : (m.set key value).history.length = m.history.length + 1 := by simp [InsertionMap.set]
  have kept : ∀ other ∈ m.keys, (m.set key value).insertedAt other = m.insertedAt other := by
    intro other member
    rw [insertedAt_set]
    split
    · obtain ⟨stamp, at_stamp⟩ := Option.isSome_iff_exists.mp ((ranked.present other).mp member)
      simp [at_stamp]
    · rfl
  refine ⟨?_, ?_, ?_⟩
  · intro other
    rw [keys_set, insertedAt_set]
    by_cases equal : key = other
    · subst equal
      by_cases member : key ∈ m.keys <;> simp [member]
    · rw [if_neg equal, ← ranked.present]
      by_cases member : key ∈ m.keys <;> simp [member, Ne.symm equal]
  · intro other stamp at_stamp
    rw [insertedAt_set] at at_stamp
    rw [length]
    split at at_stamp
    · cases old : m.insertedAt other with
      | none => simp [old] at at_stamp; omega
      | some earlier =>
        have := ranked.past other earlier old
        simp [old] at at_stamp
        omega
    · have := ranked.past other stamp at_stamp
      omega
  · have old_order : m.keys.Pairwise (m.set key value).InsertedBefore := by
      refine ranked.ordered.imp_of_mem ?_
      rintro first second member₁ member₂ ⟨i, j, hi, hj, lt⟩
      exact ⟨i, j, (kept first member₁).trans hi, (kept second member₂).trans hj, lt⟩
    rw [keys_set]
    split
    · exact old_order
    next absent =>
      refine List.pairwise_append.mpr ⟨old_order, List.pairwise_singleton _ _, ?_⟩
      intro first member second fresh
      rw [List.mem_singleton.mp fresh]
      obtain ⟨stamp, at_stamp⟩ := Option.isSome_iff_exists.mp ((ranked.present first).mp member)
      have gone : m.insertedAt key = none := by
        rw [← Option.not_isSome_iff_eq_none, ← ranked.present]
        exact absent
      refine ⟨stamp, m.history.length, (kept first member).trans at_stamp, ?_,
        ranked.past first stamp at_stamp⟩
      simp [insertedAt_set, gone]

private theorem Ranked.delete {m : InsertionMap κ ν} (ranked : Ranked m) (key : κ) :
    Ranked (m.delete key) := by
  refine ⟨?_, ?_, ?_⟩
  · intro other
    rw [keys_delete, insertedAt_delete, List.mem_filter, ranked.present]
    by_cases equal : key = other
    · simp [equal]
    · simp [equal, Ne.symm equal]
  · intro other stamp at_stamp
    rw [insertedAt_delete] at at_stamp
    split at at_stamp
    · cases at_stamp
    · have := ranked.past other stamp at_stamp
      simp [InsertionMap.delete]
      omega
  · rw [keys_delete]
    refine (ranked.ordered.filter _).imp_of_mem ?_
    rintro first second member₁ member₂ ⟨i, j, hi, hj, lt⟩
    have ne₁ : key ≠ first := Ne.symm (of_decide_eq_true (List.mem_filter.mp member₁).2)
    have ne₂ : key ≠ second := Ne.symm (of_decide_eq_true (List.mem_filter.mp member₂).2)
    exact ⟨i, j, by simp [insertedAt_delete, ne₁, hi], by simp [insertedAt_delete, ne₂, hj], lt⟩

private theorem ranked (m : InsertionMap κ ν) : Ranked m := by
  obtain ⟨history⟩ := m
  induction history using List.reverseRecOn with
  | nil => exact ⟨by simp [keys, entries, insertedAt], by simp [insertedAt], List.Pairwise.nil⟩
  | append_singleton seen mutation ih =>
    cases mutation with
    | set key value => exact ih.set key value
    | delete key => exact ih.delete key

/-- Iteration order is insertion order. -/
theorem keys_pairwise (m : InsertionMap κ ν) : m.keys.Pairwise m.InsertedBefore :=
  (ranked m).ordered

theorem InsertedBefore.irrefl (m : InsertionMap κ ν) (key : κ) : ¬ m.InsertedBefore key key := by
  rintro ⟨i, j, hi, hj, lt⟩
  rw [hi] at hj
  cases hj
  exact Nat.lt_irrefl _ lt

theorem keys_nodup (m : InsertionMap κ ν) : m.keys.Nodup := by
  refine m.keys_pairwise.imp ?_
  rintro first second before rfl
  exact InsertedBefore.irrefl m first before

theorem has_iff (m : InsertionMap κ ν) (key : κ) : m.has key = true ↔ key ∈ m.keys := by
  simp [has]

/-- A search in iteration order returns the entry that was inserted first
among those that satisfy the predicate. -/
theorem find?_earliest (m : InsertionMap κ ν) (p : κ × ν → Bool) (found : κ × ν)
    (h : m.entries.find? p = some found) :
    found ∈ m.entries ∧ p found = true ∧
      ∀ other ∈ m.entries, p other = true → other.1 ≠ found.1 →
        m.InsertedBefore found.1 other.1 := by
  obtain ⟨accepted, front, back, split, rejected⟩ := List.find?_eq_some_iff_append.mp h
  refine ⟨by simp [split], accepted, ?_⟩
  intro other member accepts different
  have order := m.keys_pairwise
  rw [keys, split, List.map_append, List.map_cons] at order
  have after := (List.pairwise_cons.mp (List.pairwise_append.mp order).2.1).1
  rw [split] at member
  rcases List.mem_append.mp member with early | late
  · have := rejected other early
    simp [accepts] at this
  · rcases List.mem_cons.mp late with rfl | tail
    · exact absurd rfl different
    · exact after other.1 (List.mem_map_of_mem tail)

theorem get?_set_of_absent (m : InsertionMap κ ν) (key other : κ) (value : ν)
    (absent : key ∉ m.keys) :
    (m.set key value).get? other = if key = other then some value else m.get? other := by
  unfold get?
  rw [entries_set_of_absent m key value absent, List.find?_append]
  by_cases equal : key = other
  · subst equal
    have missing : (m.entries.find? fun entry => entry.1 = key) = none := by
      rw [List.find?_eq_none]
      intro entry member
      have : entry.1 ≠ key := fun same => absent (same ▸ List.mem_map_of_mem member)
      simpa using this
    simp [missing]
  · simp [equal]

theorem get?_set (m : InsertionMap κ ν) (key other : κ) (value : ν) :
    (m.set key value).get? other = if key = other then some value else m.get? other := by
  by_cases present : key ∈ m.keys
  · unfold get?
    rw [entries_set, applyMutation, if_pos (show key ∈ m.entries.map Prod.fst from present),
      List.find?_map]
    have kept : ((fun entry : κ × ν => decide (entry.1 = other)) ∘
        fun entry => if entry.1 = key then (key, value) else entry) =
        fun entry => decide (entry.1 = other) := by
      funext entry
      by_cases same : entry.1 = key <;> simp [same]
    rw [kept]
    by_cases equal : key = other
    · subst equal
      obtain ⟨entry, member, same⟩ := List.mem_map.mp present
      have found : (m.entries.find? fun entry => entry.1 = key).isSome :=
        List.find?_isSome.mpr ⟨entry, member, by simpa using same⟩
      obtain ⟨first, chosen⟩ := Option.isSome_iff_exists.mp found
      have own : first.1 = key := by simpa using List.find?_some chosen
      simp [chosen, own]
    · rw [if_neg equal]
      cases chosen : m.entries.find? fun entry => entry.1 = other with
      | none => rfl
      | some entry =>
        have own : entry.1 = other := by simpa using List.find?_some chosen
        have different : ¬ entry.1 = key := fun same => equal (same.symm.trans own)
        simp [different]
  · exact get?_set_of_absent m key other value present

theorem get?_delete (m : InsertionMap κ ν) (key other : κ) :
    (m.delete key).get? other = if key = other then none else m.get? other := by
  unfold get?
  rw [entries_delete, List.find?_filter]
  by_cases equal : key = other
  · subst equal
    simp
  · rw [if_neg equal]
    congr 2
    funext entry
    by_cases same : entry.1 = other
    · simp [same, Ne.symm equal]
    · simp [same]

theorem key_mem_of_get? (m : InsertionMap κ ν) (key : κ) (value : ν)
    (h : m.get? key = some value) : (key, value) ∈ m.entries := by
  obtain ⟨entry, found, rfl⟩ := Option.map_eq_some_iff.mp h
  have same : entry.1 = key := by simpa using List.find?_some found
  rw [← same]
  exact List.mem_of_find?_eq_some found

private theorem foldl_delete_entries (victim : ν → Option κ) (visited : List (κ × ν))
    (own : ∀ entry ∈ visited, ∀ key, victim entry.2 = some key → key = entry.1)
    (m : InsertionMap κ ν) :
    (visited.foldl
      (fun acc entry =>
        if acc.has entry.1 then
          match victim entry.2 with
          | some key => acc.delete key
          | none => acc
        else acc) m).entries =
      m.entries.filter fun entry =>
        decide (∀ seen ∈ visited, seen.1 = entry.1 → victim seen.2 = none) := by
  induction visited generalizing m with
  | nil => simp
  | cons head rest ih =>
    have own_rest : ∀ entry ∈ rest, ∀ key, victim entry.2 = some key → key = entry.1 :=
      fun entry member => own entry (by simp [member])
    rw [List.foldl_cons, ih own_rest]
    by_cases present : m.has head.1 = true
    · rw [if_pos present]
      cases chosen : victim head.2 with
      | none =>
        apply List.filter_congr
        intro entry _
        simp [chosen]
      | some key =>
        have same : key = head.1 := own head (by simp) key chosen
        subst same
        simp only [entries_delete, List.filter_filter]
        apply List.filter_congr
        intro entry _
        by_cases equal : entry.1 = head.1
        · simp [equal, chosen]
        · simp [equal, Ne.symm equal, chosen]
    · rw [if_neg present]
      apply List.filter_congr
      intro entry member
      have different : head.1 ≠ entry.1 := by
        intro equal
        exact present ((m.has_iff _).mpr (equal ▸ List.mem_map_of_mem member))
      simp [different]

/-- A callback that deletes the entry it is called for, or nothing, leaves
exactly the entries it does not delete, in order. -/
theorem entries_forEachDelete (m : InsertionMap κ ν) (victim : ν → Option κ)
    (own : ∀ entry ∈ m.entries, ∀ key, victim entry.2 = some key → key = entry.1) :
    (m.forEachDelete victim).entries = m.entries.filter fun entry => (victim entry.2).isNone := by
  rw [forEachDelete, foldl_delete_entries victim m.entries own]
  apply List.filter_congr
  intro entry member
  rw [Bool.eq_iff_iff, decide_eq_true_iff, Option.isNone_iff_eq_none]
  constructor
  · intro none_of_key
    exact none_of_key entry member rfl
  · intro spared seen belongs same
    have : seen = entry := List.inj_on_of_nodup_map m.keys_nodup belongs member same
    rw [this]
    exact spared

end InsertionMap

end BrightCli.Lib
