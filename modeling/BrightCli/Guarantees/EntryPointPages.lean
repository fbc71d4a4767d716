import Mathlib.Data.List.Nodup
import BrightCli.Source.EntryPoints

/-!
# Pages of entry points

The loop counts down by the size of a full page, whatever it received, and moves
its cursor to the last entry point it received. Both agree because a page is short
only at the end of the list: `collect_exact` carries the position in the list from
one iteration to the next.
-/
namespace BrightCli.Guarantees.EntryPointPages
open BrightCli.Lib.Js BrightCli.Source.EntryPoints

/-- The server answers with the first elements that follow the named one, at most
as many as were asked for. -/
structure Serves (entries : List EntryPoint) (get : Client) : Prop where
  start : ∀ n query, query.nextId = none → query.nextCreatedAt = none →
    ∃ answer, get n query = .ok answer ∧ answer.items.getD [] = entries.take query.limit.toNat
  after : ∀ n query front named rest, entries = front ++ named :: rest →
    query.nextId = some named.id → query.nextCreatedAt = some named.createdAt →
    ∃ answer, get n query = .ok answer ∧ answer.items.getD [] = rest.take query.limit.toNat

/-- The cursor names the last element seen; before the first there is none. -/
structure CursorAt (seen : List EntryPoint) (nextId nextCreatedAt : Option String) : Prop where
  id : nextId = seen.getLast?.map EntryPoint.id
  createdAt : nextCreatedAt = seen.getLast?.map EntryPoint.createdAt

theorem Serves.page {entries : List EntryPoint} {get : Client} (serves : Serves entries get)
    (n : Nat) (query : Query) {seen left : List EntryPoint} (split : entries = seen ++ left)
    (cursor : CursorAt seen query.nextId query.nextCreatedAt) :
    ∃ answer, get n query = .ok answer ∧ answer.items.getD [] = left.take query.limit.toNat := by
  obtain ⟨id, createdAt⟩ := cursor
  cases last : seen.getLast? with
  | none =>
    have first : seen = [] := List.getLast?_eq_none_iff.mp last
    rw [last] at id createdAt
    rw [split, first] at serves
    exact serves.start n query id createdAt
  | some named =>
    obtain ⟨front, rfl⟩ := List.getLast?_eq_some_iff.mp last
    rw [last] at id createdAt
    exact serves.after n query front named left (by simpa using split) id createdAt

/-- The loop from a position in the list on: it adds what is left, up to what
remains, and asks as often as full pages are needed for that. -/
theorem collect_exact {entries : List EntryPoint} {get : Client} (serves : Serves entries get)
    (options : EntryPointsListOptions) (remaining : Int) (nextId nextCreatedAt : Option String)
    (sent : List Query) (seen left : List EntryPoint) (split : entries = seen ++ left)
    (cursor : CursorAt seen nextId nextCreatedAt) :
    ∃ more, collect get options remaining nextId nextCreatedAt sent seen =
        (sent ++ more, .ok (seen ++ left.take remaining.toNat)) ∧
      more.length ≤ (remaining.toNat + 49) / 50 ∧
      ∀ asked ∈ more, 1 ≤ asked.limit ∧ asked.limit ≤ 50 := by
  have batch : entrypointsPaginationBatchSize = 50 := rfl
  induction size : remaining.toNat using Nat.strongRecOn
    generalizing remaining nextId nextCreatedAt sent seen left with
  | ind n ih =>
    rw [collect]
    split
    · rename_i positive
      have limit : (query options remaining nextId nextCreatedAt).limit = min remaining 50 := rfl
      have named : CursorAt seen (query options remaining nextId nextCreatedAt).nextId
        (query options remaining nextId nextCreatedAt).nextCreatedAt := cursor
      generalize query options remaining nextId nextCreatedAt = asked at limit named ⊢
      have bounds : 1 ≤ asked.limit ∧ asked.limit ≤ 50 := by omega
      obtain ⟨answer, answered, items⟩ := serves.page sent.length asked split named
      simp only [answered, items]
      cases last : (left.take asked.limit.toNat).getLast? with
      | none =>
        have exhausted : left = [] := by
          rcases List.take_eq_nil_iff.mp (List.getLast?_eq_none_iff.mp last) with zero | empty
          · omega
          · exact empty
        refine ⟨[asked], by simp [exhausted], ?_, by simpa using bounds⟩
        simp only [List.length_singleton]
        omega
      | some final =>
        -- The page becomes part of what was seen, and its last element the cursor.
        obtain ⟨more, result, few, each⟩ := ih (remaining - entrypointsPaginationBatchSize).toNat
          (by omega) (remaining - entrypointsPaginationBatchSize) (some final.id)
          (some final.createdAt) (sent ++ [asked]) (seen ++ left.take asked.limit.toNat)
          (left.drop asked.limit.toNat) (by rw [List.append_assoc, List.take_append_drop, split])
          (by constructor <;> simp [List.getLast?_append, last]) rfl
        have pages : n =
            asked.limit.toNat + (remaining - entrypointsPaginationBatchSize).toNat := by omega
        refine ⟨asked :: more, ?_, ?_, ?_⟩
        · dsimp only
          rw [result, pages, List.take_add]
          simp
        · simp only [List.length_cons]
          omega
        · intro other member
          rcases List.mem_cons.mp member with rfl | later
          · exact bounds
          · exact each other later
    · have none_left : n = 0 := by omega
      exact ⟨[], by simp [none_left], by simp, by simp⟩

/-- `entrypoints` returns the first entry points of the list, as many as the limit
allows, with as many requests as full pages are needed at most. -/
theorem entrypoints_exact (entries : List EntryPoint) (get : Client) (serves : Serves entries get)
    (options : EntryPointsListOptions) :
    (entrypoints get options).2 = .ok (entries.take (options.limit.getD 10)) ∧
      (entrypoints get options).1.length ≤ (options.limit.getD 10 + 49) / 50 ∧
      ∀ query ∈ (entrypoints get options).1, 1 ≤ query.limit ∧ query.limit ≤ 50 := by
  obtain ⟨sent, result, few, each⟩ := collect_exact serves options (options.limit.getD 10) none none
    [] [] entries rfl ⟨rfl, rfl⟩
  unfold entrypoints
  rw [result]
  exact ⟨rfl, few, each⟩

/-- What follows the named element. -/
def following (entries : List EntryPoint) : Option String → Option String → List EntryPoint
  | some id, some createdAt =>
    (entries.dropWhile fun entry => (entry.id, entry.createdAt) ≠ (id, createdAt)).tail
  | _, _ => entries

def serve (entries : List EntryPoint) : Client := fun _ query =>
  .ok { items := some ((following entries query.nextId query.nextCreatedAt).take query.limit.toNat) }

theorem dropWhile_front (front : List EntryPoint) (named : EntryPoint) (rest : List EntryPoint)
    (fresh : ∀ entry ∈ front, (entry.id, entry.createdAt) ≠ (named.id, named.createdAt)) :
    (front ++ named :: rest).dropWhile
      (fun entry => (entry.id, entry.createdAt) ≠ (named.id, named.createdAt)) = named :: rest := by
  rw [List.dropWhile_append_of_pos fun entry member => decide_eq_true (fresh entry member)]
  simp

/-- Where the keys are distinct such a server exists. -/
theorem serves_serve (entries : List EntryPoint)
    (distinct : (entries.map fun entry => (entry.id, entry.createdAt)).Nodup) :
    Serves entries (serve entries) := by
  constructor
  · intro n query id createdAt
    exact ⟨_, rfl, by rw [id, createdAt]; rfl⟩
  · intro n query front named rest split id createdAt
    refine ⟨_, rfl, ?_⟩
    have fresh : ∀ entry ∈ front,
        (entry.id, entry.createdAt) ≠ (named.id, named.createdAt) := by
      rw [split, List.map_append, List.map_cons] at distinct
      intro entry member same
      have apart := (List.nodup_append.mp distinct).2.2
      exact apart _ (List.mem_map_of_mem member) _ (by simp) same
    rw [id, createdAt, Option.getD_some, following, split, dropWhile_front front named rest fresh]
    rfl

def entryPoint (id createdAt : String) : EntryPoint :=
  { id, createdAt, method := "GET", url := "https://a.test/", responseStatus := 200
    connectivity := "ok", lastUpdated := "", lastEdited := "", lastValidated := ""
    parametersCount := 0, responseTime := 0, status := "new", openIssuesCount := 0
    closedIssuesCount := 0 }

def options (limit : Nat) : EntryPointsListOptions :=
  { projectId := "1", limit := some limit, connectivity := none, status := none }

/-- Entry points created at once, told apart by their ids. -/
def simultaneous (count : Nat) : List EntryPoint :=
  (List.range count).map fun i => entryPoint (String.ofList (List.replicate i '1')) "a"

theorem simultaneous_distinct (count : Nat) :
    ((simultaneous count).map fun entry => (entry.id, entry.createdAt)).Nodup := by
  rw [simultaneous, List.map_map]
  refine List.Nodup.map (fun i j same => ?_) List.nodup_range
  have ids : String.ofList (List.replicate i '1') = String.ofList (List.replicate j '1') :=
    congrArg Prod.fst same
  simpa using congrArg String.length ids

/-- One more than a page holds, of sixty: a second request asks for the last one. -/
theorem page_crossed :
    (entrypoints (serve (simultaneous 60)) (options 51)).2 = .ok (simultaneous 51) ∧
      (entrypoints (serve (simultaneous 60)) (options 51)).1.length ≤ 2 := by
  obtain ⟨returned, few, -⟩ :=
    entrypoints_exact (simultaneous 60) _ (serves_serve _ (simultaneous_distinct 60)) (options 51)
  refine ⟨returned.trans ?_, few⟩
  change Except.ok ((simultaneous 60).take 51) = _
  rw [simultaneous, ← List.map_take, List.take_range]
  rfl

end BrightCli.Guarantees.EntryPointPages
