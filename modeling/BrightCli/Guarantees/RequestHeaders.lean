import BrightCli.Lib.HeaderLine
import BrightCli.Source.HeaderRecord
import BrightCli.Guarantees.RequestOnWire

/-!
# Headers of a request

The headers of a request are merged with those of the options and then written as
lines for libcurl. Merging compares names as they are spelled, while everything
after it takes names that differ only in case for the same header:
`global_headers_override_iff` gives the maps for which a configured header
replaces the requested one. Writing a line loses nothing, but libcurl, of which
only what its documentation says is assumed, takes some lines in a way of its own,
and `headers_sent_iff` shows which headers it sends as they were requested;
`handle_headers` carries this to the handle that is performed.
-/
namespace BrightCli.Guarantees.RequestHeaders
open BrightCli.Lib BrightCli.Lib.Js BrightCli.Source BrightCli.Source.Http

section Override

variable (platform : Platform)

/-- The names are equal up to case, as `hasHeader` compares them. -/
def sameName (name : String) (other : String) : Bool :=
  toLowerCase platform other = toLowerCase platform name

/-- No two names of the map are equal up to case. -/
def SpelledOnce (record : HeaderRecord) : Prop :=
  ∀ first ∈ record.entries, ∀ second ∈ record.entries,
    sameName platform first.1 second.1 = true → first = second

instance (record : HeaderRecord) : Decidable (SpelledOnce platform record) := by
  unfold SpelledOnce
  infer_instance

/-- The headers of the map with this name. -/
def named (record : HeaderRecord) (name : String) : List (String × HeaderValue) :=
  record.entries.filter fun entry => sameName platform name entry.1

/-- The lines that a header stands for. -/
def linesOf (entry : String × HeaderValue) : List (String × String) :=
  (entry.2.normalize platform entry.1).texts.map fun text => (entry.1, text)

/-- The lines that are written for a header on its own: the empty name is skipped,
and the accessor of the prototype is not stored. -/
def emits (entry : String × HeaderValue) : List (String × String) :=
  if entry.1 = "" ∨ entry.1 = "__proto__" then [] else linesOf platform entry

/-- The lines for a name: those of the configured header, or else of the requested one. -/
def expected (own configured : HeaderRecord) (name : String) : List (String × String) :=
  if (named platform configured name).isEmpty then
    (named platform own name).flatMap (linesOf platform)
  else (named platform configured name).flatMap (linesOf platform)

/-- The emitted lines of a name. -/
def emittedFor (emitted : List (String × String)) (name : String) : List (String × String) :=
  emitted.filter fun pair => sameName platform name pair.1

structure Overrides (own configured : HeaderRecord) (emitted : List (String × String)) : Prop where
  lines : ∀ name, emittedFor platform emitted name = expected platform own configured name
  single : ∀ name, toLowerCase platform name ∈ singleValueHeaders →
    (emittedFor platform emitted name).length ≤ 1

/-- What the maps must be like: a requested header that a configured one should
replace under another spelling has no lines of its own, and the headers that
count have names that can be stored and written. -/
structure Mergeable (own configured : HeaderRecord) : Prop where
  replaced : ∀ entry ∈ configured.entries, ∀ other ∈ own.entries,
    sameName platform entry.1 other.1 = true → other.1 ≠ entry.1 → emits platform other = []
  configuredLines : ∀ entry ∈ configured.entries, emits platform entry = linesOf platform entry
  ownLines : ∀ entry ∈ own.entries, (named platform configured entry.1).isEmpty = true →
    emits platform entry = linesOf platform entry

/-- The request's headers after the constructor and `setHeaders`. -/
def merged (own configured : HeaderRecord) : HeaderRecord :=
  HeaderRecord.merge platform (HeaderRecord.merge platform .empty own) configured

/-- The entry a merge stores for a header. -/
def stored (entry : String × HeaderValue) : List (String × HeaderValue) :=
  if entry.1 = "__proto__" then [] else [HeaderRecord.normalEntry platform entry]

/-- The requested headers that are still there beside the configured ones. -/
def remaining (own configured : HeaderRecord) (name : String) : List (String × HeaderValue) :=
  (named platform own name).filter fun entry => (configured.get? entry.1).isNone

def written (entry : String × HeaderValue) : List (String × String) :=
  if entry.1 = "" then [] else entry.2.texts.map fun text => (entry.1, text)

variable {platform}

theorem sameName_self (name : String) : sameName platform name name = true := by
  simp [sameName]

theorem sameName_symm {name other : String} (same : sameName platform name other = true) :
    sameName platform other name = true := by
  simp only [sameName, decide_eq_true_eq] at same ⊢
  exact same.symm

theorem sameName_trans {first second third : String} (left : sameName platform first second = true)
    (right : sameName platform second third = true) : sameName platform first third = true := by
  simp only [sameName, decide_eq_true_eq] at left right ⊢
  exact right.trans left

theorem named_eq_singleton {record : HeaderRecord} (once : SpelledOnce platform record)
    {name : String} {entry : String × HeaderValue} (member : entry ∈ named platform record name) :
    named platform record name = [entry] := by
  have distinct : (named platform record name).Nodup :=
    (record.keys_nodup.of_map Prod.fst).filter _
  have only : ∀ other ∈ named platform record name, other = entry := by
    intro other found
    obtain ⟨inside, same⟩ := List.mem_filter.mp found
    obtain ⟨inside', same'⟩ := List.mem_filter.mp member
    exact once other inside entry inside' (sameName_trans (sameName_symm same) same')
  rw [List.eq_replicate_iff.mpr ⟨rfl, only⟩] at distinct member ⊢
  have atMost := List.nodup_replicate.mp distinct
  have nonempty : (named platform record name).length ≠ 0 := fun none => by simp [none] at member
  rw [show (named platform record name).length = 1 by omega]
  rfl

theorem flatMap_written_stored (entry : String × HeaderValue) :
    (stored platform entry).flatMap written = emits platform entry := by
  unfold stored emits
  by_cases accessor : entry.1 = "__proto__"
  · simp [accessor]
  · simp [accessor, written, HeaderRecord.normalEntry, linesOf]

theorem get?_merged (own configured : HeaderRecord) (key : String) :
    (merged platform own configured).get? key =
      if key = "__proto__" then none
      else ((configured.get? key).or (own.get? key)).map (·.normalize platform key) := by
  unfold merged
  rw [HeaderRecord.get?_merge]
  split
  · rfl
  · rename_i ownKey
    rw [HeaderRecord.get?_merge, if_neg ownKey]
    cases configured.get? key with
    | some value => rfl
    | none =>
      cases own.get? key with
      | none => rfl
      | some value => simp [PropertyMap.get?, PropertyMap.empty, HeaderValue.normalize_idem]

theorem mem_stored_iff {key : String} {value : HeaderValue} {other : String × HeaderValue} :
    (key, value) ∈ stored platform other ↔
      key ≠ "__proto__" ∧ other.1 = key ∧ other.2.normalize platform key = value := by
  obtain ⟨name, held⟩ := other
  unfold stored HeaderRecord.normalEntry
  split
  · rename_i accessor
    dsimp only at accessor
    simp only [List.not_mem_nil, false_iff]
    rintro ⟨ownKey, rfl, -⟩
    exact ownKey accessor
  · rename_i ownKey
    dsimp only at ownKey
    rw [List.mem_singleton, Prod.mk.injEq]
    constructor
    · rintro ⟨rfl, rfl⟩
      exact ⟨ownKey, rfl, rfl⟩
    · rintro ⟨-, rfl, rfl⟩
      exact ⟨rfl, rfl⟩

/-- A stored header comes from the configured map, or from the request where the
configured map does not have the very same name. -/
theorem mem_merged_iff (own configured : HeaderRecord) (entry : String × HeaderValue) :
    entry ∈ (merged platform own configured).entries ↔
      (∃ other ∈ own.entries, configured.get? other.1 = none ∧ entry ∈ stored platform other) ∨
        ∃ other ∈ configured.entries, entry ∈ stored platform other := by
  obtain ⟨key, value⟩ := entry
  rw [PropertyMap.mem_entries_iff, get?_merged]
  simp only [mem_stored_iff, Prod.exists, PropertyMap.mem_entries_iff]
  by_cases accessor : key = "__proto__"
  · simp [accessor]
  · rw [if_neg accessor]
    cases held : configured.get? key with
    | some value' => simp [accessor, held]
    | none => simp [accessor, held]

theorem nodup_flatMap_stored {entries : List (String × HeaderValue)}
    (distinct : (entries.map Prod.fst).Nodup) :
    ((entries.flatMap (stored platform)).map Prod.fst).Nodup := by
  have kept : (entries.flatMap (stored platform)).map Prod.fst =
      (entries.map Prod.fst).filter fun key => key ≠ "__proto__" := by
    clear distinct
    induction entries with
    | nil => rfl
    | cons head rest ih =>
      rw [List.flatMap_cons, List.map_append, ih, List.map_cons, List.filter_cons, stored]
      by_cases accessor : head.1 = "__proto__" <;> simp [accessor, HeaderRecord.normalEntry]
  rw [kept]
  exact distinct.filter _

/-- A requested header that is still there has a name the configured map does not have. -/
theorem nodup_parts (own configured : HeaderRecord) (name : String) :
    ((remaining platform own configured name ++ named platform configured name).map
      Prod.fst).Nodup := by
  rw [List.map_append]
  refine List.Nodup.append ?_ ?_ ?_
  · exact own.keys_nodup.sublist ((List.filter_sublist.trans List.filter_sublist).map _)
  · exact configured.keys_nodup.sublist (List.filter_sublist.map _)
  · intro key left right
    obtain ⟨entry, fromOwn, rfl⟩ := List.mem_map.mp left
    obtain ⟨other, fromConfigured, same⟩ := List.mem_map.mp right
    have absent := (List.mem_filter.mp fromOwn).2
    have present := (configured.mem_entries_iff other.1 other.2).mp
      (List.mem_filter.mp fromConfigured).1
    rw [← same, present] at absent
    cases absent

/-- The stored headers of a name, in some order. -/
theorem named_merged_perm (own configured : HeaderRecord) (name : String) :
    (named platform (merged platform own configured) name).Perm
      ((remaining platform own configured name ++ named platform configured name).flatMap
        (stored platform)) := by
  refine (List.perm_ext_iff_of_nodup ?_
    ((nodup_flatMap_stored (nodup_parts own configured name)).of_map _)).mpr ?_
  · exact ((merged platform own configured).keys_nodup.of_map _).filter _
  · intro entry
    have nameOf : ∀ other, entry ∈ stored platform other → other.1 = entry.1 :=
      fun other member => (mem_stored_iff.mp member).2.1
    simp only [named, remaining, List.mem_filter, mem_merged_iff, List.mem_flatMap, List.mem_append,
      Option.isNone_iff_eq_none]
    constructor
    · rintro ⟨⟨other, inside, absent, isStored⟩ | ⟨other, inside, isStored⟩, same⟩
      · rw [← nameOf other isStored] at same
        exact ⟨other, Or.inl ⟨⟨inside, same⟩, absent⟩, isStored⟩
      · rw [← nameOf other isStored] at same
        exact ⟨other, Or.inr ⟨inside, same⟩, isStored⟩
    · rintro ⟨other, ⟨⟨inside, same⟩, absent⟩ | ⟨inside, same⟩, isStored⟩
      · exact ⟨Or.inl ⟨other, inside, absent, isStored⟩, nameOf other isStored ▸ same⟩
      · exact ⟨Or.inr ⟨other, inside, isStored⟩, nameOf other isStored ▸ same⟩

/-- Elements without an image do not matter to a `flatMap`, and neither does the
order if at most one other is left. -/
theorem flatMap_eq_of_perm {α β : Type} {f : α → List β} {all silent rest : List α}
    (perm : all.Perm (silent ++ rest)) (nothing : ∀ a ∈ silent, f a = [])
    (single : rest.length ≤ 1) : all.flatMap f = rest.flatMap f := by
  match rest, single with
  | [], _ =>
    rw [List.append_nil] at perm
    exact List.flatMap_eq_nil_iff.mpr fun a member => nothing a (perm.mem_iff.mp member)
  | [b], _ =>
    obtain ⟨before, after, rfl⟩ := List.append_of_mem (perm.mem_iff.mpr (by simp : b ∈ silent ++ [b]))
    have others : (before ++ after).Perm silent := by
      have moved := List.perm_middle.symm.trans (perm.trans List.perm_append_comm)
      exact moved.cons_inv
    have quiet : ∀ a ∈ before ++ after, f a = [] := fun a member =>
      nothing a (others.mem_iff.mp member)
    have first : before.flatMap f = [] :=
      List.flatMap_eq_nil_iff.mpr fun a member => quiet a (List.mem_append_left _ member)
    have second : after.flatMap f = [] :=
      List.flatMap_eq_nil_iff.mpr fun a member => quiet a (List.mem_append_right _ member)
    rw [List.flatMap_append, List.flatMap_cons, first, second]
    simp

theorem name_of_mem_written {entry : String × HeaderValue} {pair : String × String}
    (member : pair ∈ written entry) : entry.1 ≠ "" ∧ pair.1 = entry.1 := by
  unfold written at member
  split at member
  · cases member
  · rename_i nonempty
    obtain ⟨text, -, rfl⟩ := List.mem_map.mp member
    exact ⟨nonempty, rfl⟩

theorem emittedFor_pairs (record : HeaderRecord) (name : String) :
    emittedFor platform record.pairs name = (named platform record name).flatMap written := by
  change (record.entries.flatMap written).filter _ = _
  unfold named
  induction record.entries with
  | nil => rfl
  | cons head rest ih =>
    rw [List.flatMap_cons, List.filter_append, ih, List.filter_cons]
    by_cases same : sameName platform name head.1 = true
    · rw [if_pos same, List.flatMap_cons, List.filter_eq_self.mpr]
      intro pair member
      rw [(name_of_mem_written member).2]
      exact same
    · rw [if_neg same, List.filter_eq_nil_iff.mpr, List.nil_append]
      intro pair member
      rw [(name_of_mem_written member).2]
      exact same

theorem length_flatMap_stored {entries : List (String × HeaderValue)} (single : entries.length ≤ 1) :
    (entries.flatMap (stored platform)).length ≤ 1 := by
  match entries, single with
  | [], _ => simp
  | [entry], _ =>
    rw [List.flatMap_singleton, stored]
    split <;> simp

/-- The lines of a name when at most one of its stored headers has any. -/
theorem emittedFor_merged {own configured : HeaderRecord} {name : String}
    {silent rest : List (String × HeaderValue)}
    (parts : remaining platform own configured name ++ named platform configured name = silent ++ rest)
    (quiet : ∀ entry ∈ silent, emits platform entry = []) (single : rest.length ≤ 1) :
    emittedFor platform (merged platform own configured).pairs name =
      rest.flatMap (emits platform) := by
  have nothing : ∀ entry ∈ silent.flatMap (stored platform), written entry = [] := by
    intro entry member
    obtain ⟨other, inside, isStored⟩ := List.mem_flatMap.mp member
    have none := quiet other inside
    rw [← flatMap_written_stored, List.flatMap_eq_nil_iff] at none
    exact none entry isStored
  have perm : (named platform (merged platform own configured) name).Perm _ :=
    named_merged_perm own configured name
  rw [parts, List.flatMap_append] at perm
  rw [emittedFor_pairs, flatMap_eq_of_perm perm nothing (length_flatMap_stored single),
    List.flatMap_assoc]
  simp only [flatMap_written_stored]

/-- With no configured header of the name, the request's is left. -/
theorem remaining_of_unset {own configured : HeaderRecord} {name : String}
    (unset : named platform configured name = []) :
    remaining platform own configured name = named platform own name := by
  refine List.filter_eq_self.mpr fun entry member => ?_
  rw [Option.isNone_iff_eq_none, Option.eq_none_iff_forall_ne_some]
  intro value held
  have inside := (configured.mem_entries_iff entry.1 value).mpr held
  exact List.filter_eq_nil_iff.mp unset _ inside (List.mem_filter.mp member).2

theorem mem_emittedFor {own configured : HeaderRecord} {name : String} {pair : String × String}
    {entry : String × HeaderValue} (inside : entry ∈ remaining platform own configured name)
    (member : pair ∈ emits platform entry) :
    pair ∈ emittedFor platform (merged platform own configured).pairs name := by
  rw [← flatMap_written_stored] at member
  obtain ⟨kept, isStored, isWritten⟩ := List.mem_flatMap.mp member
  rw [emittedFor_pairs]
  refine List.mem_flatMap.mpr ⟨kept, ?_, isWritten⟩
  refine (named_merged_perm own configured name).mem_iff.mpr ?_
  exact List.mem_flatMap.mpr ⟨entry, List.mem_append_left _ inside, isStored⟩

theorem name_of_mem_emittedFor {own configured : HeaderRecord} {name : String}
    {pair : String × String}
    (member : pair ∈ emittedFor platform (merged platform own configured).pairs name) :
    pair.1 ≠ "" ∧ pair.1 ≠ "__proto__" := by
  obtain ⟨entry, inside, isWritten⟩ := List.mem_flatMap.mp (List.mem_filter.mp member).1
  obtain ⟨nonempty, same⟩ := name_of_mem_written isWritten
  rw [same]
  refine ⟨nonempty, fun accessor => ?_⟩
  have held := ((merged platform own configured).mem_entries_iff entry.1 entry.2).mp inside
  rw [get?_merged, if_pos accessor] at held
  cases held

theorem name_of_mem_linesOf {entry : String × HeaderValue} {pair : String × String}
    (member : pair ∈ linesOf platform entry) : pair.1 = entry.1 := by
  obtain ⟨text, -, rfl⟩ := List.mem_map.mp member
  rfl

theorem emits_subset (entry : String × HeaderValue) : emits platform entry ⊆ linesOf platform entry := by
  unfold emits
  split
  · simp
  · simp

/-- A header whose lines are all written is emitted as it is. -/
theorem emits_eq_of_written (own configured : HeaderRecord) (name : String)
    {entry : String × HeaderValue}
    (all : ∀ pair ∈ linesOf platform entry,
      pair ∈ emittedFor platform (merged platform own configured).pairs name) :
    emits platform entry = linesOf platform entry := by
  unfold emits
  split
  · rename_i unwritten
    symm
    rw [List.eq_nil_iff_forall_not_mem]
    intro pair member
    have name := name_of_mem_emittedFor (all pair member)
    rw [name_of_mem_linesOf member] at name
    exact unwritten.elim name.1 name.2
  · rfl

theorem named_length_le {record : HeaderRecord} (once : SpelledOnce platform record) (name : String) :
    (named platform record name).length ≤ 1 := by
  cases found : named platform record name with
  | nil => simp
  | cons entry rest =>
    have member : entry ∈ named platform record name := by simp [found]
    rw [← found, named_eq_singleton once member]
    simp

theorem named_congr (record : HeaderRecord) {name other : String}
    (same : sameName platform name other = true) :
    named platform record other = named platform record name := by
  refine List.filter_congr fun entry _ => ?_
  rw [Bool.eq_iff_iff]
  exact ⟨sameName_trans same, sameName_trans (sameName_symm same)⟩

theorem length_flatMap_linesOf {record : HeaderRecord} (once : SpelledOnce platform record)
    {name : String} (single : toLowerCase platform name ∈ singleValueHeaders) :
    ((named platform record name).flatMap (linesOf platform)).length ≤ 1 := by
  cases found : named platform record name with
  | nil => simp
  | cons entry rest =>
    have member : entry ∈ named platform record name := by simp [found]
    have lower := of_decide_eq_true (List.mem_filter.mp member).2
    rw [← lower] at single
    rw [← found, named_eq_singleton once member, List.flatMap_singleton, linesOf, List.length_map,
      HeaderValue.length_texts_normalize entry.2 single]

theorem mem_named_self {record : HeaderRecord} {entry : String × HeaderValue}
    (inside : entry ∈ record.entries) : entry ∈ named platform record entry.1 :=
  List.mem_filter.mpr ⟨inside, sameName_self entry.1⟩

theorem mergeable_of_overrides {own configured : HeaderRecord}
    (once : SpelledOnce platform configured) (ownOnce : SpelledOnce platform own)
    (overrides : Overrides platform own configured (merged platform own configured).pairs) :
    Mergeable platform own configured := by
  refine ⟨?_, ?_, ?_⟩
  · intro entry inside other fromOwn same different
    have alone := named_eq_singleton once (mem_named_self inside)
    -- The other spelling is no key of the configured map, so it is still there.
    have absent : configured.get? other.1 = none := by
      rw [Option.eq_none_iff_forall_ne_some]
      intro value held
      have twin := once entry inside _ ((configured.mem_entries_iff other.1 value).mpr held) same
      exact different (congrArg Prod.fst twin).symm
    have left : other ∈ remaining platform own configured entry.1 :=
      List.mem_filter.mpr ⟨List.mem_filter.mpr ⟨fromOwn, same⟩, by rw [absent]; rfl⟩
    rw [List.eq_nil_iff_forall_not_mem]
    intro pair member
    have emitted := mem_emittedFor left member
    rw [overrides.lines, expected, alone, List.flatMap_singleton] at emitted
    refine different ?_
    rw [← name_of_mem_linesOf (emits_subset other member), name_of_mem_linesOf emitted]
  · intro entry inside
    have alone := named_eq_singleton once (mem_named_self inside)
    apply emits_eq_of_written own configured entry.1
    intro pair member
    rw [overrides.lines, expected, alone, List.flatMap_singleton]
    exact member
  · intro entry inside unset
    have alone := named_eq_singleton ownOnce (mem_named_self inside)
    apply emits_eq_of_written own configured entry.1
    intro pair member
    rw [overrides.lines, expected, if_pos unset, alone, List.flatMap_singleton]
    exact member

theorem overrides_of_mergeable {own configured : HeaderRecord}
    (once : SpelledOnce platform configured) (ownOnce : SpelledOnce platform own)
    (mergeable : Mergeable platform own configured) :
    Overrides platform own configured (merged platform own configured).pairs := by
  have lines : ∀ name, emittedFor platform (merged platform own configured).pairs name =
      expected platform own configured name := by
    intro name
    cases found : named platform configured name with
    | nil =>
      have parts : remaining platform own configured name ++ named platform configured name =
          [] ++ named platform own name := by
        rw [remaining_of_unset found, found, List.append_nil, List.nil_append]
      rw [emittedFor_merged parts (by simp) (named_length_le ownOnce name), expected, found,
        if_pos List.isEmpty_nil]
      refine List.flatMap_congr fun entry member => ?_
      obtain ⟨inside, same⟩ := List.mem_filter.mp member
      refine mergeable.ownLines entry inside ?_
      rw [named_congr configured same, found]
      rfl
    | cons entry rest =>
      have member : entry ∈ named platform configured name := by simp [found]
      obtain ⟨inside, same⟩ := List.mem_filter.mp member
      rw [emittedFor_merged rfl ?_ (named_length_le once name), expected]
      · rw [named_eq_singleton once member, List.flatMap_singleton, if_neg (by simp),
          List.flatMap_singleton, mergeable.configuredLines entry inside]
      · intro other left
        obtain ⟨fromOwn, absent⟩ := List.mem_filter.mp left
        obtain ⟨fromOwn, same'⟩ := List.mem_filter.mp fromOwn
        refine mergeable.replaced entry inside other fromOwn
          (sameName_trans (sameName_symm same) same') fun twin => ?_
        rw [twin, (configured.mem_entries_iff entry.1 entry.2).mp inside] at absent
        cases absent
  refine ⟨lines, ?_⟩
  intro name single
  rw [lines, expected]
  split
  · exact length_flatMap_linesOf ownOnce single
  · exact length_flatMap_linesOf once single

theorem configured_eq (world : World) (own configured : HeaderRecord) (request : Request)
    (made : Request.mergeHeaders world.platform .empty own.toObject = .ok request.headers)
    (given : world.options.headers = some configured.toHeaders.entries) :
    Http.configured world request =
      .ok { request with headers := (merged world.platform own configured).toHeaders } := by
  have first : request.headers = (HeaderRecord.merge world.platform .empty own).toHeaders := by
    have closed := HeaderRecord.mergeHeaders_toHeaders world.platform .empty own
    exact Except.ok.inj (made.symm.trans closed)
  have second := HeaderRecord.mergeHeaders_toHeaders world.platform
    (HeaderRecord.merge world.platform .empty own) configured
  rw [← first] at second
  rw [Http.configured, given]
  change Request.setHeaders world.platform request configured.toObject = _
  rw [Request.setHeaders, second]
  rfl

/-- After `execute` has set the configured headers, the lines of a name are those
of the configured header or else of the requested one, if and only if the maps
are mergeable. -/
theorem global_headers_override_iff (world : World) (own configured : HeaderRecord)
    (ownOnce : SpelledOnce world.platform own) (once : SpelledOnce world.platform configured)
    (request : Request)
    (made : Request.mergeHeaders world.platform .empty own.toObject = .ok request.headers)
    (given : world.options.headers = some configured.toHeaders.entries) :
    (∃ next, ∃ headers : HeaderRecord, Http.configured world request = .ok next ∧
      next.headers = headers.toHeaders ∧
      buildCurlHeaders next = .ok (headers.pairs.map HeaderRecord.line) ∧
      Overrides world.platform own configured headers.pairs) ↔
      Mergeable world.platform own configured := by
  have result := configured_eq world own configured request made given
  constructor
  · rintro ⟨next, headers, set, holds, -, overrides⟩
    rw [result] at set
    cases set
    rw [← HeaderRecord.toHeaders_injective holds] at overrides
    exact mergeable_of_overrides once ownOnce overrides
  · intro mergeable
    exact ⟨_, merged world.platform own configured, result, rfl,
      HeaderRecord.headerLines_toHeaders _, overrides_of_mergeable once ownOnce mergeable⟩

/-- A world that differs from the plain one in the configured headers. -/
def worldWith (configured : HeaderRecord) : World :=
  { World.plain with
    options :=
      { World.plain.options with
        headers := some configured.toHeaders.entries
        headers_plain := by
          intro entries same
          cases same
          exact configured.toHeaders_plain } }

def requestWith (own : HeaderRecord) : Request :=
  { Request.ofUrl "http://a.test/" with
    headers := (HeaderRecord.merge .ascii .empty own).toHeaders }

theorem requestWith_made (own : HeaderRecord) :
    Request.mergeHeaders .ascii .empty own.toObject = .ok (requestWith own).headers :=
  HeaderRecord.mergeHeaders_toHeaders .ascii .empty own

def wanted : HeaderRecord :=
  .ofNames [("Accept", .one (some "a")), ("X-Tag", .many [some "1", some "2"])] (by decide) (by decide)

def replacement : HeaderRecord := .ofNames [("Accept", .one (some "b"))] (by decide) (by decide)

theorem accept_replaced :
    ∃ next, ∃ headers : HeaderRecord,
      Http.configured (worldWith replacement) (requestWith wanted) = .ok next ∧
      next.headers = headers.toHeaders ∧
      buildCurlHeaders next = .ok (headers.pairs.map HeaderRecord.line) ∧
      Overrides .ascii wanted replacement headers.pairs := by
  refine (global_headers_override_iff (worldWith replacement) wanted replacement ?_ ?_
    (requestWith wanted) (requestWith_made wanted) rfl).mpr ⟨?_, ?_, ?_⟩
  all_goals decide

def typed : HeaderRecord := .ofNames [("Content-Type", .one (some "a"))] (by decide) (by decide)

def retyped : HeaderRecord := .ofNames [("content-type", .one (some "b"))] (by decide) (by decide)

theorem entries_retyped :
    (merged .ascii typed retyped).entries =
      [("Content-Type", .one (some "a")), ("content-type", .one (some "b"))] := by
  have first : arrayIndex? "Content-Type" = none :=
    PropertyMap.arrayIndex?_of_not_digit (c := 'C') (by decide) (by decide)
  have second : arrayIndex? "content-type" = none :=
    PropertyMap.arrayIndex?_of_not_digit (c := 'c') (by decide) (by decide)
  simp [merged, HeaderRecord.merge, typed, retyped, PropertyMap.ofNames, PropertyMap.spread,
    PropertyMap.empty, PropertyMap.set, PropertyMap.setEntries, PropertyMap.insertEntry,
    PropertyMap.assign, HeaderRecord.normalEntry, HeaderValue.normalize, ListedBefore, first, second]

/-- The target receives two types, the requested one first. -/
theorem two_types_sent :
    SpelledOnce .ascii typed ∧ SpelledOnce .ascii retyped ∧
    (∃ next, Http.configured (worldWith retyped) (requestWith typed) = .ok next ∧
      buildCurlHeaders next = .ok ["Content-Type: a", "content-type: b"]) ∧
    ¬ ∃ next, ∃ headers : HeaderRecord,
      Http.configured (worldWith retyped) (requestWith typed) = .ok next ∧
      next.headers = headers.toHeaders ∧
      buildCurlHeaders next = .ok (headers.pairs.map HeaderRecord.line) ∧
      Overrides .ascii typed retyped headers.pairs := by
  have result := configured_eq (worldWith retyped) typed retyped (requestWith typed)
    (requestWith_made typed) rfl
  have pairs : (merged .ascii typed retyped).pairs =
      [("Content-Type", "a"), ("content-type", "b")] := by
    rw [HeaderRecord.pairs, entries_retyped]
    decide
  refine ⟨by decide, by decide, ⟨_, result, ?_⟩, ?_⟩
  · refine (HeaderRecord.headerLines_toHeaders (merged .ascii typed retyped)).trans ?_
    rw [pairs]
    exact congrArg Except.ok (by decide)
  · rintro ⟨next, headers, set, holds, -, overrides⟩
    rw [result] at set
    cases set
    have single := overrides.single "content-type" (by decide)
    have record : merged .ascii typed retyped = headers := HeaderRecord.toHeaders_injective holds
    rw [← record, pairs] at single
    revert single
    decide

end Override

section Wire

/-- The lines a handle is given for its headers. -/
def httpHeader (options : List CurlOption) : List String :=
  options.flatMap fun option =>
    match option with
    | .httpHeader lines => lines
    | _ => []

/-- The headers libcurl sends for these options. -/
def sentHeaders (libcurl : HeaderLine.Client) (options : List CurlOption) :
    List (List Char × List Char) :=
  (httpHeader options).flatMap fun line =>
    (libcurl.sends line.toList).map HeaderLine.Field.pair

def chars (pair : String × String) : List Char × List Char := (pair.1.toList, pair.2.toList)

/-- A header as it stands in the request that is sent. -/
def onWire (pair : String × String) : List Char × List Char := (pair.1.toList, ' ' :: pair.2.toList)

/-- The names and values of a map, one pair for each element of a list. -/
def requested (record : HeaderRecord) : List (String × String) :=
  record.entries.flatMap fun entry => entry.2.texts.map fun text => (entry.1, text)

/-- A header that may be added to those of the request. -/
def Addable (platform : Platform) (record : HeaderRecord) (pair : String × String) : Prop :=
  (pair = ("Connection", "close") ∧
    ∀ entry ∈ record.entries, toLowerCase platform entry.1 ≠ "connection") ∨
  (pair = ("Accept-Encoding", "identity") ∧
    ∀ entry ∈ record.entries, toLowerCase platform entry.1 ≠ "accept-encoding")

theorem pairs_eq_requested {record : HeaderRecord}
    (names : ∀ entry ∈ record.entries, entry.1 ≠ "") : record.pairs = requested record :=
  List.flatMap_congr fun entry member => if_neg (names entry member)

theorem toList_line (pair : String × String) :
    (HeaderRecord.line pair).toList = HeaderLine.written (chars pair) := by
  simp [HeaderRecord.line, HeaderLine.written, chars]

theorem sendable_chars_iff (pair : String × String) :
    HeaderLine.Sendable (chars pair) ↔ ':' ∉ pair.1.toList ∧
      (∀ c ∈ pair.1.toList ++ pair.2.toList, c ≠ '\r' ∧ c ≠ '\n') ∧
      ∃ c ∈ pair.2.toList, c ≠ ' ' ∧ c ≠ '\t' := by
  simp [HeaderLine.Sendable, HeaderLine.isBreak, HeaderLine.isBlank, chars]

theorem Addable.sendable {platform : Platform} {record : HeaderRecord} {pair : String × String}
    (addable : Addable platform record pair) : HeaderLine.Sendable (chars pair) := by
  rcases addable with ⟨rfl, -⟩ | ⟨rfl, -⟩
  · exact HeaderLine.sendable_of_check (by decide)
  · exact HeaderLine.sendable_of_check (by decide)

theorem Addable.name {platform : Platform} {record : HeaderRecord} {pair : String × String}
    (addable : Addable platform record pair) : (chars pair).1 ≠ [] := by
  rcases addable with ⟨rfl, -⟩ | ⟨rfl, -⟩
  · decide
  · decide

theorem name_of_requested {record : HeaderRecord} (names : ∀ entry ∈ record.entries, entry.1 ≠ "")
    {pair : String × String} (member : pair ∈ requested record) : (chars pair).1 ≠ [] := by
  obtain ⟨entry, listed, inside⟩ := List.mem_flatMap.mp member
  obtain ⟨text, -, rfl⟩ := List.mem_map.mp inside
  intro empty
  exact names entry listed (String.toList_eq_nil_iff.mp empty)

theorem lower_of_hasHeader {platform : Platform} {request : Request} {record : HeaderRecord}
    (given : request.headers = record.toHeaders) {name : String}
    (lower : toLowerCase platform name = name) (absent : hasHeader platform request name = false) :
    ∀ entry ∈ record.entries, toLowerCase platform entry.1 ≠ name := by
  intro entry member same
  have present : hasHeader platform request name = true := by
    rw [hasHeader, given, List.any_eq_true]
    refine ⟨(entry.1, entry.2.toValue), List.mem_map_of_mem member, ?_⟩
    rw [lower]
    exact decide_eq_true same
  rw [present] at absent
  cases absent

/-- The legacy parser has accepted the URL before the headers are applied. -/
theorem shouldApplyKerberos_eq_ok {platform : Platform} (options : RequestExecutorOptions)
    {request : Request} {url : LegacyUrl} (parsed : platform.legacyParseUrl request.url = .ok url) :
    ∃ applies, shouldApplyKerberos platform options request = .ok applies := by
  unfold shouldApplyKerberos
  split
  · exact ⟨_, rfl⟩
  · split
    · exact ⟨_, rfl⟩
    · split
      · exact ⟨_, rfl⟩
      · rw [parsed]
        exact ⟨_, rfl⟩

theorem httpHeader_set (decompress : Bool) (lines : List String) :
    httpHeader ([.userAgent ""] ++ (if decompress then [.acceptEncoding ""] else []) ++
      if lines.isEmpty then [] else [.httpHeader lines]) = lines := by
  cases decompress <;> cases lines <;> simp [httpHeader]

/-- The headers the executor adds. -/
def additions (platform : Platform) (options : RequestExecutorOptions) (request : Request)
    (kerberos : Bool) : List (String × String) :=
  (if !options.reuseConnection && !kerberos && !hasHeader platform request "connection" then
    [("Connection", "close")]
  else []) ++
  if !request.decompress && !hasHeader platform request "accept-encoding" then
    [("Accept-Encoding", "identity")]
  else []

theorem absent_of_added {platform : Platform} {request : Request} {record : HeaderRecord}
    (given : request.headers = record.toHeaders) {name : String}
    (lower : toLowerCase platform name = name) {wanted : Bool} {header pair : String × String}
    (member : pair ∈ if wanted && !hasHeader platform request name then [header] else []) :
    pair = header ∧ ∀ entry ∈ record.entries, toLowerCase platform entry.1 ≠ name := by
  split at member
  · rename_i absent
    simp only [Bool.and_eq_true, Bool.not_eq_true'] at absent
    exact ⟨List.mem_singleton.mp member, lower_of_hasHeader given lower absent.2⟩
  · cases member

theorem addable_of_mem {platform : Platform} {options : RequestExecutorOptions} {request : Request}
    {record : HeaderRecord} (given : request.headers = record.toHeaders) {kerberos : Bool}
    {pair : String × String} (member : pair ∈ additions platform options request kerberos) :
    Addable platform record pair := by
  have connection : toLowerCase platform "connection" = "connection" :=
    (platform.lower_ascii _ (by decide)).trans (by decide)
  have encoding : toLowerCase platform "accept-encoding" = "accept-encoding" :=
    (platform.lower_ascii _ (by decide)).trans (by decide)
  rcases List.mem_append.mp member with closing | identity
  · exact Or.inl (absent_of_added given connection closing)
  · exact Or.inr (absent_of_added given encoding identity)

theorem applyCurlHeaders_lines {platform : Platform} (options : RequestExecutorOptions)
    {request : Request} {record : HeaderRecord} (given : request.headers = record.toHeaders)
    {url : LegacyUrl} (parsed : platform.legacyParseUrl request.url = .ok url) :
    ∃ set kerberos, applyCurlHeaders platform options request = .ok set ∧
      httpHeader set =
        (record.pairs ++ additions platform options request kerberos).map HeaderRecord.line := by
  have lines : buildCurlHeaders request = .ok (record.pairs.map HeaderRecord.line) := by
    rw [buildCurlHeaders, given]
    exact record.headerLines_toHeaders
  obtain ⟨kerberos, flag⟩ : ∃ kerberos, (if options.reuseConnection = true then pure false
      else shouldApplyKerberos platform options request) = Except.ok kerberos := by
    split
    · exact ⟨false, rfl⟩
    · exact shouldApplyKerberos_eq_ok options parsed
  have shape : (record.pairs ++ additions platform options request kerberos).map HeaderRecord.line =
      record.pairs.map HeaderRecord.line ++
        (if !options.reuseConnection && !kerberos && !hasHeader platform request "connection" then
          ["Connection: close"] else []) ++
        if !request.decompress && !hasHeader platform request "accept-encoding" then
          ["Accept-Encoding: identity"] else [] := by
    rw [additions, List.map_append, List.map_append, apply_ite (List.map HeaderRecord.line),
      apply_ite (List.map HeaderRecord.line), ← List.append_assoc]
    rfl
  refine ⟨_, kerberos, ?_, (httpHeader_set request.decompress _).trans shape.symm⟩
  rw [applyCurlHeaders, lines]
  change ((if options.reuseConnection = true then pure false >>= _ else
    shouldApplyKerberos platform options request >>= _) : Except Value _) = _
  rw [← apply_ite (· >>= _), flag]
  rfl

/-- What libcurl makes of the lines of the requested headers and of the added ones. -/
theorem sentHeaders_eq_iff (libcurl : HeaderLine.Client) {platform : Platform}
    {record : HeaderRecord} {set : List CurlOption} {added : List (String × String)}
    (names : ∀ entry ∈ record.entries, entry.1 ≠ "")
    (addable : ∀ pair ∈ added, Addable platform record pair)
    (lines : httpHeader set = (requested record ++ added).map HeaderRecord.line)
    (more : List (String × String)) :
    sentHeaders libcurl set = (requested record ++ more).map onWire ↔
      (∀ header ∈ (requested record).map chars, HeaderLine.Sendable header) ∧
        added.map chars = more.map chars := by
  have sent : sentHeaders libcurl set =
      libcurl.onWire ((requested record).map chars ++ added.map chars) := by
    rw [sentHeaders, lines, HeaderLine.Client.onWire, ← List.map_append, List.map_map,
      List.flatMap_map, List.flatMap_map]
    refine List.flatMap_congr fun pair _ => ?_
    rw [toList_line pair]
    rfl
  have wire : (requested record ++ more).map onWire =
      ((requested record).map chars).map HeaderLine.field ++ (more.map chars).map HeaderLine.field := by
    rw [List.map_append, List.map_map, List.map_map]
    rfl
  have others : ∀ header ∈ added.map chars, HeaderLine.Sendable header := by
    intro header member
    obtain ⟨pair, inside, rfl⟩ := List.mem_map.mp member
    exact (addable pair inside).sendable
  have known : ∀ header ∈ (requested record).map chars ++ added.map chars, header.1 ≠ [] := by
    intro header member
    rcases List.mem_append.mp member with own | other
    · obtain ⟨pair, inside, rfl⟩ := List.mem_map.mp own
      exact name_of_requested names inside
    · obtain ⟨pair, inside, rfl⟩ := List.mem_map.mp other
      exact (addable pair inside).name
  rw [sent, wire]
  exact HeaderLine.Client.sent_append_iff known others _

/-- libcurl sends every requested header as it is, and besides them only what the
request does not have, if and only if each has a name without a colon, no line
break, and a value that is not blank. -/
theorem headers_sent_iff (libcurl : HeaderLine.Client) (platform : Platform)
    (options : RequestExecutorOptions) (request : Request) (record : HeaderRecord)
    (given : request.headers = record.toHeaders)
    (names : ∀ entry ∈ record.entries, entry.1 ≠ "") (url : LegacyUrl)
    (parsed : platform.legacyParseUrl request.url = .ok url) :
    (∃ set, ∃ added : List (String × String), applyCurlHeaders platform options request = .ok set ∧
      sentHeaders libcurl set = (requested record ++ added).map onWire ∧
      ∀ pair ∈ added, Addable platform record pair) ↔
      ∀ pair ∈ requested record, ':' ∉ pair.1.toList ∧
        (∀ c ∈ pair.1.toList ++ pair.2.toList, c ≠ '\r' ∧ c ≠ '\n') ∧
        ∃ c ∈ pair.2.toList, c ≠ ' ' ∧ c ≠ '\t' := by
  obtain ⟨set, kerberos, applied, lines⟩ := applyCurlHeaders_lines options given parsed
  rw [pairs_eq_requested names] at lines
  have addable : ∀ pair ∈ additions platform options request kerberos,
      Addable platform record pair := fun _ member => addable_of_mem given member
  constructor
  · rintro ⟨set', added, applied', same, -⟩
    rw [applied] at applied'
    cases applied'
    have all := ((sentHeaders_eq_iff libcurl names addable lines added).mp same).1
    intro pair member
    exact (sendable_chars_iff pair).mp (all _ (List.mem_map_of_mem member))
  · intro all
    refine ⟨set, _, applied, (sentHeaders_eq_iff libcurl names addable lines _).mpr ⟨?_, rfl⟩,
      addable⟩
    intro header member
    obtain ⟨pair, inside, rfl⟩ := List.mem_map.mp member
    exact (sendable_chars_iff pair).mpr (all pair inside)

def carrying (record : HeaderRecord) : Request :=
  { Request.ofUrl "http://a.test/" with headers := record.toHeaders }

theorem list_sent_in_order :
    ∃ set, ∃ added : List (String × String),
      applyCurlHeaders .ascii World.plain.options (carrying wanted) = .ok set ∧
      sentHeaders .documented set =
        ([("Accept", "a"), ("X-Tag", "1"), ("X-Tag", "2")] ++ added).map onWire ∧
      ∀ pair ∈ added, Addable .ascii wanted pair := by
  have pairs : requested wanted = [("Accept", "a"), ("X-Tag", "1"), ("X-Tag", "2")] := by decide
  rw [← pairs]
  refine (headers_sent_iff .documented .ascii World.plain.options (carrying wanted) wanted rfl
    (by decide) _ rfl).mpr ?_
  rw [pairs]
  intro pair member
  rw [← sendable_chars_iff]
  simp only [List.mem_cons, List.not_mem_nil, or_false] at member
  rcases member with rfl | rfl | rfl
  · exact HeaderLine.sendable_of_check (by decide)
  · exact HeaderLine.sendable_of_check (by decide)
  · exact HeaderLine.sendable_of_check (by decide)

theorem httpHeader_filter (handle : List CurlOption) :
    httpHeader (handle.filter (RequestOnWire.part · = .headers)) = httpHeader handle := by
  unfold httpHeader
  induction handle with
  | nil => rfl
  | cons option rest ih =>
    rw [List.filter_cons, List.flatMap_cons, ← ih]
    cases option <;> simp [RequestOnWire.part]

/-- In every handle that is performed, the sendable headers of the request come
first, in order, and nothing but what the request does not have comes after. -/
theorem handle_headers (libcurl : HeaderLine.Client) {platform : Platform}
    {options : RequestExecutorOptions}
    {setOpt : CurlOption → Except JsError Unit} {request : Request} {handle : List CurlOption}
    (done : configureCurl platform options setOpt request = .ok handle) {record : HeaderRecord}
    (given : request.headers = record.toHeaders)
    (names : ∀ entry ∈ record.entries, entry.1 ≠ "")
    (sendable : ∀ header ∈ (requested record).map chars, HeaderLine.Sendable header) :
    ∃ added, sentHeaders libcurl handle = (requested record ++ added).map onWire ∧
      ∀ pair ∈ added, Addable platform record pair := by
  obtain ⟨url, parsed, -⟩ := bind_eq_ok_iff.mp done
  obtain ⟨set, kerberos, applied, lines⟩ := applyCurlHeaders_lines options given
    (mapError_eq_ok_iff.mp parsed)
  rw [(RequestOnWire.configureCurl_parts done).2.2.1] at applied
  cases applied
  rw [pairs_eq_requested names, httpHeader_filter] at lines
  have addable : ∀ pair ∈ additions platform options request kerberos,
      Addable platform record pair := fun _ member => addable_of_mem given member
  exact ⟨_, (sentHeaders_eq_iff libcurl names addable lines _).mpr ⟨sendable, rfl⟩, addable⟩

def emptied : HeaderRecord := .ofNames [("X-Tag", .one (some ""))] (by decide) (by decide)

theorem applyCurlHeaders_emptied :
    applyCurlHeaders .ascii World.plain.options (carrying emptied) =
      .ok [.userAgent "", .acceptEncoding "", .httpHeader ["X-Tag: ", "Connection: close"]] := by
  rfl

/-- A header without a value is not sent at all. -/
theorem empty_value_not_sent :
    (∃ set, applyCurlHeaders .ascii World.plain.options (carrying emptied) = .ok set ∧
      sentHeaders .documented set = [onWire ("Connection", "close")]) ∧
    ¬ ∃ set, ∃ added : List (String × String),
      applyCurlHeaders .ascii World.plain.options (carrying emptied) = .ok set ∧
      sentHeaders .documented set = (requested emptied ++ added).map onWire ∧
      ∀ pair ∈ added, Addable .ascii emptied pair := by
  generalize HeaderLine.Client.documented = libcurl
  have unsent : libcurl.sends "X-Tag: ".toList = [] :=
    libcurl.blank_unsent "X-Tag".toList [' '] (by decide) (by decide)
      (HeaderLine.unbroken (by decide)) rfl
  have closing : (libcurl.sends "Connection: close".toList).map HeaderLine.Field.pair =
      [onWire ("Connection", "close")] :=
    libcurl.as_written ("Connection".toList, "close".toList) (by decide)
      (HeaderLine.sendable_of_check (by decide))
  have sent : sentHeaders libcurl
      [.userAgent "", .acceptEncoding "", .httpHeader ["X-Tag: ", "Connection: close"]] =
        [onWire ("Connection", "close")] := by
    change (libcurl.sends "X-Tag: ".toList).map HeaderLine.Field.pair ++
      ((libcurl.sends "Connection: close".toList).map HeaderLine.Field.pair ++ []) = _
    rw [unsent, closing]
    rfl
  refine ⟨⟨_, applyCurlHeaders_emptied, sent⟩, ?_⟩
  rintro ⟨set, added, applied, same, -⟩
  rw [applyCurlHeaders_emptied] at applied
  cases applied
  rw [sent, show requested emptied = [("X-Tag", "")] by decide] at same
  have name := congrArg (fun headers => headers.head?.map Prod.fst) same
  revert name
  simp [onWire]

end Wire

end BrightCli.Guarantees.RequestHeaders
