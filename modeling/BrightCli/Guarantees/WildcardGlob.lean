import BrightCli.Source.Helpers

/-!
# Wildcards are globs

`wildcardToRegExp` builds the text of a regular expression: it splits at runs of
stars, escapes the pieces, joins them with `.*` and anchors the result. Scripts,
client certificates and the lists of proxy and Kerberos domains all select hosts
with it. On hosts without line terminators, where the dot takes everything, the
expression means what the wildcard says: the pieces between the stars, as they
are, with anything between them.
-/
namespace BrightCli.Guarantees.WildcardGlob
open BrightCli.Lib BrightCli.Lib.Glob BrightCli.Source.Helpers

theorem splitStars_star (rest : List Char) (alone : rest.head? ≠ some '*') :
    splitStars ('*' :: rest) = [] :: splitStars rest := by
  rw [splitStars, if_pos rfl, if_neg alone]

theorem splitStars_literal (piece rest : List Char) (literal : '*' ∉ piece) (next : List Char)
    (pieces : List (List Char)) (split : splitStars rest = next :: pieces) :
    splitStars (piece ++ rest) = (piece ++ next) :: pieces := by
  induction piece with
  | nil => exact split
  | cons c tail ih =>
    have plain : c ≠ '*' := by
      intro same
      apply literal
      simp [same]
    have tailSplit := ih fun member => literal (by simp [member])
    rw [List.cons_append, splitStars, if_neg plain, tailSplit]
    rfl

/-- A whole run of stars separates once. -/
theorem splitStars_run (gap rest : List Char) (nonempty : gap ≠ []) (stars : ∀ c ∈ gap, c = '*')
    (ended : rest.head? ≠ some '*') : splitStars (gap ++ rest) = [] :: splitStars rest := by
  induction gap with
  | nil => exact absurd rfl nonempty
  | cons c more ih =>
    have same : c = '*' := stars c (by simp)
    subst same
    cases more with
    | nil => exact splitStars_star rest ended
    | cons d more =>
      have next : d = '*' := stars d (by simp)
      subst next
      have shorter := ih (by simp) fun e member => stars e (by simp [member])
      rw [List.cons_append, splitStars, if_pos rfl, if_pos (by simp)]
      exact shorter

/-- The induction is on the runs; what follows a run starts with no star because
only the last piece may be empty. -/
theorem splitStars_weave (parts : List (List Char × List Char)) (first : List Char)
    (runs : ∀ part ∈ parts, part.1 ≠ [] ∧ ∀ c ∈ part.1, c = '*')
    (literal : ∀ piece ∈ first :: parts.map Prod.snd, '*' ∉ piece)
    (maximal : ∀ piece ∈ (parts.map Prod.snd).dropLast, piece ≠ []) :
    splitStars (weave first parts) = first :: parts.map Prod.snd := by
  induction parts generalizing first with
  | nil =>
    have alone := splitStars_literal first [] (literal first (by simp)) [] [] rfl
    simpa [weave] using alone
  | cons part rest ih =>
    obtain ⟨gap, piece⟩ := part
    obtain ⟨nonempty, stars⟩ := runs (gap, piece) (by simp)
    have pieceLiteral : '*' ∉ piece := literal piece (by simp)
    have ended : (weave piece rest).head? ≠ some '*' := by
      by_cases empty : piece = []
      · cases rest with
        | nil => simp [empty, weave]
        | cons other others => exact absurd empty (maximal piece (by simp))
      · exact head_of_piece rest pieceLiteral empty
    have tail : splitStars (weave piece rest) = piece :: rest.map Prod.snd := by
      apply ih piece
      · intro other member
        exact runs other (by simp [member])
      · intro other member
        exact literal other (List.mem_cons_of_mem first member)
      · intro other member
        refine maximal other ?_
        cases rest with
        | nil => simp at member
        | cons next others => simpa using Or.inr member
    have run := splitStars_run gap (weave piece rest) nonempty stars ended
    rw [tail] at run
    rw [weave, List.append_assoc,
      splitStars_literal first _ (literal first (by simp)) [] _ run, List.append_nil]
    rfl

/-- The pieces that the code computes are the pieces between maximal runs. -/
theorem piecesOf_of_splitStars (s first : List Char) (pieces : List (List Char))
    (split : splitStars s = first :: pieces) : PiecesOf '*' s first pieces := by
  induction s generalizing first pieces with
  | nil =>
    cases split
    exact .nil
  | cons c rest ih =>
    obtain ⟨next, others, shape⟩ := List.exists_cons_of_ne_nil (splitStars_ne_nil rest)
    have tail := ih next others shape
    by_cases star : c = '*'
    · subst star
      by_cases more : rest.head? = some '*'
      · rw [splitStars, if_pos rfl, if_pos more, shape] at split
        cases split
        exact tail.cons_run more
      · rw [splitStars_star rest more, shape] at split
        cases split
        exact tail.cons_star more
    · have longer : splitStars (c :: rest) = (c :: next) :: others := by
        rw [splitStars, if_neg star, shape]
      rw [longer] at split
      cases split
      exact tail.cons_literal star

theorem splitStars_eq_iff (s first : List Char) (pieces : List (List Char)) :
    splitStars s = first :: pieces ↔ PiecesOf '*' s first pieces := by
  constructor
  · exact piecesOf_of_splitStars s first pieces
  · rintro ⟨⟨parts, rfl, rfl, runs⟩, literal, maximal⟩
    exact splitStars_weave parts first runs literal maximal

/-- Without the restriction on hosts the gaps are what the dot takes. -/
theorem wildcardMatches_iff (s h : String) (first : List Char) (pieces : List (List Char))
    (split : splitStars s.toList = first :: pieces) :
    wildcardMatches s h = true ↔
      ∃ parts, parts.map Prod.snd = pieces ∧ h.toList = weave first parts ∧
        ∀ part ∈ parts, ∀ c ∈ part.1, RegExp.isLineTerminator c = false := by
  have parsed := wildcardToRegExp_parses s
  rw [split] at parsed
  rw [wildcardMatches, RegExp.test, parsed]
  exact RegExp.accepts_joined_iff first pieces h.toList

theorem mem_weave {first : List Char} {parts : List (List Char × List Char)}
    {part : List Char × List Char} {c : Char} (member : part ∈ parts) (inside : c ∈ part.1) :
    c ∈ weave first parts := by
  induction parts generalizing first with
  | nil => simp at member
  | cons head rest ih =>
    obtain ⟨gap, piece⟩ := head
    rcases List.mem_cons.mp member with rfl | later
    · simp [weave, inside]
    · simp [weave, ih later]

/-- A wildcard selects a host exactly when it matches as a glob, and one without
a star selects the host it spells. -/
theorem wildcard_matches_iff_glob (s h : String)
    (oneLine : ∀ c ∈ h.toList, RegExp.isLineTerminator c = false) :
    (∃ first pieces, PiecesOf '*' s.toList first pieces) ∧
    (∀ first pieces, PiecesOf '*' s.toList first pieces →
      (wildcardMatches s h = true ↔ Matches first pieces h.toList)) ∧
    ('*' ∉ s.toList → (wildcardMatches s h = true ↔ h = s)) := by
  have glob : ∀ first pieces, PiecesOf '*' s.toList first pieces →
      (wildcardMatches s h = true ↔ Matches first pieces h.toList) := by
    intro first pieces split
    rw [wildcardMatches_iff s h first pieces ((splitStars_eq_iff _ _ _).mpr split)]
    constructor
    · rintro ⟨parts, own, woven, -⟩
      exact ⟨parts, own, woven⟩
    · rintro ⟨parts, own, woven⟩
      refine ⟨parts, own, woven, ?_⟩
      intro part member c inside
      apply oneLine
      rw [woven]
      exact mem_weave member inside
  refine ⟨?_, glob, ?_⟩
  · obtain ⟨first, pieces, shape⟩ := List.exists_cons_of_ne_nil (splitStars_ne_nil s.toList)
    exact ⟨first, pieces, (splitStars_eq_iff _ _ _).mp shape⟩
  · intro literal
    have alone : PiecesOf '*' s.toList s.toList [] :=
      ⟨⟨[], rfl, rfl, by simp⟩, by simpa using literal, by simp⟩
    rw [glob _ _ alone, matches_alone_iff, String.toList_inj]

/-- Brackets, dots and dollar signs in a wildcard are characters. -/
theorem bracket_wildcard_matches :
    wildcardMatches "[a].*$" "[a].b$" = true ∧ wildcardMatches "[a].*$" "a.b$" = false := by
  have oneLine : "[a].b$".toList.all (!RegExp.isLineTerminator ·) = true := by decide
  have host := wildcard_matches_iff_glob "[a].*$" "[a].b$" (by simpa using oneLine)
  refine ⟨?_, by decide⟩
  have split : PiecesOf '*' "[a].*$".toList "[a].".toList ["$".toList] :=
    (splitStars_eq_iff _ _ _).mp (by decide)
  exact (host.2.1 _ _ split).mpr ⟨[("b".toList, "$".toList)], rfl, by decide⟩

end BrightCli.Guarantees.WildcardGlob
