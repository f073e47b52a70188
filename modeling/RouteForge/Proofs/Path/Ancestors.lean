import RouteForge.Path
import RouteForge.Proofs.Text.Trim

/-! The paths in front of a path. Each has the first of its components, so whatever stands on the way
to a path is named by a part of it. -/
namespace RouteForge.Path

theorem splitOn_joined {first : List Char} {rest : List (List Char)}
    (slashless : ∀ s ∈ first :: rest, '/' ∉ s) :
    Text.splitOn '/' (first ++ rest.flatMap ('/' :: ·)) = first :: rest := by
  rw [← Text.intercalate_cons, Text.splitOn_intercalate (List.cons_ne_nil _ _) slashless]

theorem components_ofSegments {first : List Char} {rest : List (List Char)}
    (slashless : ∀ s ∈ first :: rest, '/' ∉ s) :
    (ofSegments first rest).components = (first? first true).toList ++ rest.filterMap segment? := by
  by_cases root : first = [] ∧ rest = []
  · obtain ⟨rfl, rfl⟩ := root
    decide
  · have segments : (ofSegments first rest).segments = first :: rest := by
      rw [Path.segments, ofSegments, if_neg root]
      exact splitOn_joined slashless
    have front : first? first (!rest.isEmpty) = first? first true := by
      cases rest with
      | nil => simp [first?, show first ≠ [] from fun blank => root ⟨blank, rfl⟩]
      | cons => rfl
    rw [components, segments, ← front]

theorem settled_isPrefix (segments : List (List Char)) : settled segments <+: segments := by
  have suffix := List.dropWhile_suffix (l := segments.reverse) fun s => (segment? s).isNone
  simpa [settled] using List.reverse_prefix.mpr suffix

theorem components_parent {p q : Path} (parent : p.parent? = some q) :
    q.components <+: p.components := by
  unfold parent? at parent
  have slashless (s : List Char) (member : s ∈ p.segments) : '/' ∉ s :=
    Text.not_mem_of_mem_splitOn member
  cases segments : p.segments with
  | nil => rw [segments] at parent; cases parent
  | cons first rest =>
    simp only [segments] at parent slashless
    split at parent
    next last before spoken =>
      cases parent
      have inside : before.reverse <+: settled rest := ⟨[last], by
        rw [← List.reverse_reverse (settled rest), spoken, List.reverse_cons]⟩
      have front := ((settled_isPrefix before.reverse).trans inside).trans (settled_isPrefix rest)
      have others : rest.isEmpty = false := by
        cases rest with
        | nil => simp [settled] at spoken
        | cons => rfl
      have whole : p.components = (first? first true).toList ++ rest.filterMap segment? := by
        simp [components, segments, others]
      rw [whole, components_ofSegments fun s member => slashless s ?_]
      · exact (List.prefix_append_right_inj _).mpr (front.filterMap segment?)
      · rcases List.mem_cons.mp member with rfl | member
        · exact List.mem_cons_self
        · exact List.mem_cons_of_mem _ (front.subset member)
    next =>
      split at parent
      next => cases parent
      next => cases parent; exact List.nil_prefix

/-- A path in front of another one names the first of its components. -/
theorem components_of_ancestor {p q : Path} (above : q ∈ p.ancestors) :
    q.components <+: p.components := by
  unfold ancestors at above
  generalize p.chars.length = n at above
  induction n generalizing p with
  | zero =>
    obtain rfl := List.mem_singleton.mp above
    exact List.prefix_rfl
  | succ n ih =>
    rcases List.mem_cons.mp above with rfl | above
    · exact List.prefix_rfl
    · cases parent : p.parent? with
      | none => simp [parent] at above
      | some r =>
        simp only [parent, Option.map_some, Option.getD_some] at above
        exact (ih above).trans (components_parent parent)

end RouteForge.Path
