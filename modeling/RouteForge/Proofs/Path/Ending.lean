import RouteForge.Proofs.Path.Ancestors
import RouteForge.Proofs.Path.Meaning

/-! How a path ends. The last component is a name, an ascent or a dot, or there is none, and what
stands in front of it is the parent. Segments behind it that say nothing count for neither. -/
namespace RouteForge.Path

variable {first last : List Char} {before rest segments : List (List Char)} {p q : Path}

theorem foldl_read_silent (silent : ∀ s ∈ segments, segment? s = none) (m : Meaning) :
    segments.foldl Meaning.read m = m := by
  induction segments with
  | nil => rfl
  | cons segment rest ih =>
    obtain ⟨here, others⟩ := List.forall_mem_cons.mp silent
    rw [List.foldl_cons, Meaning.read_eq, here]
    exact ih others

theorem settled_append_silent (segments : List (List Char)) :
    ∃ silent, settled segments ++ silent = segments ∧ ∀ s ∈ silent, segment? s = none := by
  refine ⟨(segments.reverse.takeWhile fun s => (segment? s).isNone).reverse, ?_, fun s member => ?_⟩
  · rw [settled, ← List.reverse_append, List.takeWhile_append_dropWhile, List.reverse_reverse]
  · simpa using List.mem_takeWhile_imp (List.mem_reverse.mp member)

theorem foldl_read_settled (segments : List (List Char)) (m : Meaning) :
    (settled segments).foldl Meaning.read m = segments.foldl Meaning.read m := by
  obtain ⟨silent, whole, none⟩ := settled_append_silent segments
  conv_rhs => rw [← whole, List.foldl_append, foldl_read_silent none]

/-- The last settled segment is a component. -/
theorem exists_of_settled (spoken : (settled segments).reverse = last :: before) :
    ∃ c, segment? last = some c := by
  have front := List.head?_dropWhile_not (fun s => (segment? s).isNone) segments.reverse
  rw [settled, List.reverse_reverse] at spoken
  rw [spoken] at front
  exact Option.isSome_iff_exists.mp (by simpa [← Option.isSome_iff_ne_none] using front)

/-- The meaning of the first segment. It is empty exactly if the path starts at the root. -/
def Meaning.opening (first : List Char) : Meaning := (start first.isEmpty).read first

theorem meaning_of_segments (split : p.segments = first :: rest) (more : first ≠ [] ∨ rest ≠ []) :
    p.meaning = rest.foldl Meaning.read (.opening first) := by
  have absolute : p.isAbsolute = first.isEmpty := by
    rw [Bool.eq_iff_iff, isAbsolute_iff split, List.isEmpty_iff]
    refine ⟨And.left, fun empty => ⟨empty, ?_⟩⟩
    exact more.resolve_left (not_not_intro empty)
  rw [meaning, split, absolute]
  rfl

theorem meaning_ofSegments (slashless : ∀ s ∈ first :: rest, '/' ∉ s) :
    (ofSegments first rest).meaning = rest.foldl Meaning.read (.opening first) := by
  by_cases root : first = [] ∧ rest = []
  · obtain ⟨rfl, rfl⟩ := root
    decide
  · have split : (ofSegments first rest).segments = first :: rest := by
      rw [Path.segments, ofSegments, if_neg root]
      exact splitOn_joined slashless
    exact meaning_of_segments split (not_and_or.mp root)

/-- The ways in which a path can end, with its parent and its last name. -/
inductive Ending (p : Path) : Option Path → Option (List Char) → Prop where
  | nothing (whole : p.meaning = .start p.isAbsolute) : Ending p none none
  | dot (whole : p.meaning = .start false) : Ending p (some ⟨[]⟩) none
  | name {parent name} (proper : Proper name) (whole : p.meaning = parent.meaning.enter name) :
      Ending p (some parent) (some name)
  | ascent {parent} (whole : p.meaning = parent.meaning.ascend) : Ending p (some parent) none

/-- A path ends in the component of its last segment that has one. -/
theorem ending_of_segment {parent : Path} {c : Component} (slashless : '/' ∉ last)
    (named : segment? last = some c) (whole : p.meaning = parent.meaning.read last)
    (ends : p.components.getLast? = some c) : Ending p (some parent) p.fileName? := by
  have plain := plain_of_segment? slashless named
  rw [Meaning.read_eq, named] at whole
  rw [fileName?, ends]
  cases c with
  | up => exact .ascent whole
  | name name => exact .name plain whole
  | root | here => cases plain

theorem meaning_empty : Path.meaning ⟨[]⟩ = .start false := by decide

theorem exists_segment? (some : first ≠ []) (solid : first ≠ ['.']) :
    ∃ c, segment? first = .some c := by
  unfold segment?
  split
  next silent => exact absurd silent (not_or.mpr ⟨some, solid⟩)
  next => split <;> exact ⟨_, rfl⟩

/-- Where only the first segment can say something, the path has no directory. -/
theorem ending_of_silent (split : p.segments = first :: rest)
    (silent : ∀ s ∈ rest, segment? s = none) :
    Ending p (if first = [] then none else some ⟨[]⟩) p.fileName? := by
  have mute : rest.filterMap segment? = [] := List.filterMap_eq_nil_iff.mpr silent
  have components : p.components = (first? first (!rest.isEmpty)).toList := by
    rw [components, split]
    simp [mute]
  by_cases empty : first = []
  · subst empty
    have nameless : p.fileName? = none := by
      rw [fileName?, components]
      cases rest <;> rfl
    rw [if_pos rfl, nameless]
    refine .nothing ?_
    rw [meaning, split, List.foldl_cons, Meaning.read_nil, foldl_read_silent silent]
  · have meant : p.meaning = (Path.meaning ⟨[]⟩).read first := by
      rw [meaning_of_segments split (.inl empty), foldl_read_silent silent, meaning_empty,
        Meaning.opening, List.isEmpty_eq_false_iff.mpr empty]
    rw [if_neg empty]
    by_cases dot : first = ['.']
    · subst dot
      have nameless : p.fileName? = none := by
        rw [fileName?, components]
        rfl
      rw [nameless]
      exact .dot (meant.trans (by rw [Meaning.read_dot, meaning_empty]))
    · obtain ⟨c, named⟩ := exists_segment? empty dot
      have slashless : '/' ∉ first := p.slashless_segments first (by simp [split])
      refine ending_of_segment slashless named meant ?_
      simp [components, first?, empty, dot, named]

theorem ending (p : Path) : Ending p p.parent? p.fileName? := by
  have slashless := p.slashless_segments
  unfold parent?
  cases split : p.segments with
  | nil => exact absurd split (Text.splitOn_ne_nil '/' p.chars)
  | cons first rest =>
    rw [split] at slashless
    obtain ⟨silent, whole, none⟩ := settled_append_silent rest
    dsimp only
    split
    next last before spoken =>
      obtain ⟨c, named⟩ := exists_of_settled spoken
      have back : settled rest = before.reverse ++ [last] := by
        rw [← List.reverse_reverse (settled rest), spoken, List.reverse_cons]
      have parts : rest = before.reverse ++ last :: silent := by simpa [back] using whole.symm
      have front : ∀ s ∈ first :: settled before.reverse, '/' ∉ s := by
        refine List.forall_mem_cons.mpr ⟨slashless first List.mem_cons_self, fun s member => ?_⟩
        have inside := (settled_isPrefix before.reverse).subset member
        exact slashless s (List.mem_cons_of_mem _ (parts ▸ List.mem_append_left _ inside))
      refine ending_of_segment (slashless last (by simp [parts])) named ?_ ?_
      · rw [meaning_of_segments split (.inr (by simp [parts])), meaning_ofSegments front,
          foldl_read_settled, ← foldl_read_settled rest, back, List.foldl_append]
        rfl
      · have mute : silent.filterMap segment? = [] := List.filterMap_eq_nil_iff.mpr none
        rw [components, split, parts]
        simp [mute, named]
    next alone =>
      have blank : settled rest = [] := by simpa using alone
      rw [blank, List.nil_append] at whole
      exact ending_of_silent split (whole ▸ none)

end RouteForge.Path
