import RouteForge.Proofs.Text.Trim
import RouteForge.Text.Lines

/-! The lines of a text put together again. A text that ends in a line feed is made of its lines,
unless a carriage return belonged to a terminator. So putting lines together and taking them apart
leaves each of them as it is but for one carriage return at its end. -/
namespace RouteForge.Text

variable {line cs : List Char}

theorem chomp_eq_self (bare : line.getLast? ≠ some '\r') : chomp line = line := by
  unfold chomp
  split
  next terminated => exact absurd terminated bare
  next => rfl

/-- A line is chomped already, or it ends in a carriage return and is chomped to what stands before. -/
theorem chomp_cases (line : List Char) :
    (line.getLast? ≠ some '\r' ∧ chomp line = line) ∨
      ∃ front, line = front ++ ['\r'] ∧ chomp line = front := by
  rcases List.eq_nil_or_concat' line with rfl | ⟨front, last, rfl⟩
  · exact .inl ⟨by simp, rfl⟩
  · by_cases terminated : last = '\r'
    · exact .inr ⟨front, by rw [terminated], by simp [chomp, terminated]⟩
    · have bare : (front ++ [last]).getLast? ≠ some '\r' := by simpa using terminated
      exact .inl ⟨bare, chomp_eq_self bare⟩

theorem trim_chomp (line : List Char) : trim (chomp line) = trim line := by
  rcases chomp_cases line with ⟨-, whole⟩ | ⟨front, rfl, whole⟩
  · rw [whole]
  · rw [whole]
    exact (trim_concat (by decide) front).symm

theorem chompAll_cons {rest : List (List Char)} (more : rest ≠ []) :
    chompAll (line :: rest) = chomp line :: chompAll rest := by
  cases rest with
  | nil => exact absurd rfl more
  | cons => rfl

theorem lines_cons (unbroken : '\n' ∉ line) (cs : List Char) :
    lines (line ++ '\n' :: cs) = chomp line :: lines cs := by
  unfold lines
  rw [splitOn_append_separator, splitOn_of_not_mem unbroken, List.singleton_append,
    chompAll_cons (splitOn_ne_nil '\n' cs)]

theorem lines_of_unbroken (unbroken : '\n' ∉ line) :
    lines line = if line.isEmpty then [] else [line] := by
  unfold lines
  rw [splitOn_of_not_mem unbroken]
  rfl

theorem unlines_cons (line : List Char) (rest : List (List Char)) :
    unlines (line :: rest) = line ++ '\n' :: unlines rest := by
  simp [unlines]

theorem unlines_append (front back : List (List Char)) :
    unlines (front ++ back) = unlines front ++ unlines back :=
  List.flatMap_append

/-- Lines in front of a text are lines of the whole, less a carriage return at their ends. -/
theorem lines_unlines_append_map {front : List (List Char)}
    (unbroken : ∀ line ∈ front, '\n' ∉ line) (cs : List Char) :
    lines (unlines front ++ cs) = front.map chomp ++ lines cs := by
  induction front with
  | nil => rfl
  | cons line rest ih =>
    obtain ⟨single, others⟩ := List.forall_mem_cons.mp unbroken
    rw [unlines_cons, List.append_assoc, List.cons_append, lines_cons single, ih others]
    rfl

/-- Lines that end in no carriage return are lines of the whole as they are. -/
theorem lines_unlines_append {front : List (List Char)}
    (unbroken : ∀ line ∈ front, '\n' ∉ line ∧ line.getLast? ≠ some '\r') (cs : List Char) :
    lines (unlines front ++ cs) = front ++ lines cs := by
  have whole : front.map chomp = front := by
    apply (List.map_congr_left _).trans (List.map_id front)
    exact fun line member => chomp_eq_self (unbroken line member).2
  rw [lines_unlines_append_map fun line member => (unbroken line member).1, whole]

theorem lines_unlines {ls : List (List Char)} (unbroken : ∀ line ∈ ls, '\n' ∉ line) :
    lines (unlines ls) = ls.map chomp := by
  have split := lines_unlines_append_map unbroken []
  have none : lines [] = [] := rfl
  rwa [none, List.append_nil, List.append_nil] at split

theorem unlines_ends (ls : List (List Char)) :
    unlines ls = [] ∨ (unlines ls).getLast? = some '\n' := by
  rcases List.eq_nil_or_concat' ls with rfl | ⟨front, last, rfl⟩
  · exact .inl rfl
  · right
    simp [unlines]

/-- A text is its first line with everything behind the line feed, or has no line feed. -/
theorem exists_first_line (cs : List Char) :
    (∃ line rest, '\n' ∉ line ∧ cs = line ++ '\n' :: rest) ∨ '\n' ∉ cs := by
  by_cases broken : '\n' ∈ cs
  · obtain ⟨line, rest, rfl, unbroken⟩ := List.eq_append_cons_of_mem broken
    exact .inl ⟨line, rest, unbroken, rfl⟩
  · exact .inr broken

/-- A text with a line feed behind its last line. -/
def ended (cs : List Char) : List Char := if cs.getLast?.all (· = '\n') then cs else cs ++ ['\n']

theorem ended_append (xs ys : List Char) : ended (xs ++ '\n' :: ys) = xs ++ '\n' :: ended ys := by
  cases ys with
  | nil => simp [ended]
  | cons c ys =>
    have last := List.getLast?_eq_some_getLast (List.cons_ne_nil c ys)
    simp only [ended, List.getLast?_append, List.getLast?_cons_cons, last, Option.some_or,
      Option.all_some]
    split <;> simp

theorem ended_unlines (ls : List (List Char)) : ended (unlines ls) = unlines ls := by
  unfold ended
  rcases unlines_ends ls with none | last
  · simp [none]
  · simp [last]

/-- Lines put together are the text again. -/
theorem unlines_lines (cs : List Char) (bare : '\r' ∉ cs) : unlines (lines cs) = ended cs := by
  rcases exists_first_line cs with ⟨line, rest, unbroken, rfl⟩ | unbroken
  · simp only [List.mem_append, List.mem_cons, not_or] at bare
    have whole : chomp line = line :=
      chomp_eq_self fun terminated => bare.1 (List.mem_of_getLast? terminated)
    rw [lines_cons unbroken, unlines_cons, whole, unlines_lines rest bare.2.2, ended_append]
  · rw [lines_of_unbroken unbroken]
    cases last : cs.getLast? with
    | none =>
      obtain rfl := List.getLast?_eq_none_iff.mp last
      rfl
    | some c =>
      have other : c ≠ '\n' := by
        rintro rfl
        exact unbroken (List.mem_of_getLast? last)
      have filled : cs ≠ [] := List.ne_nil_of_mem (List.mem_of_getLast? last)
      simp [ended, last, other, filled, unlines]
termination_by cs.length

/-! ### The terminators -/

/-- A text and its lines. A line feed ends a line, together with one carriage return just before it,
and what stands behind the last line feed is a line unless it is empty. -/
inductive Lined : List Char → List (List Char) → Prop where
  | empty : Lined [] []
  | last {line : List Char} (unbroken : '\n' ∉ line) (filled : line ≠ []) : Lined line [line]
  | feed {line rest : List Char} {ls : List (List Char)} (unbroken : '\n' ∉ line)
      (bare : line.getLast? ≠ some '\r') (behind : Lined rest ls) :
      Lined (line ++ '\n' :: rest) (line :: ls)
  | returned {line rest : List Char} {ls : List (List Char)} (unbroken : '\n' ∉ line)
      (behind : Lined rest ls) : Lined (line ++ '\r' :: '\n' :: rest) (line :: ls)

namespace Lined

variable {ls : List (List Char)}

theorem unbroken (lined : Lined cs ls) : ∀ line ∈ ls, '\n' ∉ line := by
  induction lined with
  | empty => simp
  | last unbroken => simpa using unbroken
  | feed unbroken _ _ ih => exact List.forall_mem_cons.mpr ⟨unbroken, ih⟩
  | returned unbroken _ ih => exact List.forall_mem_cons.mpr ⟨unbroken, ih⟩

theorem lines_eq (lined : Lined cs ls) : lines cs = ls := by
  induction lined with
  | empty => rfl
  | @last line unbroken filled =>
    rw [lines_of_unbroken unbroken]
    simp [filled]
  | feed unbroken bare _ ih => rw [lines_cons unbroken, chomp_eq_self bare, ih]
  | @returned line rest ls unbroken _ ih =>
    -- The carriage return is the end of the part in front of the line feed.
    have whole : '\n' ∉ line ++ ['\r'] := by simpa using unbroken
    have split := lines_cons whole rest
    rw [List.append_assoc, List.singleton_append] at split
    rw [split, ih]
    simp [chomp]

end Lined

theorem lined_lines (cs : List Char) : Lined cs (lines cs) := by
  rcases exists_first_line cs with ⟨line, rest, unbroken, rfl⟩ | unbroken
  · have behind := lined_lines rest
    rw [lines_cons unbroken]
    rcases chomp_cases line with ⟨bare, whole⟩ | ⟨front, rfl, whole⟩
    · rw [whole]
      exact .feed unbroken bare behind
    · rw [whole, List.append_assoc]
      apply Lined.returned _ behind
      exact fun member => unbroken (List.mem_append_left _ member)
  · rw [lines_of_unbroken unbroken]
    by_cases filled : cs = []
    · rw [filled]
      exact .empty
    · rw [if_neg (by simpa using filled)]
      exact .last unbroken filled
termination_by cs.length

/-- A text has one list of lines. -/
theorem lined_iff {ls : List (List Char)} : Lined cs ls ↔ ls = lines cs := by
  constructor
  · exact fun lined => lined.lines_eq.symm
  · rintro rfl
    exact lined_lines cs

end RouteForge.Text
