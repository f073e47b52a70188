/-! The parts of a text between occurrences of one character, and their inverse. Every text has
at least one part, and parts may be empty. -/
namespace RouteForge.Text

def splitOn (separator : Char) : List Char → List (List Char)
  | [] => [[]]
  | c :: cs =>
    if c = separator then [] :: splitOn separator cs
    else match splitOn separator cs with
      | [] => [[c]]
      | part :: parts => (c :: part) :: parts

/-- The parts that are not empty, so that runs of the separator count once. -/
def words (separator : Char) (cs : List Char) : List (List Char) :=
  (splitOn separator cs).filter (fun part => !part.isEmpty)

theorem splitOn_ne_nil (separator : Char) (cs : List Char) : splitOn separator cs ≠ [] := by
  cases cs with
  | nil => simp [splitOn]
  | cons c cs =>
    simp only [splitOn]
    split
    · simp
    · split <;> simp

theorem splitOn_append_separator (separator : Char) (xs ys : List Char) :
    splitOn separator (xs ++ separator :: ys) = splitOn separator xs ++ splitOn separator ys := by
  induction xs with
  | nil => simp [splitOn]
  | cons c xs ih =>
    by_cases h : c = separator
    · simp [splitOn, h, ih]
    · cases parts : splitOn separator xs with
      | nil => exact absurd parts (splitOn_ne_nil separator xs)
      | cons part rest => simp [splitOn, h, ih, parts]

theorem splitOn_of_not_mem {separator : Char} {cs : List Char} (h : separator ∉ cs) :
    splitOn separator cs = [cs] := by
  induction cs with
  | nil => rfl
  | cons c cs ih =>
    rw [List.mem_cons, not_or] at h
    simp [splitOn, Ne.symm h.1, ih h.2]

theorem not_mem_of_mem_splitOn {separator : Char} {cs part : List Char}
    (member : part ∈ splitOn separator cs) : separator ∉ part := by
  induction cs generalizing part with
  | nil => simp_all [splitOn]
  | cons c cs ih =>
    by_cases h : c = separator
    · simp only [splitOn, h, if_true, List.mem_cons] at member
      rcases member with rfl | member
      · simp
      · exact ih member
    · cases parts : splitOn separator cs with
      | nil => exact absurd parts (splitOn_ne_nil separator cs)
      | cons first rest =>
        simp only [splitOn, h, if_false, parts, List.mem_cons] at member
        rcases member with rfl | member
        · simp [Ne.symm h, ih (parts ▸ List.mem_cons_self)]
        · exact ih (parts ▸ List.mem_cons_of_mem _ member)

/-- A text whose last part is empty is empty or ends in the separator. -/
theorem getLast?_of_splitOn {separator : Char} {cs : List Char}
    (last : (splitOn separator cs).getLast? = some []) : cs = [] ∨ cs.getLast? = some separator := by
  induction cs with
  | nil => exact .inl rfl
  | cons c cs ih =>
    right
    by_cases h : c = separator
    · subst h
      cases parts : splitOn c cs with
      | nil => exact absurd parts (splitOn_ne_nil c cs)
      | cons part rest =>
        have inner : (splitOn c cs).getLast? = some [] := by
          simpa [splitOn, parts, List.getLast?_cons_cons] using last
        rcases ih inner with rfl | ends
        · rfl
        · simp [List.getLast?_cons, ends]
    · cases parts : splitOn separator cs with
      | nil => exact absurd parts (splitOn_ne_nil separator cs)
      | cons part rest =>
        simp only [splitOn, h, if_false, parts] at last
        cases rest with
        | nil => simp at last
        | cons next rest =>
          have inner : (splitOn separator cs).getLast? = some [] := by
            rw [parts]
            simpa [List.getLast?_cons_cons] using last
          rcases ih inner with rfl | ends
          · simp [splitOn] at parts
          · simp [List.getLast?_cons, ends]

end RouteForge.Text
