import Mathlib.Data.List.DropRight
import RouteForge.Text.Blank
import RouteForge.Text.Fields

/-! Trimmed texts and the parts between separators. A text is trimmed exactly when no blank stands
at its ends, the outermost words of a text keep its ends, and parts that are free of the separator
are found again behind it. -/
namespace RouteForge.Text

theorem trimEnd_eq_rdropWhile (cs : List Char) : trimEnd cs = cs.rdropWhile isBlank := rfl

theorem trim_eq_nil_iff {cs : List Char} : trim cs = [] ↔ ∀ c ∈ cs, isBlank c = true := by
  unfold trim
  rw [trimEnd_eq_rdropWhile, List.rdropWhile_eq_nil_iff]
  constructor
  · intro rest c member
    rw [← List.takeWhile_append_dropWhile (p := isBlank) (l := cs)] at member
    rcases List.mem_append.mp member with member | member
    · exact List.mem_takeWhile_imp member
    · exact rest c member
  · intro blank c member
    exact blank c ((List.dropWhile_suffix isBlank).mem member)

theorem mem_of_mem_trim {c : Char} {cs : List Char} (member : c ∈ trim cs) : c ∈ cs :=
  (List.dropWhile_suffix isBlank).mem ((List.rdropWhile_prefix isBlank _).mem member)

theorem trim_cons {c : Char} (blank : isBlank c = true) (cs : List Char) :
    trim (c :: cs) = trim cs := by
  simp [trim, trimStart, blank]

theorem trim_concat {c : Char} (blank : isBlank c = true) (cs : List Char) :
    trim (cs ++ [c]) = trim cs := by
  unfold trim trimStart
  rw [List.dropWhile_append]
  cases rest : cs.dropWhile isBlank with
  | nil => simp [trimEnd, blank]
  | cons d ds =>
    rw [if_neg (by simp), trimEnd_eq_rdropWhile, List.rdropWhile_concat_pos _ _ _ blank]
    rfl

/-- No blank stands at the ends. -/
def Bare (cs : List Char) : Prop :=
  (∀ c ∈ cs.head?, isBlank c = false) ∧ ∀ c ∈ cs.getLast?, isBlank c = false

theorem bare_trim (cs : List Char) : Bare (trim cs) := by
  constructor
  · intro c front
    have inside : trim cs <+: trimStart cs := List.rdropWhile_prefix isBlank _
    have first : (cs.dropWhile isBlank).head? = some c := by
      obtain ⟨rest, whole⟩ := inside
      rw [trimStart] at whole
      rw [← whole, List.head?_append, front]
      rfl
    simpa [first] using List.head?_dropWhile_not isBlank cs
  · intro c last
    have some : trim cs ≠ [] := by
      intro none
      simp [none] at last
    have end_not := List.rdropWhile_last_not isBlank (trimStart cs) some
    rw [List.getLast?_eq_getLast_of_ne_nil some] at last
    cases last
    exact Bool.eq_false_iff.mpr end_not

theorem trim_of_bare {cs : List Char} (bare : Bare cs) : trim cs = cs := by
  have start : trimStart cs = cs := by
    cases cs with
    | nil => rfl
    | cons c cs => simp [trimStart, bare.1 c rfl]
  unfold trim
  rw [start, trimEnd_eq_rdropWhile, List.rdropWhile_eq_self_iff]
  intro some
  simpa using bare.2 _ (List.getLast?_eq_getLast_of_ne_nil some)

theorem trim_trim (cs : List Char) : trim (trim cs) = trim cs := trim_of_bare (bare_trim cs)

/-! ### Parts and words -/

theorem mem_of_mem_splitOn {separator c : Char} {cs part : List Char}
    (inside : part ∈ splitOn separator cs) (member : c ∈ part) : c ∈ cs := by
  induction cs generalizing part with
  | nil => simp_all [splitOn]
  | cons d cs ih =>
    by_cases h : d = separator
    · simp only [splitOn, h, if_true, List.mem_cons] at inside
      rcases inside with rfl | inside
      · cases member
      · exact List.mem_cons_of_mem _ (ih inside member)
    · cases parts : splitOn separator cs with
      | nil => exact absurd parts (splitOn_ne_nil separator cs)
      | cons first rest =>
        simp only [splitOn, h, if_false, parts, List.mem_cons] at inside
        rcases inside with rfl | inside
        · rcases List.mem_cons.mp member with rfl | member
          · exact List.mem_cons_self
          · exact List.mem_cons_of_mem _ (ih (parts ▸ List.mem_cons_self) member)
        · exact List.mem_cons_of_mem _ (ih (parts ▸ List.mem_cons_of_mem _ inside) member)

theorem intercalate_cons (separator : Char) (part : List Char) (rest : List (List Char)) :
    [separator].intercalate (part :: rest) = part ++ rest.flatMap (separator :: ·) := by
  induction rest generalizing part with
  | nil => simp
  | cons next rest ih => simp [List.intercalate_cons_cons, ih]

/-- Parts that are put together with the separator between them are found again. -/
theorem splitOn_intercalate {separator : Char} {parts : List (List Char)} (some : parts ≠ [])
    (free : ∀ part ∈ parts, separator ∉ part) :
    splitOn separator ([separator].intercalate parts) = parts := by
  induction parts with
  | nil => exact absurd rfl some
  | cons part rest ih =>
    obtain ⟨here, others⟩ := List.forall_mem_cons.mp free
    cases rest with
    | nil => rw [List.intercalate_singleton, splitOn_of_not_mem here]
    | cons next rest =>
      rw [List.intercalate_cons_cons, List.append_assoc, List.singleton_append,
        splitOn_append_separator, splitOn_of_not_mem here, ih (List.cons_ne_nil _ _) others]
      rfl

theorem splitOn_cons_other {separator c : Char} (other : c ≠ separator) (cs : List Char) :
    ∃ part parts, splitOn separator (c :: cs) = (c :: part) :: parts := by
  cases parts : splitOn separator cs with
  | nil => exact absurd parts (splitOn_ne_nil separator cs)
  | cons part rest => exact ⟨part, rest, by simp [splitOn, other, parts]⟩

theorem splitOn_concat_other {separator c : Char} (other : c ≠ separator) (cs : List Char) :
    ∃ parts part, splitOn separator (cs ++ [c]) = parts ++ [part ++ [c]] := by
  induction cs with
  | nil => exact ⟨[], [], by simp [splitOn, other]⟩
  | cons d cs ih =>
    obtain ⟨parts, part, split⟩ := ih
    by_cases h : d = separator
    · exact ⟨[] :: parts, part, by simp [splitOn, h, split]⟩
    · cases parts with
      | nil => exact ⟨[], d :: part, by simp [splitOn, h, split]⟩
      | cons first rest => exact ⟨(d :: first) :: rest, part, by simp [splitOn, h, split]⟩

theorem mem_words {separator : Char} {cs word : List Char} (member : word ∈ words separator cs) :
    word ≠ [] ∧ separator ∉ word ∧ ∀ c ∈ word, c ∈ cs := by
  obtain ⟨inside, some⟩ := List.mem_filter.mp member
  exact ⟨by simpa using some, not_mem_of_mem_splitOn inside,
    fun _ found => mem_of_mem_splitOn inside found⟩

theorem words_cons_other {separator c : Char} (other : c ≠ separator) (cs : List Char) :
    ∃ word rest, words separator (c :: cs) = (c :: word) :: rest := by
  obtain ⟨part, parts, split⟩ := splitOn_cons_other other cs
  exact ⟨part, parts.filter (fun p => !p.isEmpty), by simp [words, split]⟩

theorem words_concat_other {separator c : Char} (other : c ≠ separator) (cs : List Char) :
    ∃ rest word, words separator (cs ++ [c]) = rest ++ [word ++ [c]] := by
  obtain ⟨parts, part, split⟩ := splitOn_concat_other other cs
  exact ⟨parts.filter (fun p => !p.isEmpty), part, by simp [words, split]⟩

theorem isBlank_space : isBlank ' ' = true := by decide

/-- A trimmed text without words is empty. -/
theorem words_trim_eq_nil_iff {cs : List Char} :
    words ' ' (trim cs) = [] ↔ ∀ c ∈ cs, isBlank c = true := by
  rw [← trim_eq_nil_iff]
  constructor
  · intro none
    cases text : trim cs with
    | nil => rfl
    | cons c rest =>
      have solid : isBlank c = false := (bare_trim cs).1 c (by simp [text])
      have other : c ≠ ' ' := by
        rintro rfl
        simp [isBlank_space] at solid
      obtain ⟨word, others, found⟩ := words_cons_other other rest
      rw [text, found] at none
      cases none
  · intro none
    rw [none]
    rfl

/-- The first word starts with the character that the text starts with. -/
theorem head?_of_words {separator : Char} {cs word : List Char} {rest : List (List Char)}
    (found : words separator cs = word :: rest) (other : cs.head? ≠ some separator) :
    word.head? = cs.head? := by
  cases cs with
  | nil => cases found
  | cons c cs =>
    obtain ⟨part, parts, split⟩ := words_cons_other (by simpa using other) cs
    rw [found] at split
    cases split
    rfl

theorem getLast?_of_words {separator : Char} {cs word : List Char} (rest : List (List Char))
    (found : words separator cs = rest ++ [word]) (other : cs.getLast? ≠ some separator) :
    word.getLast? = cs.getLast? := by
  rcases List.eq_nil_or_concat' cs with rfl | ⟨front, c, rfl⟩
  · simp [words, splitOn] at found
  · obtain ⟨parts, part, split⟩ := words_concat_other (by simpa using other) front
    rw [found] at split
    obtain ⟨-, same⟩ := List.append_inj' split rfl
    cases same
    simp

end RouteForge.Text
