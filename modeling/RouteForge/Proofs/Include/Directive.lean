import RouteForge.Include.Directive
import RouteForge.Proofs.Text.Trim

/-! Which lines are directives. A line is read in the order of a pattern that takes blanks and quotes
greedily and the target as short as it can, and gives characters back when the rest does not fit. What
it finds is the target behind all blanks, less the quotes at its ends. Only where nothing but quotes
stands there, one blank is given back and becomes the target. -/
namespace RouteForge.Include

/-! ### The pattern -/

def isQuote (c : Char) : Bool := c = '"'

/-- The ways to take characters of a class off a text, with what they leave, the longest first. -/
def runs (p : Char → Bool) : List Char → List (List Char × List Char)
  | [] => [([], [])]
  | c :: cs =>
    (if p c then (runs p cs).map fun (taken, rest) => (c :: taken, rest) else []) ++ [([], c :: cs)]

/-- The ways to read the text behind the blanks: quotes, a target without quotes that is as short as
it can be but not empty, quotes, and nothing else. -/
def argumentReadings (rest : List Char) : List (List Char) :=
  (runs isQuote rest).flatMap fun (_, rest) =>
    (runs (!isQuote ·) rest).reverse.flatMap fun (target, rest) =>
      if target = [] then []
      else (runs isQuote rest).flatMap fun (_, rest) => if rest = [] then [target] else []

/-- The ways to read a line: the word, some blanks, and a target. They stand in the order in which
they are tried. -/
def readings (line : List Char) : List (List Char) :=
  if word.isPrefixOf line then
    (runs Text.isBlank (line.drop word.length)).flatMap fun (blanks, rest) =>
      if blanks = [] then [] else argumentReadings rest
  else []

theorem mem_runs {p : Char → Bool} {cs taken rest : List Char} :
    (taken, rest) ∈ runs p cs ↔ taken ++ rest = cs ∧ ∀ c ∈ taken, p c = true := by
  induction cs generalizing taken with
  | nil =>
    simp only [runs, List.mem_singleton, Prod.mk.injEq, List.append_eq_nil_iff]
    constructor
    · rintro ⟨rfl, rfl⟩
      simp
    · exact And.left
  | cons c cs ih =>
    cases taken with
    | nil => by_cases fits : p c = true <;> simp [runs, fits]
    | cons d taken =>
      by_cases fits : p c = true
      · simp only [runs, fits, if_true, List.mem_append, List.mem_map, Prod.exists, Prod.mk.injEq,
          List.cons.injEq, List.mem_singleton, List.cons_ne_nil, false_and, or_false,
          List.cons_append, List.forall_mem_cons]
        constructor
        · rintro ⟨more, left, member, ⟨rfl, rfl⟩, rfl⟩
          obtain ⟨whole, each⟩ := ih.mp member
          exact ⟨⟨rfl, whole⟩, fits, each⟩
        · rintro ⟨⟨rfl, whole⟩, -, each⟩
          exact ⟨taken, rest, ih.mpr ⟨whole, each⟩, ⟨rfl, rfl⟩, rfl⟩
      · simp only [runs, fits]
        constructor
        · simp
        · rintro ⟨whole, each⟩
          cases whole
          exact absurd (each _ List.mem_cons_self) fits

/-- What is left of a text without the quotes at its ends, if it is a target. -/
def Quoted (rest target : List Char) : Prop :=
  ∃ opening closing, rest = opening ++ target ++ closing ∧ (∀ c ∈ opening, c = '"') ∧
    (∀ c ∈ closing, c = '"') ∧ target ≠ [] ∧ '"' ∉ target

theorem mem_argumentReadings {rest target : List Char} :
    target ∈ argumentReadings rest ↔ Quoted rest target := by
  simp only [argumentReadings, List.mem_flatMap, List.mem_reverse, Prod.exists, mem_runs]
  constructor
  · rintro ⟨opening, behind, ⟨rfl, first⟩, body, tail, ⟨rfl, inner⟩, found⟩
    split at found
    next => cases found
    next some =>
      simp only [List.mem_flatMap, Prod.exists, mem_runs] at found
      obtain ⟨closing, left, ⟨rfl, last⟩, found⟩ := found
      split at found
      next done =>
        obtain rfl := List.mem_singleton.mp found
        refine ⟨opening, closing, by simp [done], ?_, ?_, some, fun quote => ?_⟩
        · simpa [isQuote] using first
        · simpa [isQuote] using last
        · simpa [isQuote] using inner _ quote
      next => cases found
  · rintro ⟨opening, closing, rfl, first, last, some, free⟩
    refine ⟨opening, target ++ closing, ⟨by simp, by simpa [isQuote] using first⟩, target, closing,
      ⟨rfl, ?_⟩, ?_⟩
    · intro c member
      have other : c ≠ '"' := fun quote => free (quote ▸ member)
      simp [isQuote, other]
    · rw [if_neg some]
      simp only [List.mem_flatMap, Prod.exists, mem_runs]
      exact ⟨closing, [], ⟨by simp, by simpa [isQuote] using last⟩, by simp⟩

theorem span_stop {p : Char → Bool} {cs : List Char} (stop : ∀ c ∈ cs.head?, p c = false) :
    cs.takeWhile p = [] ∧ cs.dropWhile p = cs := by
  cases cs with
  | nil => exact ⟨rfl, rfl⟩
  | cons c cs => simp [stop c rfl]

theorem span_append {p : Char → Bool} {front cs : List Char} (each : ∀ c ∈ front, p c = true)
    (stop : ∀ c ∈ cs.head?, p c = false) :
    (front ++ cs).takeWhile p = front ∧ (front ++ cs).dropWhile p = cs := by
  obtain ⟨none, whole⟩ := span_stop stop
  rw [List.takeWhile_append_of_pos each, List.dropWhile_append_of_pos each, none, whole]
  exact ⟨List.append_nil front, rfl⟩

theorem solid_dropWhile (cs : List Char) :
    ∀ c ∈ (cs.dropWhile Text.isBlank).head?, Text.isBlank c = false := by
  intro c front
  have stop := List.head?_dropWhile_not Text.isBlank cs
  rw [front] at stop
  simpa using stop

theorem other_of_mem {c : Char} {cs : List Char} (free : '"' ∉ cs) (member : c ∈ cs) :
    decide (c = '"') = false := by
  simpa using fun quote : c = '"' => free (quote ▸ member)

/-- A target is all that is left without the quotes at the ends. -/
theorem quoted_iff {rest target : List Char} :
    Quoted rest target ↔ unquote rest = target ∧ target ≠ [] ∧ '"' ∉ target := by
  constructor
  · rintro ⟨opening, closing, rfl, first, last, some, free⟩
    have stop : ∀ c ∈ (target ++ closing).head?, decide (c = '"') = false := by
      rw [List.head?_append_of_ne_nil _ some]
      exact fun c front => other_of_mem free (List.mem_of_head? front)
    have stop' : ∀ c ∈ target.reverse.head?, decide (c = '"') = false :=
      fun c front => other_of_mem free (List.mem_reverse.mp (List.mem_of_head? front))
    refine ⟨?_, some, free⟩
    rw [unquote, List.append_assoc, (span_append (by simpa using first) stop).2, List.reverse_append,
      (span_append (by simpa using last) stop').2, List.reverse_reverse]
  · rintro ⟨rfl, some, free⟩
    let q : Char → Bool := (· = '"')
    refine ⟨rest.takeWhile q, ((rest.dropWhile q).reverse.takeWhile q).reverse, ?_, ?_, ?_, some, free⟩
    · have middle : unquote rest ++ ((rest.dropWhile q).reverse.takeWhile q).reverse =
          rest.dropWhile q := by
        rw [unquote, ← List.reverse_append, List.takeWhile_append_dropWhile, List.reverse_reverse]
      rw [List.append_assoc, middle, List.takeWhile_append_dropWhile]
    · intro c member
      simpa [q] using List.mem_takeWhile_imp member
    · intro c member
      simpa [q] using List.mem_takeWhile_imp (List.mem_reverse.mp member)

/-- A text without the quotes at its end. -/
def unclosed (rest : List Char) : List Char := rest.rdropWhile (· = '"')

theorem unquote_eq_unclosed (rest : List Char) : unquote rest = unclosed (rest.dropWhile (· = '"')) :=
  rfl

theorem unclosed_append (front rest : List Char) : unclosed (front ++ rest) =
    if unclosed rest = [] then unclosed front else front ++ unclosed rest := by
  unfold unclosed List.rdropWhile
  rw [List.reverse_append, List.dropWhile_append]
  simp only [List.isEmpty_iff, List.reverse_eq_nil_iff]
  split <;> simp

theorem unclosed_eq_nil_iff {rest : List Char} : unclosed rest = [] ↔ ∀ c ∈ rest, c = '"' := by
  simp [unclosed, List.rdropWhile_eq_nil_iff]

theorem unclosed_of_free {cs : List Char} (free : '"' ∉ cs) : unclosed cs = cs := by
  unfold unclosed
  rw [List.rdropWhile_eq_self_iff]
  exact fun some => Bool.eq_false_iff.mp (other_of_mem free (List.getLast_mem some))

theorem unquote_eq_nil_iff {rest : List Char} : unquote rest = [] ↔ ∀ c ∈ rest, c = '"' := by
  rw [unquote_eq_unclosed, unclosed_eq_nil_iff]
  constructor
  · intro each c member
    rw [← List.takeWhile_append_dropWhile (p := (· = '"')) (l := rest)] at member
    rcases List.mem_append.mp member with member | member
    · simpa using List.mem_takeWhile_imp member
    · exact each c member
  · intro each c member
    exact each c ((List.dropWhile_suffix _).mem member)

/-- The quotes in front of a text do not count behind other characters. -/
theorem unquote_append {front : List Char} (some : front ≠ []) (free : '"' ∉ front)
    (rest : List Char) : unquote (front ++ rest) = front ++ unclosed rest := by
  have stop : ∀ c ∈ (front ++ rest).head?, decide (c = '"') = false := by
    rw [List.head?_append_of_ne_nil _ some]
    exact fun c first => other_of_mem free (List.mem_of_head? first)
  rw [unquote_eq_unclosed, (span_stop stop).2, unclosed_append]
  split
  next closed => rw [closed, unclosed_of_free free, List.append_nil]
  next => rfl

/-- A quote inside a text is inside it behind other characters too. -/
theorem mem_unclosed_of_unquote {rest : List Char} (inside : '"' ∈ unquote rest) :
    '"' ∈ unclosed rest := by
  rw [unquote_eq_unclosed] at inside
  rw [← List.takeWhile_append_dropWhile (p := (· = '"')) (l := rest), unclosed_append,
    if_neg (List.ne_nil_of_mem inside)]
  exact List.mem_append_right _ inside

/-- All ways to read a text behind the blanks find the same target. -/
theorem head?_argumentReadings (rest : List Char) : (argumentReadings rest).head? =
    if unquote rest ≠ [] ∧ '"' ∉ unquote rest then some (unquote rest) else none := by
  cases found : (argumentReadings rest).head? with
  | none =>
    have nothing := List.head?_eq_none_iff.mp found
    rw [if_neg]
    intro valid
    have member := mem_argumentReadings.mpr (quoted_iff.mpr ⟨rfl, valid⟩)
    rw [nothing] at member
    cases member
  | some target =>
    have quoted := mem_argumentReadings.mp (List.mem_of_head? found)
    obtain ⟨rfl, valid⟩ := quoted_iff.mp quoted
    rw [if_pos valid]

/-- The first way to read a text in front of which all blanks may be given back. -/
def behind (blanks rest : List Char) : Option (List Char) :=
  ((runs Text.isBlank (blanks ++ rest)).flatMap fun (_, rest) => argumentReadings rest).head?

section Behind

variable {c : Char} {blanks rest : List Char}

theorem behind_nil (solid : ∀ c ∈ rest.head?, Text.isBlank c = false) :
    behind [] rest = (argumentReadings rest).head? := by
  cases rest with
  | nil => simp [behind, runs]
  | cons c rest => simp [behind, runs, solid c rfl]

theorem behind_cons (blank : Text.isBlank c = true) : behind (c :: blanks) rest =
    (behind blanks rest).or (argumentReadings (c :: (blanks ++ rest))).head? := by
  simp [behind, runs, blank, List.flatMap_map, List.flatMap_append]

theorem behind_of_some {target : List Char} (each : ∀ c ∈ blanks, Text.isBlank c = true)
    (solid : ∀ c ∈ rest.head?, Text.isBlank c = false)
    (first : (argumentReadings rest).head? = some target) : behind blanks rest = some target := by
  induction blanks with
  | nil => rw [behind_nil solid, first]
  | cons c blanks ih =>
    obtain ⟨blank, others⟩ := List.forall_mem_cons.mp each
    rw [behind_cons blank, ih others]
    rfl

theorem behind_of_none (each : ∀ c ∈ blanks, Text.isBlank c = true)
    (solid : ∀ c ∈ rest.head?, Text.isBlank c = false)
    (never : ∀ front, (∀ c ∈ front, Text.isBlank c = true) →
      (argumentReadings (front ++ rest)).head? = none) : behind blanks rest = none := by
  induction blanks with
  | nil => exact (behind_nil solid).trans (never [] each)
  | cons c blanks ih =>
    obtain ⟨blank, others⟩ := List.forall_mem_cons.mp each
    rw [behind_cons blank, ih others, Option.none_or]
    exact never (c :: blanks) each

/-- Where nothing but quotes stands behind the blanks, the last blank is the first to be given
back. -/
theorem behind_of_quotes (each : ∀ c ∈ blanks, Text.isBlank c = true)
    (solid : ∀ c ∈ rest.head?, Text.isBlank c = false)
    (none : (argumentReadings rest).head? = none)
    (last : ∀ c, Text.isBlank c = true → (argumentReadings (c :: rest)).head? = some [c]) :
    behind blanks rest = blanks.getLast?.map fun c => [c] := by
  induction blanks with
  | nil => rw [behind_nil solid, none]; rfl
  | cons c blanks ih =>
    obtain ⟨blank, others⟩ := List.forall_mem_cons.mp each
    rw [behind_cons blank, ih others]
    cases blanks with
    | nil => exact last c blank
    | cons d blanks => simp [List.getLast?_eq_some_getLast]

theorem free_of_blanks {front : List Char} (each : ∀ c ∈ front, Text.isBlank c = true) :
    '"' ∉ front := by
  intro quote
  have blank := each _ quote
  revert blank
  decide

/-- A quote between the other characters stays where it is, whatever blanks are given back. -/
theorem head?_argumentReadings_of_inside (each : ∀ c ∈ blanks, Text.isBlank c = true)
    (inside : '"' ∈ unquote rest) : (argumentReadings (blanks ++ rest)).head? = none := by
  rw [head?_argumentReadings, if_neg]
  rintro ⟨-, free⟩
  by_cases bare : blanks = []
  · exact free (by simpa [bare] using inside)
  · rw [unquote_append bare (free_of_blanks each)] at free
    exact free (List.mem_append_right _ (mem_unclosed_of_unquote inside))

/-- A blank that is given back to nothing but quotes is the target. -/
theorem head?_argumentReadings_of_blank (blank : Text.isBlank c = true)
    (none : unquote rest = []) : (argumentReadings (c :: rest)).head? = some [c] := by
  have closed : unclosed rest = [] := unclosed_eq_nil_iff.mpr (unquote_eq_nil_iff.mp none)
  have free : '"' ∉ [c] := free_of_blanks (by simpa using blank)
  have alone : unquote (c :: rest) = [c] := by
    rw [← List.singleton_append, unquote_append (by simp) free, closed]
    rfl
  rw [head?_argumentReadings, alone, if_pos ⟨by simp, free⟩]

theorem argument?_eq (blanks rest : List Char) : argument? blanks rest =
    if '"' ∈ unquote rest then none
    else if unquote rest ≠ [] then some (unquote rest)
    else blanks.tail.getLast?.map fun c => [c] := by
  unfold argument?
  simp only [List.contains_iff_mem]
  congr 2
  cases blanks with
  | nil => rfl
  | cons c blanks =>
    rcases List.eq_nil_or_concat' blanks with rfl | ⟨front, last, rfl⟩
    · rfl
    · rw [List.reverse_cons, List.reverse_append]
      cases front.reverse <;> simp

/-- All ways to read the text behind the word, with the blanks given back one by one. -/
theorem head?_runs (each : ∀ c ∈ blanks, Text.isBlank c = true)
    (solid : ∀ c ∈ rest.head?, Text.isBlank c = false) :
    ((runs Text.isBlank (blanks ++ rest)).flatMap fun (blanks, rest) =>
      if blanks = [] then [] else argumentReadings rest).head? =
        if blanks = [] then none else argument? blanks rest := by
  cases blanks with
  | nil =>
    cases rest with
    | nil => simp [runs]
    | cons c rest => simp [runs, solid c rfl]
  | cons c blanks =>
    obtain ⟨blank, others⟩ := List.forall_mem_cons.mp each
    have first : ((runs Text.isBlank (c :: blanks ++ rest)).flatMap fun (blanks, rest) =>
        if blanks = [] then [] else argumentReadings rest).head? = behind blanks rest := by
      simp [behind, runs, blank, List.flatMap_map, List.flatMap_append]
    rw [first, if_neg (List.cons_ne_nil _ _), argument?_eq]
    by_cases inside : '"' ∈ unquote rest
    · rw [if_pos inside]
      exact behind_of_none others solid fun front each =>
        head?_argumentReadings_of_inside each inside
    · rw [if_neg inside]
      by_cases none : unquote rest = []
      · rw [if_neg (not_not_intro none)]
        refine behind_of_quotes others solid ?_ fun c blank =>
          head?_argumentReadings_of_blank blank none
        rw [head?_argumentReadings, if_neg fun valid => valid.1 none]
      · rw [if_pos none]
        refine behind_of_some others solid ?_
        rw [head?_argumentReadings, if_pos ⟨none, inside⟩]

end Behind

/-- The target of a line is the one that is found first. -/
theorem target?_eq_head? (line : List Char) :
    target? line = (readings (Text.trim line)).head? := by
  unfold target? readings
  dsimp only
  split
  next =>
    let rest := (Text.trim line).drop word.length
    have each : ∀ c ∈ rest.takeWhile Text.isBlank, Text.isBlank c = true :=
      fun c member => List.mem_takeWhile_imp member
    have found := head?_runs each (solid_dropWhile rest)
    rw [List.takeWhile_append_dropWhile] at found
    exact found.symm
  next => rfl

/-! ### The grammar -/

/-- A line, trimmed, is the word, blanks, and what stands behind all of them. -/
structure Parts (line blanks rest : List Char) : Prop where
  whole : Text.trim line = word ++ blanks ++ rest
  apart : blanks ≠ []
  blank : ∀ c ∈ blanks, Text.isBlank c = true
  solid : ∀ c ∈ rest.head?, Text.isBlank c = false

/-- A line that names a target behind blanks, however many these are. -/
def Directive (line target : List Char) : Prop :=
  ∃ blanks rest, Parts line blanks rest ∧ Quoted rest target

/-- A line that names nothing but has several blanks in front of its quotes. Its target is the last
of the blanks. -/
def Lapse (line target : List Char) : Prop :=
  ∃ blanks last quotes, Parts line (blanks ++ [last]) quotes ∧ blanks ≠ [] ∧ quotes ≠ [] ∧
    (∀ c ∈ quotes, c = '"') ∧ target = [last]

theorem Parts.target? {line blanks rest : List Char} (parts : Parts line blanks rest) :
    target? line = argument? blanks rest := by
  obtain ⟨taken, left⟩ := span_append parts.blank parts.solid
  have front : word.isPrefixOf (word ++ (blanks ++ rest)) = true :=
    List.isPrefixOf_iff_prefix.mpr (List.prefix_append _ _)
  unfold Include.target?
  dsimp only
  rw [parts.whole, List.append_assoc, if_pos front, List.drop_left, taken, left, if_neg parts.apart]

/-- A line with a target has these parts. -/
theorem exists_parts {line target : List Char} (found : target? line = some target) :
    ∃ blanks rest, Parts line blanks rest := by
  unfold target? at found
  dsimp only at found
  split at found
  next front =>
    obtain ⟨rest, whole⟩ := List.isPrefixOf_iff_prefix.mp front
    rw [← whole, List.drop_left] at found
    split at found
    next => cases found
    next apart =>
      refine ⟨rest.takeWhile Text.isBlank, rest.dropWhile Text.isBlank, ?_, apart, ?_, ?_⟩
      · rw [List.append_assoc, List.takeWhile_append_dropWhile, whole]
      · exact fun c member => List.mem_takeWhile_imp member
      · exact solid_dropWhile rest
  next => cases found

/-- A trimmed line does not end in a blank. -/
theorem Parts.rest_ne_nil {line blanks rest : List Char} (parts : Parts line blanks rest) :
    rest ≠ [] := by
  rintro rfl
  have last := List.getLast_mem parts.apart
  have bare := (Text.bare_trim line).2 (blanks.getLast parts.apart)
  rw [parts.whole, List.append_nil, List.getLast?_append_of_ne_nil _ parts.apart,
    List.getLast?_eq_some_getLast parts.apart] at bare
  rw [parts.blank _ last] at bare
  cases bare rfl

theorem getLast?_tail_eq_some_iff {blanks : List Char} {last : Char} :
    blanks.tail.getLast? = some last ↔ ∃ front, blanks = front ++ [last] ∧ front ≠ [] := by
  cases blanks with
  | nil => simp
  | cons c blanks =>
    rw [List.tail_cons, List.getLast?_eq_some_iff]
    constructor
    · rintro ⟨front, rfl⟩
      exact ⟨c :: front, rfl, List.cons_ne_nil _ _⟩
    · rintro ⟨front, whole, some⟩
      cases front with
      | nil => exact absurd rfl some
      | cons d front => cases whole; exact ⟨front, rfl⟩

theorem argument?_eq_some_iff {blanks rest target : List Char} :
    argument? blanks rest = some target ↔ Quoted rest target ∨
      ∃ front last, blanks = front ++ [last] ∧ front ≠ [] ∧ (∀ c ∈ rest, c = '"') ∧
        target = [last] := by
  rw [argument?_eq, quoted_iff, ← unquote_eq_nil_iff]
  by_cases none : unquote rest = []
  · rw [none, if_neg List.not_mem_nil, if_neg (not_not_intro rfl), Option.map_eq_some_iff]
    constructor
    · rintro ⟨last, found, rfl⟩
      obtain ⟨front, whole, some⟩ := getLast?_tail_eq_some_iff.mp found
      exact .inr ⟨front, last, whole, some, rfl, rfl⟩
    · rintro (⟨rfl, some, -⟩ | ⟨front, last, whole, some, -, rfl⟩)
      · exact absurd rfl some
      · exact ⟨last, getLast?_tail_eq_some_iff.mpr ⟨front, whole, some⟩, rfl⟩
  · by_cases inside : '"' ∈ unquote rest
    · rw [if_pos inside]
      constructor
      · rintro ⟨⟩
      · rintro (⟨rfl, -, free⟩ | ⟨-, -, -, -, quotes, -⟩)
        · exact absurd inside free
        · exact absurd quotes none
    · rw [if_neg inside, if_pos none, Option.some_inj]
      constructor
      · rintro rfl
        exact .inl ⟨rfl, none, inside⟩
      · rintro (⟨same, -⟩ | ⟨-, -, -, -, quotes, -⟩)
        · exact same
        · exact absurd quotes none

theorem target?_eq_some_iff {line target : List Char} :
    target? line = some target ↔ Directive line target ∨ Lapse line target := by
  constructor
  · intro found
    obtain ⟨blanks, rest, parts⟩ := exists_parts found
    rw [parts.target?, argument?_eq_some_iff] at found
    rcases found with quoted | ⟨front, last, rfl, more, quotes, rfl⟩
    · exact .inl ⟨blanks, rest, parts, quoted⟩
    · exact .inr ⟨front, last, rest, parts, more, parts.rest_ne_nil, quotes, rfl⟩
  · rintro (⟨blanks, rest, parts, quoted⟩ | ⟨blanks, last, quotes, parts, more, -, each, rfl⟩)
    · rw [parts.target?, argument?_eq_some_iff]
      exact .inl quoted
    · rw [parts.target?, argument?_eq_some_iff]
      exact .inr ⟨blanks, last, rfl, more, each, rfl⟩

/-! ### Lines in their place -/

/-- Lines read as those of a file. -/
def Source.ofLines (lines : List (List Char)) : Source where
  content := Text.unlines (lines.filter fun line => (target? line).isNone)
  targets := lines.filterMap fun line => (target? line).map Path.mk

theorem Source.ofText_of_target {text line target : List Char} {front back : List (List Char)}
    (lines : Text.lines text = front ++ line :: back) (found : target? line = some target) :
    Source.ofText text =
      { content := (ofLines (front ++ back)).content
        targets := (ofLines front).targets ++ ⟨target⟩ :: (ofLines back).targets } := by
  simp [ofText, ofLines, lines, found]

theorem Source.ofText_of_kept {text line : List Char} {front back : List (List Char)}
    (lines : Text.lines text = front ++ line :: back) (kept : target? line = none) :
    Source.ofText text =
      { content := (ofLines front).content ++ line ++ '\n' :: (ofLines back).content
        targets := (ofLines (front ++ back)).targets } := by
  simp [ofText, ofLines, lines, kept, Text.unlines]

theorem Source.content_append (front back : List (List Char)) :
    (ofLines (front ++ back)).content = (ofLines front).content ++ (ofLines back).content := by
  simp [ofLines, Text.unlines]

/-- Every line of a text is taken out and leaves its target in its place, or is kept as it is. What is
found is the first reading of the pattern. It is a target exactly if the line is a directive with this
target by the grammar, or has several blanks and then nothing but quotes, so that the last blank is
taken for the target. A line that is kept is neither. -/
theorem line_treated_iff {text line : List Char} {front back : List (List Char)}
    (lines : Text.lines text = front ++ line :: back) :
    target? line = (readings (Text.trim line)).head? ∧
    (∀ target, Source.ofText text =
        { content := (Source.ofLines (front ++ back)).content
          targets := (Source.ofLines front).targets ++ ⟨target⟩ :: (Source.ofLines back).targets } ↔
      Directive line target ∨ Lapse line target) ∧
    (Source.ofText text =
        { content := (Source.ofLines front).content ++ line ++ '\n' :: (Source.ofLines back).content
          targets := (Source.ofLines (front ++ back)).targets } ↔
      ∀ target, ¬(Directive line target ∨ Lapse line target)) := by
  have apart : (Source.ofLines front).content ++ line ++ '\n' :: (Source.ofLines back).content ≠
      (Source.ofLines (front ++ back)).content := by
    intro same
    have lengths := congrArg List.length same
    simp only [Source.content_append, List.length_append, List.length_cons] at lengths
    omega
  simp only [← target?_eq_some_iff]
  refine ⟨target?_eq_head? line, ?_⟩
  cases found : target? line with
  | none =>
    rw [Source.ofText_of_kept lines found]
    exact ⟨fun target => iff_of_false (fun same => apart (congrArg Source.content same)) (by simp),
      iff_of_true rfl (by simp)⟩
  | some target =>
    rw [Source.ofText_of_target lines found]
    refine ⟨fun other => ?_, iff_of_false (fun same => apart (congrArg Source.content same).symm) ?_⟩
    · simp
    · simp

/-- Behind one blank a pair of quotes names nothing. Behind two it names the second of them. -/
theorem line_treated_iff_quotes :
    Source.ofText "!include \"\"\nout: gen".toList = ⟨"!include \"\"\nout: gen\n".toList, []⟩ ∧
      Source.ofText "!include  \"\"\nout: gen".toList = ⟨"out: gen\n".toList, [⟨[' ']⟩]⟩ := by
  have single : Text.lines "!include \"\"\nout: gen".toList =
      [] ++ "!include \"\"".toList :: ["out: gen".toList] := by decide
  have double : Text.lines "!include  \"\"\nout: gen".toList =
      [] ++ "!include  \"\"".toList :: ["out: gen".toList] := by decide
  obtain ⟨-, -, kept⟩ := line_treated_iff single
  obtain ⟨-, taken, -⟩ := line_treated_iff double
  have blank : Text.isBlank ' ' = true := by decide
  have solid : Text.isBlank '"' = false := by decide
  have parts : Parts "!include  \"\"".toList ([' '] ++ [' ']) ['"', '"'] :=
    ⟨by decide, by simp, by simp [blank], by simp [solid]⟩
  have lapse : Lapse "!include  \"\"".toList [' '] :=
    ⟨[' '], ' ', ['"', '"'], parts, by simp, by simp, by simp, rfl⟩
  constructor
  · refine (kept.mpr fun target => ?_).trans (by decide)
    rw [← target?_eq_some_iff, show target? "!include \"\"".toList = none by decide]
    exact nofun
  · exact ((taken [' ']).mpr (.inr lapse)).trans (by decide)

end RouteForge.Include
