import RouteForge.Include.Directive
import RouteForge.Proofs.Text.Lines
import RouteForge.Proofs.Text.Trim
import RouteForge.Proofs.Yaml.Printable

/-! The lines of a written text. A line starts with an indicator, a quote or a plain key, or it is a
line of a literal block, so it reads as a directive only if a line of some text does. -/
namespace RouteForge.Yaml.Writer

open Include (word target?)
open Text (trimStart unlines splitOn)

variable {cs front line : List Char} {c : Char} {n : Nat}

/-! ### Quiet lines -/

/-- Behind its blanks the line does not start with the word of a directive. -/
def Quiet (line : List Char) : Prop := ¬ word <+: trimStart line

instance (line : List Char) : Decidable (Quiet line) := inferInstanceAs (Decidable (¬ _))

theorem target?_of_quiet (quiet : Quiet line) : target? line = none := by
  have other : word.isPrefixOf (Text.trim line) = false := by
    rw [Bool.eq_false_iff, ne_eq, List.isPrefixOf_iff_prefix]
    intro starts
    exact quiet (starts.trans (List.rdropWhile_prefix Text.isBlank _))
  unfold target?
  simp [other]

theorem quiet_spaces (quiet : Quiet line) : Quiet (spaces n ++ line) := by
  have blank : (spaces n).dropWhile Text.isBlank = [] := by
    simp [spaces, Text.isBlank_space]
  unfold Quiet trimStart at *
  rwa [List.dropWhile_append, blank]

theorem quiet_of_solid (solid : Text.isBlank c = false) (other : c ≠ '!') : Quiet (c :: line) := by
  unfold Quiet trimStart
  rw [List.dropWhile_cons_of_neg (by simp [solid])]
  intro starts
  exact other (List.cons_prefix_cons.mp starts).1.symm

/-- What goes on with a character that the word has not keeps a line quiet. -/
theorem Quiet.append (quiet : Quiet front) (behind : Quiet line)
    (apart : ∀ c ∈ line.head?, c ∉ word) : Quiet (front ++ line) := by
  unfold Quiet trimStart at *
  rw [List.dropWhile_append]
  split
  · exact behind
  · intro starts
    rcases List.prefix_or_prefix_of_prefix starts (List.prefix_append _ _) with inside | ⟨more, whole⟩
    · exact quiet inside
    · rw [← whole, List.prefix_append_right_inj] at starts
      cases more with
      | nil =>
        rw [List.append_nil] at whole
        exact quiet (whole ▸ List.prefix_refl _)
      | cons d more =>
        obtain ⟨rest, rfl⟩ := starts
        exact apart d rfl (whole ▸ List.mem_append_right _ List.mem_cons_self)

/-- A key stays quiet in front of its colon. -/
theorem Quiet.colon (quiet : Quiet front) (n : Nat) (rest : List Char) :
    Quiet (front ++ (spaces n ++ ':' :: rest)) := by
  refine quiet.append (quiet_spaces (quiet_of_solid (by decide) (by decide))) fun c first => ?_
  cases n with
  | zero =>
    cases first
    decide
  | succ n =>
    cases first
    decide

/-! ### Rows of lines -/

/-- Whole lines, all of them quiet. -/
def Rows (cs : List Char) : Prop :=
  ∃ ls, cs = unlines ls ∧ ∀ line ∈ ls, '\n' ∉ line ∧ Quiet line

/-- The rest of a line, and whole lines behind it. -/
def Tail (cs : List Char) : Prop :=
  ∃ first rest, cs = first ++ '\n' :: rest ∧ '\n' ∉ first ∧ Rows rest

/-- The start of a line that is quiet however it goes on. -/
def Lead (front : List Char) : Prop := '\n' ∉ front ∧ ∀ rest, Quiet (front ++ rest)

theorem Rows.append {ds : List Char} (above : Rows cs) (below : Rows ds) : Rows (cs ++ ds) := by
  obtain ⟨ls, rfl, quiet⟩ := above
  obtain ⟨ms, rfl, calm⟩ := below
  exact ⟨ls ++ ms, (Text.unlines_append ls ms).symm, List.forall_mem_append.mpr ⟨quiet, calm⟩⟩

theorem Tail.append {ds : List Char} (above : Tail cs) (below : Rows ds) : Tail (cs ++ ds) := by
  obtain ⟨first, rest, rfl, whole, rows⟩ := above
  exact ⟨first, rest ++ ds, by simp, whole, rows.append below⟩

theorem Tail.behind (tail : Tail cs) (front : List Char) (unbroken : '\n' ∉ front) :
    Tail (front ++ cs) := by
  obtain ⟨first, rest, rfl, whole, rows⟩ := tail
  exact ⟨front ++ first, rest, by simp, by simp [unbroken, whole], rows⟩

theorem Tail.rows (tail : Tail cs) (lead : Lead front) : Rows (front ++ cs) := by
  obtain ⟨first, rest, rfl, whole, ls, rfl, quiet⟩ := tail
  refine ⟨(front ++ first) :: ls, by simp [Text.unlines_cons], List.forall_mem_cons.mpr ⟨?_, quiet⟩⟩
  exact ⟨by simp [lead.1, whole], lead.2 first⟩

theorem Rows.tail (rows : Rows cs) (some : cs ≠ []) : Tail cs := by
  obtain ⟨ls, rfl, quiet⟩ := rows
  cases ls with
  | nil => exact absurd rfl some
  | cons line rest =>
    obtain ⟨⟨whole, -⟩, others⟩ := List.forall_mem_cons.mp quiet
    exact ⟨line, unlines rest, Text.unlines_cons line rest, whole, rest, rfl, others⟩

theorem Rows.indented (rows : Rows cs) (some : cs ≠ []) : Rows (spaces n ++ cs) := by
  obtain ⟨ls, rfl, quiet⟩ := rows
  cases ls with
  | nil => exact absurd rfl some
  | cons line rest =>
    obtain ⟨⟨whole, calm⟩, others⟩ := List.forall_mem_cons.mp quiet
    refine ⟨(spaces n ++ line) :: rest, by simp [Text.unlines_cons], ?_⟩
    refine List.forall_mem_cons.mpr ⟨⟨?_, quiet_spaces calm⟩, others⟩
    simp [whole, spaces]

/-- Whole quiet lines, and the beginning of another one. -/
def Begun (cs : List Char) : Prop :=
  ∃ above line, cs = above ++ line ∧ Rows above ∧ '\n' ∉ line ∧ Quiet line

theorem Rows.begun (rows : Rows cs) : Begun cs :=
  ⟨cs, [], (List.append_nil cs).symm, rows, nofun, by decide⟩

theorem Rows.append_begun {ds : List Char} (rows : Rows cs) (begun : Begun ds) :
    Begun (cs ++ ds) := by
  obtain ⟨above, line, rfl, below, whole, quiet⟩ := begun
  exact ⟨cs ++ above, line, (List.append_assoc ..).symm, rows.append below, whole, quiet⟩

theorem Rows.of_line (whole : '\n' ∉ line) (quiet : Quiet line) : Rows (line ++ ['\n']) :=
  ⟨[line], by simp [unlines], List.forall_mem_singleton.mpr ⟨whole, quiet⟩⟩

theorem Begun.ended (begun : Begun cs) : Rows (cs ++ ['\n']) := by
  obtain ⟨above, line, rfl, rows, whole, quiet⟩ := begun
  rw [List.append_assoc]
  exact rows.append (.of_line whole quiet)

/-- The line that has begun may go on with a colon. -/
theorem Begun.colon {ds : List Char} (begun : Begun cs) (tail : Tail ds) (n : Nat) :
    Rows (cs ++ (spaces n ++ ':' :: ds)) := by
  obtain ⟨above, line, rfl, rows, whole, quiet⟩ := begun
  have lead : Lead (line ++ spaces n ++ [':']) := by
    refine ⟨by simp [whole, spaces], fun rest => ?_⟩
    simpa using quiet.colon n rest
  simpa using rows.append (tail.rows lead)

theorem lead_of_solid (solid : Text.isBlank c = false) (other : c ≠ '!')
    (unbroken : '\n' ∉ front) : Lead (c :: front) := by
  refine ⟨?_, fun rest => quiet_of_solid solid other⟩
  rintro (_ | ⟨_, member⟩)
  · cases solid
  · exact unbroken member

/-! ### Texts -/

/-- No line of a text starts with the word of a directive. -/
def Hushed (s : String) : Prop := ∀ line ∈ splitOn '\n' s.toList, Quiet line

/-- No line of a text starts with the word of a directive, and a text of several lines ends in no
break but a line feed. -/
structure Calm (s : String) : Prop where
  hushed : Hushed s
  ends : '\n' ∈ s.toList → ∀ c ∈ s.toList.getLast?, isBreak c = true → c = '\n'

theorem isBlank_of_isBreak (broken : isBreak c = true) : Text.isBlank c = true := by
  simp only [isBreak, Bool.or_eq_true, beq_iff_eq] at broken
  rcases broken with (((rfl | rfl) | rfl) | rfl) | rfl <;> decide

/-- Indenting the lines of a text does not bring about a word without breaks. -/
theorem prefix_of_indentLines {w : List Char} (unbroken : ∀ c ∈ w, isBreak c = false)
    (starts : w <+: indentLines n false cs) : w <+: cs := by
  induction w generalizing cs with
  | nil => exact List.nil_prefix
  | cons d w ih =>
    obtain ⟨solid, others⟩ := List.forall_mem_cons.mp unbroken
    cases cs with
    | nil => exact starts
    | cons c cs =>
      by_cases broken : isBreak c = true
      · rw [indentLines, if_pos broken] at starts
        obtain rfl := (List.cons_prefix_cons.mp starts).1
        rw [broken] at solid
        cases solid
      · rw [indentLines, if_neg broken] at starts
        obtain ⟨same, behind⟩ := List.cons_prefix_cons.mp starts
        exact List.cons_prefix_cons.mpr ⟨same, ih others behind⟩

theorem quiet_indentLines (fresh : Bool) (quiet : Quiet cs) : Quiet (indentLines n fresh cs) := by
  have unbroken : ∀ c ∈ word.tail, isBreak c = false := by
    have every : word.tail.all (fun c => !isBreak c) = true := by decide
    simpa using List.all_eq_true.mp every
  induction cs generalizing fresh with
  | nil => exact quiet
  | cons c cs ih =>
    have skip {rest : List Char} (blank : Text.isBlank c = true) :
        Quiet (c :: rest) ↔ Quiet rest := by
      simp [Quiet, trimStart, blank]
    unfold indentLines
    split
    next broken =>
      have blank := isBlank_of_isBreak broken
      exact (skip blank).mpr (ih true ((skip blank).mp quiet))
    next =>
      have inner : Quiet (c :: indentLines n false cs) := by
        by_cases blank : Text.isBlank c = true
        · exact (skip blank).mpr (ih false ((skip blank).mp quiet))
        · unfold Quiet trimStart at *
          rw [List.dropWhile_cons_of_neg blank] at quiet ⊢
          intro starts
          obtain ⟨same, behind⟩ := List.cons_prefix_cons.mp starts
          exact quiet (List.cons_prefix_cons.mpr ⟨same, prefix_of_indentLines unbroken behind⟩)
      split
      · exact quiet_spaces inner
      · exact inner

theorem indentLines_append (fresh : Bool) (xs ys : List Char) :
    indentLines n fresh (xs ++ '\n' :: ys) =
      indentLines n fresh xs ++ '\n' :: indentLines n true ys := by
  induction xs generalizing fresh with
  | nil => rfl
  | cons x xs ih =>
    simp only [List.cons_append, indentLines, ih]
    split <;> simp

theorem not_mem_indentLines (unbroken : '\n' ∉ cs) (fresh : Bool) :
    '\n' ∉ indentLines n fresh cs := by
  intro member
  rcases mem_indentLines member with inside | space
  · exact unbroken inside
  · cases space

/-- The lines of an indented text, the last of them without its end. -/
theorem begun_indentLines (cs : List Char) (quiet : ∀ line ∈ splitOn '\n' cs, Quiet line) :
    Begun (indentLines n true cs) := by
  rcases Text.exists_first_line cs with ⟨line, rest, unbroken, rfl⟩ | unbroken
  · rw [Text.splitOn_append_separator, Text.splitOn_of_not_mem unbroken] at quiet
    obtain ⟨first, others⟩ := List.forall_mem_cons.mp quiet
    have above : Rows (indentLines n true line ++ ['\n']) :=
      .of_line (not_mem_indentLines unbroken true) (quiet_indentLines true first)
    have whole := above.append_begun (begun_indentLines rest others)
    rwa [List.append_assoc, List.singleton_append, ← indentLines_append] at whole
  · rw [Text.splitOn_of_not_mem unbroken] at quiet
    exact ⟨[], _, rfl, ⟨[], rfl, nofun⟩, not_mem_indentLines unbroken true,
      quiet_indentLines true (quiet cs List.mem_cons_self)⟩
termination_by cs.length

theorem getLast?_indentLines (fresh : Bool) (cs : List Char) :
    (indentLines n fresh cs).getLast? = cs.getLast? := by
  rcases List.eq_nil_or_concat' cs with rfl | ⟨front, last, rfl⟩
  · rfl
  · induction front generalizing fresh with
    | nil =>
      simp only [List.nil_append, indentLines]
      split
      · rfl
      · simp
    | cons c front ih =>
      have later (f : Bool) : (indentLines n f (front ++ [last])).getLast? = some last := by
        rw [ih f]
        simp
      simp only [List.cons_append, indentLines]
      split <;> simp [List.getLast?_append, List.getLast?_cons, later]

theorem getLast?_singleChars (fresh : Bool) (cs : List Char) :
    (singleChars n fresh cs).getLast? = some '\'' := by
  induction cs generalizing fresh with
  | nil => simp [singleChars]
  | cons c cs ih =>
    unfold singleChars
    split <;> simp [List.getLast?_append, List.getLast?_cons, ih]

theorem not_mem_of_isInline (each : ∀ c ∈ cs, isInline c = true) : '\n' ∉ cs :=
  fun member => absurd (each _ member) (by decide)

theorem not_mem_single (unbroken : '\n' ∉ cs) : '\n' ∉ single n cs := by
  rintro (_ | ⟨_, member⟩)
  rcases mem_singleChars member with inside | other | other
  · exact unbroken inside
  · cases other
  · cases other

theorem unbroken_of_plain (held : (traits cs).plain = true) : ∀ c ∈ cs, isBreak c = false := by
  cases cs with
  | nil => exact nofun
  | cons c cs =>
    intro d member
    cases broken : isBreak d with
    | false => rfl
    | true =>
      have multiline : (c :: cs).any isBreak = true := List.any_eq_true.mpr ⟨d, member, broken⟩
      simp [traits, multiline] at held

theorem tail_endLine (unbroken : '\n' ∉ cs) (ends : ∀ c ∈ cs.getLast?, isBreak c = false) :
    Tail (endLine cs) := by
  have unended : cs.getLast?.any isBreak = false := by
    cases last : cs.getLast? with
    | none => rfl
    | some c => exact ends c last
  unfold endLine
  rw [unended]
  exact ⟨cs, [], rfl, unbroken, [], rfl, nofun⟩

theorem not_mem_literalStart (cs : List Char) : '\n' ∉ '|' :: literalHints cs := by
  rintro (_ | ⟨_, member⟩)
  exact not_mem_of_isInline (isInline_of_mem_literalHints _) member

theorem getLast?_literal (some : cs ≠ []) : (literal n cs).getLast? = cs.getLast? := by
  unfold literal
  rw [List.getLast?_append, List.getLast?_cons, getLast?_indentLines]
  obtain ⟨front, last, rfl⟩ := (List.eq_nil_or_concat' cs).resolve_left some
  simp

theorem tail_literal {s : String} (hushed : Hushed s) (broken : '\n' ∈ s.toList)
    (ends : ∀ c ∈ s.toList.getLast?, isBreak c = true → c = '\n') :
    Tail (endLine (literal n s.toList)) := by
  have start := not_mem_literalStart s.toList
  have some : s.toList ≠ [] := List.ne_nil_of_mem broken
  obtain ⟨front, last, whole⟩ := (List.eq_nil_or_concat' s.toList).resolve_left some
  have last? : (literal n s.toList).getLast? = .some last := by
    rw [getLast?_literal some, whole]
    simp
  unfold endLine
  rw [last?]
  by_cases feed : last = '\n'
  · subst feed
    have quiet : ∀ line ∈ splitOn '\n' front, Quiet line := by
      intro line member
      refine hushed line ?_
      rw [whole, Text.splitOn_append_separator]
      exact List.mem_append_left _ member
    refine ⟨_, indentLines n true front ++ ['\n'], ?_, start, (begun_indentLines front quiet).ended⟩
    rw [literal, whole, indentLines_append]
    rfl
  · have solid : isBreak last = false := by
      cases kind : isBreak last with
      | false => rfl
      | true => exact absurd (ends last (by simp [whole]) kind) feed
    refine ⟨_, indentLines n true s.toList ++ ['\n'], ?_, start,
      (begun_indentLines _ hushed).ended⟩
    simp [solid, literal]

/-- A block that ends in a break of its own is not ended once more. -/
theorem begun_literal {s : String} (hushed : Hushed s) (broken : '\n' ∈ s.toList)
    (lead : Lead front) : Begun (front ++ endLine (literal n s.toList)) := by
  by_cases ends : ∀ c ∈ s.toList.getLast?, isBreak c = true → c = '\n'
  · exact ((tail_literal hushed broken ends).rows lead).begun
  · obtain ⟨last, last?, other⟩ : ∃ c ∈ s.toList.getLast?, isBreak c = true := by
      by_contra none
      exact ends fun c last? other => absurd ⟨c, last?, other⟩ none
    have same : endLine (literal n s.toList) = literal n s.toList := by
      unfold endLine
      rw [getLast?_literal (List.ne_nil_of_mem broken), last?]
      exact if_pos other
    have above : Rows (front ++ ('|' :: literalHints s.toList) ++ ['\n']) := by
      refine .of_line ?_ (lead.2 _)
      exact fun member => (List.mem_append.mp member).elim lead.1 (not_mem_literalStart _)
    have whole := above.append_begun (begun_indentLines (n := n) _ hushed)
    rw [same, literal]
    simpa using whole

/-- A text that is no block takes the rest of its line. -/
theorem tail_or_literal (n : Nat) (s : String) : Tail (endLine (text n false s)) ∨
    '\n' ∈ s.toList ∧ text n false s = literal n s.toList := by
  have styled := text_styled n false s
  generalize text n false s = written at styled
  cases styled with
  | plain unbroken held =>
    exact .inl (tail_endLine unbroken fun c last =>
      unbroken_of_plain held c (List.mem_of_getLast? last))
  | single unbroken =>
    refine .inl (tail_endLine (not_mem_single unbroken) ?_)
    intro c last
    rw [single, List.getLast?_cons, getLast?_singleChars] at last
    cases last
    decide
  | double =>
    refine .inl (tail_endLine (not_mem_of_isInline (isInline_of_mem_double _)) ?_)
    intro c last
    rw [double, List.getLast?_append] at last
    cases last
    decide
  | literal broken => exact .inr ⟨broken, rfl⟩

theorem tail_text {s : String} (calm : Calm s) : Tail (endLine (text n false s)) := by
  rcases tail_or_literal n s with tail | ⟨broken, same⟩
  · exact tail
  · rw [same]
    exact tail_literal calm.hushed broken (calm.ends broken)

theorem begun_text {s : String} (hushed : Hushed s) (lead : Lead front) :
    Begun (front ++ endLine (text n false s)) := by
  rcases tail_or_literal n s with tail | ⟨broken, same⟩
  · exact (tail.rows lead).begun
  · rw [same]
    exact begun_literal hushed broken lead

/-! ### Values -/

theorem lead_quoted (solid : Text.isBlank c = false) (other : c ≠ '!') (unbroken : '\n' ∉ c :: cs) :
    Lead (c :: cs ++ [':']) := by
  refine lead_of_solid solid other fun member => ?_
  rcases List.mem_append.mp member with member | colon
  · exact unbroken (List.mem_cons_of_mem c member)
  · cases List.mem_singleton.mp colon

theorem lead_text {s : String} (hushed : Hushed s) : Lead (text n true s ++ [':']) := by
  have styled := text_styled n true s
  generalize text n true s = written at styled
  cases styled with
  | plain unbroken =>
    have quiet : Quiet s.toList := hushed _ (by
      rw [Text.splitOn_of_not_mem unbroken]
      exact List.mem_cons_self)
    refine ⟨by simp [unbroken], fun rest => ?_⟩
    rw [List.append_assoc]
    exact quiet.colon 0 rest
  | single unbroken => exact lead_quoted (by decide) (by decide) (not_mem_single unbroken)
  | double =>
    exact lead_quoted (by decide) (by decide) (not_mem_of_isInline (isInline_of_mem_double s.toList))
  | literal _ block => cases block

/-- What a word that stands for itself is made of. -/
def isWordly (c : Char) : Bool := isInline c && !isBreak c

/-- A scalar without a text is numerals or a word, or takes no room. -/
theorem atom_cases (v : Value) : (∃ s, v = .string s) ∨
    ∀ c ∈ (atom? n false v).getD [], isWordly c = true := by
  have words : ∀ w ∈ ["0123456789-.efain", "null", "true", "false", "[]", "\x7b\x7d"],
      ∀ c ∈ w.toList, isWordly c = true := by
    simp only [← List.all_eq_true]
    decide +kernel
  cases v with
  | string s => exact .inl ⟨s, rfl⟩
  | null => exact .inr (words "null" (by simp))
  | bool b =>
    cases b with
    | true => exact .inr (words "true" (by simp))
    | false => exact .inr (words "false" (by simp))
  | number x =>
    exact .inr fun c member => words _ List.mem_cons_self c
      (List.contains_iff_mem.mp (x.isNumeral_of_mem_text c member))
  | sequence items =>
    cases items with
    | nil => exact .inr (words "[]" (by simp))
    | cons => exact .inr nofun
  | mapping entries =>
    cases entries with
    | nil => exact .inr (words "\x7b\x7d" (by simp))
    | cons => exact .inr nofun
  | tagged => exact .inr nofun

theorem tail_atom {K : String → Prop} {v : Value} (held : Texts K Calm v) :
    Tail (endLine ((atom? n false v).getD [])) := by
  rcases atom_cases (n := n) v with ⟨s, rfl⟩ | plain
  · exact tail_text held
  · simp only [isWordly, Bool.and_eq_true, Bool.not_eq_true'] at plain
    exact tail_endLine (not_mem_of_isInline fun c member => (plain c member).1)
      fun c last => (plain c (List.mem_of_getLast? last)).2

theorem items_ne_nil (x : Value) (xs : List Value) : items n (x :: xs) ≠ [] := by
  cases xs <;> exact List.cons_ne_nil _ _

theorem entry_ne_nil (e : Value × Value) : entry n e ≠ [] := by
  obtain ⟨k, v⟩ := e
  unfold entry
  split <;> simp

theorem entries_ne_nil (e : Value × Value) (es : List (Value × Value)) :
    entries n (e :: es) ≠ [] := by
  cases es with
  | nil => exact entry_ne_nil e
  | cons =>
    unfold entries
    simp [entry_ne_nil]

theorem lead_indicator (solid : Text.isBlank c = false) (other : c ≠ '!') : Lead [c] :=
  lead_of_solid solid other nofun

mutual

theorem tail_inline : ∀ (indent : Nat) {v : Value}, Texts Hushed Calm v → Tail (inline indent v)
  | indent, .sequence (x :: xs), held =>
    ((rows_items (indent + 2) (x :: xs) held).tail (items_ne_nil x xs)).behind
      [' '] (by decide)
  | indent, .mapping (e :: es), held =>
    ((rows_entries (indent + 2) (e :: es) held).tail (entries_ne_nil e es)).behind
      [' '] (by decide)
  | indent, .sequence [], held | indent, .mapping [], held | indent, .null, held
  | indent, .bool _, held | indent, .number _, held | indent, .string _, held =>
    (tail_atom (n := indent + 2) held).behind [' '] (by decide)

theorem tail_under : ∀ (forItems forEntries : Nat) {v : Value}, Texts Hushed Calm v →
    Tail (under forItems forEntries v)
  | forItems, _, .sequence (x :: xs), held =>
    ⟨[], _, rfl, nofun, (rows_items forItems (x :: xs) held).indented (items_ne_nil x xs)⟩
  | _, forEntries, .mapping (e :: es), held =>
    ⟨[], _, rfl, nofun,
      (rows_entries forEntries (e :: es) held).indented (entries_ne_nil e es)⟩
  | _, forEntries, .sequence [], held | _, forEntries, .mapping [], held
  | _, forEntries, .null, held | _, forEntries, .bool _, held | _, forEntries, .number _, held
  | _, forEntries, .string _, held =>
    (tail_atom (n := forEntries) held).behind [' '] (by decide)

theorem rows_items : ∀ (indent : Nat) (xs : List Value), ItemTexts Hushed Calm xs →
    Rows (items indent xs)
  | _, [], _ => ⟨[], rfl, nofun⟩
  | indent, [x], held =>
    (tail_inline indent held.1).rows (lead_indicator (c := '-') (by decide) (by decide))
  | indent, x :: y :: ys, held => by
    have first : Rows (['-'] ++ inline indent x) :=
      (tail_inline indent held.1).rows (lead_indicator (by decide) (by decide))
    have others : Rows (spaces indent ++ items indent (y :: ys)) :=
      (rows_items indent (y :: ys) held.2).indented (items_ne_nil y ys)
    have whole := first.append others
    rw [← List.append_assoc] at whole
    exact whole

theorem rows_entries : ∀ (indent : Nat) (es : List (Value × Value)), EntriesTexts Hushed Calm es →
    Rows (entries indent es)
  | _, [], _ => ⟨[], rfl, nofun⟩
  | indent, [_], held => rows_entry indent held.1
  | indent, e :: f :: fs, held => by
    have others : Rows (spaces indent ++ entries indent (f :: fs)) :=
      (rows_entries indent (f :: fs) held.2).indented (entries_ne_nil f fs)
    have whole := (rows_entry indent held.1).append others
    rw [← List.append_assoc] at whole
    exact whole

theorem rows_entry : ∀ (indent : Nat) {e : Value × Value}, EntryTexts Hushed Calm e →
    Rows (entry indent e)
  | indent, (k, v), held => by
    obtain ⟨⟨s, rfl, hushed⟩, below⟩ := held
    unfold entry
    split
    · have whole := (tail_under indent (indent + 2) below).rows (lead_text (n := indent + 2) hushed)
      rw [List.append_assoc] at whole
      exact whole
    · have key : Begun (['?', ' '] ++ endLine (text (indent + 2) false s)) :=
        begun_text hushed (lead_of_solid (by decide) (by decide) (by decide))
      have whole := key.colon (tail_inline indent below) indent
      rw [← List.append_assoc] at whole
      exact whole

end

/-- What is written for a mapping is made of quiet lines, if its keys are hushed and its texts calm. -/
theorem rows_write {es : List (Value × Value)} (held : EntriesTexts Hushed Calm es) :
    Rows (write (.mapping es)).toList := by
  cases es with
  | nil =>
    have braces : Lead ['{', '}'] := lead_of_solid (by decide) (by decide) (by decide)
    exact ⟨[['{', '}']], by decide +kernel, List.forall_mem_singleton.mpr
      ⟨braces.1, by simpa using braces.2 []⟩⟩
  | cons e es =>
    simp only [write, String.toList_ofList]
    exact rows_entries 0 _ held

end RouteForge.Yaml.Writer
