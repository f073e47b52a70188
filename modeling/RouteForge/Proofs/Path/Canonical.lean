import RouteForge.Proofs.Path.Meaning

/-! Cleaned texts. Cleaning is a stack of components that follows the meaning of the text, segment by
segment, and writes it out at the end. Every meaning has one such text, so two paths are cleaned to
the same text exactly when they mean the same. -/
namespace RouteForge.Path

/-! ### The stack of cleaning -/

namespace Meaning

variable {m k : Meaning}

/-- The components of a meaning, the last on top. -/
def stack (m : Meaning) : List Component :=
  m.names.reverse.map .name ++ List.replicate m.ascents .up ++ if m.absolute then [.root] else []

theorem stack_enter (m : Meaning) (name : List Char) :
    (m.enter name).stack = .name name :: m.stack := by
  rw [stack, enter, List.reverse_append]
  rfl

theorem settle_up (sound : m.Sound) : settle m.stack .up = m.ascend.stack := by
  obtain ⟨absolute, ascents, names⟩ := m
  rcases List.eq_nil_or_concat' names with rfl | ⟨front, name, rfl⟩
  · cases absolute with
    | true =>
      obtain rfl : ascents = 0 := sound.rooted rfl
      rfl
    | false =>
      have climbed : ascend ⟨false, ascents, []⟩ = ⟨false, ascents + 1, []⟩ := by simp [ascend]
      rw [climbed]
      cases ascents with
      | zero => rfl
      | succ n => simp [stack, List.replicate_succ, settle]
  · have back : ascend ⟨absolute, ascents, front ++ [name]⟩ = ⟨absolute, ascents, front⟩ := by
      simp [ascend]
    rw [back]
    simp [stack, settle]

theorem settle_segment (sound : m.Sound) {segment : List Char} (slashless : '/' ∉ segment) :
    (segment? segment).toList.foldl settle m.stack = (m.read segment).stack := by
  rw [read_eq]
  cases named : segment? segment with
  | none => rfl
  | some c =>
    have plain := plain_of_segment? slashless named
    cases c with
    | up => exact settle_up sound
    | name name => rw [stack_enter]; rfl
    | root | here => cases plain

theorem settle_segments {segments : List (List Char)} (slashless : ∀ s ∈ segments, '/' ∉ s)
    (sound : m.Sound) :
    (segments.filterMap segment?).foldl settle m.stack = (segments.foldl read m).stack := by
  induction segments generalizing m with
  | nil => rfl
  | cons segment rest ih =>
    obtain ⟨here, others⟩ := List.forall_mem_cons.mp slashless
    have split : (segment :: rest).filterMap segment? =
        (segment? segment).toList ++ rest.filterMap segment? := by
      cases named : segment? segment <;> simp [named]
    rw [split, List.foldl_append, settle_segment sound here, ih others (sound.read here)]
    rfl

end Meaning

/-- Cleaning keeps the components of the meaning on its stack. -/
theorem foldl_settle (p : Path) : p.components.foldl settle [] = p.meaning.stack := by
  have slashless := p.slashless_segments
  cases segments : p.segments with
  | nil => exact absurd segments (Text.splitOn_ne_nil '/' p.chars)
  | cons first rest =>
    have absolute := isAbsolute_iff segments
    rw [segments] at slashless
    obtain ⟨here, others⟩ := List.forall_mem_cons.mp slashless
    have whole (front : (first? first (!rest.isEmpty)).toList.foldl settle [] =
        ((Meaning.start p.isAbsolute).read first).stack) :
        p.components.foldl settle [] = p.meaning.stack := by
      rw [components, meaning, segments]
      simp only [List.foldl_append, List.foldl_cons, front]
      exact Meaning.settle_segments others ((Meaning.Sound.start _).read here)
    refine whole ?_
    by_cases empty : first = []
    · subst empty
      cases rest with
      | nil =>
        have relative : p.isAbsolute = false := by simpa using absolute
        rw [relative]
        rfl
      | cons next rest =>
        have rooted : p.isAbsolute = true := by simpa using absolute
        rw [rooted]
        rfl
    · have relative : p.isAbsolute = false := by simpa [empty] using absolute
      rw [relative]
      by_cases dot : first = ['.']
      · subst dot
        rfl
      · have named : first? first (!rest.isEmpty) = segment? first := by simp [first?, empty, dot]
        rw [named]
        exact Meaning.settle_segment (Meaning.Sound.start false) here

/-! ### The text of a meaning -/

theorem isAbsolute_of_slashless {chars : List Char} (slashless : '/' ∉ chars) :
    (Path.mk chars).isAbsolute = false := by
  cases chars with
  | nil => rfl
  | cons c chars => simpa [isAbsolute] using fun slash : c = '/' => slashless (by simp [slash])

theorem Component.Plain.chars_ne_nil {c : Component} (plain : c.Plain) : c.chars ≠ [] := by
  cases c with
  | up => simp [Component.chars]
  | name chars => exact plain.1
  | root | here => cases plain

theorem Component.Plain.slashless {c : Component} (plain : c.Plain) : '/' ∉ c.chars := by
  cases c with
  | up => simp [Component.chars]
  | name chars => exact plain.2.2.2
  | root | here => cases plain

theorem Component.Plain.open_end {c : Component} (plain : c.Plain) (front : List Char) :
    (front ++ c.chars).getLast? ≠ some '/' := by
  intro slash
  rw [List.getLast?_append_of_ne_nil _ plain.chars_ne_nil] at slash
  exact plain.slashless (List.mem_of_getLast? slash)

theorem chars_foldl_join {back : List Component} (plain : ∀ c ∈ back, c.Plain) {p : Path}
    (written : p.chars ≠ []) (open_end : p.chars.getLast? ≠ some '/') :
    (back.foldl (fun q c => q.join ⟨c.chars⟩) p).chars =
      p.chars ++ (back.map Component.chars).flatMap ('/' :: ·) := by
  induction back generalizing p with
  | nil => simp
  | cons c back ih =>
    obtain ⟨here, others⟩ := List.forall_mem_cons.mp plain
    have step : p.join ⟨c.chars⟩ = ⟨(p.chars ++ ['/']) ++ c.chars⟩ := by
      simp [join, isAbsolute_of_slashless here.slashless, written, open_end]
    rw [List.foldl_cons, step, ih others (by simp) (here.open_end _)]
    simp

theorem ofComponents_plain {back : List Component} (plain : ∀ c ∈ back, c.Plain) (some : back ≠ []) :
    ofComponents back = ⟨['/'].intercalate (back.map Component.chars)⟩ := by
  cases back with
  | nil => exact absurd rfl some
  | cons c back =>
    obtain ⟨here, others⟩ := List.forall_mem_cons.mp plain
    have front : Path.join ⟨[]⟩ ⟨c.chars⟩ = ⟨c.chars⟩ := by simp [join]
    have text := chars_foldl_join others (p := ⟨c.chars⟩) here.chars_ne_nil (here.open_end [])
    rw [ofComponents, List.foldl_cons, front, List.map_cons, Text.intercalate_cons, ← text]

theorem ofComponents_rooted {back : List Component} (plain : ∀ c ∈ back, c.Plain) :
    ofComponents (.root :: back) = ⟨'/' :: ['/'].intercalate (back.map Component.chars)⟩ := by
  have root : Path.join ⟨[]⟩ ⟨Component.root.chars⟩ = ⟨['/']⟩ := by decide
  rw [ofComponents, List.foldl_cons, root]
  cases back with
  | nil => rfl
  | cons c back =>
    obtain ⟨here, others⟩ := List.forall_mem_cons.mp plain
    have front : Path.join ⟨['/']⟩ ⟨c.chars⟩ = ⟨'/' :: c.chars⟩ := by
      simp [join, isAbsolute_of_slashless here.slashless]
    have text := chars_foldl_join others (p := ⟨'/' :: c.chars⟩) (by simp) (here.open_end ['/'])
    rw [List.foldl_cons, front, List.map_cons, Text.intercalate_cons, ← List.cons_append, ← text]

namespace Meaning

variable {m k : Meaning}

/-- The segments of the text of a meaning. -/
def spelling (m : Meaning) : List (List Char) := List.replicate m.ascents ['.', '.'] ++ m.names

/-- The components of a meaning behind the root. -/
def back (m : Meaning) : List Component :=
  List.replicate m.ascents .up ++ m.names.map .name

theorem map_chars_back (m : Meaning) : m.back.map Component.chars = m.spelling := by
  simp [back, spelling, Component.chars, Function.comp_def]

theorem Sound.back (sound : m.Sound) : ∀ c ∈ m.back, c.Plain := by
  intro c member
  rcases List.mem_append.mp member with member | member
  · rw [List.eq_of_mem_replicate member]
    trivial
  · obtain ⟨name, inside, rfl⟩ := List.mem_map.mp member
    exact sound.proper name inside

theorem Sound.slashless (sound : m.Sound) : ∀ part ∈ m.spelling, '/' ∉ part := by
  intro part member
  rw [← map_chars_back] at member
  obtain ⟨c, inside, rfl⟩ := List.mem_map.mp member
  exact (sound.back c inside).slashless

theorem reverse_stack (m : Meaning) :
    m.stack.reverse = (if m.absolute then [.root] else []) ++ m.back := by
  unfold stack back
  split <;> simp

theorem path_absolute (sound : m.Sound) (absolute : m.absolute = true) :
    m.path = ⟨'/' :: ['/'].intercalate m.spelling⟩ := by
  rw [path, if_pos absolute, spelling, sound.rooted absolute]
  rfl

theorem path_relative (relative : m.absolute = false) :
    m.path = if m.spelling = [] then ⟨['.']⟩ else ⟨['/'].intercalate m.spelling⟩ := by
  simp [path, relative, spelling]

end Meaning

/-- Cleaning writes the meaning out. -/
theorem clean_eq_path (p : Path) : p.clean = p.meaning.path := by
  have sound := p.meaning_sound
  have reversed := p.meaning.reverse_stack
  have spelled := p.meaning.map_chars_back
  rw [clean, foldl_settle]
  cases absolute : p.meaning.absolute with
  | true =>
    rw [absolute, if_pos rfl, List.singleton_append] at reversed
    rw [Meaning.path_absolute sound absolute, ← spelled, ← ofComponents_rooted sound.back, ← reversed]
    cases stack : p.meaning.stack with
    | nil => rw [stack] at reversed; cases reversed
    | cons top below => rfl
  | false =>
    rw [absolute, if_neg Bool.false_ne_true, List.nil_append] at reversed
    rw [Meaning.path_relative absolute, ← spelled]
    cases stack : p.meaning.stack with
    | nil =>
      rw [stack] at reversed
      simp [← reversed]
    | cons top below =>
      have some : p.meaning.back ≠ [] := by simp [← reversed, stack]
      rw [if_neg (by simpa using some), ← ofComponents_plain sound.back some, ← reversed, stack]

namespace Meaning

variable {m k : Meaning}

theorem foldl_read_names {names : List (List Char)}
    (proper : ∀ name ∈ names, Proper name) (m : Meaning) :
    names.foldl read m = { m with names := m.names ++ names } := by
  induction names generalizing m with
  | nil => simp
  | cons name rest ih =>
    obtain ⟨here, others⟩ := List.forall_mem_cons.mp proper
    rw [List.foldl_cons, read_name here, ih others]
    simp [enter]

theorem foldl_read_ups (n : Nat) (m : Meaning) :
    (List.replicate n ['.', '.']).foldl read m = ascend^[n] m := by
  induction n generalizing m with
  | zero => rfl
  | succ n ih => rw [List.replicate_succ, List.foldl_cons, read_up, ih, Function.iterate_succ_apply]

theorem foldl_read_spelling (sound : m.Sound) :
    m.spelling.foldl read (start m.absolute) = m := by
  rw [spelling, List.foldl_append, foldl_read_ups, foldl_read_names sound.proper]
  obtain ⟨absolute, ascents, names⟩ := m
  cases absolute with
  | true =>
    obtain rfl : ascents = 0 := sound.rooted rfl
    rfl
  | false =>
    rw [start, iterate_ascend]
    simp

theorem Sound.head_ne_nil (sound : m.Sound) {first : List Char} {rest : List (List Char)}
    (spelled : m.spelling = first :: rest) : first ≠ [] := by
  have member : first ∈ m.back.map Component.chars := by
    rw [map_chars_back, spelled]
    exact List.mem_cons_self
  obtain ⟨c, inside, rfl⟩ := List.mem_map.mp member
  exact (sound.back c inside).chars_ne_nil

/-- The text of a meaning has this meaning. -/
theorem meaning_path (sound : m.Sound) : m.path.meaning = m := by
  have whole := foldl_read_spelling sound
  have split (some : m.spelling ≠ []) := Text.splitOn_intercalate some sound.slashless
  cases absolute : m.absolute with
  | true =>
    have front : Path.segments ⟨'/' :: ['/'].intercalate m.spelling⟩ =
        [] :: Text.splitOn '/' (['/'].intercalate m.spelling) := by
      simp [Path.segments, Text.splitOn]
    rw [absolute] at whole
    rw [path_absolute sound absolute, meaning, front, List.foldl_cons, read_nil]
    by_cases bare : m.spelling = []
    · rw [bare] at whole ⊢
      exact whole
    · rw [split bare]
      exact whole
  | false =>
    rw [absolute] at whole
    rw [path_relative absolute]
    cases spelled : m.spelling with
    | nil =>
      rw [spelled] at whole
      rw [if_pos rfl, ← whole]
      decide
    | cons first rest =>
      rw [spelled] at split whole
      have segments : Path.segments ⟨['/'].intercalate (first :: rest)⟩ = first :: rest :=
        split (List.cons_ne_nil _ _)
      have relative : Path.isAbsolute ⟨['/'].intercalate (first :: rest)⟩ = false := by
        have named := sound.head_ne_nil spelled
        simpa [named] using isAbsolute_iff segments
      rw [if_neg (List.cons_ne_nil _ _), meaning, segments, relative, whole]

end Meaning

theorem meaning_clean (p : Path) : p.clean.meaning = p.meaning := by
  rw [clean_eq_path, Meaning.meaning_path p.meaning_sound]

theorem clean_eq_clean_iff {p q : Path} : p.clean = q.clean ↔ p.meaning = q.meaning := by
  constructor
  · intro same
    rw [← meaning_clean p, same, meaning_clean q]
  · intro same
    rw [clean_eq_path p, same, ← clean_eq_path q]

theorem clean_clean (p : Path) : p.clean.clean = p.clean :=
  clean_eq_clean_iff.mpr (meaning_clean p)

/-- Two cleaned paths that compare as the same are one text. -/
theorem same_clean_iff (p q : Path) : p.clean.same q.clean = true ↔ p.clean = q.clean := by
  constructor
  · intro same
    have components : p.clean.components = q.clean.components := by simpa [Path.same] using same
    -- Cleaning looks at the components only.
    have again : p.clean.clean = q.clean.clean := by rw [clean, components, ← clean]
    rwa [clean_clean, clean_clean] at again
  · intro eq
    simp [Path.same, eq]

/-- The texts that cleaning gives: a dot, ascents before names, or names behind the root. -/
def Canonical (p : Path) : Prop :=
  p.chars = ['.'] ∨
  (∃ n names, List.replicate n ['.', '.'] ++ names ≠ [] ∧
    (∀ name ∈ names, Proper name) ∧
    p.chars = ['/'].intercalate (List.replicate n ['.', '.'] ++ names)) ∨
  ∃ names, (∀ name ∈ names, Proper name) ∧ p.chars = '/' :: ['/'].intercalate names

theorem Meaning.Sound.canonical {m : Meaning} (sound : m.Sound) : Canonical m.path := by
  cases absolute : m.absolute with
  | true => exact .inr (.inr ⟨m.names, sound.proper, by rw [path, if_pos absolute]⟩)
  | false =>
    rw [path_relative absolute]
    split
    next => exact .inl rfl
    next some => exact .inr (.inl ⟨m.ascents, m.names, some, sound.proper, rfl⟩)

/-- Cleaned paths are canonical. Cleaning again changes nothing, two paths are cleaned to the same
text, and compare as the same once they are cleaned, exactly when they mean the same, and it does not
matter whether a base and a target are cleaned before they are joined. -/
theorem clean_canonical :
    (∀ p : Path, p.clean.clean = p.clean ∧ Canonical p.clean) ∧
    (∀ p q : Path, (p.clean = q.clean ↔ p.meaning = q.meaning) ∧
      (p.clean.same q.clean = true ↔ p.meaning = q.meaning)) ∧
    ∀ base target : Path, (base.join target).clean = (base.clean.join target.clean).clean := by
  refine ⟨fun p => ⟨clean_clean p, ?_⟩, fun p q => ⟨clean_eq_clean_iff, ?_⟩, fun base target => ?_⟩
  · rw [clean_eq_path]
    exact p.meaning_sound.canonical
  · rw [same_clean_iff, clean_eq_clean_iff]
  · rw [clean_eq_clean_iff, meaning_join, meaning_join, meaning_clean, meaning_clean]

end RouteForge.Path
