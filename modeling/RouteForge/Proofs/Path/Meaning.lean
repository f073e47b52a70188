import Mathlib.Data.List.Induction
import Mathlib.Logic.Function.Iterate
import RouteForge.Path
import RouteForge.Proofs.Text.Trim

/-! What a path means, read off its text alone: it starts at the root or not, climbs some
directories, and goes down along names. A path that is joined to another one goes on from there. -/
namespace RouteForge.Path

/-- A segment that is a name and reads as itself. -/
def Proper (name : List Char) : Prop :=
  name ≠ [] ∧ name ≠ ['.'] ∧ name ≠ ['.', '.'] ∧ '/' ∉ name

/-- A component that may stand behind others. -/
def Component.Plain : Component → Prop
  | .up => True
  | .name chars => Proper chars
  | .root | .here => False

theorem plain_of_segment? {segment : List Char} {c : Component} (slashless : '/' ∉ segment)
    (read : segment? segment = some c) : c.Plain := by
  unfold segment? at read
  split at read
  next => cases read
  next h =>
    split at read
    next => cases read; trivial
    next k =>
      cases read
      exact ⟨fun e => h (.inl e), fun e => h (.inr e), k, slashless⟩

theorem slashless_segments (p : Path) : ∀ s ∈ p.segments, '/' ∉ s :=
  fun _ => Text.not_mem_of_mem_splitOn

/-- Where a path leads, as far as its text says. -/
structure Meaning where
  absolute : Bool
  /-- The directories that are climbed before the first name. -/
  ascents : Nat
  names : List (List Char)
  deriving DecidableEq, Repr

namespace Meaning

def start (absolute : Bool) : Meaning := ⟨absolute, 0, []⟩

def enter (m : Meaning) (name : List Char) : Meaning := { m with names := m.names ++ [name] }

/-- An ascent takes the last name back. Nothing lies above the root. -/
def ascend (m : Meaning) : Meaning :=
  if m.names ≠ [] then { m with names := m.names.dropLast }
  else if m.absolute then m
  else { m with ascents := m.ascents + 1 }

/-- One segment of a text more. Empty segments and dots say nothing. -/
def read (m : Meaning) (segment : List Char) : Meaning :=
  if segment = [] ∨ segment = ['.'] then m
  else if segment = ['.', '.'] then m.ascend
  else m.enter segment

/-- The text of a meaning. -/
def path (m : Meaning) : Path :=
  if m.absolute then ⟨'/' :: ['/'].intercalate m.names⟩
  else if m.ascents = 0 ∧ m.names = [] then ⟨['.']⟩
  else ⟨['/'].intercalate (List.replicate m.ascents ['.', '.'] ++ m.names)⟩

/-- A meaning that a text can have. -/
structure Sound (m : Meaning) : Prop where
  rooted : m.absolute = true → m.ascents = 0
  proper : ∀ name ∈ m.names, Proper name

/-- One meaning behind another. What starts at the root forgets the first. -/
def andThen (m k : Meaning) : Meaning :=
  if k.absolute then k
  else { ascend^[k.ascents] m with names := (ascend^[k.ascents] m).names ++ k.names }

end Meaning

/-- The segments of a text, read one after the other. -/
def meaning (p : Path) : Meaning := p.segments.foldl Meaning.read (.start p.isAbsolute)

namespace Meaning

variable {m k : Meaning}

@[simp] theorem read_nil (m : Meaning) : m.read [] = m := by simp [read]

@[simp] theorem read_dot (m : Meaning) : m.read ['.'] = m := by simp [read]

@[simp] theorem read_up (m : Meaning) : m.read ['.', '.'] = m.ascend := by simp [read]

theorem read_name {name : List Char} (proper : Proper name) (m : Meaning) :
    m.read name = m.enter name := by
  simp [read, proper.1, proper.2.1, proper.2.2.1]

@[simp] theorem absolute_ascend (m : Meaning) : m.ascend.absolute = m.absolute := by
  unfold ascend
  split
  · rfl
  · split <;> rfl

/-- Ascents take names back, the last first, and climb when none is left. -/
theorem iterate_ascend (n ascents : Nat) (names : List (List Char)) :
    ascend^[n] ⟨false, ascents, names⟩ =
      ⟨false, ascents + (n - names.length), names.take (names.length - n)⟩ := by
  induction n with
  | zero => simp
  | succ n ih =>
    rw [Function.iterate_succ_apply', ih]
    by_cases inside : n < names.length
    · have left : names.take (names.length - n) ≠ [] := by
        rw [Ne, List.take_eq_nil_iff, not_or]
        exact ⟨by omega, List.ne_nil_of_length_pos (by omega)⟩
      have front : (names.take (names.length - n)).dropLast = names.take (names.length - (n + 1)) := by
        rw [List.dropLast_eq_take, List.take_take, List.length_take]
        congr 1
        omega
      have level : n - names.length = n + 1 - names.length := by omega
      rw [ascend, if_pos left, front, level]
    · have left : names.length - n = 0 := by omega
      have next : names.length - (n + 1) = 0 := by omega
      have higher : n + 1 - names.length = n - names.length + 1 := by omega
      rw [left, next, higher]
      rfl

/-- A segment is read as the component it stands for. -/
theorem read_eq (m : Meaning) (segment : List Char) : m.read segment =
    match segment? segment with
    | some .up => m.ascend
    | some (.name name) => m.enter name
    | _ => m := by
  unfold read segment?
  split
  · rfl
  · split <;> rfl

@[simp] theorem absolute_read (m : Meaning) (segment : List Char) :
    (m.read segment).absolute = m.absolute := by
  unfold read
  split
  · rfl
  · split
    · exact absolute_ascend m
    · rfl

@[simp] theorem absolute_foldl (segments : List (List Char)) (m : Meaning) :
    (segments.foldl read m).absolute = m.absolute := by
  induction segments generalizing m with
  | nil => rfl
  | cons segment rest ih => rw [List.foldl_cons, ih, absolute_read]

theorem Sound.start (absolute : Bool) : (start absolute).Sound :=
  ⟨fun _ => rfl, by simp [Meaning.start]⟩

theorem Sound.ascend (sound : m.Sound) : m.ascend.Sound := by
  unfold Meaning.ascend
  split
  · have front := (List.dropLast_sublist m.names).subset
    exact ⟨sound.rooted, fun name member => sound.proper name (front member)⟩
  · split
    · exact sound
    · next relative => exact ⟨fun rooted => absurd rooted relative, sound.proper⟩

theorem Sound.enter (sound : m.Sound) {name : List Char} (proper : Proper name) :
    (m.enter name).Sound := by
  refine ⟨sound.rooted, fun other member => ?_⟩
  rcases List.mem_append.mp member with member | member
  · exact sound.proper other member
  · rw [List.mem_singleton.mp member]
    exact proper

theorem Sound.read (sound : m.Sound) {segment : List Char} (slashless : '/' ∉ segment) :
    (m.read segment).Sound := by
  rw [read_eq]
  cases named : segment? segment with
  | none => exact sound
  | some c =>
    have plain := plain_of_segment? slashless named
    cases c with
    | up => exact sound.ascend
    | name name => exact sound.enter plain
    | root | here => cases plain

theorem Sound.foldl {segments : List (List Char)} (slashless : ∀ s ∈ segments, '/' ∉ s)
    (sound : m.Sound) : (segments.foldl Meaning.read m).Sound := by
  induction segments generalizing m with
  | nil => exact sound
  | cons segment rest ih =>
    obtain ⟨here, others⟩ := List.forall_mem_cons.mp slashless
    exact ih others (sound.read here)

end Meaning

theorem meaning_sound (p : Path) : p.meaning.Sound :=
  (Meaning.Sound.start _).foldl p.slashless_segments

@[simp] theorem absolute_meaning (p : Path) : p.meaning.absolute = p.isAbsolute :=
  Meaning.absolute_foldl _ _

/-- A text with a slash in front is that of an empty segment before others. -/
theorem isAbsolute_iff {p : Path} {first : List Char} {rest : List (List Char)}
    (segments : p.segments = first :: rest) : p.isAbsolute = true ↔ first = [] ∧ rest ≠ [] := by
  obtain ⟨chars⟩ := p
  cases chars with
  | nil =>
    cases segments
    simp [isAbsolute]
  | cons c chars =>
    by_cases slash : c = '/'
    · subst slash
      have split : Path.segments ⟨'/' :: chars⟩ = [] :: Text.splitOn '/' chars := by
        simp [Path.segments, Text.splitOn]
      rw [split] at segments
      cases segments
      simp [isAbsolute, Text.splitOn_ne_nil]
    · obtain ⟨part, parts, split⟩ := Text.splitOn_cons_other slash chars
      rw [Path.segments, split] at segments
      cases segments
      simp [isAbsolute, slash]

/-! ### Joined paths -/

namespace Meaning

variable {m k : Meaning}

theorem andThen_read (relative : k.absolute = false) (segment : List Char) :
    m.andThen (k.read segment) = (m.andThen k).read segment := by
  have enter (name : List Char) : m.andThen (k.enter name) = (m.andThen k).enter name := by
    simp [andThen, Meaning.enter, relative]
  have ascend : m.andThen k.ascend = (m.andThen k).ascend := by
    obtain ⟨absolute, ascents, names⟩ := k
    obtain rfl : absolute = false := relative
    rcases List.eq_nil_or_concat' names with rfl | ⟨front, name, rfl⟩
    · simp [andThen, Meaning.ascend, Function.iterate_succ_apply']
    · simp [andThen, Meaning.ascend, ← List.append_assoc]
  rw [read_eq, read_eq]
  cases segment? segment with
  | none => rfl
  | some c =>
    cases c with
    | up => exact ascend
    | name name => exact enter name
    | root | here => rfl

theorem andThen_start (m : Meaning) : m.andThen (start false) = m := by
  simp [andThen, start]

theorem foldl_read (segments : List (List Char)) (m : Meaning) :
    segments.foldl read m = m.andThen (segments.foldl read (start false)) := by
  induction segments using List.reverseRecOn with
  | nil => exact (andThen_start m).symm
  | append_singleton rest segment ih =>
    rw [List.foldl_append, List.foldl_append, List.foldl_cons, List.foldl_nil, ih, ← andThen_read]
    · rfl
    · exact absolute_foldl rest (start false)

end Meaning

theorem foldl_segments {p : Path} (relative : p.isAbsolute = false) (m : Meaning) :
    p.segments.foldl Meaning.read m = m.andThen p.meaning := by
  rw [Meaning.foldl_read, meaning, relative]

/-- A path that is joined to another is read from where the other one leads. -/
theorem meaning_join (base p : Path) : (base.join p).meaning = base.meaning.andThen p.meaning := by
  cases absolute : p.isAbsolute with
  | true => simp [join, Meaning.andThen, absolute]
  | false =>
    have onward {front : List Char} (text : (base.join p).chars = front ++ '/' :: p.chars)
        (head : (base.join p).isAbsolute = base.isAbsolute) : (base.join p).meaning =
          ((Text.splitOn '/' front).foldl Meaning.read (.start base.isAbsolute)).andThen
            p.meaning := by
      rw [meaning, segments, text, Text.splitOn_append_separator, List.foldl_append, head]
      exact foldl_segments absolute _
    by_cases blank : base.chars = []
    · have empty : base.meaning = .start false := by
        rw [meaning, segments, isAbsolute, blank]
        decide
      have joined : base.join p = p := by simp [join, blank]
      rw [empty, ← foldl_segments absolute, joined, meaning, absolute]
    · have head (behind : List Char) : Path.isAbsolute ⟨base.chars ++ behind⟩ = base.isAbsolute := by
        simp [isAbsolute, List.head?_append_of_ne_nil _ blank]
      by_cases slash : base.chars.getLast? = some '/'
      · obtain ⟨front, ends⟩ := List.getLast?_eq_some_iff.mp slash
        have joined : base.join p = ⟨base.chars ++ p.chars⟩ := by simp [join, absolute, blank, slash]
        -- the empty segment behind the slash says nothing
        have whole : base.meaning =
            (Text.splitOn '/' front).foldl Meaning.read (.start base.isAbsolute) := by
          rw [meaning, segments, ends, Text.splitOn_append_separator, List.foldl_append]
          simp [Text.splitOn]
        rw [whole]
        exact onward (by simp [joined, ends]) (joined ▸ head p.chars)
      · have joined : base.join p = ⟨base.chars ++ '/' :: p.chars⟩ := by
          simp [join, absolute, blank, slash]
        exact onward (by rw [joined]) (joined ▸ head _)

end RouteForge.Path
