import RouteForge.Proofs.FileTree.Lookup

/-! Making directories and writing files. Directories are only ever added, and a file is written at
the one location that its path leads to afterwards. -/
namespace RouteForge.FileTree

theorem Keeps.of_set {t : FileTree} {l : Location} (free : t.get? l = none) (e : Entry) :
    Keeps t (t.set l e) where
  here := rfl
  medium := rfl
  entries k x found := by
    have other : k ≠ l := by
      rintro rfl
      rw [free] at found
      cases found
    rw [get?_set_other t other e, found]

theorem makeDirectory_keeps {t u : FileTree} {p : Path} (made : t.makeDirectory p = .ok u) :
    Keeps t u := by
  unfold makeDirectory at made
  cases aimed : t.aim p with
  | error r => rw [aimed] at made; cases made
  | ok place =>
    obtain ⟨l, name⟩ := place
    simp only [aimed, bind, Except.bind, throw, throwThe, MonadExceptOf.throw, pure,
      Except.pure] at made
    split at made
    next => cases made
    next =>
      split at made
      next => cases made
      next =>
        split at made
        next => cases made
        next => cases made
        next free _ => cases made; exact .of_set free .directory

theorem makeUpward_keeps (t : FileTree) (ps : List Path) : Keeps t (t.makeUpward ps).1 := by
  induction ps generalizing t with
  | nil => exact .refl t
  | cons p above ih =>
    unfold makeUpward
    split
    next => exact .refl t
    next =>
      split
      next made => exact makeDirectory_keeps made
      next =>
        have higher := ih t
        split
        next stopped => rw [stopped] at higher; exact higher
        next reached =>
          rw [reached] at higher
          split
          next made => exact higher.trans (makeDirectory_keeps made)
          next => exact higher
      next => exact .refl t

theorem makeDirectories_keeps (t : FileTree) (p : Path) : Keeps t (t.makeDirectories p).1 :=
  makeUpward_keeps t p.ancestors

/-- The bytes went to the location that the path leads to, and nowhere else. A device takes them
without a trace. -/
structure Written (t u : FileTree) (p : Path) (x : ByteArray) (l : Location) : Prop where
  located : u.locate p = .ok l
  wider : Extends t u
  others : ∀ k, k ≠ l → u.get? k = t.get? k
  held : u = t ∧ t.get? l = some .sink ∨ t.get? l ≠ some .sink ∧ ∃ m, u.get? l = some (.file x m)

theorem Extends.of_set {t : FileTree} {l : Location} {x : ByteArray} {m : Bool}
    (free : t.get? l ≠ some .directory) : Extends t (t.set l (.file x m)) where
  here := rfl
  medium := rfl
  standing k stands := by
    by_cases same : k = l
    · subst same
      by_cases below : k = []
      · simp [get?, below] at free
      · simp [get?_set_self t below]
    · rwa [get?_set_other t same]
  directories k found := by
    have other : k ≠ l := by
      rintro rfl
      exact free found
    rwa [get?_set_other t other]

/-- Empty segments lead nowhere else. -/
theorem walk_blanks {t : FileTree} {blanks : List (List Char)} (blank : ∀ s ∈ blanks, s = [])
    {l m : Location} (directory : t.get? l = some .directory) :
    blanks.foldlM t.enter l = .ok m ↔ m = l := by
  induction blanks with
  | nil => simp [pure, Except.pure, eq_comm]
  | cons s rest ih =>
    obtain rfl := blank s List.mem_cons_self
    have still : t.enter l [] = .ok l := enter_eq_ok_iff.mpr ⟨directory, .inl ⟨.inl rfl, rfl⟩⟩
    rw [List.foldlM_cons, still]
    exact ih fun s member => blank s (List.mem_cons_of_mem _ member)

/-- The segments of a path up to the last that says something, and the slashes behind it. -/
theorem segments_split (p : Path) : ∃ blanks, (∀ s ∈ blanks, s = []) ∧
    p.segments = (p.segments.reverse.dropWhile (· = [])).reverse ++ blanks := by
  refine ⟨(p.segments.reverse.takeWhile (· = [])).reverse, fun s member => ?_, ?_⟩
  · simpa using List.all_eq_true.mp List.all_takeWhile s (List.mem_reverse.mp member)
  · rw [← List.reverse_append, List.takeWhile_append_dropWhile, List.reverse_reverse]

theorem aim_segments {t : FileTree} {p : Path} {l : Location} {name : List Char}
    (aimed : t.aim p = .ok (l, name)) (named : isDots name = false) :
    accept p = .ok () ∧ ∃ before blanks, p.segments = before ++ name :: blanks ∧
      (∀ s ∈ blanks, s = []) ∧ before.foldlM t.enter (t.start p) = .ok l ∧
      t.get? l = some .directory := by
  unfold aim at aimed
  cases accepted : accept p with
  | error r => rw [accepted] at aimed; cases aimed
  | ok =>
    rw [accepted] at aimed
    obtain ⟨blanks, blank, split⟩ := segments_split p
    generalize (p.segments.reverse.dropWhile (· = [])).reverse = spoken at aimed split
    simp only [bind, Except.bind, throw, throwThe, MonadExceptOf.throw, pure, Except.pure] at aimed
    cases walked : spoken.dropLast.foldlM t.enter (t.start p) with
    | error r => rw [walked] at aimed; cases aimed
    | ok k =>
      simp only [walked] at aimed
      split at aimed
      next => cases aimed
      next directory =>
        cases aimed
        have some : spoken ≠ [] := by
          rintro rfl
          simp [isDots] at named
        refine ⟨rfl, spoken.dropLast, blanks, ?_, blank, walked,
          isDirectoryAt_iff.mp (by simpa using directory)⟩
        rw [split, List.append_cons, List.getLast?_eq_some_getLast some, Option.getD_some,
          List.dropLast_concat_getLast some]

/-- A path that is aimed at leads to its place once something stands there, a directory if there are
slashes at its end. -/
theorem locate_of_aim {t u : FileTree} {p : Path} {l : Location} {name : List Char}
    (wider : Extends t u) (aimed : t.aim p = .ok (l, name)) (named : isDots name = false)
    (short : octets name ≤ nameLimit) (stands : u.get? (l ++ [name]) ≠ none)
    (closed : endsInSlash p = false ∨ u.get? (l ++ [name]) = some .directory) :
    u.locate p = .ok (l ++ [name]) := by
  obtain ⟨accepted, before, blanks, segments, blank, walked, directory⟩ := aim_segments aimed named
  have entered : u.enter l name = .ok (l ++ [name]) :=
    enter_eq_ok_iff.mpr ⟨wider.directories l directory, .inr (.inr ⟨named, short, stands, rfl⟩)⟩
  have rest : blanks.foldlM u.enter (l ++ [name]) = .ok (l ++ [name]) := by
    rcases closed with plain | closed
    · have none : blanks = [] := by
        rcases List.eq_nil_or_concat blanks with rfl | ⟨front, last, rfl⟩
        · rfl
        · obtain rfl := blank last (by simp)
          have ends : p.segments.getLast? = some [] := by
            simp [segments, List.getLast?_cons]
          rcases Text.getLast?_of_splitOn ends with none | slash
          · simp [accept, none] at accepted
          · simp [endsInSlash, slash] at plain
      rw [none]
      rfl
    · exact (walk_blanks blank closed).mpr rfl
  have reached := walk_mono wider walked
  have start : u.start p = t.start p := by simp [start, wider.here]
  simp only [locate, accepted, segments, start, List.foldlM_append, reached, List.foldlM_cons,
    bind, Except.bind, entered, rest]

/-- A path leads to a place that can be written at, in a directory and under a name. -/
structure Writable (t : FileTree) (p : Path) (l : Location) (name : List Char) : Prop where
  aimed : t.aim p = .ok (l, name)
  named : isDots name = false
  plain : endsInSlash p = false
  short : octets name ≤ nameLimit
  free : t.get? (l ++ [name]) ≠ some .directory
  granted : t.medium.refuses (l ++ [name]) = none

theorem openToWrite_eq_ok_iff {t : FileTree} {p : Path} {k : Location} :
    t.openToWrite p = .ok k ↔ ∃ l name, Writable t p l name ∧ k = l ++ [name] := by
  unfold openToWrite
  cases aimed : t.aim p with
  | error r => exact iff_of_false nofun fun ⟨l, name, place, _⟩ => by cases aimed ▸ place.aimed
  | ok place =>
    obtain ⟨l, name⟩ := place
    simp only [bind, Except.bind, throw, throwThe, MonadExceptOf.throw, pure, Except.pure]
    have same {d : Location} {n : List Char} (place : Writable t p d n) : d = l ∧ n = name := by
      have pair := aimed.symm.trans place.aimed
      cases pair
      exact ⟨rfl, rfl⟩
    split
    next dotted =>
      refine iff_of_false nofun fun ⟨d, n, place, _⟩ => ?_
      obtain ⟨rfl, rfl⟩ := same place
      simp [place.named, place.plain] at dotted
    next spoken =>
      split
      next long =>
        refine iff_of_false nofun fun ⟨d, n, place, _⟩ => ?_
        obtain ⟨rfl, rfl⟩ := same place
        exact Nat.not_le.mpr long place.short
      next short =>
        split
        next directory =>
          refine iff_of_false nofun fun ⟨d, n, place, _⟩ => ?_
          obtain ⟨rfl, rfl⟩ := same place
          exact place.free (isDirectoryAt_iff.mp directory)
        next free =>
          cases refused : t.medium.refuses (l ++ [name]) with
          | some reason =>
            refine iff_of_false nofun fun ⟨d, n, place, _⟩ => ?_
            obtain ⟨rfl, rfl⟩ := same place
            cases refused ▸ place.granted
          | none =>
            simp only [Bool.or_eq_true, not_or, Bool.not_eq_true] at spoken
            constructor
            · intro found
              cases found
              exact ⟨l, name, ⟨aimed, spoken.1, spoken.2, Nat.not_lt.mp short,
                fun directory => free (isDirectoryAt_iff.mpr directory), refused⟩, rfl⟩
            · rintro ⟨d, n, place, rfl⟩
              obtain ⟨rfl, rfl⟩ := same place
              rfl

section Fill

variable {t : FileTree} {p : Path} {l : Location}

theorem fill_sink (sink : t.get? l = some .sink) (x : ByteArray) : t.fill l x = t := by
  unfold fill
  rw [sink]

/-- The mode of a file does not depend on what is written to it. -/
theorem fill_solid (solid : t.get? l ≠ some .sink) :
    ∃ m, ∀ x, t.fill l x = t.set l (.file x m) := by
  unfold fill
  cases found : t.get? l with
  | none => exact ⟨false, fun _ => rfl⟩
  | some e =>
    cases e with
    | directory => exact ⟨false, fun _ => rfl⟩
    | file y m => exact ⟨m, fun _ => rfl⟩
    | sink => exact absurd found solid

theorem fill_extends (free : t.get? l ≠ some .directory) (x : ByteArray) :
    Extends t (t.fill l x) := by
  by_cases sink : t.get? l = some .sink
  · rw [fill_sink sink]
    exact (Keeps.refl t).extends
  · obtain ⟨m, filled⟩ := fill_solid sink
    rw [filled]
    exact .of_set free

theorem fill_written (opened : t.openToWrite p = .ok l) (x : ByteArray) :
    Written t (t.fill l x) p x l := by
  obtain ⟨d, name, place, rfl⟩ := openToWrite_eq_ok_iff.mp opened
  have wider := fill_extends place.free x
  by_cases sink : t.get? (d ++ [name]) = some .sink
  · rw [fill_sink sink] at wider ⊢
    refine ⟨?_, wider, fun _ _ => rfl, .inl ⟨rfl, sink⟩⟩
    exact locate_of_aim wider place.aimed place.named place.short (by simp [sink]) (.inl place.plain)
  · obtain ⟨m, filled⟩ := fill_solid sink
    rw [filled] at wider ⊢
    have held : (t.set (d ++ [name]) (.file x m)).get? (d ++ [name]) = some (.file x m) :=
      get?_set_self t (by simp) _
    refine ⟨?_, wider, fun k other => get?_set_other t other _, .inr ⟨sink, m, held⟩⟩
    exact locate_of_aim wider place.aimed place.named place.short (by simp [held]) (.inl place.plain)

/-- What was opened once can be opened again. -/
theorem openToWrite_fill (opened : t.openToWrite p = .ok l) (x : ByteArray) :
    (t.fill l x).openToWrite p = .ok l := by
  have written := fill_written opened x
  obtain ⟨d, name, place, rfl⟩ := openToWrite_eq_ok_iff.mp opened
  refine openToWrite_eq_ok_iff.mpr ⟨d, name, ?_, rfl⟩
  have granted : (t.fill (d ++ [name]) x).medium.refuses (d ++ [name]) = none := by
    rw [written.wider.medium, place.granted]
  refine ⟨aim_mono written.wider place.aimed, place.named, place.plain, place.short, ?_, granted⟩
  rcases written.held with ⟨same, sink⟩ | ⟨-, m, file⟩
  · simp [same, sink]
  · simp [file]

end Fill

section Write

variable {t u : FileTree} {p : Path} {x : ByteArray} {l : Location}

theorem write_of_closed {reason : Refusal} (closed : t.openToWrite p = .error reason) :
    t.write p x = (t, .error reason) := by
  unfold write
  rw [closed]

theorem write_of_open (opened : t.openToWrite p = .ok l) :
    (t.write p x).1 = t.fill l (t.medium.part l x) := by
  unfold write
  rw [opened]

theorem write_of_whole (opened : t.openToWrite p = .ok l) (whole : t.medium.interrupts l x = none) :
    t.write p x = (t.fill l x, .ok ()) := by
  unfold write Medium.part
  simp only [opened, whole]

/-- A write that ends well has opened a file, and all of its bytes got through. -/
theorem write_eq_ok (wrote : t.write p x = (u, .ok ())) :
    ∃ l, t.openToWrite p = .ok l ∧ t.medium.interrupts l x = none ∧ u = t.fill l x := by
  cases opened : t.openToWrite p with
  | error reason =>
    rw [write_of_closed opened] at wrote
    cases wrote
  | ok l =>
    cases cut : t.medium.interrupts l x with
    | some i =>
      unfold write at wrote
      simp only [opened, cut] at wrote
      cases wrote
    | none =>
      rw [write_of_whole opened cut] at wrote
      cases wrote
      exact ⟨l, rfl, cut, rfl⟩

theorem write_written (wrote : t.write p x = (u, .ok ())) : ∃ l, Written t u p x l := by
  obtain ⟨l, opened, -, rfl⟩ := write_eq_ok wrote
  exact ⟨l, fill_written opened x⟩

end Write

namespace Written

variable {t u : FileTree} {p : Path} {x : ByteArray} {l : Location}

theorem holds (written : Written t u p x l) : u.Holds p x := by
  rcases written.held with ⟨rfl, sink⟩ | ⟨_, m, file⟩
  · exact .inl (lookup_eq_ok_iff.mpr ⟨l, written.located, sink⟩)
  · exact .inr ⟨m, lookup_eq_ok_iff.mpr ⟨l, written.located, file⟩⟩

/-- Another place keeps what it held. -/
theorem lookup_other (written : Written t u p x l) {q : Path} {e : Entry}
    (found : t.lookup q = .ok e) (other : u.locate q ≠ u.locate p) : u.lookup q = .ok e := by
  obtain ⟨k, located, stands⟩ := lookup_eq_ok_iff.mp found
  have there := locate_mono written.wider located
  have apart : k ≠ l := by
    rintro rfl
    exact other (there.trans written.located.symm)
  exact lookup_eq_ok_iff.mpr ⟨k, there, by rw [written.others k apart, stands]⟩

end Written

/-- A path ends up with the bytes and every other place keeps what it held. -/
structure Leaves (t u : FileTree) (p : Path) (x : ByteArray) : Prop where
  wider : Extends t u
  holds : u.Holds p x
  others : ∀ q e, t.lookup q = .ok e → u.locate q ≠ u.locate p → u.lookup q = .ok e

namespace Leaves

variable {t u v : FileTree} {p q : Path} {x y : ByteArray} {l : Location}

theorem of_keeps (keeps : Keeps t u) (written : Written u v p x l) : Leaves t v p x where
  wider := keeps.extends.trans written.wider
  holds := written.holds
  others _ _ found other := written.lookup_other (keeps.lookup found) other

/-- Writing once more replaces what was left. -/
theorem write (leaves : Leaves t u p x) (written : Written u v p y l) : Leaves t v p y where
  wider := leaves.wider.trans written.wider
  holds := written.holds
  others q e found other := by
    refine written.lookup_other (leaves.others q e found fun same => other ?_) other
    obtain ⟨k, there⟩ := leaves.holds.exists_locate
    rw [locate_mono written.wider (same.trans there), locate_mono written.wider there]

theorem holds_same (leaves : Leaves t u p x) (same : u.locate q = u.locate p) : u.Holds q x := by
  have equal : u.lookup q = u.lookup p := by simp [FileTree.lookup, same]
  exact leaves.holds.imp (equal.trans ·) fun ⟨m, file⟩ => ⟨m, equal.trans file⟩

theorem holds_other (leaves : Leaves t u p x) (held : t.Holds q y)
    (other : u.locate q ≠ u.locate p) : u.Holds q y :=
  held.keep fun e found => leaves.others q e found other

end Leaves
end RouteForge.FileTree
