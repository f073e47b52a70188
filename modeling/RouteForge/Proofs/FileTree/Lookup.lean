import RouteForge.FileTree.Basic

/-! What a path leads to, and trees in which it leads to the same. A walk asks only where
directories are and whether something stands behind a name, so it goes on leading to its place when
entries are added and when files get other bytes. -/
namespace RouteForge.FileTree

/-- Texts under their names in one directory. -/
def ofTexts (texts : List (String × String)) : FileTree where
  entries := texts.map (fun (name, text) => ([name.toList], .file text.toUTF8 false))
  here := []

theorem lookup_eq_ok_iff {t : FileTree} {p : Path} {e : Entry} :
    t.lookup p = .ok e ↔ ∃ l, t.locate p = .ok l ∧ t.get? l = some e := by
  unfold lookup
  cases place : t.locate p with
  | error r => simp [bind, Except.bind]
  | ok l =>
    cases found : t.get? l with
    | none => simp [bind, Except.bind, found, throw, throwThe, MonadExceptOf.throw]
    | some x => simp [bind, Except.bind, found, pure, Except.pure]

theorem read_eq_ok_iff {t : FileTree} {p : Path} {x : ByteArray} :
    t.read p = .ok x ↔ (∃ m, t.lookup p = .ok (.file x m)) ∨ t.lookup p = .ok .sink ∧ x = .empty := by
  unfold read
  cases found : t.lookup p with
  | error r => simp [bind, Except.bind]
  | ok e =>
    cases e with
    | directory => simp [bind, Except.bind, throw, throwThe, MonadExceptOf.throw]
    | file y m => simp [bind, Except.bind, pure, Except.pure]
    | sink => simp [bind, Except.bind, pure, Except.pure, eq_comm]

theorem mem_entries_of_get? {t : FileTree} {l : Location} {e : Entry} (found : t.get? l = some e)
    (below : l ≠ []) : (l, e) ∈ t.entries := by
  simp only [get?, below, if_false, Option.map_eq_some_iff] at found
  obtain ⟨⟨m, x⟩, found, rfl⟩ := found
  have same : m = l := by simpa using List.find?_some found
  exact same ▸ List.mem_of_find?_eq_some found

theorem isDirectoryAt_iff {t : FileTree} {l : Location} :
    t.isDirectoryAt l = true ↔ t.get? l = some .directory := by
  simp [isDirectoryAt]

/-- Nothing that stands in a tree is missing in the other, and its directories stay directories. -/
structure Extends (t u : FileTree) : Prop where
  here : u.here = t.here
  medium : u.medium = t.medium
  standing : ∀ l, t.get? l ≠ none → u.get? l ≠ none
  directories : ∀ l, t.get? l = some .directory → u.get? l = some .directory

theorem Extends.trans {t u v : FileTree} (first : Extends t u) (second : Extends u v) :
    Extends t v where
  here := second.here.trans first.here
  medium := second.medium.trans first.medium
  standing l stands := second.standing l (first.standing l stands)
  directories l found := second.directories l (first.directories l found)

/-- Whatever stands in a tree stands in the other as it was. -/
structure Keeps (t u : FileTree) : Prop where
  here : u.here = t.here
  medium : u.medium = t.medium
  entries : ∀ l e, t.get? l = some e → u.get? l = some e

theorem Keeps.refl (t : FileTree) : Keeps t t := ⟨rfl, rfl, fun _ _ h => h⟩

theorem Keeps.trans {t u v : FileTree} (first : Keeps t u) (second : Keeps u v) : Keeps t v :=
  ⟨second.here.trans first.here, second.medium.trans first.medium,
    fun l e h => second.entries l e (first.entries l e h)⟩

theorem Keeps.extends {t u : FileTree} (keeps : Keeps t u) : Extends t u where
  here := keeps.here
  medium := keeps.medium
  standing l standing := by
    obtain ⟨e, found⟩ := Option.ne_none_iff_exists'.mp standing
    simp [keeps.entries l e found]
  directories l found := keeps.entries l _ found

/-- One segment further is the same place, the place above, or a place below where something
stands. -/
theorem enter_eq_ok_iff {t : FileTree} {l m : Location} {segment : List Char} :
    t.enter l segment = .ok m ↔ t.get? l = some .directory ∧
      ((segment = [] ∨ segment = ['.']) ∧ m = l ∨ segment = ['.', '.'] ∧ m = l.dropLast ∨
        isDots segment = false ∧ octets segment ≤ nameLimit ∧ t.get? (l ++ [segment]) ≠ none ∧
          m = l ++ [segment]) := by
  by_cases walked : t.get? l = some .directory
  · by_cases still : segment = [] ∨ segment = ['.']
    · rcases still with rfl | rfl <;> simp [enter, isDirectoryAt, isDots, walked, @eq_comm _ m]
    · by_cases up : segment = ['.', '.']
      · subst up
        simp [enter, isDirectoryAt, isDots, walked, @eq_comm _ m]
      · rw [not_or] at still
        by_cases long : nameLimit < octets segment
        · simp [enter, isDirectoryAt, isDots, walked, still, up, long, Nat.not_le.mpr long]
        · cases found : t.get? (l ++ [segment]) <;>
            simp [enter, isDirectoryAt, isDots, walked, still, up, long, Nat.not_lt.mp long, found,
              @eq_comm _ m]
  · simp [enter, isDirectoryAt, walked]

theorem enter_mono {t u : FileTree} (ext : Extends t u) {l m : Location} {segment : List Char}
    (entered : t.enter l segment = .ok m) : u.enter l segment = .ok m := by
  rw [enter_eq_ok_iff] at entered ⊢
  obtain ⟨walked, still | up | ⟨named, short, stands, eq⟩⟩ := entered
  · exact ⟨ext.directories l walked, .inl still⟩
  · exact ⟨ext.directories l walked, .inr (.inl up)⟩
  · exact ⟨ext.directories l walked, .inr (.inr ⟨named, short, ext.standing _ stands, eq⟩)⟩

theorem walk_mono {t u : FileTree} (ext : Extends t u) {segments : List (List Char)} {l m : Location}
    (walked : segments.foldlM t.enter l = .ok m) : segments.foldlM u.enter l = .ok m := by
  induction segments generalizing l with
  | nil => exact walked
  | cons segment rest ih =>
    rw [List.foldlM_cons] at walked ⊢
    cases entered : t.enter l segment with
    | error r => rw [entered] at walked; cases walked
    | ok next =>
      rw [entered] at walked
      rw [enter_mono ext entered]
      exact ih walked

theorem locate_mono {t u : FileTree} (ext : Extends t u) {p : Path} {l : Location}
    (located : t.locate p = .ok l) : u.locate p = .ok l := by
  unfold locate at located ⊢
  cases accepted : accept p with
  | error r => rw [accepted] at located; cases located
  | ok =>
    rw [accepted] at located
    have start : u.start p = t.start p := by simp [start, ext.here]
    rw [start]
    exact walk_mono ext located

theorem aim_mono {t u : FileTree} (ext : Extends t u) {p : Path} {r : Location × List Char}
    (aimed : t.aim p = .ok r) : u.aim p = .ok r := by
  unfold aim at aimed ⊢
  cases accepted : accept p with
  | error e => rw [accepted] at aimed; cases aimed
  | ok =>
    have start : u.start p = t.start p := by simp [start, ext.here]
    simp only [accepted, start, bind, Except.bind, throw, throwThe, MonadExceptOf.throw, pure,
      Except.pure] at aimed ⊢
    split at aimed
    next => cases aimed
    next l walked =>
      rw [walk_mono ext walked]
      simp only
      split at aimed
      next => cases aimed
      next directory =>
        have directory : t.isDirectoryAt l = true := by simpa using directory
        have stays : u.isDirectoryAt l = true :=
          isDirectoryAt_iff.mpr (ext.directories l (isDirectoryAt_iff.mp directory))
        simpa [stays] using aimed

theorem Keeps.lookup {t u : FileTree} (keeps : Keeps t u) {p : Path} {e : Entry}
    (found : t.lookup p = .ok e) : u.lookup p = .ok e := by
  obtain ⟨l, located, stands⟩ := lookup_eq_ok_iff.mp found
  exact lookup_eq_ok_iff.mpr ⟨l, locate_mono keeps.extends located, keeps.entries l e stands⟩

/-- A path leads to a file with the bytes, or to a device. -/
def Holds (t : FileTree) (p : Path) (x : ByteArray) : Prop :=
  t.lookup p = .ok .sink ∨ ∃ m, t.lookup p = .ok (.file x m)

theorem Holds.keep {t u : FileTree} {p : Path} {x : ByteArray} (holds : t.Holds p x)
    (kept : ∀ e, t.lookup p = .ok e → u.lookup p = .ok e) : u.Holds p x := by
  rcases holds with sink | ⟨m, file⟩
  · exact .inl (kept _ sink)
  · exact .inr ⟨m, kept _ file⟩

theorem Holds.read_iff {t : FileTree} {p : Path} {x y : ByteArray} (holds : t.Holds p x)
    (solid : t.lookup p ≠ .ok .sink) : t.read p = .ok y ↔ x = y := by
  obtain ⟨m, file⟩ := holds.resolve_left solid
  rw [read_eq_ok_iff, file]
  simp [eq_comm]

theorem Holds.exists_locate {t : FileTree} {p : Path} {x : ByteArray} (holds : t.Holds p x) :
    ∃ l, t.locate p = .ok l := by
  rcases holds with found | ⟨m, found⟩
  all_goals
    obtain ⟨l, located, -⟩ := lookup_eq_ok_iff.mp found
    exact ⟨l, located⟩

end RouteForge.FileTree
