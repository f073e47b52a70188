import RouteForge.Proofs.FileTree.Write

/-! Making directories and writing files once more. A directory is new only where the path or a path
in front of it leads, and what has been made or written is found when the same is done again, so
the second time nothing changes. -/
namespace RouteForge.FileTree

theorem isDirectory_iff {t : FileTree} {p : Path} :
    t.isDirectory p = true ↔ t.lookup p = .ok .directory := by
  unfold isDirectory
  split
  next found => exact iff_of_true rfl found
  next other => exact iff_of_false nofun fun found => other found

theorem makeDirectory_eq_ok {t u : FileTree} {p : Path} (made : t.makeDirectory p = .ok u) :
    ∃ l name, t.aim p = .ok (l, name) ∧ isDots name = false ∧ octets name ≤ nameLimit ∧
      t.get? (l ++ [name]) = none ∧ u = t.set (l ++ [name]) .directory := by
  unfold makeDirectory at made
  cases aimed : t.aim p with
  | error r => rw [aimed] at made; cases made
  | ok place =>
    obtain ⟨l, name⟩ := place
    simp only [aimed, bind, Except.bind, throw, throwThe, MonadExceptOf.throw, pure,
      Except.pure] at made
    split at made
    next => cases made
    next named =>
      split at made
      next => cases made
      next short =>
        split at made
        next => cases made
        next => cases made
        next free _ =>
          cases made
          exact ⟨l, name, rfl, by simpa using named, Nat.not_lt.mp short, free, rfl⟩

/-- A directory that has been made stands where its path leads. -/
theorem makeDirectory_located {t u : FileTree} {p : Path} (made : t.makeDirectory p = .ok u) :
    ∃ l, u.locate p = .ok l ∧ u.get? l = some .directory ∧ ∀ k, k ≠ l → u.get? k = t.get? k := by
  have wider := (makeDirectory_keeps made).extends
  obtain ⟨l, name, aimed, named, short, free, rfl⟩ := makeDirectory_eq_ok made
  have stands : (t.set (l ++ [name]) .directory).get? (l ++ [name]) = some .directory :=
    get?_set_self t (by simp) _
  refine ⟨l ++ [name], ?_, stands, fun k other => get?_set_other t other _⟩
  exact locate_of_aim wider aimed named short (by simp [stands]) (.inr stands)

theorem makeDirectory_of_aim {t : FileTree} {p : Path} {l : Location} {name : List Char}
    (aimed : t.aim p = .ok (l, name))
    (taken : isDots name = true ∨ octets name ≤ nameLimit ∧ t.get? (l ++ [name]) ≠ none) :
    t.makeDirectory p = .error .alreadyThere := by
  unfold makeDirectory
  simp only [aimed, bind, Except.bind, throw, throwThe, MonadExceptOf.throw]
  by_cases dots : isDots name = true
  · rw [if_pos dots]
  · obtain ⟨short, stands⟩ := taken.resolve_left dots
    obtain ⟨e, found⟩ := Option.ne_none_iff_exists'.mp stands
    rw [if_neg dots, if_neg (Nat.not_lt.mpr short), found]

theorem aim_of_walk {t : FileTree} {p : Path} {l : Location} {spoken : List (List Char)}
    (accepted : accept p = .ok ())
    (trimmed : (p.segments.reverse.dropWhile (· = [])).reverse = spoken)
    (walked : spoken.dropLast.foldlM t.enter (t.start p) = .ok l)
    (directory : t.get? l = some .directory) : t.aim p = .ok (l, spoken.getLast?.getD []) := by
  unfold aim
  simp [accepted, trimmed, walked, isDirectoryAt_iff.mpr directory, bind, Except.bind, pure,
    Except.pure]

/-- Where a directory stands none can be made. -/
theorem makeDirectory_standing {t : FileTree} {p : Path} (stands : t.lookup p = .ok .directory) :
    t.makeDirectory p = .error .alreadyThere := by
  obtain ⟨l, located, -⟩ := lookup_eq_ok_iff.mp stands
  unfold locate at located
  cases accepted : accept p with
  | error r => rw [accepted] at located; cases located
  | ok =>
    obtain ⟨blanks, blank, split⟩ := segments_split p
    have filled : p.segments ≠ [] := Text.splitOn_ne_nil '/' p.chars
    rw [accepted] at located
    simp only [bind, Except.bind] at located
    rw [split, List.foldlM_append] at located
    generalize trimmed : (p.segments.reverse.dropWhile (· = [])).reverse = spoken at located split
    rcases List.eq_nil_or_concat spoken with rfl | ⟨before, name, rfl⟩
    · -- nothing but slashes: the walk stays where it starts
      cases blanks with
      | nil => exact absurd split filled
      | cons s rest =>
        obtain rfl := blank s List.mem_cons_self
        cases entered : t.enter (t.start p) [] with
        | error r =>
          simp [bind, Except.bind, pure, Except.pure, entered] at located
        | ok k =>
          have directory := (enter_eq_ok_iff.mp entered).1
          exact makeDirectory_of_aim (aim_of_walk accepted trimmed rfl directory) (.inl rfl)
    · rw [List.concat_eq_append] at trimmed located
      rw [List.foldlM_append] at located
      cases walked : before.foldlM t.enter (t.start p) with
      | error r => rw [walked] at located; cases located
      | ok k =>
        rw [walked] at located
        cases entered : t.enter k name with
        | error r => simp [bind, Except.bind, entered] at located
        | ok m =>
          obtain ⟨directory, taken⟩ := enter_eq_ok_iff.mp entered
          have aimed : t.aim p = .ok (k, name) := by
            simpa using aim_of_walk accepted trimmed (by simpa using walked) directory
          refine makeDirectory_of_aim aimed ?_
          rcases taken with ⟨still, -⟩ | ⟨up, -⟩ | ⟨-, short, found, -⟩
          · left; rcases still with rfl | rfl <;> rfl
          · left; rw [up]; rfl
          · exact .inr ⟨short, found⟩

theorem ancestors_eq_cons (p : Path) : ∃ above, p.ancestors = p :: above := by
  unfold Path.ancestors
  cases p.chars.length with
  | zero => exact ⟨[], rfl⟩
  | succ n => exact ⟨_, rfl⟩

/-- What a successful attempt to make a directory leaves behind: nothing, for the empty path, or
the directory. -/
theorem makeUpward_stands {t u : FileTree} {p : Path} {above : List Path}
    (made : t.makeUpward (p :: above) = (u, .ok ())) :
    p.chars = [] ∨ u.lookup p = .ok .directory := by
  have found {v w : FileTree} (new : v.makeDirectory p = .ok w) : w.lookup p = .ok .directory := by
    obtain ⟨l, located, directory, -⟩ := makeDirectory_located new
    exact lookup_eq_ok_iff.mpr ⟨l, located, directory⟩
  unfold makeUpward at made
  split at made
  next blank => exact .inl blank
  next =>
    right
    split at made
    next new => cases made; exact found new
    next =>
      split at made
      next => cases made
      next =>
        split at made
        next new => cases made; exact found new
        next =>
          split at made
          next there => cases made; exact isDirectory_iff.mp there
          next => cases made
    next =>
      split at made
      next there => cases made; exact isDirectory_iff.mp there
      next => cases made

/-- A directory that has been made stays where it is, also when more is added, and making it once
more changes nothing. -/
theorem makeDirectories_again {t u v : FileTree} {p : Path}
    (made : t.makeDirectories p = (u, .ok ())) (ext : Extends u v) :
    v.makeDirectories p = (v, .ok ()) := by
  obtain ⟨above, list⟩ := ancestors_eq_cons p
  unfold makeDirectories at made ⊢
  rw [list] at made ⊢
  unfold makeUpward
  rcases makeUpward_stands made with blank | stands
  · rw [if_pos blank]
  · obtain ⟨l, located, directory⟩ := lookup_eq_ok_iff.mp stands
    have stays : v.lookup p = .ok .directory :=
      lookup_eq_ok_iff.mpr ⟨l, locate_mono ext located, ext.directories l directory⟩
    simp [makeDirectory_standing stays, isDirectory_iff.mpr stays]

/-- The directories that are new, each where a path of a list leads. -/
structure Paves (t u : FileTree) (ps : List Path) : Prop where
  keeps : Keeps t u
  added : ∀ k, u.get? k ≠ t.get? k →
    u.get? k = some .directory ∧ ∃ p ∈ ps, u.locate p = .ok k

namespace Paves

variable {t u v : FileTree} {p : Path} {ps qs : List Path}

theorem refl (t : FileTree) (ps : List Path) : Paves t t ps := ⟨.refl t, fun _ new => absurd rfl new⟩

theorem of_makeDirectory (made : t.makeDirectory p = .ok u) (member : p ∈ ps) : Paves t u ps where
  keeps := makeDirectory_keeps made
  added k new := by
    obtain ⟨l, located, directory, others⟩ := makeDirectory_located made
    by_cases here : k = l
    · subst here
      exact ⟨directory, p, member, located⟩
    · exact absurd (others k here) new

theorem trans (first : Paves t u ps) (second : Paves u v qs) (inside : ∀ p ∈ ps, p ∈ qs) :
    Paves t v qs where
  keeps := first.keeps.trans second.keeps
  added k new := by
    by_cases later : v.get? k = u.get? k
    · rw [later] at new ⊢
      obtain ⟨directory, p, member, located⟩ := first.added k new
      exact ⟨directory, p, inside p member, locate_mono second.keeps.extends located⟩
    · exact second.added k later

theorem mono (paves : Paves t u ps) (inside : ∀ p ∈ ps, p ∈ qs) : Paves t u qs where
  keeps := paves.keeps
  added k new := by
    obtain ⟨directory, p, member, located⟩ := paves.added k new
    exact ⟨directory, p, inside p member, located⟩

/-- What is new was not there. -/
theorem free (paves : Paves t u ps) {k : Location} (new : u.get? k ≠ t.get? k) :
    t.get? k = none := by
  cases found : t.get? k with
  | none => rfl
  | some e => exact absurd (by rw [found]; exact paves.keeps.entries k e found) new

end Paves

theorem makeUpward_paves (t : FileTree) (ps : List Path) : Paves t (t.makeUpward ps).1 ps := by
  induction ps generalizing t with
  | nil => exact .refl t []
  | cons p above ih =>
    unfold makeUpward
    split
    next => exact .refl t _
    next =>
      split
      next made => exact .of_makeDirectory made List.mem_cons_self
      next =>
        have higher := (ih t).mono fun q member => List.mem_cons_of_mem p member
        split
        next stopped => rw [stopped] at higher; exact higher
        next reached =>
          rw [reached] at higher
          split
          next made => exact higher.trans (.of_makeDirectory made List.mem_cons_self) fun _ => id
          next => exact higher
      next => exact .refl t _

theorem makeDirectories_paves (t : FileTree) (p : Path) :
    Paves t (t.makeDirectories p).1 p.ancestors :=
  makeUpward_paves t p.ancestors

theorem put_found {l : Location} {e : Entry} {entries : List (Location × Entry)}
    (found : entries.find? (·.1 = l) = some (l, e)) : put l e entries = entries := by
  induction entries with
  | nil => cases found
  | cons p rest ih =>
    obtain ⟨m, x⟩ := p
    by_cases here : m = l
    · subst here
      simp only [List.find?_cons, decide_true, Option.some.injEq, Prod.mk.injEq, true_and] at found
      simp [put, found]
    · simp only [List.find?_cons, here, decide_false] at found
      simp [put, here, ih found]

theorem set_found {t : FileTree} {l : Location} {e : Entry} (below : l ≠ [])
    (found : t.get? l = some e) : t.set l e = t := by
  simp only [get?, below, if_false, Option.map_eq_some_iff] at found
  obtain ⟨⟨m, x⟩, found, rfl⟩ := found
  obtain rfl : m = l := by simpa using List.find?_some found
  simp [set, put_found found]

theorem fill_again {t : FileTree} {l : Location} (below : l ≠ []) (x : ByteArray) :
    (t.fill l x).fill l x = t.fill l x := by
  by_cases sink : t.get? l = some .sink
  · rw [fill_sink sink, fill_sink sink]
  · obtain ⟨m, filled⟩ := fill_solid sink
    have found : (t.fill l x).get? l = some (.file x m) := by
      rw [filled]
      exact get?_set_self t below _
    have again : (t.fill l x).fill l x = (t.fill l x).set l (.file x m) := by
      rw [fill, found]
    rw [again, set_found below found]

/-- Writing the same once more changes nothing. -/
theorem write_same {t u : FileTree} {p : Path} {x : ByteArray}
    (wrote : t.write p x = (u, .ok ())) : u.write p x = (u, .ok ()) := by
  obtain ⟨l, opened, whole, rfl⟩ := write_eq_ok wrote
  obtain ⟨d, name, -, below⟩ := openToWrite_eq_ok_iff.mp opened
  have medium := (fill_written opened x).wider.medium
  rw [write_of_whole (openToWrite_fill opened x) (by rw [medium, whole]),
    fill_again (by simp [below])]

end RouteForge.FileTree
