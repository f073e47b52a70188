import RouteForge.Build
import RouteForge.Proofs.FileTree.Write

/-! What a build leaves behind. A build that does not come to open its module only makes directories.
Once the module has been opened its place holds as much of the text as gets through, or what the
formatter has made of it, and that does not depend on how the formatter ends. -/
namespace RouteForge

open FileTree (Keeps Leaves Written)

namespace Formatter

variable {rewrite : ByteArray → ByteArray} {ending : ByteArray → Except Refusal Status}

/-- A formatter that replaces the text it finds and ends as that text wants. It fails where it cannot
read the file or write all of it. -/
def ofText (rewrite : ByteArray → ByteArray) (ending : ByteArray → Except Refusal Status) :
    Formatter := fun files path =>
  match files.read path with
  | .error _ => { files := files, ending := .ok (.exited 1) }
  | .ok text =>
    { files := (files.write path (rewrite text)).1
      ending := if (files.write path (rewrite text)).2.isOk then ending text else .ok (.exited 1) }

theorem ofText_of_read {files : FileTree} {path : Path} {text : ByteArray}
    (read : files.read path = .ok text) : ofText rewrite ending files path =
      { files := (files.write path (rewrite text)).1
        ending :=
          if (files.write path (rewrite text)).2.isOk then ending text else .ok (.exited 1) } := by
  unfold ofText
  rw [read]

/-- What has just been written is rewritten, as far as the medium lets it be, and all of it if the
formatter ends well. A device reads as empty and stays a device. -/
theorem ofText_written (rewrite : ByteArray → ByteArray)
    (ending : ByteArray → Except Refusal Status) {t : FileTree} {p : Path} {l : Location}
    (opened : t.openToWrite p = .ok l) (x : ByteArray) :
    let f := ofText rewrite ending (t.fill l x) p
    Written (t.fill l x) f.files p (t.medium.part l (rewrite x)) l ∧
      ∀ status, f.ending = .ok status → status.succeeded = true →
        Written (t.fill l x) f.files p (rewrite x) l := by
  intro f
  have before := FileTree.fill_written opened x
  have again := FileTree.openToWrite_fill opened x
  by_cases sink : t.get? l = some .sink
  · have device (y : ByteArray) : Written t t p y l := by
      simpa only [FileTree.fill_sink sink] using FileTree.fill_written opened y
    have lookup : t.lookup p = .ok .sink :=
      FileTree.lookup_eq_ok_iff.mpr ⟨l, (device x).located, sink⟩
    have read : t.read p = .ok .empty := FileTree.read_eq_ok_iff.mpr (.inr ⟨lookup, rfl⟩)
    have files : f.files = t := by
      simp only [f, FileTree.fill_sink sink, ofText_of_read read, FileTree.write_of_open opened]
    rw [files, FileTree.fill_sink sink]
    exact ⟨device _, fun _ _ _ => device _⟩
  · obtain ⟨-, held⟩ | ⟨-, m, held⟩ := before.held
    · exact absurd held sink
    have lookup : (t.fill l x).lookup p = .ok (.file x m) :=
      FileTree.lookup_eq_ok_iff.mpr ⟨l, before.located, held⟩
    have read : (t.fill l x).read p = .ok x := FileTree.read_eq_ok_iff.mpr (.inl ⟨m, lookup⟩)
    have medium := before.wider.medium
    have files : f.files = (t.fill l x).fill l (t.medium.part l (rewrite x)) := by
      simp only [f, ofText_of_read read, FileTree.write_of_open again, medium]
    refine ⟨files ▸ FileTree.fill_written again _, fun status ended succeeded => ?_⟩
    cases cut : t.medium.interrupts l (rewrite x) with
    | none =>
      have part : t.medium.part l (rewrite x) = rewrite x := by simp [Medium.part, cut]
      rw [files, part]
      exact FileTree.fill_written again _
    | some i =>
      -- a formatter that was interrupted has not ended well
      have failed : ((t.fill l x).write p (rewrite x)).2 = .error i.reason := by
        unfold FileTree.write
        simp only [again, medium, cut]
      simp only [f, ofText_of_read read, failed, Except.isOk, Except.toBool] at ended
      cases ended
      cases succeeded

end Formatter

namespace Build

variable {b : Build} {rewrite : ByteArray → ByteArray} {ending : ByteArray → Except Refusal Status}
  {tree : IncludeTree} {files : FileTree} {c : Configuration}

/-- What a build has left at the module's place once it is done. -/
def product (b : Build) (rewrite : ByteArray → ByteArray) (c : Configuration) : ByteArray :=
  if b.formats then rewrite (b.moduleText c).toUTF8 else (b.moduleText c).toUTF8

theorem product_of_plain (off : b.formats = false) :
    b.product rewrite c = (b.moduleText c).toUTF8 := by
  unfold product
  rw [if_neg (by rw [off]; decide)]

theorem product_of_formatted (formats : b.formats = true) :
    b.product rewrite c = rewrite (b.moduleText c).toUTF8 := by
  unfold product
  rw [if_pos formats]

/-- The place that a build opens for its module, if it comes so far. -/
def place? (b : Build) (c : Configuration) (files : FileTree) : Option Location :=
  match files.makeDirectories (b.directory c) with
  | (made, .ok ()) => (made.openToWrite (b.target c)).toOption
  | (_, .error _) => none

/-- What a build leaves at the place that it has opened: as much of the module as gets through, and
where all of it does and is formatted, as much as gets through of what the formatter makes of it. -/
def residue (b : Build) (rewrite : ByteArray → ByteArray) (c : Configuration) (m : Medium)
    (l : Location) : ByteArray :=
  let text := (b.moduleText c).toUTF8
  if b.formats = true ∧ m.interrupts l text = none then m.part l (rewrite text) else m.part l text

theorem residue_of_cut {m : Medium} {l : Location} {i : Interruption}
    (cut : m.interrupts l (b.moduleText c).toUTF8 = some i) :
    b.residue rewrite c m l = (b.moduleText c).toUTF8.extract 0 i.taken := by
  simp only [residue, Medium.part, cut, reduceCtorEq, and_false, if_false]

theorem residue_of_formatted {m : Medium} {l : Location} (formats : b.formats = true)
    (whole : m.interrupts l (b.moduleText c).toUTF8 = none) :
    b.residue rewrite c m l = m.part l (rewrite (b.moduleText c).toUTF8) := by
  simp only [residue, formats, whole, and_self, if_true]

/-- What writing the module comes to, by the step that ends it. -/
inductive Writing (b : Build) (c : Configuration) (files : FileTree) :
    FileTree × Except Error Path → Prop where
  | undirected {t reason} (stopped : files.makeDirectories (b.directory c) = (t, .error reason)) :
      Writing b c files (t, .error (.unwritable (b.directory c) reason))
  | refused {t reason} (made : files.makeDirectories (b.directory c) = (t, .ok ()))
      (closed : t.openToWrite (b.target c) = .error reason) :
      Writing b c files (t, .error (.unwritable (b.target c) reason))
  | interrupted {t l i} (made : files.makeDirectories (b.directory c) = (t, .ok ()))
      (opened : t.openToWrite (b.target c) = .ok l)
      (cut : t.medium.interrupts l (b.moduleText c).toUTF8 = some i) :
      Writing b c files (t.fill l ((b.moduleText c).toUTF8.extract 0 i.taken),
        .error (.unwritable (b.target c) i.reason))
  | written {t l} (made : files.makeDirectories (b.directory c) = (t, .ok ()))
      (opened : t.openToWrite (b.target c) = .ok l)
      (whole : t.medium.interrupts l (b.moduleText c).toUTF8 = none) :
      Writing b c files (t.fill l (b.moduleText c).toUTF8, .ok (b.target c))

theorem emit_writing (b : Build) (c : Configuration) (files : FileTree) :
    Writing b c files (b.emit c files) := by
  unfold emit
  cases made : files.makeDirectories (b.directory c) with
  | mk t answer =>
    cases answer with
    | error reason => exact .undirected made
    | ok =>
      cases opened : t.openToWrite (b.target c) with
      | error reason =>
        simp only [FileTree.write_of_closed opened]
        exact .refused made opened
      | ok l =>
        cases cut : t.medium.interrupts l (b.moduleText c).toUTF8 with
        | some i =>
          simp only [FileTree.write, opened, Medium.part, cut]
          exact .interrupted made opened cut
        | none =>
          simp only [FileTree.write_of_whole opened cut]
          exact .written made opened cut

/-- What a build of a configuration comes to. -/
inductive Emission (b : Build) (rewrite : ByteArray → ByteArray) (c : Configuration)
    (files : FileTree) : Result → Prop where
  | blocked {r e} (closed : b.place? c files = none) (stopped : r.answer = .error e)
      (keeps : Keeps files r.files) : Emission b rewrite c files r
  | spoiled {r l e} (opened : b.place? c files = some l) (stopped : r.answer = .error e)
      (cause : b.formats = true ∨ ¬ files.medium.Steady)
      (located : r.files.locate (b.target c) = .ok l)
      (leaves : Leaves files r.files (b.target c) (b.residue rewrite c files.medium l)) :
      Emission b rewrite c files r
  | done {r} (answered : r.answer = .ok (b.target c))
      (leaves : Leaves files r.files (b.target c) (b.product rewrite c)) :
      Emission b rewrite c files r

/-- A build that succeeds leaves the product in its place. -/
theorem Emission.leaves {r : Result} {path : Path} (emission : Emission b rewrite c files r)
    (answered : r.answer = .ok path) :
    path = b.target c ∧ Leaves files r.files (b.target c) (b.product rewrite c) := by
  cases emission with
  | blocked _ stopped | spoiled _ stopped => rw [stopped] at answered; cases answered
  | done same leaves =>
    rw [same] at answered
    cases answered
    exact ⟨rfl, leaves⟩

theorem formatted_answer {path : Path} {f : Formatting} {found : Path}
    (answered : (formatted path f).answer = .ok found) :
    found = path ∧ ∃ status, f.ending = .ok status ∧ status.succeeded = true := by
  unfold formatted at answered
  cases ended : f.ending with
  | error reason => simp only [ended] at answered; cases answered
  | ok status =>
    simp only [ended] at answered
    split at answered
    next good => cases answered; exact ⟨rfl, status, rfl, good⟩
    next => cases answered

theorem formatted_error {path : Path} {f : Formatting} {e : Error}
    (stopped : (formatted path f).answer = .error e) :
    (∃ reason, e = .unwritable path reason) ∨ ∃ status, e = .format path status := by
  unfold formatted at stopped
  cases ended : f.ending with
  | error reason =>
    simp only [ended] at stopped
    cases stopped
    exact .inl ⟨reason, rfl⟩
  | ok status =>
    simp only [ended] at stopped
    split at stopped
    next => cases stopped
    next => cases stopped; exact .inr ⟨status, rfl⟩

theorem generate_emission (b : Build) (rewrite : ByteArray → ByteArray)
    (ending : ByteArray → Except Refusal Status) (c : Configuration) (files : FileTree) :
    Emission b rewrite c files (b.generate (.ofText rewrite ending) c files) := by
  unfold generate
  have keeps := FileTree.makeDirectories_keeps files (b.directory c)
  have place {t : FileTree} (made : files.makeDirectories (b.directory c) = (t, .ok ())) :
      b.place? c files = (t.openToWrite (b.target c)).toOption := by
    unfold place?
    rw [made]
  have writing := emit_writing b c files
  generalize b.emit c files = r at writing
  cases writing with
  | undirected stopped =>
    rw [stopped] at keeps
    refine .blocked ?_ rfl keeps
    unfold place?
    rw [stopped]
  | refused made closed =>
    rw [made] at keeps
    refine .blocked ?_ rfl keeps
    rw [place made, closed]
    rfl
  | @interrupted t l i made opened cut =>
    rw [made] at keeps
    have written := FileTree.fill_written opened ((b.moduleText c).toUTF8.extract 0 i.taken)
    rw [keeps.medium] at cut
    refine .spoiled (by rw [place made, opened]; rfl) rfl (.inr fun steady => ?_) written.located ?_
    · rw [steady] at cut
      cases cut
    · rw [residue_of_cut cut]
      exact .of_keeps keeps written
  | @written t l made opened whole =>
    rw [made] at keeps
    have written := FileTree.fill_written opened (b.moduleText c).toUTF8
    have leaves := Leaves.of_keeps keeps written
    rw [keeps.medium] at whole
    cases formats : b.formats with
    | false => exact .done rfl (product_of_plain formats ▸ leaves)
    | true =>
      obtain ⟨rewritten, good⟩ :=
        Formatter.ofText_written rewrite ending opened (b.moduleText c).toUTF8
      simp only [if_true]
      generalize Formatter.ofText rewrite ending (t.fill l (b.moduleText c).toUTF8) (b.target c) = f
        at rewritten good
      cases answer : (formatted (b.target c) f).answer with
      | ok found =>
        obtain ⟨rfl, status, ended, succeeded⟩ := formatted_answer answer
        refine .done answer ?_
        rw [product_of_formatted formats]
        exact leaves.write (good status ended succeeded)
      | error e =>
        refine .spoiled (by rw [place made, opened]; rfl) answer (.inl formats) rewritten.located ?_
        rw [residue_of_formatted formats whole, ← keeps.medium]
        exact leaves.write rewritten

/-- A build that succeeds leaves the product at the path that it answers. -/
theorem holds_product {path : Path} (configured : configuration tree = .ok c)
    (answered : (b.ofTree (.ofText rewrite ending) tree files).answer = .ok path) :
    path = b.target c ∧
      (b.ofTree (.ofText rewrite ending) tree files).files.Holds path (b.product rewrite c) := by
  unfold ofTree at answered ⊢
  simp only [configured] at answered ⊢
  obtain ⟨same, leaves⟩ := (generate_emission b rewrite ending c files).leaves answered
  exact ⟨same, same ▸ leaves.holds⟩

end Build
end RouteForge
