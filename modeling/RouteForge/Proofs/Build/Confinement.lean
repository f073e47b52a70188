import RouteForge.Invocation
import RouteForge.Proofs.Build.Stages
import RouteForge.Proofs.FileTree.Creation
import RouteForge.Proofs.Path.Ancestors

/-! What a build may touch. Faults of the input leave the files as they were, and a build that
succeeds without a formatter changes the file of its module and makes directories on the way there,
nothing else. -/
namespace RouteForge

open FileTree (Keeps Paves)

/-- A directory that was not there, where the first components of a path lead. -/
def FileTree.NewOnWay (t u : FileTree) (p : Path) (k : Location) : Prop :=
  t.get? k = none ∧ u.get? k = some .directory ∧
    ∃ q : Path, q.components <+: p.components ∧ u.locate q = .ok k

theorem FileTree.Paves.newOnWay {t u v : FileTree} {p : Path} {k : Location}
    (paves : Paves t u p.ancestors) (wider : Extends u v) (new : u.get? k ≠ t.get? k) :
    NewOnWay t v p k := by
  obtain ⟨directory, q, above, located⟩ := paves.added k new
  exact ⟨paves.free new, wider.directories k directory, q, Path.components_of_ancestor above,
    locate_mono wider located⟩

namespace Build

variable {b : Build} {format : Formatter} {files after : FileTree} {tree : IncludeTree}
  {c : Configuration} {e : Error} {path : Path} {l : Location}

/-- The module's text is in its file, which may be a device that shows nothing of it, and nothing else
is new but directories on the way. -/
structure Deposit (b : Build) (c : Configuration) (files after : FileTree) (l : Location) : Prop where
  here : after.here = files.here
  located : after.locate (b.target c) = .ok l
  text : files.get? l = some .sink ∧ after.get? l = some .sink ∨
    files.get? l ≠ some .sink ∧ ∃ m, after.get? l = some (.file (b.moduleText c).toUTF8 m)
  others : ∀ k, k ≠ l → after.get? k ≠ files.get? k → files.NewOnWay after (b.directory c) k

theorem emit_eq_ok (emitted : b.emit c files = (after, .ok path)) :
    path = b.target c ∧ ∃ t, files.makeDirectories (b.directory c) = (t, .ok ()) ∧
      t.write (b.target c) (b.moduleText c).toUTF8 = (after, .ok ()) := by
  have writing := emit_writing b c files
  rw [emitted] at writing
  cases writing with
  | written made opened whole => exact ⟨rfl, _, made, FileTree.write_of_whole opened whole⟩

theorem emit_deposit (emitted : b.emit c files = (after, .ok path)) :
    path = b.target c ∧ ∃ l, Deposit b c files after l := by
  obtain ⟨same, t, made, wrote⟩ := emit_eq_ok emitted
  have paves := FileTree.makeDirectories_paves files (b.directory c)
  rw [made] at paves
  obtain ⟨l, written⟩ := FileTree.write_written wrote
  refine ⟨same, l, written.wider.here.trans paves.keeps.here, written.located, ?_, ?_⟩
  · -- what the paving adds are directories, so a device was one before
    have device : t.get? l = some .sink ↔ files.get? l = some .sink := by
      constructor
      · intro sink
        by_contra other
        have new : t.get? l ≠ files.get? l := by
          rw [sink]
          exact Ne.symm other
        obtain ⟨directory, -⟩ := paves.added l new
        rw [sink] at directory
        cases directory
      · exact paves.keeps.entries l _
    rcases written.held with ⟨rfl, sink⟩ | ⟨solid, held⟩
    · exact .inl ⟨device.mp sink, sink⟩
    · exact .inr ⟨fun sink => solid (device.mpr sink), held⟩
  · intro k other new
    have apart := written.others k other
    rw [apart] at new
    exact paves.newOnWay written.wider new

theorem target_ne_directory (b : Build) (c : Configuration) : b.target c ≠ b.directory c := by
  intro same
  have relative : moduleName.isAbsolute = false := by decide
  have named : moduleName.chars.length ≠ 0 := by decide
  have length := congrArg (fun p : Path => p.chars.length) same
  simp only [target, Path.join, relative, Bool.false_or] at length
  split at length
  next blank =>
    rw [List.isEmpty_iff.mp blank] at length
    exact named length
  next =>
    split at length
    · simp only [List.length_append] at length
      omega
    · simp only [List.length_append, List.length_cons] at length
      omega

theorem run_of_configuration (resolved : b.resolve files = .ok tree)
    (configured : configuration tree = .ok c) : b.run format files = b.generate format c files := by
  rw [run_of_resolve resolved, ofTree_of_configuration configured]

theorem configuration_of_run (answered : (b.run format files).answer = .ok path) :
    ∃ tree c, b.resolve files = .ok tree ∧ configuration tree = .ok c := by
  cases resolved : b.resolve files with
  | error e => rw [run_of_resolve_error resolved] at answered; cases answered
  | ok tree =>
    rw [run_of_resolve resolved] at answered
    cases configured : configuration tree with
    | error e => rw [ofTree_of_configuration_error configured] at answered; cases answered
    | ok c => exact ⟨tree, c, rfl, configured⟩

/-- Faults of the input are found before anything is written. -/
theorem run_of_input_error (stopped : (b.run format files).answer = .error e)
    (input : e.stage = .input) :
    (b.run format files).files = files ∧ (b.run format files).formatting? = none := by
  cases resolved : b.resolve files with
  | error r =>
    rw [run_of_resolve_error resolved]
    exact ⟨rfl, rfl⟩
  | ok tree =>
    cases configured : configuration tree with
    | error r =>
      rw [run_of_resolve resolved, ofTree_of_configuration_error configured]
      exact ⟨rfl, rfl⟩
    | ok c =>
      rw [run_of_configuration resolved configured] at stopped
      rw [stage_of_generate stopped] at input
      cases input

theorem generate_without_directory {reason : Refusal}
    (stopped : (b.generate format c files).answer = .error (.unwritable (b.directory c) reason)) :
    (b.generate format c files).files = (files.makeDirectories (b.directory c)).1 := by
  unfold generate at stopped ⊢
  have writing := emit_writing b c files
  generalize b.emit c files = r at writing stopped ⊢
  have apart : b.directory c ≠ b.target c := (target_ne_directory b c).symm
  cases writing with
  | undirected made | refused made => rw [made]
  | interrupted =>
    injection stopped with stopped
    injection stopped with same
    exact absurd same.symm apart
  | written =>
    -- what follows the writing can only fail at the module
    dsimp only at stopped
    split at stopped
    next =>
      rcases formatted_error stopped with ⟨_, same⟩ | ⟨_, same⟩
      · injection same with same
        exact absurd same apart
      · cases same
    next => cases stopped

theorem generate_plain (off : b.formats = false) (answered : (b.generate format c files).answer = .ok path) :
    b.emit c files = ((b.generate format c files).files, .ok path) ∧
      (b.generate format c files).formatting? = none := by
  unfold generate at answered ⊢
  cases emitted : b.emit c files with
  | mk u answer =>
    rw [emitted] at answered
    cases answer with
    | error r => cases answered
    | ok found =>
      simp only [off, Bool.false_eq_true, if_false] at answered ⊢
      cases answered
      exact ⟨rfl, trivial⟩

end Build

namespace Invocation

variable [Yaml.Wording] {format : Formatter} {o : Options} {environment : Environment}
  {elapsed : String} {ticks : Nat} {files : FileTree} {e : Error}

theorem files_of_print (print : o.printMerged = true ∨ o.printTree = true) :
    (ofOptions format o environment elapsed ticks files).files = files := by
  have finished (activity : String) (records : List Record) (answer : Except Error String) :
      (finish files activity records answer).files = files := by
    cases answer <;> rfl
  unfold ofOptions
  by_cases merged : o.printMerged = true
  · simp only [merged, if_true]
    exact finished _ _ _
  · have tree := print.resolve_left merged
    simp only [merged, tree, if_true]
    exact finished _ _ _

theorem files_of_build (quiet : o.printMerged = false ∧ o.printTree = false)
    (once : o.watch = false) : (ofOptions format o environment elapsed ticks files).files =
      ((build o).run format files).files := by
  unfold ofOptions
  simp only [quiet.1, quiet.2, once, Bool.false_eq_true, if_false]
  unfold generate
  dsimp only
  split
  · rfl
  · cases ((build o).run format files).answer <;> rfl

/-- The program ends with the error of its build, printed behind what it was doing. -/
theorem exit_of_input_error (quiet : o.printMerged = false ∧ o.printTree = false)
    (once : o.watch = false)
    (stopped : ((build o).run format files).answer = .error e)
    (input : e.stage = .input) :
    (ofOptions format o environment elapsed ticks files).exit? = some 1 ∧
      (ofOptions format o environment elapsed ticks files).stderr =
        complaint "error generating muxc routes" e := by
  obtain ⟨-, idle⟩ := Build.run_of_input_error stopped input
  unfold ofOptions
  simp only [quiet.1, quiet.2, once, Bool.false_eq_true, if_false]
  unfold generate
  simp [stopped, idle, Build.Result.isFatal, Build.Result.complaints, finish, Except.map]

end Invocation

/-- A build touches no more than its output. Whatever is wrong with the input, the files stay as
they were; where the directory of the module cannot be made, everything that stood there stays; and
a build that succeeds without a formatter puts the module's text in the place of what its file held
and makes nothing else but directories on the way. The program does the same from its arguments,
and with a flag to print it changes nothing. -/
theorem Build.run_confined [Yaml.Wording] :
    (∀ (b : Build) (format : Formatter) (files : FileTree) (e : Error),
      (b.run format files).answer = .error e → e.stage = .input →
        (b.run format files).files = files) ∧
    (∀ (b : Build) (format : Formatter) (files : FileTree) (tree : IncludeTree)
      (c : Configuration) (reason : Refusal), b.resolve files = .ok tree →
        configuration tree = .ok c →
        (b.run format files).answer = .error (.unwritable (b.directory c) reason) →
        Keeps files (b.run format files).files ∧
          ∀ k, (b.run format files).files.get? k ≠ files.get? k →
            files.NewOnWay (b.run format files).files (b.directory c) k) ∧
    (∀ (b : Build) (format : Formatter) (files : FileTree) (path : Path), b.formats = false →
      (b.run format files).answer = .ok path →
        ∃ tree c l, b.resolve files = .ok tree ∧ configuration tree = .ok c ∧ path = b.target c ∧
          Deposit b c files (b.run format files).files l) ∧
    ∀ (format : Formatter) (arguments : List String) (environment : Environment) (elapsed : String)
      (ticks : Nat) (files : FileTree),
      let i := Invocation.run format arguments environment elapsed ticks files
      match CommandLine.parse arguments with
      | .error _ => i.files = files
      | .ok o =>
        let r := (Invocation.build o).run format files
        (o.printMerged = true ∨ o.printTree = true → i.files = files) ∧
        (o.printMerged = false ∧ o.printTree = false → o.watch = false →
          i.files = r.files ∧ ∀ e, r.answer = .error e → e.stage = .input →
            i.exit? = some 1 ∧
              i.stderr = Invocation.complaint "error generating muxc routes" e) := by
  refine ⟨fun b format files e stopped input => (run_of_input_error stopped input).1, ?_, ?_, ?_⟩
  · intro b format files tree c reason resolved configured stopped
    rw [run_of_configuration resolved configured] at stopped ⊢
    rw [generate_without_directory stopped]
    have paves := FileTree.makeDirectories_paves files (b.directory c)
    exact ⟨paves.keeps, fun k new => paves.newOnWay (Keeps.refl _).extends new⟩
  · intro b format files path off answered
    obtain ⟨tree, c, resolved, configured⟩ := configuration_of_run answered
    rw [run_of_configuration resolved configured] at answered ⊢
    obtain ⟨emitted, -⟩ := generate_plain off answered
    obtain ⟨same, l, deposit⟩ := emit_deposit emitted
    exact ⟨tree, c, l, resolved, configured, same, deposit⟩
  · intro format arguments environment elapsed ticks files i
    simp only [i, Invocation.run]
    cases parsed : CommandLine.parse arguments with
    | error stop => cases stop <;> rfl
    | ok o =>
      refine ⟨Invocation.files_of_print, fun quiet once => ?_⟩
      exact ⟨Invocation.files_of_build quiet once, fun e stopped input =>
        Invocation.exit_of_input_error quiet once stopped input⟩

/-! A configuration with a route that cannot be read, one whose directory finds no room below the one
above it, and one that finds a longer text in the place of its module. -/

def Build.faulty : FileTree :=
  FileTree.ofTexts [("muxc.yaml", "out: gen\nroutes:\n- paths: [GET /a ; h ; m ; n]\n")]

def Build.exhausted : FileTree :=
  { FileTree.ofTexts [("muxc.yaml", "out: a/b\n")] with
    medium := { refuses := fun l => if l = [['a'], ['b']] then some .noSpace else none } }

def Build.overlong : FileTree :=
  (FileTree.ofTexts [("muxc.yaml", "package: p\n")]).set ["routes.rs".toList]
    (.file ⟨Array.replicate 240 47⟩ false)

theorem Build.run_exhausted :
    (sole.resolve exhausted >>= configuration) = .ok { out := "a/b" } ∧
      (sole.run still exhausted).answer = .error (.unwritable (Path.ofText "a/b") .noSpace) ∧
      (sole.run still exhausted).files.get? [['a']] ≠ exhausted.get? [['a']] := by
  decide +kernel

theorem Build.run_overlong :
    (sole.resolve overlong >>= configuration) = .ok { package := "p" } ∧
      (sole.run still overlong).answer = .ok (sole.target { package := "p" }) ∧
      (sole.moduleText { package := "p" }).toUTF8.size < 240 := by
  decide +kernel

/-- No directory is made for a module that is never written, the directory above one that is refused
stays, and nothing is left of a longer text in the module's place. -/
theorem Build.run_confined_faulty :
    ((sole.run still faulty).answer = .error (.route "GET /a ; h ; m ; n" .tooManyParts) ∧
      (sole.run still faulty).files = faulty) ∧
    ((sole.run still exhausted).answer = .error (.unwritable (Path.ofText "a/b") .noSpace) ∧
      Keeps exhausted (sole.run still exhausted).files ∧
      exhausted.NewOnWay (sole.run still exhausted).files (Path.ofText "a/b") [['a']]) ∧
    ((sole.run still overlong).answer = .ok (sole.target { package := "p" }) ∧
      (∃ l, Deposit sole { package := "p" } overlong (sole.run still overlong).files l) ∧
      (sole.moduleText { package := "p" }).toUTF8.size < 240) := by
  refine ⟨?_, ?_, ?_⟩
  · have stopped : (sole.run still faulty).answer =
        .error (.route "GET /a ; h ; m ; n" .tooManyParts) := by
      decide +kernel
    exact ⟨stopped, run_confined.1 sole still faulty _ stopped rfl⟩
  · obtain ⟨configured, stopped, new⟩ := run_exhausted
    cases resolved : sole.resolve exhausted with
    | error e => rw [resolved] at configured; cases configured
    | ok tree =>
      rw [resolved] at configured
      obtain ⟨keeps, others⟩ := run_confined.2.1 sole still exhausted tree { out := "a/b" } .noSpace
        resolved configured stopped
      exact ⟨stopped, keeps, others _ new⟩
  · obtain ⟨configured, answered, shorter⟩ := run_overlong
    obtain ⟨tree, c, l, resolved, found, -, deposit⟩ :=
      run_confined.2.2.1 sole still overlong _ rfl answered
    rw [resolved] at configured
    obtain rfl := Except.ok.inj (found.symm.trans configured)
    exact ⟨answered, ⟨l, deposit⟩, shorter⟩

end RouteForge
