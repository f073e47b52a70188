import Mathlib
import RouteForge.Proofs.Build.Confinement
import RouteForge.Proofs.Include.Change
import RouteForge.Proofs.Text.Lines

/-! Building twice. The second build finds the module as the first has left it and changes nothing. It
answers the same unless the module has taken the place of a file of the configuration: a module is
no document, so then the configuration can no longer be read. -/
namespace RouteForge

open FileTree (Keeps Written)

/-! ### A module is no document -/

/-- The first lines of every module. -/
def RoutesModule.notice : List (List Char) :=
  ["// Code generated by muxc. DO NOT EDIT.".toList, "// versions:".toList]

theorem RoutesModule.render_notice (c : Configuration) (s : Stamp) :
    ∃ rest, (render c s).toList = Text.unlines notice ++ rest := by
  have front : (lines c s).map String.toList = notice ++ ((lines c s).drop 2).map String.toList := rfl
  refine ⟨Text.unlines (((lines c s).drop 2).map String.toList), ?_⟩
  unfold render
  rw [String.toList_ofList, front, Text.unlines_append]

/-- Neither line of the notice is a directive. -/
theorem Include.content_notice (rest : List Char) : ∃ more,
    (Source.ofText (Text.unlines RoutesModule.notice ++ rest)).content =
      Text.unlines RoutesModule.notice ++ more := by
  have unbroken : ∀ line ∈ RoutesModule.notice, '\n' ∉ line ∧ line.getLast? ≠ some '\r' := by
    decide +kernel
  have plain : ∀ line ∈ RoutesModule.notice, (target? line).isNone = true := by decide +kernel
  refine ⟨Text.unlines ((Text.lines rest).filter fun line => (target? line).isNone), ?_⟩
  unfold Source.ofText
  dsimp only
  rw [Text.lines_unlines_append unbroken, List.filter_append, List.filter_eq_self.mpr plain,
    Text.unlines_append]

/-- The notice is one plain text over two lines, which cannot be a key, so its colon is an error. -/
theorem Yaml.scan_notice (rest : List Char) :
    (Scanner.start (Text.unlines RoutesModule.notice ++ rest)).run
      ((Text.unlines RoutesModule.notice ++ rest).length + 1) =
        .error ⟨.valueNotAllowed, ⟨51, 1, 11⟩⟩ := by
  cbv

theorem Document.ofText_notice (rest : List Char) :
    ∃ e, ofText (String.ofList (Text.unlines RoutesModule.notice ++ rest)) = .error e := by
  have unread : ∃ fault,
      Yaml.tokens (Text.unlines RoutesModule.notice ++ rest) = .error fault := by
    unfold Yaml.tokens
    split
    · exact ⟨_, Yaml.scan_notice rest⟩
    · exact ⟨_, rfl⟩
  obtain ⟨fault, unread⟩ := unread
  have unmarked : Yaml.withoutByteOrderMark (Text.unlines RoutesModule.notice ++ rest) =
      Text.unlines RoutesModule.notice ++ rest := by
    cbv
  refine ⟨.yaml (String.ofList (Text.unlines RoutesModule.notice ++ rest)) fault, ?_⟩
  unfold ofText Yaml.read
  rw [String.toList_ofList, unmarked, unread]
  rfl

namespace Build

variable {b : Build} {format : Formatter} {files after : FileTree} {tree : IncludeTree}
  {c : Configuration} {path p : Path} {x : ByteArray}

/-- A path leads to the file that was written, which is not a device. -/
def Overwritten (after : FileTree) (path p : Path) : Prop :=
  after.locate p = after.locate path ∧ after.lookup path ≠ .ok .sink

instance (after : FileTree) (path p : Path) : Decidable (Overwritten after path p) :=
  inferInstanceAs (Decidable (_ ∧ _))

theorem read_of_overwritten (emitted : b.emit c files = (after, .ok path))
    (overwritten : Overwritten after path p) : after.read p = .ok (b.moduleText c).toUTF8 := by
  obtain ⟨same, solid⟩ := overwritten
  obtain ⟨rfl, t, -, wrote⟩ := emit_eq_ok emitted
  obtain ⟨l, written⟩ := FileTree.write_written wrote
  have equal : after.lookup p = after.lookup (b.target c) := by simp [FileTree.lookup, same]
  obtain ⟨m, file⟩ := written.holds.resolve_left solid
  exact FileTree.read_eq_ok_iff.mpr (.inl ⟨m, equal.trans file⟩)

/-- Every other file reads as before. -/
theorem read_of_not_overwritten (emitted : b.emit c files = (after, .ok path))
    (apart : ¬ Overwritten after path p) (opened : files.read p = .ok x) :
    after.read p = .ok x := by
  obtain ⟨rfl, t, made, wrote⟩ := emit_eq_ok emitted
  have keeps := FileTree.makeDirectories_keeps files (b.directory c)
  rw [made] at keeps
  obtain ⟨l, written⟩ := FileTree.write_written wrote
  have kept (e : Entry) (found : files.lookup p = .ok e) : after.lookup p = .ok e := by
    by_cases same : after.locate p = after.locate (b.target c)
    · -- what was written to is a device, so nothing has changed
      have sink : after.lookup (b.target c) = .ok .sink := by
        by_contra solid
        exact apart ⟨same, solid⟩
      obtain ⟨k, located, device⟩ := FileTree.lookup_eq_ok_iff.mp sink
      rw [written.located] at located
      cases located
      rcases written.held with ⟨rfl, -⟩ | ⟨-, m, file⟩
      · exact keeps.lookup found
      · rw [device] at file
        cases file
    · exact written.lookup_other (keeps.lookup found) same
  rw [FileTree.read_eq_ok_iff] at opened ⊢
  exact opened.imp (fun ⟨m, found⟩ => ⟨m, kept _ found⟩) fun ⟨found, blank⟩ => ⟨kept _ found, blank⟩

/-- Writing the module once more changes nothing. -/
theorem emit_again (emitted : b.emit c files = (after, .ok path)) :
    b.emit c after = (after, .ok path) := by
  obtain ⟨rfl, t, made, wrote⟩ := emit_eq_ok emitted
  obtain ⟨l, written⟩ := FileTree.write_written wrote
  unfold emit
  rw [FileTree.makeDirectories_again made written.wider]
  dsimp only
  rw [FileTree.write_same wrote]

/-- A tree that has taken in a module cannot be merged. -/
theorem merged_of_overwritten (emitted : b.emit c files = (after, .ok path))
    (resolved : b.resolve after = .ok tree) (member : p ∈ tree.paths)
    (overwritten : Overwritten after path p) : ∃ e, tree.merged = .error e := by
  have text := read_of_overwritten emitted overwritten
  have foreign (x : ByteArray) (source : Include.Source) (opened : after.read p = .ok x)
      (said : Include.sourceOf p x = .ok source) :
      ∃ r, Document.ofText (String.ofList source.content) = .error r := by
    rw [text] at opened
    cases opened
    rw [Include.sourceOf_toUTF8, Except.ok.injEq] at said
    subst said
    obtain ⟨rest, module⟩ := RoutesModule.render_notice c (Stamp.ofPath b.config)
    obtain ⟨more, content⟩ := Include.content_notice rest
    unfold moduleText
    rw [module, content]
    exact Document.ofText_notice more
  exact Include.not_merged_of_file resolved member foreign

theorem run_of_overwritten (format : Formatter) (emitted : b.emit c files = (after, .ok path))
    (resolved : b.resolve files = .ok tree)
    (touched : ∃ p ∈ tree.paths, Overwritten after path p) :
    ∃ e, e.OfFiles ∧ b.run format after = { files := after, answer := .error e } := by
  cases again : b.resolve after with
  | error e => exact ⟨e, ofFiles_of_resolve again, run_of_resolve_error again⟩
  | ok other =>
    obtain ⟨p, member, overwritten⟩ := Include.changed_of_resolveRoot
      (fun _ _ apart opened => read_of_not_overwritten emitted apart opened) resolved again touched
    obtain ⟨e, stopped⟩ := merged_of_overwritten emitted again member overwritten
    have unconfigured : configuration other = .error e := by
      unfold configuration
      rw [stopped]
      rfl
    refine ⟨e, ofFiles_of_merged stopped, ?_⟩
    rw [run_of_resolve again, ofTree_of_configuration_error unconfigured]

theorem run_of_not_overwritten (off : b.formats = false)
    (emitted : b.emit c files = (after, .ok path)) (resolved : b.resolve files = .ok tree)
    (configured : configuration tree = .ok c)
    (apart : ∀ p ∈ tree.paths, ¬ Overwritten after path p) :
    b.run format after = { files := after, answer := .ok path } := by
  have readable := Include.readable_of_resolveRoot resolved
  have again : b.resolve after = .ok tree := by
    refine Include.resolveRoot_transfer resolved fun p member => ?_
    rw [readable p member]
    exact read_of_not_overwritten emitted (apart p member) (readable p member)
  rw [run_of_configuration again configured]
  unfold generate
  rw [emit_again emitted]
  simp [off]

theorem emitted_of_run (off : b.formats = false)
    (answered : (b.run format files).answer = .ok path) :
    ∃ tree c, b.resolve files = .ok tree ∧ configuration tree = .ok c ∧
      b.emit c files = ((b.run format files).files, .ok path) := by
  obtain ⟨tree, c, resolved, configured⟩ := configuration_of_run answered
  rw [run_of_configuration resolved configured] at answered ⊢
  exact ⟨tree, c, resolved, configured, (generate_plain off answered).1⟩

/-- Building again at once, without a formatter, changes nothing: every file, the module with it, and
every directory stay as the first build has left them. The second build answers the same path,
unless the first has written over a file that the configuration is read from; then, and only then,
it fails, over an include cycle, a file that cannot be opened, or one that is no document. -/
theorem run_again (format : Formatter) (off : b.formats = false)
    (answered : (b.run format files).answer = .ok path) :
    let u := (b.run format files).files
    (b.run format u).files = u ∧ ∃ tree, b.resolve files = .ok tree ∧
      ((b.run format u).answer = .ok path ↔ ∀ p ∈ tree.paths, ¬ Overwritten u path p) ∧
      ((∃ p ∈ tree.paths, Overwritten u path p) →
        ∃ e, e.OfFiles ∧ (b.run format u).answer = .error e) := by
  intro u
  obtain ⟨tree, c, resolved, configured, emitted⟩ := emitted_of_run off answered
  by_cases touched : ∃ p ∈ tree.paths, Overwritten u path p
  · obtain ⟨e, ofFiles, again⟩ := run_of_overwritten format emitted resolved touched
    rw [again]
    refine ⟨rfl, tree, resolved, iff_of_false nofun fun apart => ?_, fun _ => ⟨e, ofFiles, rfl⟩⟩
    obtain ⟨p, member, overwritten⟩ := touched
    exact apart p member overwritten
  · have apart : ∀ p ∈ tree.paths, ¬ Overwritten u path p :=
      fun p member overwritten => touched ⟨p, member, overwritten⟩
    rw [run_of_not_overwritten off emitted resolved configured apart]
    exact ⟨rfl, tree, resolved, iff_of_true rfl apart, fun again => absurd again touched⟩

/-! Two files, and a root file that its own module takes the place of. -/

def twofoldFiles : FileTree :=
  FileTree.ofTexts [("muxc.yaml", "out: gen\n!include more.yaml\n"), ("more.yaml", "package: p\n")]

theorem run_again_twofold :
    let u := (sole.run still twofoldFiles).files
    sole.formats = false ∧
      (sole.run still twofoldFiles).answer = .ok (Path.ofText "gen/routes.rs") ∧
      (sole.run still u).files = u ∧
      (sole.run still u).answer = .ok (Path.ofText "gen/routes.rs") := by
  intro u
  have answered : (sole.run still twofoldFiles).answer = .ok (Path.ofText "gen/routes.rs") := by
    decide +kernel
  have apart : ∀ tree ∈ (sole.resolve twofoldFiles).toOption, ∀ p ∈ tree.paths,
      ¬ Overwritten u (Path.ofText "gen/routes.rs") p := by
    decide +kernel
  obtain ⟨same, tree, resolved, again, -⟩ := run_again still rfl answered
  exact ⟨rfl, answered, same, again.mpr (apart tree (by rw [resolved]; rfl))⟩

def selfsame : Build := { config := Path.ofText "routes.rs" }

def selfsameFiles : FileTree := FileTree.ofTexts [("routes.rs", "package: p\n")]

/-- The second build takes the module for its configuration. -/
theorem run_again_selfsame :
    let u := (selfsame.run still selfsameFiles).files
    selfsame.formats = false ∧
      (selfsame.run still selfsameFiles).answer = .ok (Path.ofText "routes.rs") ∧
      ∃ e, e.OfFiles ∧ (selfsame.run still u).answer = .error e := by
  intro u
  have answered : (selfsame.run still selfsameFiles).answer = .ok (Path.ofText "routes.rs") := by
    decide +kernel
  have touched : ∀ tree ∈ (selfsame.resolve selfsameFiles).toOption, ∃ p ∈ tree.paths,
      Overwritten u (Path.ofText "routes.rs") p := by
    decide +kernel
  obtain ⟨tree, c, resolved, -, emitted⟩ := emitted_of_run rfl answered
  obtain ⟨e, ofFiles, again⟩ := run_of_overwritten still emitted resolved
    (touched tree (by rw [resolved]; rfl))
  exact ⟨rfl, answered, e, ofFiles, congrArg Result.answer again⟩

end Build
end RouteForge
