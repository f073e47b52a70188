import RouteForge.Proofs.Include.Resolution
import RouteForge.Proofs.Path.Canonical
import RouteForge.Proofs.Path.Ending

/-! Where a configuration is opened. Its path is taken apart into a directory and a name and put
together again, which leads back to the path that was given unless there is no name. A path that ends
in an ascent is taken whole from the directory in front of the ascent, so unless it starts at the
root that directory counts twice. -/
namespace RouteForge

namespace Path.Meaning

/-- A directory that counts twice before an ascent counts once if it has as many names as ascents,
which take all of its names back. -/
theorem andThen_ascend_eq_iff {m : Meaning} (relative : m.absolute = false) :
    m.andThen m.ascend = m.ascend ↔ m.ascents = m.names.length := by
  obtain ⟨absolute, ascents, names⟩ := m
  obtain rfl : absolute = false := relative
  rcases List.eq_nil_or_concat' names with rfl | ⟨front, name, rfl⟩
  · have climbed : ascend ⟨false, ascents, []⟩ = ⟨false, ascents + 1, []⟩ := by simp [ascend]
    rw [climbed, andThen, if_neg Bool.false_ne_true, iterate_ascend]
    simp
  · have back : ascend ⟨false, ascents, front ++ [name]⟩ = ⟨false, ascents, front⟩ := by
      simp [ascend]
    rw [back, andThen, if_neg Bool.false_ne_true, iterate_ascend, Meaning.mk.injEq]
    simp only [List.append_left_eq_self, List.take_eq_nil_iff, List.length_append,
      List.length_singleton, true_and, List.append_eq_nil_iff, List.cons_ne_nil, and_false, or_false]
    omega

end Path.Meaning

namespace Include

theorem meaning_name {name : List Char} (proper : Path.Proper name) :
    (Path.mk name).meaning = (Path.Meaning.start false).enter name := by
  have split : (Path.mk name).segments = [name] := Text.splitOn_of_not_mem proper.2.2.2
  have relative : (Path.mk name).isAbsolute = false := Path.isAbsolute_of_slashless proper.2.2.2
  rw [Path.meaning, split, relative, List.foldl_cons, List.foldl_nil, Path.Meaning.read_name proper]

/-- The place where a configuration is opened is its own, unless its path is relative and ends in an
ascent. Then it is only if the directory in front is left as often as it is entered. -/
theorem rootOf_eq_clean_iff (config : Path) : rootOf config = config.clean ↔
    config.fileName? ≠ none ∨ config.isAbsolute = true ∨
      (baseOf config).meaning.ascents = (baseOf config).meaning.names.length := by
  have ending := config.ending
  have absolute := config.absolute_meaning
  unfold rootOf place nameOf baseOf
  rw [Path.clean_eq_clean_iff, Path.meaning_join]
  generalize config.parent? = parent at ending
  generalize config.fileName? = name at ending
  have joined : (Path.meaning ⟨[]⟩).andThen config.meaning = config.meaning := by
    rw [← Path.meaning_join]
    simp [Path.join]
  cases ending with
  | nothing | dot =>
    have level : (Path.meaning ⟨[]⟩).ascents = (Path.meaning ⟨[]⟩).names.length := by decide
    exact iff_of_true joined (.inr (.inr level))
  | @name parent name proper whole =>
    have entered : parent.meaning.andThen (Path.mk name).meaning = config.meaning := by
      rw [meaning_name proper, whole]
      simp [Path.Meaning.andThen, Path.Meaning.start, Path.Meaning.enter]
    simp [entered]
  | @ascent parent whole =>
    cases rooted : config.isAbsolute with
    | true => simp [Path.Meaning.andThen, rooted]
    | false =>
      have relative : parent.meaning.absolute = false := by
        rw [← Path.Meaning.absolute_ascend, ← whole, absolute, rooted]
      simp [whole, Path.Meaning.andThen_ascend_eq_iff relative]

/-- A configuration is opened at one place. If nothing can be read there, the error names it, and a
tree that is resolved has it as the path of its root. It is the cleaned path of the configuration
exactly if that path ends in a name or starts at the root, or if the directory in front of its last
ascent has as many names as ascents. -/
theorem opened_as_given_iff (config : Path) :
    (∀ t reason, t.read (rootOf config) = .error reason →
      resolveRoot t config = .error (.unreadable (rootOf config) reason)) ∧
    (∀ t tree, resolveRoot t config = .ok tree →
      tree.path = rootOf config ∧ ∃ bytes, t.read (rootOf config) = .ok bytes) ∧
    (rootOf config = config.clean ↔
      config.fileName? ≠ none ∨ config.isAbsolute = true ∨
        (baseOf config).meaning.ascents = (baseOf config).meaning.names.length) := by
  refine ⟨fun t reason refused => ?_, fun t tree resolved => ?_, rootOf_eq_clean_iff config⟩
  · rw [rootOf] at refused
    rw [resolveRoot, fetch, refused]
    rfl
  · obtain ⟨bytes, fetched, resolves⟩ := resolveRoot_eq_ok_iff.mp resolved
    exact ⟨resolves.path_eq, bytes, fetched⟩

/-- A configuration in the working directory. -/
def workingFile : FileTree where
  entries := [(["a".toList], .file "out: gen\n".toUTF8 false)]
  here := []

/-- The working directory, written as an ascent, is opened as the file that the ascent leaves. -/
theorem opened_as_given_iff_ascent : ∃ tree,
    resolveRoot workingFile (Path.ofText "a/..") = .ok tree ∧ tree.path = Path.ofText "a" ∧
      rootOf (Path.ofText "a/..") ≠ (Path.ofText "a/..").clean ∧
      (Path.ofText "a/..").clean = Path.ofText "." := by
  obtain ⟨-, opened, given⟩ := opened_as_given_iff (Path.ofText "a/..")
  have place : rootOf (Path.ofText "a/..") = Path.ofText "a" := by decide
  have listed : (resolveRoot workingFile (Path.ofText "a/..")).map IncludeTree.paths =
      .ok [Path.ofText "a"] := by
    decide +kernel
  cases resolved : resolveRoot workingFile (Path.ofText "a/..") with
  | error e =>
    rw [resolved] at listed
    cases listed
  | ok tree =>
    refine ⟨tree, rfl, (opened workingFile tree resolved).1.trans place, mt given.mp ?_, by decide⟩
    decide

end Include
end RouteForge
