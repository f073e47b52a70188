import RouteForge.Proofs.Build.Stages
import RouteForge.Proofs.Watch.History

/-! The watch against the single build. A tick either knows the files and does nothing, or it does
what a build of the same files does and says the same of it. -/
namespace RouteForge.Watch

variable [Yaml.Wording]

section Agreement

variable {b : Build} {format : Formatter} {s : State} {files : FileTree}

/-- The files resolve and their digests are those of the last success. -/
def Known (b : Build) (s : State) (files : FileTree) : Prop :=
  ∃ tree hash, b.resolve files = .ok tree ∧ tree.hash files.read = .ok hash ∧
    s.lastHash = some hash

/-- A tick that goes the way of a build. -/
structure Follows (t : Tick) (r : Build.Result) : Prop where
  files : t.files = r.files
  formatting? : t.formatting? = r.formatting?
  built : t.outcome = .built ↔ ∃ path, r.answer = .ok path
  failed : ∀ e, r.answer = .error e → ∃ reported, t.outcome = .failed e.message reported

theorem Follows.of_ok {t : Tick} {r : Build.Result} {path : Path} (files : t.files = r.files)
    (formatting? : t.formatting? = r.formatting?) (built : t.outcome = .built)
    (answered : r.answer = .ok path) : Follows t r where
  files := files
  formatting? := formatting?
  built := iff_of_true built ⟨path, answered⟩
  failed := by
    intro e stopped
    rw [answered] at stopped
    cases stopped

theorem Follows.of_error {t : Tick} {r : Build.Result} {e : Error} {reported : Bool}
    (files : t.files = r.files) (formatting? : t.formatting? = r.formatting?)
    (failed : t.outcome = .failed e.message reported) (stopped : r.answer = .error e) :
    Follows t r where
  files := files
  formatting? := formatting?
  built := by
    refine iff_of_false (by simp [failed]) ?_
    rintro ⟨path, answered⟩
    rw [answered] at stopped
    cases stopped
  failed := by
    intro again same
    rw [stopped] at same
    cases same
    exact ⟨reported, failed⟩

theorem tick_known (known : Known b s files) :
    (tick b format s files).files = files ∧ (tick b format s files).outcome = .unchanged ∧
      (tick b format s files).formatting? = none := by
  obtain ⟨tree, hash, resolved, hashed, same⟩ := known
  have course := tick_course b format s files
  generalize tick b format s files = t at course
  cases course with
  | unchanged => exact ⟨rfl, rfl, rfl⟩
  | unresolved stopped =>
    rw [resolved] at stopped
    cases stopped
  | unreadable again stopped =>
    rw [resolved] at again
    cases again
    rw [hashed] at stopped
    cases stopped
  | failed again digests new | built again digests new =>
    rw [resolved] at again
    cases again
    rw [hashed] at digests
    cases digests
    exact absurd same new

/-- Files that a tick does not know it takes as a build does. -/
theorem tick_follows (unknown : ¬ Known b s files) :
    Follows (tick b format s files) (b.run format files) := by
  have course := tick_course b format s files
  generalize tick b format s files = t at course
  cases course with
  | unresolved stopped =>
    rw [Build.run_of_resolve_error stopped]
    exact .of_error rfl rfl rfl rfl
  | unreadable resolved stopped =>
    -- whatever has been resolved can be read again
    rw [Build.hash_eq resolved] at stopped
    cases stopped
  | unchanged resolved hashed known => exact absurd ⟨_, _, resolved, hashed, known⟩ unknown
  | failed resolved hashed new stopped =>
    rw [Build.run_of_resolve resolved]
    exact .of_error rfl rfl rfl stopped
  | built resolved hashed new answered =>
    rw [Build.run_of_resolve resolved]
    exact .of_ok rfl rfl rfl answered

end Agreement

/-- A tick and a build of the same files agree, whatever the watch has kept. Where the files do not
resolve or have other digests than those of the last success, the tick leaves the files that the
build leaves, with the same run of the formatter, it has built exactly when the build succeeds, and
otherwise it fails with the message of the build's error. Where the digests are known, the tick
leaves the files alone. Neither can fail over a checksum: what has been resolved can be read again. -/
theorem tick_agrees (b : Build) (format : Formatter) (s : State) (files : FileTree) :
    (¬ Known b s files → Follows (tick b format s files) (b.run format files)) ∧
    (Known b s files → (tick b format s files).files = files ∧
      (tick b format s files).outcome = .unchanged ∧
      (tick b format s files).formatting? = none) ∧
    (∀ tree, b.resolve files = .ok tree → ∃ hash, tree.hash files.read = .ok hash) ∧
    ∀ e, (b.run format files).answer = .error e → e.stage ≠ .digest := by
  refine ⟨tick_follows, tick_known, fun tree resolved => ⟨_, Build.hash_eq resolved⟩, ?_⟩
  intro e stopped digest
  rcases Build.stage_of_run stopped with input | output
  · rw [digest] at input
    cases input
  · rw [digest] at output
    cases output

end RouteForge.Watch
