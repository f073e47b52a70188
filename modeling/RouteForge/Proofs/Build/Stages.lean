import RouteForge.Proofs.Build.Emission
import RouteForge.Proofs.Include.Discovery
import RouteForge.Proofs.Include.Graph
import RouteForge.Proofs.Traversal

/-! Where an error of a build comes from. Whatever is wrong with the files that are read shows before
anything is written, and what goes wrong afterwards is an error of writing. -/
namespace RouteForge

/-- What a build was at when an error arose. -/
inductive Stage where
  | input
  | digest
  | output
  deriving DecidableEq, Repr

def Error.stage : Error → Stage
  | .includeCycle .. | .unreadable .. | .decode .. | .route .. => .input
  | .checksum .. => .digest
  | .unwritable .. | .format .. => .output

/-- The errors of files that cannot be resolved and merged: one that includes itself on some way, one that
cannot be opened, and one that is no document. -/
inductive Error.OfFiles : Error → Prop where
  | cycle (path : Path) (chain : List Path) : OfFiles (.includeCycle path chain)
  | unopened (path : Path) (reason : Refusal) : OfFiles (.unreadable path reason)
  | undecoded (path : Path) (reason : DecodeError) : OfFiles (.decode (.file path) reason)

theorem Error.OfFiles.stage {e : Error} (ofFiles : e.OfFiles) : e.stage = .input := by
  cases ofFiles <;> rfl

namespace IncludeTree

variable {e : Error}

/-- A tree that cannot be merged has a file that is no document. -/
theorem merged_error {t : IncludeTree} (stopped : t.merged = .error e) :
    ∃ p ∈ t.paths, ∃ r, e = .decode (.file p) r := by
  obtain ⟨⟨p, c⟩, member, here⟩ := exists_of_mapM_eq_error ((merged_eq_error_iff t e).mp stopped)
  obtain ⟨r, -, rfl⟩ := decode_eq_error_iff.mp here
  exact ⟨p, map_fst_listing t ▸ List.mem_map_of_mem member, r, rfl⟩

end IncludeTree

theorem RouteGroup.withRoutes_error {g : RouteGroup} {e : Error}
    (stopped : g.withRoutes = .error e) : ∃ line ∈ g.lines, ∃ r, e = .route line r := by
  unfold withRoutes at stopped
  cases read : g.lines.mapM (fun line => (Route.parse line).mapError (Error.route line)) with
  | ok routes => rw [read] at stopped; cases stopped
  | error r =>
    rw [read] at stopped
    cases stopped
    obtain ⟨line, member, here⟩ := exists_of_mapM_eq_error read
    cases parsed : Route.parse line with
    | ok route => rw [parsed] at here; cases here
    | error reason =>
      rw [parsed] at here
      cases here
      exact ⟨line, member, reason, rfl⟩

theorem Configuration.ofDocument_error {d : Document} {e : Error}
    (stopped : ofDocument d = .error e) :
    (∃ r, e = .decode .merged r) ∨ ∃ line r, e = .route line r := by
  unfold ofDocument at stopped
  cases shaped : ofTextDocument d.asText with
  | error r =>
    rw [shaped] at stopped
    cases stopped
    exact .inl ⟨r, rfl⟩
  | ok c =>
    rw [shaped] at stopped
    cases routes : c.groups.mapM RouteGroup.withRoutes with
    | ok groups => simp [Except.mapError, routes, bind, Except.bind, pure, Except.pure] at stopped
    | error r =>
      simp only [Except.mapError, routes, bind, Except.bind] at stopped
      cases stopped
      obtain ⟨g, -, here⟩ := exists_of_mapM_eq_error routes
      obtain ⟨line, -, reason, rfl⟩ := RouteGroup.withRoutes_error here
      exact .inr ⟨line, reason, rfl⟩

namespace Build

variable {b : Build} {format : Formatter} {files : FileTree} {tree : IncludeTree}
  {c : Configuration} {e : Error}

theorem run_of_resolve (resolved : b.resolve files = .ok tree) :
    b.run format files = b.ofTree format tree files := by
  unfold run
  rw [resolved]

theorem run_of_resolve_error (stopped : b.resolve files = .error e) :
    b.run format files = { files := files, answer := .error e } := by
  unfold run
  rw [stopped]

theorem ofTree_of_configuration (configured : configuration tree = .ok c) :
    b.ofTree format tree files = b.generate format c files := by
  unfold ofTree
  rw [configured]

theorem ofTree_of_configuration_error (stopped : configuration tree = .error e) :
    b.ofTree format tree files = { files := files, answer := .error e } := by
  unfold ofTree
  rw [stopped]

theorem ofFiles_of_resolve (stopped : b.resolve files = .error e) : e.OfFiles := by
  have explained := Include.explains_of_resolveRoot stopped
  cases e with
  | includeCycle path chain => exact .cycle path chain
  | unreadable path reason => exact .unopened path reason
  | decode origin reason =>
    cases origin with
    | file path => exact .undecoded path reason
    | merged => exact explained.elim
  | route | unwritable | format | checksum => exact explained.elim

theorem ofFiles_of_merged (stopped : tree.merged = .error e) : e.OfFiles := by
  obtain ⟨p, -, reason, rfl⟩ := IncludeTree.merged_error stopped
  exact .undecoded p reason

theorem stage_of_configuration (stopped : configuration tree = .error e) : e.stage = .input := by
  unfold configuration at stopped
  cases merged : tree.merged with
  | error r =>
    rw [merged] at stopped
    cases stopped
    exact (ofFiles_of_merged merged).stage
  | ok d =>
    rw [merged] at stopped
    rcases Configuration.ofDocument_error stopped with ⟨r, rfl⟩ | ⟨line, r, rfl⟩ <;> rfl

theorem stage_of_formatted {path : Path} {f : Formatting}
    (stopped : (formatted path f).answer = .error e) : e.stage = .output := by
  rcases formatted_error stopped with ⟨_, rfl⟩ | ⟨_, rfl⟩ <;> rfl

/-- A configuration that has been read can only fail to be written. -/
theorem stage_of_generate (stopped : (b.generate format c files).answer = .error e) :
    e.stage = .output := by
  unfold generate at stopped
  have writing := emit_writing b c files
  generalize b.emit c files = r at writing stopped
  cases writing with
  | undirected | refused | interrupted =>
    cases stopped
    rfl
  | written =>
    dsimp only at stopped
    split at stopped
    next => exact stage_of_formatted stopped
    next => cases stopped

theorem stage_of_ofTree (stopped : (b.ofTree format tree files).answer = .error e) :
    e.stage = .input ∨ e.stage = .output := by
  cases configured : configuration tree with
  | error r =>
    rw [ofTree_of_configuration_error configured] at stopped
    cases stopped
    exact .inl (stage_of_configuration configured)
  | ok c =>
    rw [ofTree_of_configuration configured] at stopped
    exact .inr (stage_of_generate stopped)

/-- A build never fails over a checksum. -/
theorem stage_of_run (stopped : (b.run format files).answer = .error e) :
    e.stage = .input ∨ e.stage = .output := by
  cases resolved : b.resolve files with
  | error r =>
    rw [run_of_resolve_error resolved] at stopped
    cases stopped
    exact .inl (ofFiles_of_resolve resolved).stage
  | ok tree =>
    rw [run_of_resolve resolved] at stopped
    exact stage_of_ofTree stopped

/-! For small projects: a root file in the working directory, and a formatter that does nothing. -/

def sole : Build := { config := Path.ofText "muxc.yaml" }

def still : Formatter := fun files _ => { files := files, ending := .ok (.exited 0) }

end Build
end RouteForge
