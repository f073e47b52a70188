import Mathlib.Data.List.Dedup
import RouteForge.Proofs.Include.Decoding
import RouteForge.Watch

/-! Runs of the watch. Each tick of a run sees files of its own, in which anything may have changed
since the tick before, and a formatter of its own. The turns of a run are listed the latest first. The
digests that a run has kept are those of its latest build. -/
namespace RouteForge

namespace Build

/-- What the files hold that a configuration is resolved from. -/
def contentsOf (b : Build) (files : FileTree) : List ByteArray :=
  match b.resolve files with
  | .ok tree => tree.paths.map (held files.read)
  | .error _ => []

/-- No two contents that some of the files have are of one digest. -/
def Collisionless (b : Build) (states : List FileTree) : Prop :=
  Set.InjOn Sha256.digest {x | x ∈ states.flatMap b.contentsOf}

variable {b : Build} {files seen : FileTree} {states : List FileTree} {tree other : IncludeTree}

theorem exists_tree (sound : (b.resolve files).isOk = true) : ∃ tree, b.resolve files = .ok tree := by
  cases resolved : b.resolve files with
  | ok tree => exact ⟨tree, rfl⟩
  | error e => rw [resolved] at sound; cases sound

theorem contentsOf_eq (resolved : b.resolve files = .ok tree) :
    b.contentsOf files = tree.paths.map (held files.read) := by
  unfold contentsOf
  rw [resolved]

theorem hash_eq (resolved : b.resolve files = .ok tree) :
    tree.hash files.read = .ok (String.ofList (Sha256.row (b.contentsOf files))) := by
  rw [(Include.readable_of_resolveRoot resolved).hash, contentsOf_eq resolved]

theorem raw_eq (resolved : b.resolve files = .ok tree) :
    tree.raw files.read = .ok (b.contentsOf files) := by
  rw [(Include.readable_of_resolveRoot resolved).raw, contentsOf_eq resolved]

theorem collisionless_of_nodup [DecidableEq ByteArray]
    (distinct : ((states.flatMap b.contentsOf).dedup.map Sha256.digest).Nodup) :
    b.Collisionless states := by
  intro x here y there same
  exact List.inj_on_of_nodup_map distinct (List.mem_dedup.mpr here) (List.mem_dedup.mpr there) same

theorem Collisionless.mono {fewer : List FileTree} (apart : b.Collisionless states)
    (inside : ∀ files ∈ fewer, files ∈ states) : b.Collisionless fewer := by
  refine Set.InjOn.mono ?_ apart
  intro x member
  obtain ⟨files, here, held⟩ := List.mem_flatMap.mp member
  exact List.mem_flatMap.mpr ⟨files, inside files here, held⟩

theorem Collisionless.contents_eq (apart : b.Collisionless states) (here : files ∈ states)
    (there : seen ∈ states)
    (same : Sha256.row (b.contentsOf files) = Sha256.row (b.contentsOf seen)) :
    b.contentsOf files = b.contentsOf seen :=
  Sha256.row_injOn apart (fun _ member => List.mem_flatMap.mpr ⟨files, here, member⟩)
    (fun _ member => List.mem_flatMap.mpr ⟨seen, there, member⟩) same

theorem tree_eq_of_contents_eq (resolved : b.resolve files = .ok tree)
    (again : b.resolve seen = .ok other) (same : b.contentsOf files = b.contentsOf seen) :
    tree = other := by
  rw [contentsOf_eq resolved, contentsOf_eq again] at same
  exact Include.eq_of_contents_eq resolved again same

end Build

namespace Watch

/-- A tick and the files that it saw. -/
structure Turn where
  seen : FileTree
  tick : Tick

/-- What the latest turn has kept. -/
def stateAfter : List Turn → State
  | [] => {}
  | u :: _ => u.tick.state

def lastBuilt? (turns : List Turn) : Option Turn := turns.find? (·.tick.outcome = .built)

theorem lastBuilt?_cons_built {u : Turn} (built : u.tick.outcome = .built) (turns : List Turn) :
    lastBuilt? (u :: turns) = some u := by
  simp [lastBuilt?, built]

theorem lastBuilt?_cons_unbuilt {u : Turn} (unbuilt : u.tick.outcome ≠ .built)
    (turns : List Turn) : lastBuilt? (u :: turns) = lastBuilt? turns := by
  simp [lastBuilt?, unbuilt]

variable [Yaml.Wording]

section Course

variable (b : Build) (format : Formatter) (s : State) (seen files : FileTree)

/-- What a tick comes to, by the stage that ends it. -/
inductive Course : Tick → Prop where
  | unresolved {e} (stopped : b.resolve seen = .error e) : Course (fail s files e)
  | unreadable {tree e} (resolved : b.resolve seen = .ok tree)
      (stopped : tree.hash files.read = .error e) : Course (fail s files e)
  | unchanged {tree hash} (resolved : b.resolve seen = .ok tree)
      (hashed : tree.hash files.read = .ok hash) (known : s.lastHash = some hash) :
      Course { state := { s with lastError := none }, files := files, outcome := .unchanged }
  | failed {tree hash e} (resolved : b.resolve seen = .ok tree)
      (hashed : tree.hash files.read = .ok hash) (new : s.lastHash ≠ some hash)
      (stopped : (b.ofTree format tree files).answer = .error e) :
      Course { fail s (b.ofTree format tree files).files e with
        formatting? := (b.ofTree format tree files).formatting? }
  | built {tree hash path} (resolved : b.resolve seen = .ok tree)
      (hashed : tree.hash files.read = .ok hash) (new : s.lastHash ≠ some hash)
      (answered : (b.ofTree format tree files).answer = .ok path) :
      Course { state := ⟨some hash, none⟩
               files := (b.ofTree format tree files).files
               outcome := .built
               formatting? := (b.ofTree format tree files).formatting? }

theorem tickBetween_course :
    Course b format s seen files (tickBetween b format s seen files) := by
  unfold tickBetween
  cases resolved : b.resolve seen with
  | error e => exact .unresolved resolved
  | ok tree =>
    cases hashed : tree.hash files.read with
    | error e =>
      simp only [hashed]
      exact .unreadable resolved hashed
    | ok hash =>
      simp only [hashed]
      unfold build
      by_cases known : s.lastHash = some hash
      · rw [if_pos known]
        exact .unchanged resolved hashed known
      · rw [if_neg known]
        cases answer : (b.ofTree format tree files).answer with
        | error e =>
          simp only [answer]
          exact .failed resolved hashed known answer
        | ok path =>
          simp only [answer]
          exact .built resolved hashed known answer

theorem tick_course : Course b format s files files (tick b format s files) :=
  tickBetween_course b format s files files

end Course

/-- What a tick of a run meets: the files, what the formatter does this time, and the time that a
build takes, as it is printed. -/
structure Round where
  files : FileTree
  format : Formatter
  elapsed : String := ""

/-- The turns of a run from a fresh start, both the latest first. -/
def history (b : Build) : List Round → List Turn
  | [] => []
  | r :: earlier =>
    ⟨r.files, tick b r.format (stateAfter (history b earlier)) r.files⟩ :: history b earlier

variable {b : Build} {format : Formatter} {s : State} {seen : FileTree} {rs : List Round}

theorem hash_of_unchanged (unchanged : (tick b format s seen).outcome = .unchanged) :
    ∃ tree hash, b.resolve seen = .ok tree ∧ tree.hash seen.read = .ok hash ∧
      s.lastHash = some hash := by
  have course := tick_course b format s seen
  generalize tick b format s seen = t at course unchanged
  cases course with
  | unresolved | unreadable | failed | built => cases unchanged
  | unchanged resolved hashed known => exact ⟨_, _, resolved, hashed, known⟩

theorem mem_history {u : Turn} (member : u ∈ history b rs) :
    ∃ r ∈ rs, u.seen = r.files ∧ ∃ s, u.tick = tick b r.format s u.seen := by
  induction rs with
  | nil => cases member
  | cons r earlier ih =>
    rcases List.mem_cons.mp member with rfl | member
    · exact ⟨r, List.mem_cons_self, rfl, _, rfl⟩
    · obtain ⟨q, here, origin⟩ := ih member
      exact ⟨q, List.mem_cons_of_mem _ here, origin⟩

/-- The latest build is of files that resolve and that the run has seen. -/
theorem resolve_of_lastBuilt? {u : Turn} (latest : lastBuilt? (history b rs) = some u) :
    u.seen ∈ rs.map (·.files) ∧ ∃ tree, b.resolve u.seen = .ok tree := by
  obtain ⟨r, here, seen, s, origin⟩ := mem_history (List.mem_of_find?_eq_some latest)
  have built : u.tick.outcome = .built := by simpa using List.find?_some latest
  have course := tick_course b r.format s u.seen
  rw [← origin] at course
  generalize u.tick = t at course built
  cases course with
  | unresolved | unreadable | unchanged | failed => cases built
  | built resolved => exact ⟨seen ▸ List.mem_map_of_mem here, _, resolved⟩

/-- A run has kept the digests of its latest build. -/
theorem lastHash_history (b : Build) (rs : List Round) : (stateAfter (history b rs)).lastHash =
    (lastBuilt? (history b rs)).map
      (fun u => String.ofList (Sha256.row (b.contentsOf u.seen))) := by
  induction rs with
  | nil => rfl
  | cons r earlier ih =>
    have course := tick_course b r.format (stateAfter (history b earlier)) r.files
    rw [history]
    generalize tick b r.format (stateAfter (history b earlier)) r.files = t at course
    cases course with
    | unresolved | unreadable | unchanged | failed => exact ih
    | built resolved hashed =>
      rw [Build.hash_eq resolved] at hashed
      cases hashed
      rfl

/-! A small project: one root file in the working directory and a formatter that does nothing. -/

def plain : Build := { config := Path.ofText "muxc.yaml" }

def single (text : String) : FileTree := FileTree.ofTexts [("muxc.yaml", text)]

def idle : Formatter := fun files _ => { files := files, ending := .ok (.exited 0) }

end Watch
end RouteForge
