import RouteForge.Proofs.Watch.History

/-! What a run of the watch keeps and prints. The state after a tick is that of its outcome and of the
latest build before it, an error is printed unless the tick before failed with the same text, and
nothing depends on whether the printing succeeds. -/
namespace RouteForge.Watch

/-! ### Lines -/

inductive Channel where
  | out
  | err
  deriving DecidableEq

/-- What printing a text does to the world, and whether it succeeds. -/
abbrev Device (σ : Type) := Channel → String → StateM σ Bool

/-- The lines that an outcome prints, with the time that a build took. -/
def Outcome.lines (elapsed : String) : Outcome → List (Channel × String)
  | built => [(.out, "Built changes in " ++ elapsed ++ "\n")]
  | failed message true => [(.err, message ++ "\n")]
  | failed _ false | unchanged => []

/-- The lines that go to one channel, as one text. -/
def Outcome.written (channel : Channel) (elapsed : String) (o : Outcome) : String :=
  String.join (((o.lines elapsed).filter (·.1 = channel)).map (·.2))

theorem Outcome.written_out (elapsed : String) (o : Outcome) :
    o.written .out elapsed = o.output elapsed := by
  match o with
  | built => exact String.empty_append
  | failed _ true | failed _ false | unchanged => exact String.join_nil

theorem Outcome.written_err (elapsed : String) (o : Outcome) :
    o.written .err elapsed = o.complaint := by
  match o with
  | failed _ true => exact String.empty_append
  | failed _ false | unchanged | built => exact String.join_nil

/-- The world after lines have been printed one after the other. -/
def printed {σ : Type} (device : Device σ) (lines : List (Channel × String)) (w : σ) : σ :=
  lines.foldl (fun w line => (device line.1 line.2 w).2) w

variable [Yaml.Wording]

/-! ### One tick -/

section Step

variable {b : Build} {format : Formatter} {s : State} {files : FileTree}

theorem lastHash_of_unbuilt (unbuilt : (tick b format s files).outcome ≠ .built) :
    (tick b format s files).state.lastHash = s.lastHash := by
  have course := tick_course b format s files
  generalize tick b format s files = t at course unbuilt
  cases course with
  | unresolved | unreadable | unchanged | failed => rfl
  | built => exact absurd rfl unbuilt

/-- The error kept is that of the outcome. -/
theorem lastError_eq_some_iff {m : String} : (tick b format s files).state.lastError = some m ↔
    ∃ reported, (tick b format s files).outcome = .failed m reported := by
  have course := tick_course b format s files
  generalize tick b format s files = t at course
  cases course with
  | unchanged | built => simp
  | unresolved | unreadable | failed =>
    constructor
    · intro kept
      cases kept
      exact ⟨_, rfl⟩
    · rintro ⟨reported, outcome⟩
      cases outcome
      rfl

theorem reported_iff_new {m : String} {reported : Bool}
    (failed : (tick b format s files).outcome = .failed m reported) :
    reported = true ↔ s.lastError ≠ some m := by
  have course := tick_course b format s files
  generalize tick b format s files = t at course failed
  cases course with
  | unchanged | built => cases failed
  | unresolved | unreadable | failed =>
    cases failed
    simp

end Step

/-! ### Printing -/

section Printing

variable {σ : Type} (device : Device σ)

/-- A failure that prints its message, if it is not suppressed. -/
def failOnto (s : State) (files : FileTree) (e : Error) : StateM σ Tick := do
  let new := s.lastError ≠ some e.message
  if new then
    let _ ← device .err (e.message ++ "\n")
  return { state := { s with lastError := some e.message }
           files := files
           outcome := .failed e.message new }

/-- A tick that prints as it goes. What has become of the text is not looked at. -/
def tickOnto (b : Build) (format : Formatter) (elapsed : String) (s : State) (files : FileTree) :
    StateM σ Tick :=
  match b.resolve files with
  | .error e => failOnto device s files e
  | .ok tree =>
    match tree.hash files.read with
    | .error e => failOnto device s files e
    | .ok hash =>
      if s.lastHash = some hash then
        return { state := { s with lastError := none }, files := files, outcome := .unchanged }
      else do
        let r := b.ofTree format tree files
        match r.answer with
        | .error e =>
          let t ← failOnto device s r.files e
          return { t with formatting? := r.formatting? }
        | .ok _ =>
          let _ ← device .out ("Built changes in " ++ elapsed ++ "\n")
          return { state := ⟨some hash, none⟩
                   files := r.files
                   outcome := .built
                   formatting? := r.formatting? }

theorem failOnto_eq (s : State) (files : FileTree) (e : Error) (elapsed : String) (w : σ) :
    failOnto device s files e w =
      (fail s files e, printed device ((fail s files e).outcome.lines elapsed) w) := by
  unfold failOnto fail
  by_cases known : s.lastError = some e.message
  · simp only [known, ne_eq, not_true_eq_false, decide_false]
    rfl
  · simp only [known, ne_eq, not_false_eq_true, decide_true]
    rfl

theorem tickOnto_eq (b : Build) (format : Formatter) (elapsed : String) (s : State)
    (files : FileTree) (w : σ) : tickOnto device b format elapsed s files w =
      (tick b format s files, printed device ((tick b format s files).outcome.lines elapsed) w) := by
  unfold tickOnto tick tickBetween
  cases resolved : b.resolve files with
  | error e => exact failOnto_eq device s files e elapsed w
  | ok tree =>
    cases hashed : tree.hash files.read with
    | error e =>
      simp only [hashed]
      exact failOnto_eq device s files e elapsed w
    | ok hash =>
      simp only [hashed]
      unfold build
      by_cases known : s.lastHash = some hash
      · simp only [if_pos known]
        rfl
      · simp only [if_neg known]
        cases answer : (b.ofTree format tree files).answer with
        | error e =>
          have failed := failOnto_eq device s (b.ofTree format tree files).files e elapsed w
          exact congrArg (fun x : Tick × σ =>
            ({ x.1 with formatting? := (b.ofTree format tree files).formatting? }, x.2)) failed
        | ok path => rfl

end Printing

/-! ### A run -/

/-- The turns of a run that prints as it goes. -/
def session {σ : Type} (device : Device σ) (b : Build) : List Round → StateM σ (List Turn)
  | [] => pure []
  | r :: earlier => do
    let turns ← session device b earlier
    let t ← tickOnto device b r.format r.elapsed (stateAfter turns) r.files
    return ⟨r.files, t⟩ :: turns

/-- The digests kept are those of the latest build, if there was one. -/
theorem lastHash_latest (b : Build) (rs : List Round) :
    match lastBuilt? (history b rs) with
    | none => (stateAfter (history b rs)).lastHash = none
    | some u => ∃ tree hash, b.resolve u.seen = .ok tree ∧ tree.hash u.seen.read = .ok hash ∧
        (stateAfter (history b rs)).lastHash = some hash := by
  have kept := lastHash_history b rs
  cases latest : lastBuilt? (history b rs) with
  | none =>
    rw [latest] at kept
    exact kept
  | some u =>
    rw [latest] at kept
    obtain ⟨-, tree, resolved⟩ := resolve_of_lastBuilt? latest
    exact ⟨tree, _, resolved, Build.hash_eq resolved, kept⟩

/-- The error kept is that of the latest turn. -/
theorem lastError_history (b : Build) (rs : List Round) (m : String) :
    (stateAfter (history b rs)).lastError = some m ↔
      ∃ u ∈ (history b rs).head?, ∃ reported, u.tick.outcome = .failed m reported := by
  cases rs with
  | nil => simp [history, stateAfter]
  | cons r earlier => simpa [history, stateAfter] using lastError_eq_some_iff

/-- One more tick goes on from what the session before it has come to. -/
theorem session_cons {σ : Type} (device : Device σ) (b : Build) (r : Round) (earlier : List Round)
    (w : σ) : session device b (r :: earlier) w =
      let before := session device b earlier w
      let t := tick b r.format (stateAfter before.1) r.files
      (⟨r.files, t⟩ :: before.1, printed device (t.outcome.lines r.elapsed) before.2) := by
  have last := tickOnto_eq device b r.format r.elapsed (stateAfter (session device b earlier w).1)
    r.files (session device b earlier w).2
  exact congrArg (fun x : Tick × σ => (⟨r.files, x.1⟩ :: (session device b earlier w).1, x.2)) last

/-- The turns of a run do not depend on what becomes of the printing. -/
theorem session_turns {σ : Type} (device : Device σ) (b : Build) (rs : List Round) (w : σ) :
    (session device b rs w).1 = history b rs := by
  induction rs with
  | nil => rfl
  | cons r earlier ih =>
    simp only [session_cons, ih, history]

/-- What holds after any tick of any run. The digests kept are those of the latest build, and a tick
that does not build leaves them. An error is kept exactly by the tick that failed with it, and it is
reported unless the tick before failed with the same text. Whatever the printing does to the world
and whether or not it succeeds, the run takes the same turns, and the tick prints one line out for a
build, one line of error for a reported failure, and otherwise nothing. -/
theorem tick_reports (b : Build) (r : Round) (earlier : List Round) :
    let turns := history b earlier
    let t := tick b r.format (stateAfter turns) r.files
    (match lastBuilt? (⟨r.files, t⟩ :: turns) with
      | none => t.state.lastHash = none
      | some u => ∃ tree hash, b.resolve u.seen = .ok tree ∧ tree.hash u.seen.read = .ok hash ∧
          t.state.lastHash = some hash) ∧
    (t.outcome ≠ .built → t.state.lastHash = (stateAfter turns).lastHash) ∧
    (∀ m, t.state.lastError = some m ↔ ∃ reported, t.outcome = .failed m reported) ∧
    (∀ m reported, t.outcome = .failed m reported →
      (reported = true ↔ ¬ ∃ u ∈ turns.head?, ∃ again, u.tick.outcome = .failed m again)) ∧
    ∀ {σ : Type} (device : Device σ) (w : σ),
      session device b (r :: earlier) w = (⟨r.files, t⟩ :: turns,
        printed device (t.outcome.lines r.elapsed) (session device b earlier w).2) := by
  intro turns t
  refine ⟨lastHash_latest b (r :: earlier), lastHash_of_unbuilt, fun _ => lastError_eq_some_iff,
    fun m reported failed => ?_, fun device w => ?_⟩
  · rw [reported_iff_new failed, ne_eq, lastError_history]
  · simp only [session_cons, session_turns, turns, t]

end RouteForge.Watch
