import RouteForge.Proofs.Build.Stages
import RouteForge.Proofs.Watch.Detection

/-! Whether the module on disk is that of the configuration. A build that fails once it has opened the
module's file has already replaced the text, by as much of the new one as got through or by what the
formatter has made of it. The digests kept are still those of the build before, so files that go back
to what they were then find what the failure has left in the module's place. -/
namespace RouteForge.Watch

open FileTree (Keeps Leaves)

section Remains

variable {b : Build} {rewrite : ByteArray → ByteArray} {seen : FileTree} {u : Turn}
  {turns : List Turn} {tree : IncludeTree} {c : Configuration} {p : Path} {l : Location}

/-- The configuration that a turn read, if it came so far. -/
def Turn.configuration? (b : Build) (u : Turn) : Option Configuration :=
  (b.resolve u.seen >>= Build.configuration).toOption

/-- Nothing else touches a module: a place that some turn had for one holds what the latest turn
has left there. -/
def Untouched (b : Build) (turns : List Turn) (seen : FileTree) : Prop :=
  ∀ last ∈ turns.head?, ∀ u ∈ turns, ∀ c ∈ u.configuration? b,
    ∀ e, last.tick.files.lookup (b.target c) = .ok e → seen.lookup (b.target c) = .ok e

instance (b : Build) (turns : List Turn) (seen : FileTree) : Decidable (Untouched b turns seen) :=
  have (last : Turn) (c : Configuration) : Decidable (∀ e,
      last.tick.files.lookup (b.target c) = .ok e → seen.lookup (b.target c) = .ok e) :=
    match last.tick.files.lookup (b.target c) with
    | .error _ => isTrue nofun
    | .ok e => decidable_of_iff (seen.lookup (b.target c) = .ok e)
      ⟨fun same _ equal => Except.ok.inj equal ▸ same, fun kept => kept e rfl⟩
  inferInstanceAs (Decidable (∀ last ∈ turns.head?, ∀ u ∈ turns, ∀ c ∈ u.configuration? b, _))

/-- What a turn that fails has left at a path, if that is where it opened its module's file. -/
def Turn.left? (b : Build) (rewrite : ByteArray → ByteArray) (p : Path) (u : Turn) :
    Option ByteArray := do
  let c ← u.configuration? b
  let l ← b.place? c u.seen
  if u.tick.files.locate p = .ok l then some (b.residue rewrite c u.seen.medium l) else none

/-- What the builds that failed since the latest one that succeeded have left at a path. -/
def remains (b : Build) (rewrite : ByteArray → ByteArray) (p : Path) : List Turn → Option ByteArray
  | [] => none
  | u :: earlier =>
    match u.tick.outcome with
    | .built => none
    | .unchanged => remains b rewrite p earlier
    | .failed .. => (u.left? b rewrite p).or (remains b rewrite p earlier)

theorem getD_eq_self_iff {α : Type} {left : Option α} {y : α} :
    left.getD y = y ↔ ∀ x, left = some x → x = y := by
  cases left <;> simp

theorem remains_cons_built (built : u.tick.outcome = .built) :
    remains b rewrite p (u :: turns) = none := by
  simp only [remains, built]

theorem remains_cons_unchanged (unchanged : u.tick.outcome = .unchanged) :
    remains b rewrite p (u :: turns) = remains b rewrite p turns := by
  simp only [remains, unchanged]

theorem remains_cons_failed {message : String} {reported : Bool}
    (failed : u.tick.outcome = .failed message reported) : remains b rewrite p (u :: turns) =
      (u.left? b rewrite p).or (remains b rewrite p turns) := by
  simp only [remains, failed]

theorem left?_of_unconfigured (unconfigured : u.configuration? b = none) :
    u.left? b rewrite p = none := by
  simp only [Turn.left?, unconfigured, bind, Option.bind]

theorem left?_of_closed (configured : u.configuration? b = some c)
    (closed : b.place? c u.seen = none) : u.left? b rewrite p = none := by
  simp only [Turn.left?, configured, closed, bind, Option.bind]

theorem left?_of_opened (configured : u.configuration? b = some c)
    (opened : b.place? c u.seen = some l) : u.left? b rewrite p =
      if u.tick.files.locate p = .ok l then some (b.residue rewrite c u.seen.medium l)
      else none := by
  simp only [Turn.left?, configured, opened, bind, Option.bind]

theorem configuration?_of_resolve (resolved : b.resolve u.seen = .ok tree) :
    u.configuration? b = (Build.configuration tree).toOption := by
  simp only [Turn.configuration?, resolved, bind, Except.bind]

theorem configuration?_eq (resolved : b.resolve u.seen = .ok tree)
    (configured : Build.configuration tree = .ok c) : u.configuration? b = some c := by
  rw [configuration?_of_resolve resolved, configured]
  rfl

/-- What a turn does to the files. It leaves every file as it was if it finds nothing changed or fails
before it has opened its module's file; otherwise it leaves something in that file's place. -/
inductive Effect (b : Build) (rewrite : ByteArray → ByteArray) (u : Turn) : Prop where
  | still (unchanged : u.tick.outcome = .unchanged) (keeps : Keeps u.seen u.tick.files)
  | blocked {message : String} {reported : Bool} (failed : u.tick.outcome = .failed message reported)
      (nothing : ∀ p, u.left? b rewrite p = none) (keeps : Keeps u.seen u.tick.files)
  | spoiled {message : String} {reported : Bool} {c : Configuration} {l : Location}
      (failed : u.tick.outcome = .failed message reported)
      (configured : u.configuration? b = some c) (opened : b.place? c u.seen = some l)
      (cause : b.formats = true ∨ ¬ u.seen.medium.Steady)
      (located : u.tick.files.locate (b.target c) = .ok l)
      (leaves : Leaves u.seen u.tick.files (b.target c) (b.residue rewrite c u.seen.medium l))
  | built {c : Configuration} (configured : u.configuration? b = some c)
      (built : u.tick.outcome = .built)
      (leaves : Leaves u.seen u.tick.files (b.target c) (b.product rewrite c))

namespace Effect

/-- A turn that does not build keeps what a path held, but for what it leaves there as it fails. -/
theorem holds {x : ByteArray} (effect : Effect b rewrite u) (unbuilt : u.tick.outcome ≠ .built)
    (held : u.seen.Holds p ((remains b rewrite p turns).getD x)) :
    u.tick.files.Holds p ((remains b rewrite p (u :: turns)).getD x) := by
  cases effect with
  | still unchanged keeps =>
    rw [remains_cons_unchanged unchanged]
    exact held.keep fun _ found => keeps.lookup found
  | blocked failed nothing keeps =>
    rw [remains_cons_failed failed, nothing, Option.none_or]
    exact held.keep fun _ found => keeps.lookup found
  | spoiled failed configured opened _ located leaves =>
    rw [remains_cons_failed failed, left?_of_opened configured opened]
    split
    next here => exact leaves.holds_same (here.trans located.symm)
    next apart =>
      rw [Option.none_or]
      exact leaves.holds_other held fun same => apart (same.trans located)
  | built _ built => exact absurd built unbuilt

theorem holds_product (effect : Effect b rewrite u) (built : u.tick.outcome = .built)
    (configured : u.configuration? b = some c) :
    u.tick.files.Holds (b.target c) (b.product rewrite c) := by
  cases effect with
  | still unchanged => rw [unchanged] at built; cases built
  | blocked failed | spoiled failed => rw [failed] at built; cases built
  | built same _ leaves =>
    rw [configured] at same
    cases same
    exact leaves.holds

end Effect

end Remains

section Freshness

variable [Yaml.Wording] {b : Build} {rewrite : ByteArray → ByteArray}
  {ending : ByteArray → Except Refusal Status} {now : Round} {rs : List Round} {tree : IncludeTree}
  {c : Configuration}

def Undisturbed (b : Build) : List Round → Prop
  | [] => True
  | r :: earlier => Untouched b (history b earlier) r.files ∧ Undisturbed b earlier

instance decidableUndisturbed (b : Build) : ∀ rs, Decidable (Undisturbed b rs)
  | [] => isTrue trivial
  | r :: earlier =>
    have := decidableUndisturbed b earlier
    inferInstanceAs (Decidable (Untouched b (history b earlier) r.files ∧ Undisturbed b earlier))

theorem tick_effect (b : Build) (rewrite : ByteArray → ByteArray)
    (ending : ByteArray → Except Refusal Status) (s : State) (seen : FileTree) :
    Effect b rewrite ⟨seen, tick b (.ofText rewrite ending) s seen⟩ := by
  have course := tick_course b (.ofText rewrite ending) s seen
  generalize tick b (.ofText rewrite ending) s seen = t at course
  cases course with
  | unresolved stopped =>
    refine .blocked rfl (fun p => left?_of_unconfigured ?_) (.refl seen)
    simp only [Turn.configuration?, stopped, bind, Except.bind, Except.toOption]
  | unreadable resolved stopped =>
    -- whatever has been resolved can be read again
    rw [Build.hash_eq resolved] at stopped
    cases stopped
  | unchanged => exact .still rfl (.refl seen)
  | @failed tree hash e resolved hashed new stopped =>
    have read (t : Tick) : (⟨seen, t⟩ : Turn).configuration? b =
        (Build.configuration tree).toOption := configuration?_of_resolve resolved
    cases configured : Build.configuration tree with
    | error r =>
      rw [configured] at read
      rw [Build.ofTree_of_configuration_error configured]
      exact .blocked rfl (fun p => left?_of_unconfigured (read _)) (.refl seen)
    | ok c =>
      rw [configured] at read
      rw [Build.ofTree_of_configuration configured] at stopped ⊢
      have emission := Build.generate_emission b rewrite ending c seen
      generalize b.generate (.ofText rewrite ending) c seen = r at emission stopped
      cases emission with
      | blocked closed _ keeps =>
        exact .blocked rfl (fun p => left?_of_closed (read _) closed) keeps
      | spoiled opened _ cause located leaves =>
        exact .spoiled rfl (read _) opened cause located leaves
      | done answered => rw [answered] at stopped; cases stopped
  | @built tree hash path resolved hashed new answered =>
    have read (t : Tick) : (⟨seen, t⟩ : Turn).configuration? b =
        (Build.configuration tree).toOption := configuration?_of_resolve resolved
    cases configured : Build.configuration tree with
    | error r =>
      rw [Build.ofTree_of_configuration_error configured] at answered
      cases answered
    | ok c =>
      rw [configured] at read
      rw [Build.ofTree_of_configuration configured] at answered ⊢
      obtain ⟨-, leaves⟩ := (Build.generate_emission b rewrite ending c seen).leaves answered
      exact .built (read _) rfl leaves

/-- After a build the module's place holds its product, until a build that fails leaves something else
there. -/
theorem holds_history {u last : Turn} (uniform : ∀ r ∈ rs, r.format = .ofText rewrite ending)
    (undisturbed : Undisturbed b rs) (latest : lastBuilt? (history b rs) = some u)
    (configured : u.configuration? b = some c) (head : (history b rs).head? = some last) :
    last.tick.files.Holds (b.target c)
      ((remains b rewrite (b.target c) (history b rs)).getD (b.product rewrite c)) := by
  induction rs generalizing last with
  | nil => cases head
  | cons r earlier ih =>
    obtain ⟨untouched, undisturbed⟩ := undisturbed
    obtain ⟨format, uniform⟩ := List.forall_mem_cons.mp uniform
    have effect := tick_effect b rewrite ending (stateAfter (history b earlier)) r.files
    rw [← format] at effect
    rw [history] at latest head ⊢
    generalize history b earlier = turns at *
    cases head
    by_cases built : (tick b r.format (stateAfter turns) r.files).outcome = .built
    · rw [lastBuilt?_cons_built built] at latest
      cases latest
      rw [remains_cons_built built]
      exact effect.holds_product built configured
    · rw [lastBuilt?_cons_unbuilt built] at latest
      have member : u ∈ turns := List.mem_of_find?_eq_some latest
      have front := List.head?_eq_some_head (List.ne_nil_of_mem member)
      have held := (ih uniform undisturbed latest front).keep
        (untouched _ front u member c configured)
      exact effect.holds built held

theorem configuration_of_built {u : Turn} (uniform : ∀ r ∈ rs, r.format = .ofText rewrite ending)
    (latest : lastBuilt? (history b rs) = some u) (resolved : b.resolve u.seen = .ok tree) :
    ∃ c, Build.configuration tree = .ok c ∧ u.configuration? b = some c := by
  obtain ⟨r, member, -, s, origin⟩ := mem_history (List.mem_of_find?_eq_some latest)
  have built : u.tick.outcome = .built := by simpa using List.find?_some latest
  have effect := tick_effect b rewrite ending s u.seen
  rw [← uniform r member, ← origin] at effect
  cases effect with
  | still unchanged => rw [unchanged] at built; cases built
  | blocked failed | spoiled failed => rw [failed] at built; cases built
  | built configured =>
    cases read : Build.configuration tree with
    | ok c => exact ⟨c, rfl, configuration?_eq resolved read⟩
    | error e =>
      rw [configuration?_of_resolve resolved, read] at configured
      cases configured

/-- Without a formatter and on a medium that breaks nothing off, no failure leaves anything. -/
theorem remains_of_steady (uniform : ∀ r ∈ rs, r.format = .ofText rewrite ending)
    (off : b.formats = false) (steady : ∀ r ∈ rs, r.files.medium.Steady) (p : Path) :
    remains b rewrite p (history b rs) = none := by
  induction rs with
  | nil => rfl
  | cons r earlier ih =>
    obtain ⟨format, uniform⟩ := List.forall_mem_cons.mp uniform
    obtain ⟨sound, steady⟩ := List.forall_mem_cons.mp steady
    have effect := tick_effect b rewrite ending (stateAfter (history b earlier)) r.files
    rw [← format] at effect
    rw [history]
    cases effect with
    | still unchanged => rw [remains_cons_unchanged unchanged, ih uniform steady]
    | blocked failed nothing =>
      rw [remains_cons_failed failed, nothing, Option.none_or, ih uniform steady]
    | spoiled _ _ _ cause =>
      rcases cause with on | broken
      · rw [off] at on
        cases on
      · exact absurd sound broken
    | built _ built => exact remains_cons_built built

/-- Whenever a tick of a run has built or finds nothing changed, the module's place holds what a
build of the tree that was resolved leaves there, unless a build that failed since the latest one has
left something else in that place: the beginning of a module whose writing broke off, or what a
formatter that failed has made of one. So a tick that has built never finds a stale module, nor does a
run without a formatter in which no write breaks off. -/
theorem module_fresh_iff (rewrite : ByteArray → ByteArray)
    (ending : ByteArray → Except Refusal Status)
    (uniform : ∀ r ∈ now :: rs, r.format = .ofText rewrite ending)
    (undisturbed : Undisturbed b (now :: rs))
    (apart : b.Collisionless ((now :: rs).map (·.files))) :
    let turns := history b rs
    let t := tick b now.format (stateAfter turns) now.files
    t.outcome = .unchanged ∨ t.outcome = .built →
    ∃ tree c, b.resolve now.files = .ok tree ∧ Build.configuration tree = .ok c ∧
      (∀ files path, (b.ofTree (.ofText rewrite ending) tree files).answer = .ok path →
        path = b.target c ∧
          (b.ofTree (.ofText rewrite ending) tree files).files.Holds path (b.product rewrite c)) ∧
      (t.files.lookup (b.target c) ≠ .ok .sink →
        (t.files.read (b.target c) = .ok (b.product rewrite c) ↔
          ∀ x, remains b rewrite (b.target c) (⟨now.files, t⟩ :: turns) = some x →
            x = b.product rewrite c) ∧
        (t.outcome = .built ∨ b.formats = false ∧ (∀ r ∈ rs, r.files.medium.Steady) →
          t.files.read (b.target c) = .ok (b.product rewrite c))) := by
  intro turns t settled
  obtain ⟨u, tree, latest, origin, resolved⟩ := lastBuilt?_of_settled apart settled
  obtain ⟨c, configured, read⟩ := configuration_of_built uniform latest origin
  have run : history b (now :: rs) = ⟨now.files, t⟩ :: turns := rfl
  have front : (history b (now :: rs)).head? = some ⟨now.files, t⟩ := by
    rw [run, List.head?_cons]
  have holds := holds_history uniform undisturbed latest read front
  rw [run] at holds
  have fresh (solid : t.files.lookup (b.target c) ≠ .ok .sink) :
      t.files.read (b.target c) = .ok (b.product rewrite c) ↔
        ∀ x, remains b rewrite (b.target c) (⟨now.files, t⟩ :: turns) = some x →
          x = b.product rewrite c :=
    (holds.read_iff solid).trans getD_eq_self_iff
  refine ⟨tree, c, resolved, configured, ?_, fun solid => ⟨fresh solid, fun sound => ?_⟩⟩
  · intro files path answered
    exact Build.holds_product configured answered
  have nothing : remains b rewrite (b.target c) (⟨now.files, t⟩ :: turns) = none := by
    rcases settled with unchanged | built
    · rcases sound with built | ⟨off, steady⟩
      · exact remains_cons_built built
      · rw [remains_cons_unchanged unchanged]
        exact remains_of_steady (List.forall_mem_cons.mp uniform).2 off steady (b.target c)
    · exact remains_cons_built built
  rw [fresh solid, nothing]
  nofun

end Freshness

/-! Two runs that go back: one configuration is built, the next fails once the module is open, and then
the first is restored. In one of them a formatter fails, which leaves the length of a text; in the
other the medium has no room for the module. -/

def tidy : Build := { config := Path.ofText "muxc.yaml", formats := true }

def lengthOf (x : ByteArray) : ByteArray := (toString x.size).toUTF8

def verdict (x : ByteArray) : Except Refusal Status := .ok (.exited (if x.size ≤ 225 then 0 else 1))

def measure : Formatter := .ofText lengthOf verdict

def measured (files : FileTree) : Round := { files := files, format := measure }

def original : FileTree := single "package: a\n"

def broken : FileTree := FileTree.ofTexts [("muxc.yaml", "package: bad\n"), ("routes.rs", "225")]

def restored : FileTree := FileTree.ofTexts [("muxc.yaml", "package: a\n"), ("routes.rs", "227")]

def crowded : Medium where
  interrupts _ _ := some ⟨3, .noSpace⟩

def originalModule : String :=
  "// Code generated by muxc. DO NOT EDIT.\n// versions:\n//   muxc v1.0.0\n// source: muxc.yaml\n\n" ++
  "//! Route registrations for the `a` package.\n\n" ++
  "/// Registers every configured route on `mux`.\npub fn configure_mux(mux: &mut Mux) \x7b\n\x7d\n"

def full : FileTree :=
  { FileTree.ofTexts [("muxc.yaml", "package: bad\n"), ("routes.rs", originalModule)] with
    medium := crowded }

def torn : FileTree := FileTree.ofTexts [("muxc.yaml", "package: a\n"), ("routes.rs", "// ")]

/-- The last tick of a run finds nothing changed, and since the latest build a failure has left
something in the place of the module. -/
def Relapses (b : Build) (now : Round) (earlier : List Round) (left : ByteArray) : Prop :=
  let t := tick b now.format (stateAfter (history b earlier)) now.files
  t.outcome = .unchanged ∧ ∀ c ∈ (⟨now.files, t⟩ : Turn).configuration? b,
    remains b lengthOf (b.target c) (history b (now :: earlier)) = some left ∧
      left ≠ b.product lengthOf c ∧ t.files.lookup (b.target c) ≠ .ok .sink

/-- The last tick of a run finds nothing changed over something else than the module. -/
def Stale (b : Build) (now : Round) (earlier : List Round) : Prop :=
  let t := tick b now.format (stateAfter (history b earlier)) now.files
  t.outcome = .unchanged ∧ ∃ tree c, b.resolve now.files = .ok tree ∧
    Build.configuration tree = .ok c ∧ t.files.read (b.target c) ≠ .ok (b.product lengthOf c)

/-- The last tick finds nothing changed and leaves what the failure has left: what the formatter made of
another module, or the beginning of one. -/
theorem module_fresh_iff_relapse :
    Relapses tidy (measured restored) [measured broken, measured original] "227".toUTF8 ∧
      Stale tidy (measured restored) [measured broken, measured original] ∧
    Relapses plain (measured torn) [measured full, measured original] "// ".toUTF8 ∧
      Stale plain (measured torn) [measured full, measured original] := by
  have stale {b : Build} {now : Round} {earlier : List Round} {left : ByteArray}
      (uniform : ∀ r ∈ now :: earlier, r.format = measure)
      (undisturbed : Undisturbed b (now :: earlier))
      (apart : b.Collisionless ((now :: earlier).map (·.files)))
      (relapses : Relapses b now earlier left) : Stale b now earlier := by
    obtain ⟨unchanged, relapses⟩ := relapses
    obtain ⟨tree, c, resolved, configured, -, fresh⟩ :=
      module_fresh_iff lengthOf verdict uniform undisturbed apart (.inl unchanged)
    obtain ⟨remains, other, solid⟩ := relapses c (configuration?_eq resolved configured)
    exact ⟨unchanged, tree, c, resolved, configured, fun read =>
      other ((fresh solid).1.mp read _ remains)⟩
  have formatter : Undisturbed tidy [measured restored, measured broken, measured original] ∧
      Relapses tidy (measured restored) [measured broken, measured original] "227".toUTF8 := by
    unfold Relapses
    decide +kernel
  have medium : Undisturbed plain [measured torn, measured full, measured original] ∧
      Relapses plain (measured torn) [measured full, measured original] "// ".toUTF8 := by
    unfold Relapses
    decide +kernel
  refine ⟨formatter.2, stale (by simp [measured]) formatter.1 ?_ formatter.2,
    medium.2, stale (by simp [measured]) medium.1 ?_ medium.2⟩
  · exact Build.collisionless_of_nodup (by decide +kernel)
  · exact Build.collisionless_of_nodup (by decide +kernel)

end RouteForge.Watch
