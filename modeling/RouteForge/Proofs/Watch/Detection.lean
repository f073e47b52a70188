import RouteForge.Proofs.Watch.History

/-! Which changes a tick detects. The hash stands for the contents of all files in their order, and
these stand for the tree, so a tick that finds nothing changed has resolved the tree of the latest
build. -/
namespace RouteForge.Watch

section Detection

variable [Yaml.Wording] {b : Build} {format : Formatter} {s : State} {seen : FileTree}
  {now : Round} {earlier : List Round} {tree : IncludeTree}

theorem tick_eq_build (resolved : b.resolve seen = .ok tree) :
    tick b format s seen =
      build b format s tree (String.ofList (Sha256.row (b.contentsOf seen))) seen := by
  unfold tick tickBetween
  rw [resolved]
  dsimp only
  rw [Build.hash_eq resolved]

theorem unchanged_iff_known (resolved : b.resolve seen = .ok tree) :
    (tick b format s seen).outcome = .unchanged ↔
      s.lastHash = some (String.ofList (Sha256.row (b.contentsOf seen))) := by
  rw [tick_eq_build resolved]
  unfold build
  by_cases known : s.lastHash = some (String.ofList (Sha256.row (b.contentsOf seen)))
  · rw [if_pos known]
    exact iff_of_true rfl known
  · rw [if_neg known]
    cases answer : (b.ofTree format tree seen).answer <;>
      exact iff_of_false (by simp [answer, fail]) known

/-- In a run a tick finds nothing changed exactly when it reads what the latest build has read. -/
theorem unchanged_iff_built (resolved : b.resolve seen = .ok tree)
    (apart : b.Collisionless (seen :: earlier.map (·.files))) :
    (tick b format (stateAfter (history b earlier)) seen).outcome = .unchanged ↔
      ∃ u, lastBuilt? (history b earlier) = some u ∧
        b.contentsOf u.seen = b.contentsOf seen := by
  rw [unchanged_iff_known resolved, lastHash_history, Option.map_eq_some_iff]
  constructor
  · rintro ⟨u, latest, same⟩
    obtain ⟨member, -⟩ := resolve_of_lastBuilt? latest
    exact ⟨u, latest, apart.contents_eq (List.mem_cons_of_mem _ member) List.mem_cons_self
      (String.ofList_inj.mp same)⟩
  · rintro ⟨u, latest, same⟩
    exact ⟨u, latest, by rw [same]⟩

/-- A tick that did not fail has resolved the tree of the latest build. -/
theorem lastBuilt?_of_settled (apart : b.Collisionless ((now :: earlier).map (·.files)))
    (settled : (tick b now.format (stateAfter (history b earlier)) now.files).outcome = .unchanged ∨
      (tick b now.format (stateAfter (history b earlier)) now.files).outcome = .built) :
    ∃ u tree, lastBuilt? (history b (now :: earlier)) = some u ∧
      b.resolve u.seen = .ok tree ∧ b.resolve now.files = .ok tree := by
  rcases settled with unchanged | built
  · obtain ⟨tree, _, resolved, -, -⟩ := hash_of_unchanged unchanged
    obtain ⟨u, latest, same⟩ := (unchanged_iff_built resolved apart).mp unchanged
    obtain ⟨-, old, again⟩ := resolve_of_lastBuilt? latest
    obtain rfl := Build.tree_eq_of_contents_eq again resolved same
    refine ⟨u, old, ?_, again, resolved⟩
    rw [history, lastBuilt?_cons_unbuilt (by simp [unchanged]), latest]
  · have latest := lastBuilt?_cons_built (u := ⟨now.files, _⟩) built (history b earlier)
    obtain ⟨-, tree, resolved⟩ := @resolve_of_lastBuilt? _ b (now :: earlier) _ latest
    exact ⟨_, tree, latest, resolved, resolved⟩

/-- The hash determines the tree: two hashes are equal exactly when all files hold the same, and
then the trees are equal as well. So a tick finds nothing changed exactly when it reads what the
latest build has read, and then it has resolved the tree that was built. -/
theorem hash_determines_tree (b : Build) :
    (∀ files₁ files₂ tree₁ tree₂, b.resolve files₁ = .ok tree₁ → b.resolve files₂ = .ok tree₂ →
      b.Collisionless [files₁, files₂] →
      ∃ h₁ h₂ xs₁ xs₂, tree₁.hash files₁.read = .ok h₁ ∧ tree₂.hash files₂.read = .ok h₂ ∧
        tree₁.raw files₁.read = .ok xs₁ ∧ tree₂.raw files₂.read = .ok xs₂ ∧
        (h₁ = h₂ ↔ xs₁ = xs₂) ∧ (xs₁ = xs₂ → tree₁ = tree₂)) ∧
    ∀ earlier format seen tree, b.resolve seen = .ok tree →
      b.Collisionless (seen :: earlier.map (·.files)) →
      ((tick b format (stateAfter (history b earlier)) seen).outcome = .unchanged ↔
        ∃ u old, lastBuilt? (history b earlier) = some u ∧ b.resolve u.seen = .ok old ∧
          old.raw u.seen.read = tree.raw seen.read) ∧
      ((tick b format (stateAfter (history b earlier)) seen).outcome = .unchanged →
        ∃ u, lastBuilt? (history b earlier) = some u ∧ b.resolve u.seen = .ok tree) := by
  constructor
  · intro files₁ files₂ tree₁ tree₂ resolved₁ resolved₂ apart
    refine ⟨_, _, _, _, Build.hash_eq resolved₁, Build.hash_eq resolved₂, Build.raw_eq resolved₁,
      Build.raw_eq resolved₂, ⟨?_, ?_⟩, Build.tree_eq_of_contents_eq resolved₁ resolved₂⟩
    · intro same
      exact apart.contents_eq (by simp) (by simp) (String.ofList_inj.mp same)
    · intro same
      rw [same]
  · intro earlier format seen tree resolved apart
    rw [unchanged_iff_built resolved apart]
    constructor
    · constructor
      · rintro ⟨u, latest, same⟩
        obtain ⟨-, old, built⟩ := resolve_of_lastBuilt? latest
        exact ⟨u, old, latest, built, by rw [Build.raw_eq built, Build.raw_eq resolved, same]⟩
      · rintro ⟨u, old, latest, built, same⟩
        rw [Build.raw_eq built, Build.raw_eq resolved] at same
        exact ⟨u, latest, Except.ok.inj same⟩
    · rintro ⟨u, latest, same⟩
      obtain ⟨-, old, built⟩ := resolve_of_lastBuilt? latest
      rw [← Build.tree_eq_of_contents_eq built resolved same]
      exact ⟨u, latest, built⟩

end Detection

/-- A root file and the one that it includes. -/
def pair (included : String) : FileTree :=
  FileTree.ofTexts [("muxc.yaml", "!include b.yaml\n"), ("b.yaml", included)]

def met (files : FileTree) : Round := { files := files, format := idle }

/-- An edit of the file below shows in the hash, and files that stay as they were are not built
again. -/
theorem hash_determines_tree_pair :
    (∃ tree₁ tree₂ h₁ h₂, plain.resolve (pair "out: gen\n") = .ok tree₁ ∧
      plain.resolve (pair "out: gem\n") = .ok tree₂ ∧
      tree₁.hash (pair "out: gen\n").read = .ok h₁ ∧
      tree₂.hash (pair "out: gem\n").read = .ok h₂ ∧ h₁ ≠ h₂) ∧
    ∃ u tree, lastBuilt? (history plain [met (pair "out: gen\n")]) = some u ∧
      plain.resolve (pair "out: gen\n") = .ok tree ∧ plain.resolve u.seen = .ok tree := by
  obtain ⟨tree, resolved⟩ : ∃ tree, plain.resolve (pair "out: gen\n") = .ok tree :=
    Build.exists_tree (by decide +kernel)
  obtain ⟨next, changed⟩ : ∃ tree, plain.resolve (pair "out: gem\n") = .ok tree :=
    Build.exists_tree (by decide +kernel)
  have apart : plain.Collisionless [pair "out: gen\n", pair "out: gem\n"] :=
    Build.collisionless_of_nodup (by decide +kernel)
  constructor
  · have differ : plain.contentsOf (pair "out: gen\n") ≠
        plain.contentsOf (pair "out: gem\n") := by decide +kernel
    obtain ⟨h₁, h₂, xs₁, xs₂, hash₁, hash₂, raw₁, raw₂, same, -⟩ :=
      (hash_determines_tree plain).1 _ _ tree next resolved changed apart
    refine ⟨tree, next, h₁, h₂, resolved, changed, hash₁, hash₂, fun equal => differ ?_⟩
    have left := Except.ok.inj ((Build.raw_eq resolved).symm.trans raw₁)
    have right := Except.ok.inj ((Build.raw_eq changed).symm.trans raw₂)
    rw [left, right, same.mp equal]
  · have same : plain.Collisionless [pair "out: gen\n", pair "out: gen\n"] :=
      apart.mono (by simp)
    have still : (tick plain idle (stateAfter (history plain [met (pair "out: gen\n")]))
        (pair "out: gen\n")).outcome = .unchanged := by decide +kernel
    obtain ⟨u, latest, built⟩ :=
      ((hash_determines_tree plain).2 [met (pair "out: gen\n")] idle _ tree resolved same).2 still
    exact ⟨u, tree, latest, resolved, built⟩

end RouteForge.Watch
