import RouteForge.Proofs.Watch.History

/-! Edits while a tick runs. The files are resolved first and read again for their digests, so a
tick may keep the digests of contents that it has not built. -/
namespace RouteForge.Watch

section Interleaving

variable [Yaml.Wording] {b : Build} {format : Formatter} {s r : State}
  {seen changed later : FileTree} {tree : IncludeTree}

theorem hash_of_built (resolved : b.resolve seen = .ok tree)
    (built : (tickBetween b format s seen changed).outcome = .built) :
    ∃ hash, tree.hash changed.read = .ok hash ∧
      (tickBetween b format s seen changed).state.lastHash = some hash := by
  have course := tickBetween_course b format s seen changed
  generalize tickBetween b format s seen changed = t at course built
  cases course with
  | unresolved | unreadable | unchanged | failed => cases built
  | built again hashed =>
    rw [resolved] at again
    cases again
    exact ⟨_, hashed, rfl⟩

/-- A later tick that finds nothing changed has resolved the tree that was built exactly when the
files already were of that tree again as their digests were taken. An edit that came before and
stays is lost. -/
theorem unchanged_tree_eq_iff (resolved : b.resolve seen = .ok tree)
    (built : (tickBetween b format s seen changed).outcome = .built)
    (kept : r.lastHash = (tickBetween b format s seen changed).state.lastHash)
    (unchanged : (tick b format r later).outcome = .unchanged)
    (apart : Set.InjOn Sha256.digest
      {x | x ∈ tree.paths.map (held changed.read) ++ b.contentsOf later}) :
    ∃ again, b.resolve later = .ok again ∧ (again = tree ↔ b.resolve changed = .ok tree) := by
  obtain ⟨hash, hashed, stored⟩ := hash_of_built resolved built
  obtain ⟨again, last, settled, rehashed, known⟩ := hash_of_unchanged unchanged
  have same : hash = last := Option.some.inj (stored.symm.trans (kept.symm.trans known))
  subst same
  rw [Build.contentsOf_eq settled] at apart
  have contents : tree.paths.map (held changed.read) = again.paths.map (held later.read) :=
    IncludeTree.contents_eq_of_hash_eq apart
      (fun _ member => List.mem_append_left _ member)
      (fun _ member => List.mem_append_right _ member) hashed rehashed
  refine ⟨again, settled, ?_, ?_⟩
  · rintro rfl
    refine Include.resolveRoot_transfer settled fun p member => ?_
    have equal : held changed.read p = held later.read p := List.map_inj_left.mp contents p member
    rw [IncludeTree.readable_of_hash hashed p member,
      IncludeTree.readable_of_hash rehashed p member, equal]
  · intro whole
    exact (Include.eq_of_contents_eq whole settled contents).symm

end Interleaving

/-- An edit between the two readings is lost: the digest of `b` is kept, but `a` was built. -/
theorem unchanged_tree_eq_iff_lost :
    ∃ t tree again, t = tickBetween plain idle {} (single "out: a\n") (single "out: b\n") ∧
      plain.resolve (single "out: a\n") = .ok tree ∧ t.outcome = .built ∧
      (tick plain idle t.state (single "out: b\n")).outcome = .unchanged ∧
      plain.resolve (single "out: b\n") = .ok again ∧ again ≠ tree := by
  have built : (tickBetween plain idle {} (single "out: a\n") (single "out: b\n")).outcome =
      .built := by decide +kernel
  have unchanged : (tick plain idle
      (tickBetween plain idle {} (single "out: a\n") (single "out: b\n")).state
      (single "out: b\n")).outcome = .unchanged := by decide +kernel
  have texts : (plain.resolve (single "out: a\n")).toOption.map (·.content) ≠
      (plain.resolve (single "out: b\n")).toOption.map (·.content) := by decide +kernel
  have contents : (plain.resolve (single "out: a\n")).toOption.map
      (fun t => t.paths.map (held (single "out: b\n").read) ++
        plain.contentsOf (single "out: b\n")) =
      some ["out: b\n".toUTF8, "out: b\n".toUTF8] := by decide +kernel
  obtain ⟨tree, resolved⟩ : ∃ tree, plain.resolve (single "out: a\n") = .ok tree :=
    Build.exists_tree (by decide +kernel)
  rw [resolved] at contents texts
  have read : tree.paths.map (held (single "out: b\n").read) ++
      plain.contentsOf (single "out: b\n") = ["out: b\n".toUTF8, "out: b\n".toUTF8] :=
    Option.some.inj contents
  have apart : Set.InjOn Sha256.digest {x | x ∈ tree.paths.map (held (single "out: b\n").read) ++
      plain.contentsOf (single "out: b\n")} := by
    rw [read]
    intro x here y there _
    simp only [Set.mem_ofPred_eq, List.mem_cons, List.not_mem_nil, or_false, or_self] at here there
    rw [here, there]
  obtain ⟨again, settled, same⟩ := unchanged_tree_eq_iff resolved built rfl unchanged apart
  refine ⟨_, tree, again, rfl, resolved, built, unchanged, settled, fun equal => texts ?_⟩
  rw [same.mp equal]

end RouteForge.Watch
