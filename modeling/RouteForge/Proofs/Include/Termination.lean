import RouteForge.Proofs.Include.Decoding

/-! Resolving ends and does not resolve a file inside itself, under whatever names it is reached.
Files with the same bytes have the same directives, so the second of them on a branch would follow
its directives to places that already are on the branch. -/
namespace RouteForge

/-- A way down a tree, each file included by the one before it. -/
def IncludeTree.Line (tree : IncludeTree) (line : List IncludeTree) : Prop :=
  (tree :: line).IsChain (fun above below => below ∈ above.includes)

namespace Include

variable {read : Path → Except Refusal ByteArray} {base : Path} {c d : Call} {cs : List Call}

/-- A call that comes to a tree. -/
def Call.Resolved (read : Path → Except Refusal ByteArray) (base : Path) (c : Call) : Prop :=
  ∃ tree, Resolves read base tree c.chain c.target c.bytes

/-- What a tree includes has been resolved by a call of its own. -/
theorem Resolves.enters {tree below : IncludeTree}
    (resolves : Resolves read base tree c.chain c.target c.bytes) (member : below ∈ tree.includes) :
    ∃ d, Enters read base c d ∧ Resolves read base below d.chain d.target d.bytes := by
  cases tree with
  | node path content includes =>
    obtain ⟨rfl, check, source, text, -, trees⟩ := resolves
    obtain ⟨next, named, bytes, fetched, here⟩ := trees.exists_target_of_mem member
    exact ⟨⟨c.branch base, next, bytes⟩,
      ⟨check, ⟨source, text, named⟩, rfl, here.check, fetched⟩, here⟩

/-- Where a call comes to a tree, none of its directives leads back to the branch. -/
theorem Call.Resolved.not_mem_branch (resolved : c.Resolved read base) {next : Path}
    (named : next ∈ targetsOf c.bytes) : place base next ∉ c.branch base := by
  obtain ⟨⟨path, content, includes⟩, rfl, -, source, text, -, trees⟩ := resolved
  obtain ⟨_, -, bytes, -, here⟩ := trees.exists_of_mem (targets_of_sourceOf text ▸ named)
  exact not_mem_of_check_ok here.check

/-- Equal bytes would name a target again that is on the branch by then. -/
theorem nodup_bytes_of_calls (calls : (c :: cs).IsChain (Enters read base))
    (resolved : ∀ d ∈ cs, d.Resolved read base) : ((c :: cs).map Call.bytes).Nodup := by
  induction cs generalizing c with
  | nil => simp
  | cons d cs ih =>
    obtain ⟨step, deeper⟩ := List.isChain_cons_cons.mp calls
    refine List.nodup_cons.mpr ⟨fun again => ?_,
      ih deeper fun e member => resolved e (List.mem_cons_of_mem _ member)⟩
    obtain ⟨e, member, same⟩ := List.mem_map.mp again
    have named : d.target ∈ targetsOf e.bytes := same ▸ step.mem_targetsOf
    exact (resolved e member).not_mem_branch named
      (branch_subset_of_calls deeper e member (d.path_mem_branch base))

/-- A way down a tree is one of calls that come to trees. -/
theorem calls_of_line {tree : IncludeTree} {line : List IncludeTree}
    (resolves : Resolves read base tree c.chain c.target c.bytes) (down : tree.Line line) :
    ∃ cs, (c :: cs).IsChain (Enters read base) ∧ (∀ d ∈ cs, d.Resolved read base) ∧
      (∀ t ∈ line, read t.path = .ok (held read t.path)) ∧
      cs.map Call.bytes = line.map (fun t => held read t.path) := by
  induction line generalizing tree c with
  | nil => exact ⟨[], .singleton c, by simp, by simp, rfl⟩
  | cons below line ih =>
    obtain ⟨d, step, here⟩ := resolves.enters (down.rel_head? rfl)
    obtain ⟨cs, calls, resolved, readable, same⟩ := ih here down.tail
    have fetched : read below.path = .ok d.bytes := here.path_eq ▸ step.fetched
    refine ⟨d :: cs, .cons_cons step calls, List.forall_mem_cons.mpr ⟨⟨below, here⟩, resolved⟩,
      List.forall_mem_cons.mpr ⟨?_, readable⟩, ?_⟩
    · rw [held_eq fetched, fetched]
    · rw [List.map_cons, List.map_cons, held_eq fetched, same]

/-- Every file on a way down can be read and holds other bytes than all files above it. -/
theorem nodup_held_of_line {tree : IncludeTree} {line : List IncludeTree}
    (resolves : Resolves read base tree c.chain c.target c.bytes) (down : tree.Line line) :
    (∀ t ∈ line, read t.path = .ok (held read t.path)) ∧
      (c.bytes :: line.map (fun t => held read t.path)).Nodup := by
  obtain ⟨cs, calls, resolved, readable, same⟩ := calls_of_line resolves down
  exact ⟨readable, same ▸ nodup_bytes_of_calls calls resolved⟩

/-- Paths that stand for one file read the same, so files with different bytes are different. -/
theorem nodup_files_of_held {ι : Type} {file : Path → ι}
    (one : ∀ p q, file p = file q → read p = read q) {trees : List IncludeTree}
    (distinct : (trees.map (fun t => held read t.path)).Nodup) :
    (trees.map (fun t => file t.path)).Nodup := by
  refine distinct.of_map.map_on fun above here below there same => ?_
  refine List.inj_on_of_nodup_map distinct here there ?_
  simp only [held, one _ _ same]

/-- Resolving ends for any way of reading in which finitely many targets occur, and on whatever
branch it starts. The calls of one branch put different cleaned paths on it, so there is at most one
more of them than there are places where targets lead, and beyond that depth the answer is one and
the same. If it is a tree, the bytes on every way down differ, so no file is below itself, however
paths are told to stand for one file. -/
theorem resolution_terminates (read : Path → Except Refusal ByteArray) (base : Path) (chain : Chain)
    (target : Path) (bytes : ByteArray) (finite : (Targets read bytes).Finite) :
    (∀ cs, (⟨chain, target, bytes⟩ :: cs).IsChain (Enters read base) →
      let calls : List Call := ⟨chain, target, bytes⟩ :: cs
      (calls.getLast (List.cons_ne_nil _ _)).branch base = chain ++ calls.map (Call.path base) ∧
        (calls.map (Call.path base)).Nodup ∧
        (∀ p ∈ calls.map (Call.path base), ∃ q : Path, p = q.clean) ∧
        calls.length ≤ (places read base bytes).ncard + 1) ∧
    ∃ answer : Except Error IncludeTree,
      (∀ depth, (places read base bytes).ncard + 1 ≤ depth →
        (grow read base depth chain target bytes).run = some answer) ∧
      (∀ t : FileTree, t.read = read → resolve t base chain target bytes = answer) ∧
      ∀ tree, answer = .ok tree → ∀ line, tree.Line line →
        (∀ t ∈ line, read t.path = .ok (held read t.path)) ∧
        (bytes :: line.map (fun t => held read t.path)).Nodup ∧
        ∀ {ι : Type} (file : Path → ι), (∀ p q, file p = file q → read p = read q) →
          (line.map (fun t => file t.path)).Nodup ∧
          (read tree.path = .ok bytes → ((tree :: line).map (fun t => file t.path)).Nodup) := by
  have wide : (places read base bytes).Finite := finite.image _
  refine ⟨fun cs calls => ⟨branch_getLast calls, nodup_paths_of_calls calls, ?_, ?_⟩, ?_⟩
  · intro p member
    obtain ⟨d, -, rfl⟩ := List.mem_map.mp member
    exact ⟨base.join d.target, rfl⟩
  · exact Nat.succ_le_succ (length_le_of_calls (c := ⟨chain, target, bytes⟩) wide calls)
  · obtain ⟨answer, settled⟩ := grow_settles chain target wide
    refine ⟨answer, settled, ?_, ?_⟩
    · rintro t rfl
      unfold resolve
      rw [settled _ (places_lt_depth t base bytes), Option.getD_some]
    · rintro tree rfl line down
      have resolves := resolves_of_grow (settled _ (Nat.lt_succ_self _))
      obtain ⟨readable, distinct⟩ := nodup_held_of_line (c := ⟨chain, target, bytes⟩) resolves down
      refine ⟨readable, distinct, fun file one => ⟨?_, fun fetched => ?_⟩⟩
      · exact nodup_files_of_held one distinct.of_cons
      · refine nodup_files_of_held one ?_
        rwa [List.map_cons, held_eq fetched]

/-- A file that goes on to itself under another name, the one from the root and the one from the
working directory. -/
def looped : FileTree :=
  FileTree.ofTexts [("muxc.yaml", "!include /a.yaml\n"), ("a.yaml", "!include a.yaml\n")]

/-- A file under two names, on two branches. -/
def twofold : FileTree :=
  FileTree.ofTexts [("muxc.yaml", "!include /a.yaml\n!include a.yaml\n"), ("a.yaml", "out: gen\n")]

/-- Under its second name the file is resolved once more, and then the search stops. -/
theorem resolution_terminates_looped :
    (∃ n, ∀ depth, n ≤ depth →
      (grow looped.read ⟨[]⟩ depth [] (Path.ofText "muxc.yaml") "!include /a.yaml\n".toUTF8).run =
        some (.error (.includeCycle (Path.ofText "a.yaml")
          (["muxc.yaml", "/a.yaml", "a.yaml", "a.yaml"].map Path.ofText)))) ∧
    ∃ tree, resolve twofold ⟨[]⟩ [] (Path.ofText "muxc.yaml")
        "!include /a.yaml\n!include a.yaml\n".toUTF8 = .ok tree ∧
      tree.paths = ["muxc.yaml", "/a.yaml", "a.yaml"].map Path.ofText ∧
      ∀ line, tree.Line line → (line.map (fun t => held twofold.read t.path)).Nodup := by
  constructor
  · obtain ⟨-, answer, settled, same, -⟩ := resolution_terminates looped.read ⟨[]⟩ []
      (Path.ofText "muxc.yaml") "!include /a.yaml\n".toUTF8 (targets_finite _ _)
    have stopped : answer.map IncludeTree.path = .error (.includeCycle (Path.ofText "a.yaml")
        (["muxc.yaml", "/a.yaml", "a.yaml", "a.yaml"].map Path.ofText)) := by
      rw [← same looped rfl]
      decide +kernel
    cases answer with
    | error e => exact ⟨_, Except.error.inj stopped ▸ settled⟩
    | ok tree => cases stopped
  · obtain ⟨-, answer, -, same, apart⟩ := resolution_terminates twofold.read ⟨[]⟩ []
      (Path.ofText "muxc.yaml") "!include /a.yaml\n!include a.yaml\n".toUTF8 (targets_finite _ _)
    have listed : answer.toOption.map IncludeTree.paths =
        some (["muxc.yaml", "/a.yaml", "a.yaml"].map Path.ofText) := by
      rw [← same twofold rfl]
      decide +kernel
    cases answer with
    | error e => cases listed
    | ok tree =>
      refine ⟨tree, same twofold rfl, Option.some.inj listed, fun line down => ?_⟩
      exact (apart tree rfl line down).2.1.of_cons

end Include
end RouteForge
