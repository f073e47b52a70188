import Mathlib.Logic.Function.Basic
import Mathlib.Logic.Relation
import RouteForge.Proofs.Include.Graph
import RouteForge.Proofs.Include.Change
import RouteForge.Proofs.Include.Termination

/-! The tree as the unfolding of the files. What stands below a file hangs on its own bytes and on the
base, wherever in the tree the file is met and whatever is on the branch above it. The branch is only
asked whether the search goes on. -/
namespace RouteForge

/-- The node is the tree itself or stands somewhere below its root. -/
def IncludeTree.Contains (tree node : IncludeTree) : Prop :=
  Relation.ReflTransGen (fun above below => below ∈ above.includes) tree node

namespace Include

open Relation (ReflTransGen)

/-- A node says what the bytes at its path say. Its content is the lines that are no directives, each
ended by a line feed, and it has one child for each directive, at the place of the target. -/
def Unfolds (read : Path → Except Refusal ByteArray) (base : Path) (node : IncludeTree) : Prop :=
  ∃ bytes text, read node.path = .ok bytes ∧ String.fromUTF8? bytes = some text ∧
    let lines := Text.lines text.toList
    node.content = String.ofList (Text.unlines (lines.filter fun line => (target? line).isNone)) ∧
    node.includes.map IncludeTree.path =
      (lines.filterMap target?).map fun target => (base.join ⟨target⟩).clean

variable {read : Path → Except Refusal ByteArray} {base : Path} {c : Call}

/-! ### The branch above -/

theorem check_eq_ok_iff {chain : Chain} {path : Path} :
    Chain.check chain path = .ok () ↔ ∀ p ∈ chain, p.same path = false := by
  unfold Chain.check
  split
  next looped => simpa using looped
  next free => simpa using free

theorem check_append_iff {outer inner : Chain} {path : Path} :
    Chain.check (outer ++ inner) path = .ok () ↔
      Chain.check outer path = .ok () ∧ Chain.check inner path = .ok () := by
  simp only [check_eq_ok_iff, List.forall_mem_append]

mutual

/-- A longer branch leaves the tree as it is and asks only that no file of the tree is on it. -/
theorem resolves_append_iff : ∀ (tree : IncludeTree) {outer inner : Chain} {target : Path}
    {bytes : ByteArray}, Resolves read base tree (outer ++ inner) target bytes ↔
      Resolves read base tree inner target bytes ∧
        ∀ p ∈ tree.paths, Chain.check outer p = .ok ()
  | .node path content includes, outer, inner, target, bytes => by
    simp only [Resolves, IncludeTree.paths, check_append_iff, List.append_assoc,
      resolvesAll_append_iff includes, List.forall_mem_cons]
    constructor
    · rintro ⟨here, ⟨off, check⟩, source, text, content, inside, others⟩
      exact ⟨⟨here, check, source, text, content, inside⟩, off, others⟩
    · rintro ⟨⟨here, check, source, text, content, inside⟩, off, others⟩
      exact ⟨here, ⟨off, check⟩, source, text, content, inside, others⟩

theorem resolvesAll_append_iff : ∀ (trees : List IncludeTree) {outer inner : Chain}
    {targets : List Path}, ResolvesAll read base trees (outer ++ inner) targets ↔
      ResolvesAll read base trees inner targets ∧
        ∀ p ∈ IncludeTree.pathsOf trees, Chain.check outer p = .ok ()
  | [], _, _, _ => by simp [ResolvesAll, IncludeTree.pathsOf]
  | tree :: trees, outer, inner, targets => by
    simp only [ResolvesAll, IncludeTree.pathsOf, List.forall_mem_append, resolves_append_iff tree,
      resolvesAll_append_iff trees]
    constructor
    · rintro ⟨target, others, bytes, named, fetched, ⟨here, off⟩, behind, clear⟩
      exact ⟨⟨target, others, bytes, named, fetched, here, behind⟩, off, clear⟩
    · rintro ⟨⟨target, others, bytes, named, fetched, here, behind⟩, off, clear⟩
      exact ⟨target, others, bytes, named, fetched, ⟨here, off⟩, behind, clear⟩

end

/-- The branch counts only for whether there is a tree. -/
theorem resolves_iff_off_branch {tree : IncludeTree} {chain : Chain} {target : Path}
    {bytes : ByteArray} : Resolves read base tree chain target bytes ↔
      Resolves read base tree [] target bytes ∧ ∀ p ∈ tree.paths, ∀ q ∈ chain, q.same p = false := by
  have split : Resolves read base tree (chain ++ []) target bytes ↔ _ := resolves_append_iff tree
  rw [List.append_nil] at split
  simp only [split, check_eq_ok_iff]

/-! ### The bytes at hand -/

/-- The files as the search sees them: at the place of its target stand the bytes that it was given,
which need not be those of a file. -/
def given (read : Path → Except Refusal ByteArray) (base target : Path) (bytes : ByteArray) :
    Path → Except Refusal ByteArray :=
  Function.update read (place base target) (.ok bytes)

theorem given_place (target : Path) (bytes : ByteArray) :
    given read base target bytes (place base target) = .ok bytes :=
  Function.update_self _ _ _

/-- The file that is resolved is not met again below, so what is read there does not matter. -/
theorem Resolves.given {tree : IncludeTree} {chain : Chain} {target : Path} {bytes : ByteArray}
    (resolves : Resolves read base tree chain target bytes) :
    Resolves (given read base target bytes) base tree chain target bytes := by
  cases tree with
  | node path content includes =>
    obtain ⟨rfl, check, source, text, said, below⟩ := resolves
    refine ⟨rfl, check, source, text, said, below.transfer fun p member => ?_⟩
    rw [← List.append_nil (chain ++ [place base target]), resolvesAll_append_iff] at below
    have off : p ∉ chain ++ [place base target] := not_mem_of_check_ok (below.2 p member)
    have apart : p ≠ place base target := fun same => off (by simp [same])
    exact Function.update_of_ne apart _ _

/-! ### Every node -/

/-- A call whose bytes stand at its path. -/
def Call.Opened (read : Path → Except Refusal ByteArray) (base : Path) (c : Call) : Prop :=
  read (c.path base) = .ok c.bytes

/-- Every node of a tree has been resolved by a call of its own, from the bytes at its path. -/
theorem exists_call_of_contains {tree node : IncludeTree} (opened : c.Opened read base)
    (resolves : Resolves read base tree c.chain c.target c.bytes) (inside : tree.Contains node) :
    ∃ d : Call, d.Opened read base ∧ Resolves read base node d.chain d.target d.bytes := by
  induction inside with
  | refl => exact ⟨c, opened, resolves⟩
  | tail _ member ih =>
    obtain ⟨d, _, here⟩ := ih
    obtain ⟨e, step, below⟩ := here.enters member
    exact ⟨e, step.fetched, below⟩

theorem ResolvesAll.map_path {trees : List IncludeTree} {chain : Chain} {targets : List Path}
    (below : ResolvesAll read base trees chain targets) :
    trees.map IncludeTree.path = targets.map (place base) := by
  induction trees generalizing targets with
  | nil =>
    simp only [ResolvesAll] at below
    simp [below]
  | cons tree trees ih =>
    obtain ⟨target, rest, bytes, rfl, -, here, others⟩ := below
    simp [here.path_eq, ih others]

theorem Resolves.unfolds {node : IncludeTree} (opened : c.Opened read base)
    (resolves : Resolves read base node c.chain c.target c.bytes) : Unfolds read base node := by
  cases node with
  | node path content includes =>
    obtain ⟨rfl, -, source, said, rfl, below⟩ := resolves
    obtain ⟨text, decoded, rfl⟩ := sourceOf_eq_ok_iff.mp said
    refine ⟨c.bytes, text, opened, decoded, ?_, ?_⟩
    · rfl
    · have children := below.map_path
      simp only [Source.ofText, List.map_filterMap, Option.map_map] at children
      rw [List.map_filterMap]
      exact children

/-- Only the place of a target counts. -/
theorem Resolves.of_place {tree : IncludeTree} {chain : Chain} {target other : Path}
    {bytes : ByteArray} (same : place base target = place base other)
    (resolves : Resolves read base tree chain target bytes) :
    Resolves read base tree chain other bytes := by
  cases tree with
  | node path content includes => simpa only [Resolves, same] using resolves

/-- Trees that were resolved at one place are one tree, whatever was above them. -/
theorem eq_of_path_eq {a b : IncludeTree} {d : Call} (openedA : c.Opened read base)
    (resolvesA : Resolves read base a c.chain c.target c.bytes) (openedB : d.Opened read base)
    (resolvesB : Resolves read base b d.chain d.target d.bytes) (same : a.path = b.path) :
    a = b := by
  have meet : place base c.target = place base d.target := by
    rw [← resolvesA.path_eq, ← resolvesB.path_eq, same]
  have fetched : read (place base d.target) = .ok c.bytes := meet ▸ openedA
  have kept : ∀ p x, ¬ False → read p = .ok x → read p = .ok x := fun _ _ _ found => found
  exact Resolves.unchanged kept fetched (resolvesA.of_place meet) openedB resolvesB fun _ _ => id

/-- Nodes of one tree with the same path are equal, the trees below them included. -/
theorem eq_of_same_path {tree a b : IncludeTree} (opened : c.Opened read base)
    (resolves : Resolves read base tree c.chain c.target c.bytes) (insideA : tree.Contains a)
    (insideB : tree.Contains b) (same : a.path.same b.path = true) : a = b := by
  obtain ⟨d, openedA, resolvesA⟩ := exists_call_of_contains opened resolves insideA
  obtain ⟨e, openedB, resolvesB⟩ := exists_call_of_contains opened resolves insideB
  refine eq_of_path_eq openedA resolvesA openedB resolvesB ?_
  rw [resolvesA.path_eq, resolvesB.path_eq] at same ⊢
  exact (Path.same_clean_iff _ _).mp same

/-- The tree is the unfolding of the files. Whatever branch the search starts on, the root stands at
the place of its target, and every node holds the lines of its own bytes that are no directives and
has one child for each directive, at its place from the one base. Nodes with the same path are equal.
The branch decides only whether there is a tree: there is one exactly when there is one on the empty
branch and none of its files is on the branch already, and then it is the same tree. For a
configuration the base is the directory of its own path, at every depth. -/
theorem tree_unfolds_files (t : FileTree) :
    (∀ base chain target bytes tree, resolve t base chain target bytes = .ok tree →
      tree.path = place base target ∧
      (∀ node, tree.Contains node → Unfolds (given t.read base target bytes) base node) ∧
      ∀ a b, tree.Contains a → tree.Contains b → a.path.same b.path = true → a = b) ∧
    (∀ base chain target bytes tree, resolve t base chain target bytes = .ok tree ↔
      resolve t base [] target bytes = .ok tree ∧
        ∀ p ∈ tree.paths, ∀ q ∈ chain, q.same p = false) ∧
    (∀ base chain other target bytes tree tree', resolve t base chain target bytes = .ok tree →
      resolve t base other target bytes = .ok tree' → tree = tree') ∧
    ∀ config tree, resolveRoot t config = .ok tree → tree.path = rootOf config ∧
      ∀ node, tree.Contains node → Unfolds t.read (config.parent?.getD ⟨[]⟩) node := by
  have whole (base : Path) (chain : Chain) (target : Path) (bytes : ByteArray) (tree : IncludeTree) :
      resolve t base chain target bytes = .ok tree ↔ resolve t base [] target bytes = .ok tree ∧
        ∀ p ∈ tree.paths, ∀ q ∈ chain, q.same p = false := by
    rw [resolve_eq_ok_iff, resolve_eq_ok_iff, resolves_iff_off_branch]
  refine ⟨?_, whole, ?_, ?_⟩
  · intro base chain target bytes tree resolved
    have resolves := (resolve_eq_ok_iff.mp resolved).given
    have opened : Call.Opened (given t.read base target bytes) base ⟨chain, target, bytes⟩ :=
      given_place target bytes
    refine ⟨resolves.path_eq, ?_, ?_⟩
    · intro node inside
      obtain ⟨d, there, here⟩ := exists_call_of_contains opened resolves inside
      exact here.unfolds there
    · intro a b insideA insideB same
      exact eq_of_same_path opened resolves insideA insideB same
  · intro base chain other target bytes tree tree' resolved again
    have left := ((whole base chain target bytes tree).mp resolved).1
    have right := ((whole base other target bytes tree').mp again).1
    exact Except.ok.inj (left.symm.trans right)
  · intro config tree resolved
    obtain ⟨bytes, fetched, resolves⟩ := resolveRoot_eq_ok_iff.mp resolved
    refine ⟨resolves.path_eq, ?_⟩
    intro node inside
    have opened : Call.Opened t.read (baseOf config) ⟨[], nameOf config, bytes⟩ := fetched
    obtain ⟨d, there, here⟩ := exists_call_of_contains opened resolves inside
    exact here.unfolds there

def sharedRoot : String := "!include left.yaml\nout: gen\n!include sub/right.yaml\n"

/-- A file in a directory, included from two others, one of them in that directory. -/
def shared : FileTree where
  entries := [(["muxc.yaml"], .file sharedRoot.toUTF8 false),
    (["left.yaml"], .file "!include sub/leaf.yaml\n".toUTF8 false), (["sub"], .directory),
    (["sub", "right.yaml"], .file "!include \"sub/leaf.yaml\"\n".toUTF8 false),
    (["sub", "leaf.yaml"], .file "package: p\n".toUTF8 false)].map
      fun (names, e) => (names.map String.toList, e)
  here := []

/-- The file stands twice in the tree, and a file on the branch that is none of these changes
nothing. -/
theorem tree_unfolds_files_shared : ∃ tree,
    resolve shared ⟨[]⟩ [] (Path.ofText "muxc.yaml") sharedRoot.toUTF8 = .ok tree ∧
    tree.paths = ["muxc.yaml", "left.yaml", "sub/leaf.yaml", "sub/right.yaml", "sub/leaf.yaml"].map
      Path.ofText ∧
    (∀ a b, tree.Contains a → tree.Contains b → a.path.same b.path = true → a = b) ∧
    resolve shared ⟨[]⟩ [Path.ofText "main.yaml"] (Path.ofText "muxc.yaml") sharedRoot.toUTF8 =
      .ok tree := by
  obtain ⟨nodes, branch, -⟩ := tree_unfolds_files shared
  have listed : (resolve shared ⟨[]⟩ [] (Path.ofText "muxc.yaml") sharedRoot.toUTF8).map
      IncludeTree.paths = .ok (["muxc.yaml", "left.yaml", "sub/leaf.yaml", "sub/right.yaml",
        "sub/leaf.yaml"].map Path.ofText) := by
    decide +kernel
  cases resolved : resolve shared ⟨[]⟩ [] (Path.ofText "muxc.yaml") sharedRoot.toUTF8 with
  | error e =>
    rw [resolved] at listed
    cases listed
  | ok tree =>
    rw [resolved] at listed
    have paths := Except.ok.inj listed
    refine ⟨tree, rfl, paths, (nodes _ _ _ _ _ resolved).2.2, (branch _ _ _ _ _).mpr ⟨resolved, ?_⟩⟩
    rw [paths]
    decide +kernel

end Include
end RouteForge
