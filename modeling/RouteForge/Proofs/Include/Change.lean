import RouteForge.Proofs.Include.Decoding
import RouteForge.Proofs.Include.Folding

/-! Resolving again after some files have changed. Either the new tree has one of the changed files
or it is the old tree, and a file that is no document keeps the whole tree from being merged. -/
namespace RouteForge

namespace IncludeTree

mutual

theorem decode_of_merged : ∀ {t : IncludeTree} {d : Document}, t.merged = .ok d →
    ∀ file ∈ t.files, ∃ e, decode file.1 file.2 = .ok e
  | .node p c ts, _, merged, file, member => by
    obtain ⟨own, below, decoded, onto, -⟩ := merged_node_eq_ok merged
    rcases List.mem_append.mp member with member | here
    · exact decode_of_mergedOnto onto file member
    · obtain rfl := List.mem_singleton.mp here
      exact ⟨own, decoded⟩

theorem decode_of_mergedOnto : ∀ {ts : List IncludeTree} {b d : Document},
    mergedOnto b ts = .ok d → ∀ file ∈ filesOf ts, ∃ e, decode file.1 file.2 = .ok e
  | [], _, _, _, _, member => by cases member
  | _ :: _, _, _, merged, file, member => by
    obtain ⟨next, first, onto⟩ := mergedOnto_cons_eq_ok merged
    rcases List.mem_append.mp member with member | member
    · exact decode_of_merged first file member
    · exact decode_of_mergedOnto onto file member

end

end IncludeTree

namespace Include

variable {read read₁ read₂ : Path → Except Refusal ByteArray} {base : Path} {changed : Path → Prop}

mutual

/-- Every file of a tree stands there with its text, less the directives. -/
theorem Resolves.mem_files : ∀ {tree : IncludeTree} {chain : Chain} {target : Path}
    {bytes : ByteArray}, read (place base target) = .ok bytes →
    Resolves read base tree chain target bytes → ∀ p ∈ tree.paths, ∃ x source,
      read p = .ok x ∧ sourceOf p x = .ok source ∧ (p, String.ofList source.content) ∈ tree.files
  | .node _ _ includes, _, target, bytes, fetched, resolves, p, member => by
    obtain ⟨rfl, -, source, text, rfl, below⟩ := resolves
    rcases List.mem_cons.mp member with rfl | member
    · exact ⟨bytes, source, fetched, text, List.mem_append_right _ List.mem_cons_self⟩
    · obtain ⟨x, found, opened, said, inside⟩ := ResolvesAll.mem_files below p member
      exact ⟨x, found, opened, said, List.mem_append_left _ inside⟩

theorem ResolvesAll.mem_files : ∀ {trees : List IncludeTree} {chain : Chain} {targets : List Path},
    ResolvesAll read base trees chain targets → ∀ p ∈ IncludeTree.pathsOf trees, ∃ x source,
      read p = .ok x ∧ sourceOf p x = .ok source ∧
        (p, String.ofList source.content) ∈ IncludeTree.filesOf trees
  | [], _, _, _, _, member => by cases member
  | tree :: trees, _, _, below, p, member => by
    obtain ⟨target, rest, bytes, rfl, fetched, here, others⟩ := below
    rcases List.mem_append.mp member with member | member
    · obtain ⟨x, source, opened, said, inside⟩ := Resolves.mem_files fetched here p member
      exact ⟨x, source, opened, said, List.mem_append_left _ inside⟩
    · obtain ⟨x, source, opened, said, inside⟩ := ResolvesAll.mem_files others p member
      exact ⟨x, source, opened, said, List.mem_append_right _ inside⟩

end

mutual

/-- A tree without a changed file is the tree from before the change. -/
theorem Resolves.unchanged (kept : ∀ p x, ¬ changed p → read₁ p = .ok x → read₂ p = .ok x) :
    ∀ {tree₁ tree₂ : IncludeTree} {chain₁ chain₂ : Chain} {target : Path}
    {bytes₁ bytes₂ : ByteArray},
    read₁ (place base target) = .ok bytes₁ → Resolves read₁ base tree₁ chain₁ target bytes₁ →
    read₂ (place base target) = .ok bytes₂ → Resolves read₂ base tree₂ chain₂ target bytes₂ →
    (∀ p ∈ tree₂.paths, ¬ changed p) → tree₁ = tree₂
  | .node _ _ includes₁, .node _ _ includes₂, _, _, target, bytes₁, bytes₂, fetched₁, resolves₁,
      fetched₂, resolves₂, untouched => by
    obtain ⟨rfl, -, source₁, text₁, rfl, below₁⟩ := resolves₁
    obtain ⟨rfl, -, source₂, text₂, rfl, below₂⟩ := resolves₂
    have again := kept _ _ (untouched _ List.mem_cons_self) fetched₁
    rw [fetched₂] at again
    cases again
    rw [text₁] at text₂
    cases text₂
    rw [ResolvesAll.unchanged kept below₁ below₂ fun p member =>
      untouched p (List.mem_cons_of_mem _ member)]

theorem ResolvesAll.unchanged (kept : ∀ p x, ¬ changed p → read₁ p = .ok x → read₂ p = .ok x) :
    ∀ {trees₁ trees₂ : List IncludeTree} {chain₁ chain₂ : Chain} {targets : List Path},
    ResolvesAll read₁ base trees₁ chain₁ targets → ResolvesAll read₂ base trees₂ chain₂ targets →
    (∀ p ∈ IncludeTree.pathsOf trees₂, ¬ changed p) → trees₁ = trees₂
  | [], [], _, _, _, _, _, _ => rfl
  | [], _ :: _, _, _, _, below₁, below₂, _ => by
    obtain ⟨_, _, _, some, -⟩ := below₂
    rw [ResolvesAll, some] at below₁
    cases below₁
  | _ :: _, [], _, _, _, below₁, below₂, _ => by
    obtain ⟨_, _, _, some, -⟩ := below₁
    rw [ResolvesAll, some] at below₂
    cases below₂
  | tree₁ :: trees₁, tree₂ :: trees₂, _, _, _, below₁, below₂, untouched => by
    obtain ⟨target, rest, bytes₁, rfl, fetched₁, here₁, others₁⟩ := below₁
    obtain ⟨_, _, bytes₂, again, fetched₂, here₂, others₂⟩ := below₂
    cases again
    rw [Resolves.unchanged kept fetched₁ here₁ fetched₂ here₂ fun p member =>
        untouched p (List.mem_append_left _ member),
      ResolvesAll.unchanged kept others₁ others₂ fun p member =>
        untouched p (List.mem_append_right _ member)]

end

variable {t u : FileTree} {config : Path} {tree other : IncludeTree}

/-- A change to a file of the tree shows in every tree that is resolved after it. -/
theorem changed_of_resolveRoot
    (kept : ∀ p x, ¬ changed p → t.read p = .ok x → u.read p = .ok x)
    (resolved : resolveRoot t config = .ok tree) (again : resolveRoot u config = .ok other)
    (touched : ∃ p ∈ tree.paths, changed p) : ∃ p ∈ other.paths, changed p := by
  by_contra none
  have untouched : ∀ p ∈ other.paths, ¬ changed p := fun p member new => none ⟨p, member, new⟩
  obtain ⟨bytes₁, fetched₁, resolves₁⟩ := resolveRoot_eq_ok_iff.mp resolved
  obtain ⟨bytes₂, fetched₂, resolves₂⟩ := resolveRoot_eq_ok_iff.mp again
  obtain rfl := Resolves.unchanged kept fetched₁ resolves₁ fetched₂ resolves₂ untouched
  exact none touched

/-- Where a file of the tree is no document, the tree cannot be merged. -/
theorem not_merged_of_file (resolved : resolveRoot t config = .ok tree)
    {p : Path} (member : p ∈ tree.paths)
    (foreign : ∀ x source, t.read p = .ok x → sourceOf p x = .ok source →
      ∃ r, Document.ofText (String.ofList source.content) = .error r) :
    ∃ e, tree.merged = .error e := by
  obtain ⟨bytes, fetched, resolves⟩ := resolveRoot_eq_ok_iff.mp resolved
  obtain ⟨x, source, opened, said, inside⟩ := resolves.mem_files fetched p member
  obtain ⟨r, unread⟩ := foreign x source opened said
  cases merged : tree.merged with
  | error e => exact ⟨e, rfl⟩
  | ok d =>
    obtain ⟨e, read⟩ := IncludeTree.decode_of_merged merged _ inside
    rw [IncludeTree.decode, unread] at read
    cases read

end Include
end RouteForge
