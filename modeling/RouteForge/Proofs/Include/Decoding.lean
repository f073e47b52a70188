import RouteForge.Proofs.Include.Resolution
import RouteForge.Proofs.Sha256.Row
import RouteForge.Proofs.Traversal

/-! Reading a tree back from the contents of its files. A content says itself which files stand
below it, so contents listed in the order of the paths belong to one tree only, and files that hold
the same at the paths of a tree resolve to that tree. -/
namespace RouteForge

/-- What stands behind a path, if it can be read. -/
def held (read : Path → Except Refusal ByteArray) (p : Path) : ByteArray :=
  (read p).toOption.getD .empty

theorem held_eq {read : Path → Except Refusal ByteArray} {p : Path} {bytes : ByteArray}
    (fetched : read p = .ok bytes) : held read p = bytes := by
  simp [held, fetched, Except.toOption]

namespace IncludeTree

/-- The contents of all files, in the order of their paths. -/
def raw (read : Path → Except Refusal ByteArray) (t : IncludeTree) :
    Except Refusal (List ByteArray) :=
  t.paths.mapM read

/-- Every file of the tree can be read. -/
def Readable (read : Path → Except Refusal ByteArray) (t : IncludeTree) : Prop :=
  ∀ p ∈ t.paths, read p = .ok (held read p)

variable {read : Path → Except Refusal ByteArray} {t : IncludeTree}

theorem Readable.raw (readable : t.Readable read) : t.raw read = .ok (t.paths.map (held read)) :=
  mapM_eq_ok readable

theorem Readable.hash (readable : t.Readable read) :
    t.hash read = .ok (String.ofList (Sha256.row (t.paths.map (held read)))) := by
  have each (p : Path) (member : p ∈ t.paths) :
      (read p).mapError (Error.checksum p) = .ok (held read p) := by
    rw [readable p member]
    rfl
  unfold IncludeTree.hash
  rw [mapM_eq_ok each]
  rfl

theorem readable_of_hash {h : String} (hashed : t.hash read = .ok h) : t.Readable read := by
  unfold IncludeTree.hash at hashed
  cases digests : t.paths.mapM (fun p => (read p).mapError (Error.checksum p)) with
  | error e => rw [digests] at hashed; cases hashed
  | ok xs =>
    intro p member
    obtain ⟨y, fetched⟩ := exists_of_mapM_eq_ok digests p member
    cases found : read p with
    | error r => rw [found] at fetched; cases fetched
    | ok x => rw [held_eq found]

/-- Where no two contents have one digest, equal hashes come from equal contents. -/
theorem contents_eq_of_hash_eq {read₁ read₂ : Path → Except Refusal ByteArray}
    {t₁ t₂ : IncludeTree} {contents : Set ByteArray} {h : String}
    (apart : Set.InjOn Sha256.digest contents)
    (within₁ : ∀ x ∈ t₁.paths.map (held read₁), x ∈ contents)
    (within₂ : ∀ x ∈ t₂.paths.map (held read₂), x ∈ contents)
    (hashed₁ : t₁.hash read₁ = .ok h) (hashed₂ : t₂.hash read₂ = .ok h) :
    t₁.paths.map (held read₁) = t₂.paths.map (held read₂) := by
  rw [(readable_of_hash hashed₁).hash] at hashed₁
  rw [(readable_of_hash hashed₂).hash] at hashed₂
  have rows := String.ofList_inj.mp (Except.ok.inj (hashed₁.trans hashed₂.symm))
  exact Sha256.row_injOn apart within₁ within₂ rows

end IncludeTree

namespace Include

variable {read read₁ read₂ : Path → Except Refusal ByteArray} {base : Path}

theorem Resolves.place_mem_paths {tree : IncludeTree} {chain : Chain} {target : Path}
    {bytes : ByteArray} (resolves : Resolves read base tree chain target bytes) :
    place base target ∈ tree.paths := by
  cases tree with
  | node path content includes => exact resolves.1 ▸ List.mem_cons_self

mutual

theorem Resolves.readable : ∀ {tree : IncludeTree} {chain : Chain} {target : Path}
    {bytes : ByteArray}, read (place base target) = .ok bytes →
    Resolves read base tree chain target bytes → tree.Readable read
  | .node _ _ includes, _, target, bytes, fetched, resolves, p, member => by
    obtain ⟨rfl, -, source, -, -, below⟩ := resolves
    rcases List.mem_cons.mp member with rfl | member
    · rw [held_eq fetched, fetched]
    · exact ResolvesAll.readable below p member

theorem ResolvesAll.readable : ∀ {trees : List IncludeTree} {chain : Chain} {targets : List Path},
    ResolvesAll read base trees chain targets →
    ∀ p ∈ IncludeTree.pathsOf trees, read p = .ok (held read p)
  | [], _, _, _, _, member => by cases member
  | tree :: trees, _, _, below, p, member => by
    obtain ⟨target, rest, bytes, rfl, fetched, here, others⟩ := below
    rcases List.mem_append.mp member with member | member
    · exact Resolves.readable fetched here p member
    · exact ResolvesAll.readable others p member

end

mutual

/-- A tree is found again at the front of any row of contents that starts with its own. -/
theorem Resolves.decode : ∀ {tree₁ tree₂ : IncludeTree} {chain₁ chain₂ : Chain} {target : Path}
    {bytes₁ bytes₂ : ByteArray} {zs₁ zs₂ : List ByteArray},
    read₁ (place base target) = .ok bytes₁ → Resolves read₁ base tree₁ chain₁ target bytes₁ →
    read₂ (place base target) = .ok bytes₂ → Resolves read₂ base tree₂ chain₂ target bytes₂ →
    tree₁.paths.map (held read₁) ++ zs₁ = tree₂.paths.map (held read₂) ++ zs₂ → tree₁ = tree₂
  | .node _ _ includes₁, .node _ _ includes₂, _, _, target, bytes₁, bytes₂, _, _, fetched₁,
      resolves₁, fetched₂, resolves₂, same => by
    obtain ⟨rfl, -, source₁, text₁, rfl, below₁⟩ := resolves₁
    obtain ⟨rfl, -, source₂, text₂, rfl, below₂⟩ := resolves₂
    obtain ⟨first, others⟩ := List.cons.inj same
    rw [held_eq fetched₁, held_eq fetched₂] at first
    subst first
    rw [text₁] at text₂
    cases text₂
    rw [ResolvesAll.decode below₁ below₂ others]

theorem ResolvesAll.decode : ∀ {trees₁ trees₂ : List IncludeTree} {chain₁ chain₂ : Chain}
    {targets : List Path} {zs₁ zs₂ : List ByteArray},
    ResolvesAll read₁ base trees₁ chain₁ targets → ResolvesAll read₂ base trees₂ chain₂ targets →
    (IncludeTree.pathsOf trees₁).map (held read₁) ++ zs₁ =
      (IncludeTree.pathsOf trees₂).map (held read₂) ++ zs₂ → trees₁ = trees₂
  | [], [], _, _, _, _, _, _, _, _ => rfl
  | [], _ :: _, _, _, _, _, _, below₁, below₂, _ => by
    obtain ⟨_, _, _, some, -⟩ := below₂
    rw [ResolvesAll, some] at below₁
    cases below₁
  | _ :: _, [], _, _, _, _, _, below₁, below₂, _ => by
    obtain ⟨_, _, _, some, -⟩ := below₁
    rw [ResolvesAll, some] at below₂
    cases below₂
  | tree₁ :: trees₁, tree₂ :: trees₂, _, _, _, _, _, below₁, below₂, same => by
    obtain ⟨target, rest, bytes₁, rfl, fetched₁, here₁, others₁⟩ := below₁
    obtain ⟨_, _, bytes₂, again, fetched₂, here₂, others₂⟩ := below₂
    cases again
    simp only [IncludeTree.pathsOf, List.map_append, List.append_assoc] at same
    have first : tree₁ = tree₂ := Resolves.decode fetched₁ here₁ fetched₂ here₂ same
    subst first
    obtain ⟨-, behind⟩ := List.append_inj same (by simp)
    rw [ResolvesAll.decode others₁ others₂ behind]

end

mutual

/-- Only the files of a tree decide that it is the one. -/
theorem Resolves.transfer : ∀ {tree : IncludeTree} {chain : Chain} {target : Path}
    {bytes : ByteArray}, Resolves read₁ base tree chain target bytes →
    (∀ p ∈ tree.paths, read₂ p = read₁ p) → Resolves read₂ base tree chain target bytes
  | .node _ _ includes, _, _, _, resolves, agree => by
    obtain ⟨here, check, source, text, content, below⟩ := resolves
    exact ⟨here, check, source, text, content,
      ResolvesAll.transfer below fun p member => agree p (List.mem_cons_of_mem _ member)⟩

theorem ResolvesAll.transfer : ∀ {trees : List IncludeTree} {chain : Chain} {targets : List Path},
    ResolvesAll read₁ base trees chain targets →
    (∀ p ∈ IncludeTree.pathsOf trees, read₂ p = read₁ p) →
    ResolvesAll read₂ base trees chain targets
  | [], _, _, below, _ => below
  | tree :: trees, _, _, below, agree => by
    obtain ⟨target, rest, bytes, rfl, fetched, here, others⟩ := below
    have opened : read₂ (place base target) = .ok bytes := by
      rw [agree _ (List.mem_append_left _ here.place_mem_paths), fetched]
    exact ⟨target, rest, bytes, rfl, opened,
      Resolves.transfer here fun p member => agree p (List.mem_append_left _ member),
      ResolvesAll.transfer others fun p member => agree p (List.mem_append_right _ member)⟩

end

variable {t u : FileTree} {config : Path} {tree other : IncludeTree}

theorem readable_of_resolveRoot (resolved : resolveRoot t config = .ok tree) :
    tree.Readable t.read := by
  obtain ⟨bytes, fetched, resolves⟩ := resolveRoot_eq_ok_iff.mp resolved
  exact resolves.readable fetched

/-- Equal contents make equal trees, whatever else the files are. -/
theorem eq_of_contents_eq (resolved : resolveRoot t config = .ok tree)
    (again : resolveRoot u config = .ok other)
    (same : tree.paths.map (held t.read) = other.paths.map (held u.read)) : tree = other := by
  obtain ⟨bytes₁, fetched₁, resolves₁⟩ := resolveRoot_eq_ok_iff.mp resolved
  obtain ⟨bytes₂, fetched₂, resolves₂⟩ := resolveRoot_eq_ok_iff.mp again
  have padded := congrArg (· ++ ([] : List ByteArray)) same
  exact Resolves.decode fetched₁ resolves₁ fetched₂ resolves₂ padded

theorem resolveRoot_transfer (resolved : resolveRoot t config = .ok tree)
    (agree : ∀ p ∈ tree.paths, u.read p = t.read p) : resolveRoot u config = .ok tree := by
  obtain ⟨bytes, fetched, resolves⟩ := resolveRoot_eq_ok_iff.mp resolved
  refine resolveRoot_eq_ok_iff.mpr ⟨bytes, ?_, resolves.transfer agree⟩
  exact (agree _ resolves.place_mem_paths).trans fetched

end Include
end RouteForge
