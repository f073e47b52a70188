import RouteForge.Proofs.FileTree.Lookup
import RouteForge.Proofs.Include.Calls

/-! Resolving in a file tree. The depth of the search is enough in every tree, so the answer is the
one tree that the directives lead to, or the error of the first file that stops the search, and
resolving obeys the recursion of the search without a depth. -/
namespace RouteForge.Include

/-- The targets of all directives of a file tree. -/
def allTargets (t : FileTree) : List Path :=
  t.entries.flatMap (fun (_, e) => match e with
    | .file bytes _ => targetsOf bytes
    | _ => [])

theorem targetTotal_eq_length (t : FileTree) : targetTotal t = (allTargets t).length := by
  unfold targetTotal allTargets
  induction t.entries with
  | nil => rfl
  | cons p rest ih =>
    obtain ⟨l, e⟩ := p
    rw [List.foldr_cons, ih, List.flatMap_cons, List.length_append]
    cases e with
    | file bytes m => simp [targetCount_eq_length]
    | directory | sink => simp

/-- A device reads as empty, so every directive that is read stands in a file. -/
theorem targets_of_read {t : FileTree} {p : Path} {bytes : ByteArray} (read : t.read p = .ok bytes)
    {next : Path} (member : next ∈ targetsOf bytes) : next ∈ allTargets t := by
  rcases FileTree.read_eq_ok_iff.mp read with ⟨m, found⟩ | ⟨_, rfl⟩
  · obtain ⟨l, _, stands⟩ := FileTree.lookup_eq_ok_iff.mp found
    have below : l ≠ [] := by
      rintro rfl
      simp [FileTree.get?] at stands
    exact List.mem_flatMap.mpr ⟨_, FileTree.mem_entries_of_get? stands below, member⟩
  · have none : targetsOf .empty = [] := by decide
    simp [none] at member

theorem targets_subset (t : FileTree) (bytes : ByteArray) :
    Targets t.read bytes ⊆ ((targetsOf bytes ++ allTargets t).toFinset : Set Path) := by
  rintro next (inside | ⟨p, x, read, inside⟩) <;> rw [List.coe_toFinset]
  · exact List.mem_append_left _ inside
  · exact List.mem_append_right _ (targets_of_read read inside)

theorem targets_finite (t : FileTree) (bytes : ByteArray) : (Targets t.read bytes).Finite :=
  (Finset.finite_toSet _).subset (targets_subset t bytes)

theorem places_lt_depth (t : FileTree) (base : Path) (bytes : ByteArray) :
    (places t.read base bytes).ncard < depth t bytes := by
  let all := targetsOf bytes ++ allTargets t
  calc (places t.read base bytes).ncard
      ≤ (Targets t.read bytes).ncard := Set.ncard_image_le (targets_finite t bytes)
    _ ≤ (all.toFinset : Set Path).ncard :=
        Set.ncard_le_ncard (targets_subset t bytes) (Finset.finite_toSet _)
    _ = all.toFinset.card := Set.ncard_coe_finset _
    _ ≤ all.length := List.toFinset_card_le _
    _ = targetCount bytes + targetTotal t := by
        rw [List.length_append, targetCount_eq_length, targetTotal_eq_length]
    _ < depth t bytes := by
        unfold depth
        omega

section Settlement

variable {ε α β : Type}

/-- The computation has depth enough, and this is its answer. -/
def Settles (x : ExceptT ε Option α) (answer : Except ε α) : Prop := x.run = some answer

namespace Settles

theorem lift (answer : Except ε α) : Settles (liftM answer) answer := rfl

theorem pure (a : α) : Settles (Pure.pure a : ExceptT ε Option α) (.ok a) := rfl

theorem bind {x : ExceptT ε Option α} {answer : Except ε α} {f : α → ExceptT ε Option β}
    {g : α → Except ε β} (first : Settles x answer) (rest : ∀ a, Settles (f a) (g a)) :
    Settles (x >>= f) (answer >>= g) := by
  unfold Settles at first ⊢
  rw [ExceptT.run_bind, first]
  cases answer with
  | error e => rfl
  | ok a => exact rest a

theorem mapM {f : α → ExceptT ε Option β} {g : α → Except ε β} (each : ∀ x, Settles (f x) (g x))
    (xs : List α) : Settles (xs.mapM f) (xs.mapM g) :=
  mapM_related Settles Settles.pure Settles.bind each xs

end Settles

end Settlement

/-- The search never lacks depth, whatever branch it starts on, and more depth than there are places
changes nothing. -/
theorem grow_resolve {t : FileTree} {base : Path} {depth : Nat} (chain : Chain) (target : Path)
    {bytes : ByteArray} (enough : (places t.read base bytes).ncard < depth) :
    Settles (grow t.read base depth chain target bytes) (resolve t base chain target bytes) := by
  have wide : (places t.read base bytes).Finite := (targets_finite t bytes).image _
  obtain ⟨answer, settled⟩ := grow_settles chain target wide
  unfold Settles resolve
  rw [settled _ enough, settled _ (places_lt_depth t base bytes), Option.getD_some]

theorem grow_depth (t : FileTree) (base : Path) (chain : Chain) (target : Path) (bytes : ByteArray) :
    (grow t.read base (depth t bytes) chain target bytes).run =
      some (resolve t base chain target bytes) :=
  grow_resolve chain target (places_lt_depth t base bytes)

/-- Resolving succeeds with a tree exactly when the directives lead to it. -/
theorem resolve_eq_ok_iff {t : FileTree} {base : Path} {chain : Chain} {target : Path}
    {bytes : ByteArray} {tree : IncludeTree} :
    resolve t base chain target bytes = .ok tree ↔
      Resolves t.read base tree chain target bytes := by
  have answer := grow_depth t base chain target bytes
  constructor
  · intro ok
    rw [ok] at answer
    exact resolves_of_grow answer
  · intro resolves
    rcases grow_of_resolves (depth t bytes) resolves with run | run
    · rw [run] at answer
      cases answer
    · exact Option.some.inj (answer.symm.trans run)

/-- Where the configuration itself is opened. -/
def rootOf (config : Path) : Path := place (baseOf config) (nameOf config)

theorem resolveRoot_eq_ok_iff {t : FileTree} {config : Path} {tree : IncludeTree} :
    resolveRoot t config = .ok tree ↔ ∃ bytes, t.read (rootOf config) = .ok bytes ∧
      Resolves t.read (baseOf config) tree [] (nameOf config) bytes := by
  unfold resolveRoot fetch rootOf
  cases read : t.read (place (baseOf config) (nameOf config)) with
  | error r => simp [Except.mapError, bind, Except.bind, read]
  | ok bytes => simp [Except.mapError, bind, Except.bind, read, resolve_eq_ok_iff]

theorem resolveRoot_error {t : FileTree} {config : Path} {e : Error}
    (stopped : resolveRoot t config = .error e) :
    (∃ reason, t.read (rootOf config) = .error reason ∧ e = .unreadable (rootOf config) reason) ∨
      ∃ bytes, t.read (rootOf config) = .ok bytes ∧
        (grow t.read (baseOf config) (depth t bytes) [] (nameOf config) bytes).run =
          some (.error e) := by
  unfold resolveRoot fetch at stopped
  unfold rootOf
  cases read : t.read (place (baseOf config) (nameOf config)) with
  | error r =>
    simp only [read, Except.mapError, bind, Except.bind] at stopped
    cases stopped
    exact .inl ⟨r, rfl, rfl⟩
  | ok bytes =>
    simp only [read, Except.mapError, bind, Except.bind] at stopped
    exact .inr ⟨bytes, rfl, stopped ▸ grow_depth t (baseOf config) [] (nameOf config) bytes⟩

/-! ### Without a depth -/

/-- What a directive comes to on a branch: its place is checked and opened, and the file that is there
is resolved. -/
def follow (t : FileTree) (base : Path) (chain : Chain) (next : Path) : Except Error IncludeTree := do
  Chain.check chain (place base next)
  let bytes ← fetch t.read (place base next)
  resolve t base chain next bytes

theorem descend_settles {t : FileTree} {base : Path} {bytes : ByteArray} {depth : Nat}
    (enough : (places t.read base bytes).ncard < depth) (chain : Chain) (next : Path) :
    Settles (descend t.read base depth chain next) (follow t base chain next) := by
  unfold descend follow fetch
  apply Settles.bind (.lift _)
  intro _
  cases fetched : t.read (place base next) with
  | error reason => rfl
  | ok more =>
    have fewer : places t.read base more ⊆ places t.read base bytes :=
      Set.image_mono (targets_subset_of_read fetched)
    have bound := Set.ncard_le_ncard fewer ((targets_finite t bytes).image _)
    exact grow_resolve chain next (by omega)

/-- Resolving without a depth. A file is checked against the branch and read as text, then its
directives are followed one after the other from a branch with the file on it. -/
theorem resolve_eq (t : FileTree) (base : Path) (chain : Chain) (target : Path) (bytes : ByteArray) :
    resolve t base chain target bytes = (do
      Chain.check chain (place base target)
      let source ← sourceOf (place base target) bytes
      let trees ← source.targets.mapM (follow t base (chain ++ [place base target]))
      return .node (place base target) (String.ofList source.content) trees) := by
  -- With one unit of depth to spare the file is opened up once and its directives still have enough.
  have enough := places_lt_depth t base bytes
  have answer := grow_resolve chain target (Nat.lt_succ_of_lt enough)
  apply Option.some.inj
  rw [← answer, grow_succ]
  apply Settles.bind (.lift _)
  intro _
  apply Settles.bind (.lift _)
  intro source
  apply Settles.bind
  · exact .mapM (descend_settles enough _) source.targets
  · exact fun trees => .pure _

end RouteForge.Include
