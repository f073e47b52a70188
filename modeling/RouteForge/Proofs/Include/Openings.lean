import RouteForge.Proofs.Include.Resolution

/-! The files that a search opens. The search is run once more with a record of every place that it
opens. Without the record it is the same search, and where it comes to a tree it has opened the files
of the tree but the root, each before those it includes. -/
namespace RouteForge.Include

/-- A search with a record of what it has opened. -/
abbrev Recorded := ExceptT Error (StateT (List Path) Option)

/-- The place is recorded, whether or not it can be read. -/
def opened (read : Path → Except Refusal ByteArray) (path : Path) : Recorded ByteArray := do
  modify (· ++ [path])
  fetch read path

/-- The search of `grow`, recorded. -/
def recorded (read : Path → Except Refusal ByteArray) (base : Path) :
    Nat → Chain → Path → ByteArray → Recorded IncludeTree
  | 0, _, _, _ => ExceptT.mk fun _ => none
  | depth + 1, chain, target, bytes => do
    let path := place base target
    Chain.check chain path
    let source ← sourceOf path bytes
    let chain := chain ++ [path]
    let includes ← source.targets.mapM (fun target => do
      let path := place base target
      Chain.check chain path
      let bytes ← opened read path
      recorded read base depth chain target bytes)
    return .node path (String.ofList source.content) includes

section Erasure

variable {α β : Type}

/-- Whatever has been opened before, the first computation comes to the answer of the second. -/
def Erases (x : Recorded α) (y : ExceptT Error Option α) : Prop :=
  ∀ seen, (x.run.run seen).map Prod.fst = y.run

namespace Erases

theorem lift (answer : Except Error α) : Erases (liftM answer) (liftM answer) := fun _ => rfl

theorem bind {x : Recorded α} {y : ExceptT Error Option α} {f : α → Recorded β}
    {g : α → ExceptT Error Option β} (first : Erases x y) (rest : ∀ a, Erases (f a) (g a)) :
    Erases (x >>= f) (y >>= g) := by
  intro seen
  have here := first seen
  rw [ExceptT.run_bind, ExceptT.run_bind, StateT.run_bind, ← here]
  cases x.run.run seen with
  | none => rfl
  | some result =>
    obtain ⟨answer, more⟩ := result
    cases answer with
    | error e => rfl
    | ok a => exact rest a more

theorem mapM {f : α → Recorded β} {g : α → ExceptT Error Option β} (each : ∀ x, Erases (f x) (g x))
    (xs : List α) : Erases (xs.mapM f) (xs.mapM g) :=
  mapM_related Erases (fun a => .lift (.ok a)) Erases.bind each xs

end Erases

end Erasure

variable {read : Path → Except Refusal ByteArray} {base : Path}

theorem opened_erases (path : Path) : Erases (opened read path) (liftM (fetch read path)) :=
  fun _ => rfl

theorem recorded_erases (depth : Nat) (chain : Chain) (target : Path) (bytes : ByteArray) :
    Erases (recorded read base depth chain target bytes) (grow read base depth chain target bytes) := by
  induction depth generalizing chain target bytes with
  | zero => exact fun _ => rfl
  | succ depth ih =>
    rw [grow_succ]
    apply Erases.bind (.lift _)
    intro _
    apply Erases.bind (.lift _)
    intro source
    apply Erases.bind
    · apply Erases.mapM
      intro next
      apply Erases.bind (.lift _)
      intro _
      exact (opened_erases _).bind fun bytes => ih _ next bytes
    · exact fun trees => .lift (.ok _)

section Success

variable {α β : Type} {seen more : List Path}

theorem Recorded.bind_eq_ok {x : Recorded α} {f : α → Recorded β} {b : β}
    (whole : (x >>= f).run.run seen = some (.ok b, more)) :
    ∃ a between, x.run.run seen = some (.ok a, between) ∧
      (f a).run.run between = some (.ok b, more) := by
  rw [ExceptT.run_bind, StateT.run_bind] at whole
  cases first : x.run.run seen with
  | none => rw [first] at whole; cases whole
  | some result =>
    obtain ⟨answer, between⟩ := result
    rw [first] at whole
    cases answer with
    | error e => cases whole
    | ok a => exact ⟨a, between, rfl, whole⟩

theorem Recorded.lift_eq_ok {answer : Except Error α} {a : α}
    (whole : (liftM answer : Recorded α).run.run seen = some (.ok a, more)) :
    answer = .ok a ∧ more = seen := by
  cases whole
  exact ⟨rfl, rfl⟩

theorem opened_eq_ok {path : Path} {bytes : ByteArray}
    (whole : (opened read path).run.run seen = some (.ok bytes, more)) : more = seen ++ [path] := by
  obtain ⟨_, between, noted, fetched⟩ := Recorded.bind_eq_ok whole
  obtain ⟨-, rfl⟩ := Recorded.lift_eq_ok fetched
  cases noted
  rfl

theorem mapM_opens {f : Path → Recorded IncludeTree} {targets : List Path} {trees : List IncludeTree}
    (each : ∀ next seen tree more, (f next).run.run seen = some (.ok tree, more) →
      more = seen ++ tree.paths)
    (whole : (targets.mapM f).run.run seen = some (.ok trees, more)) :
    more = seen ++ IncludeTree.pathsOf trees := by
  induction targets generalizing seen trees with
  | nil =>
    cases whole
    simp [IncludeTree.pathsOf]
  | cons next targets ih =>
    rw [List.mapM_cons] at whole
    obtain ⟨tree, between, first, whole⟩ := Recorded.bind_eq_ok whole
    obtain ⟨others, behind, rest, whole⟩ := Recorded.bind_eq_ok whole
    cases whole
    rw [ih rest, each _ _ _ _ first, IncludeTree.pathsOf, List.append_assoc]

/-- A search that comes to a tree has opened the files of the tree behind the one it starts from. -/
theorem recorded_opens {depth : Nat} {chain : Chain} {target : Path} {bytes : ByteArray}
    {tree : IncludeTree}
    (whole : (recorded read base depth chain target bytes).run.run seen = some (.ok tree, more)) :
    ∃ files, tree.paths = place base target :: files ∧ more = seen ++ files := by
  induction depth generalizing chain target bytes seen tree more with
  | zero => cases whole
  | succ depth ih =>
    obtain ⟨_, _, check, scanned⟩ := Recorded.bind_eq_ok whole
    obtain ⟨source, _, text, followed⟩ := Recorded.bind_eq_ok scanned
    obtain ⟨trees, _, below, done⟩ := Recorded.bind_eq_ok followed
    obtain ⟨-, rfl⟩ := Recorded.lift_eq_ok check
    obtain ⟨-, rfl⟩ := Recorded.lift_eq_ok text
    cases done
    refine ⟨IncludeTree.pathsOf trees, rfl, mapM_opens ?_ below⟩
    -- A directive adds its own place first, with which the paths of its tree begin.
    intro next seen tree more descent
    obtain ⟨_, _, check, descent⟩ := Recorded.bind_eq_ok descent
    obtain ⟨bytes, _, fetched, grown⟩ := Recorded.bind_eq_ok descent
    obtain ⟨-, rfl⟩ := Recorded.lift_eq_ok check
    obtain ⟨files, front, opens⟩ := ih grown
    rw [opens, opened_eq_ok fetched, front, List.append_assoc]
    rfl

end Success

/-- A file that is not on the branch but is no text stops the search before anything is opened. -/
theorem recorded_illegible {depth : Nat} {chain : Chain} {target : Path} {bytes : ByteArray} {e : Error}
    (check : Chain.check chain (place base target) = .ok ())
    (text : sourceOf (place base target) bytes = .error e) (seen : List Path) :
    (recorded read base (depth + 1) chain target bytes).run.run seen = some (.error e, seen) := by
  simp only [recorded, check, text]
  rfl

/-! ### Resolving in a file tree -/

/-- What is opened while a file is resolved whose bytes are at hand, in the order of opening. -/
def openings (t : FileTree) (base : Path) (chain : Chain) (target : Path) (bytes : ByteArray) :
    List Path :=
  ((recorded t.read base (depth t bytes) chain target bytes).run.run []).elim [] Prod.snd

theorem recorded_resolve (t : FileTree) (base : Path) (chain : Chain) (target : Path)
    (bytes : ByteArray) : (recorded t.read base (depth t bytes) chain target bytes).run.run [] =
      some (resolve t base chain target bytes, openings t base chain target bytes) := by
  have erased : ((recorded t.read base (depth t bytes) chain target bytes).run.run []).map Prod.fst =
      (grow t.read base (depth t bytes) chain target bytes).run := recorded_erases _ _ _ _ []
  rw [grow_depth] at erased
  unfold openings
  cases run : (recorded t.read base (depth t bytes) chain target bytes).run.run [] with
  | none =>
    rw [run] at erased
    cases erased
  | some result =>
    obtain ⟨answer, record⟩ := result
    rw [run] at erased
    obtain rfl : answer = resolve t base chain target bytes := Option.some.inj erased
    rfl

/-- A file that is resolved has opened all of its tree behind itself, in the order of the paths. -/
theorem paths_of_resolve {t : FileTree} {base : Path} {chain : Chain} {target : Path}
    {bytes : ByteArray} {tree : IncludeTree} (resolved : resolve t base chain target bytes = .ok tree) :
    tree.paths = place base target :: openings t base chain target bytes := by
  have whole := recorded_resolve t base chain target bytes
  rw [resolved] at whole
  obtain ⟨files, front, opens⟩ := recorded_opens whole
  rw [front, opens, List.nil_append]

end RouteForge.Include
