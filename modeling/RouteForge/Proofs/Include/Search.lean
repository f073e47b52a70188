import Mathlib.Data.List.Forall2
import RouteForge.Include.Resolve

/-! The search for included files, one directive after the other. Each file takes one of the ways of
`Search`, each directive one of `Descent`; a search that ends with a tree has met the files that
`Resolves` says. -/
namespace RouteForge.Include

section Sequence

variable {ε α β : Type} (f : α → ExceptT ε Option β)

/-- What running one item after the other comes to: the values of all, or what the first item
that has none comes to. -/
inductive Sequence : List α → Option (Except ε (List β)) → Prop where
  | whole {xs ys} (each : List.Forall₂ (fun x y => (f x).run = some (.ok y)) xs ys) :
      Sequence xs (some (.ok ys))
  | stopped {xs x e} (member : x ∈ xs) (here : (f x).run = some (.error e)) :
      Sequence xs (some (.error e))
  | shallow {xs x} (member : x ∈ xs) (here : (f x).run = none) : Sequence xs none

theorem mapM_sequence (xs : List α) : Sequence f xs (xs.mapM f).run := by
  induction xs with
  | nil => exact .whole .nil
  | cons x xs ih =>
    rw [List.mapM_cons, ExceptT.run_bind]
    cases first : (f x).run with
    | none => exact .shallow List.mem_cons_self first
    | some r =>
      cases r with
      | error e => exact .stopped List.mem_cons_self first
      | ok y =>
        simp only [Option.bind_eq_bind, Option.bind_some, ExceptT.run_bind]
        generalize (xs.mapM f).run = rest at ih
        cases ih with
        | whole each => exact .whole (.cons first each)
        | stopped member here => exact .stopped (List.mem_cons_of_mem _ member) here
        | shallow member here => exact .shallow (List.mem_cons_of_mem _ member) here

end Sequence

variable (read : Path → Except Refusal ByteArray) (base : Path)

/-- What a directive comes to on a branch: its target is looked up, checked, opened and followed. -/
inductive Descent (depth : Nat) (chain : Chain) (next : Path) :
    Option (Except Error IncludeTree) → Prop where
  | looped {e} (check : Chain.check chain (place base next) = .error e) :
      Descent depth chain next (some (.error e))
  | unreadable {reason} (refused : read (place base next) = .error reason) :
      Descent depth chain next (some (.error (.unreadable (place base next) reason)))
  | entered {bytes r} (check : Chain.check chain (place base next) = .ok ())
      (fetched : read (place base next) = .ok bytes)
      (grown : (grow read base depth chain next bytes).run = r) : Descent depth chain next r

/-- What following the directives of a file comes to. -/
inductive Search (depth : Nat) (chain : Chain) (target : Path) (bytes : ByteArray) :
    Option (Except Error IncludeTree) → Prop where
  | looped {e} (check : Chain.check chain (place base target) = .error e) :
      Search depth chain target bytes (some (.error e))
  | illegible {e} (check : Chain.check chain (place base target) = .ok ())
      (text : sourceOf (place base target) bytes = .error e) :
      Search depth chain target bytes (some (.error e))
  | stopped {source next e} (check : Chain.check chain (place base target) = .ok ())
      (text : sourceOf (place base target) bytes = .ok source) (member : next ∈ source.targets)
      (descent : Descent read base depth (chain ++ [place base target]) next (some (.error e))) :
      Search depth chain target bytes (some (.error e))
  | shallow {source next} (check : Chain.check chain (place base target) = .ok ())
      (text : sourceOf (place base target) bytes = .ok source) (member : next ∈ source.targets)
      (descent : Descent read base depth (chain ++ [place base target]) next none) :
      Search depth chain target bytes none
  | whole {source trees} (check : Chain.check chain (place base target) = .ok ())
      (text : sourceOf (place base target) bytes = .ok source)
      (descents : List.Forall₂ (fun next tree =>
        Descent read base depth (chain ++ [place base target]) next (some (.ok tree)))
        source.targets trees) :
      Search depth chain target bytes
        (some (.ok (.node (place base target) (String.ofList source.content) trees)))

/-- One directive followed. -/
def descend (depth : Nat) (chain : Chain) (next : Path) : ExceptT Error Option IncludeTree := do
  Chain.check chain (place base next)
  let bytes ← fetch read (place base next)
  grow read base depth chain next bytes

theorem descend_descent (depth : Nat) (chain : Chain) (next : Path) :
    Descent read base depth chain next (descend read base depth chain next).run := by
  unfold descend
  cases check : Chain.check chain (place base next) with
  | error e => exact .looped check
  | ok =>
    cases fetched : read (place base next) with
    | error reason =>
      simp only [fetch, fetched, Except.mapError]
      exact .unreadable fetched
    | ok bytes =>
      simp only [fetch, fetched, Except.mapError]
      exact .entered check fetched rfl

/-- One call with depth left, its directives followed one after the other. -/
theorem grow_succ (depth : Nat) (chain : Chain) (target : Path) (bytes : ByteArray) :
    grow read base (depth + 1) chain target bytes = (do
      Chain.check chain (place base target)
      let source ← sourceOf (place base target) bytes
      let trees ← source.targets.mapM (descend read base depth (chain ++ [place base target]))
      return .node (place base target) (String.ofList source.content) trees) := rfl

theorem grow_search (depth : Nat) (chain : Chain) (target : Path) (bytes : ByteArray) :
    Search read base depth chain target bytes
      (grow read base (depth + 1) chain target bytes).run := by
  rw [grow_succ]
  cases check : Chain.check chain (place base target) with
  | error e => exact .looped check
  | ok =>
    cases text : sourceOf (place base target) bytes with
    | error e => exact .illegible check text
    | ok source =>
      have all := mapM_sequence (descend read base depth (chain ++ [place base target])) source.targets
      have each := descend_descent read base depth (chain ++ [place base target])
      change Search read base depth chain target bytes
        (Bind.bind (source.targets.mapM (descend read base depth (chain ++ [place base target]))).run _)
      generalize (source.targets.mapM (descend read base depth (chain ++ [place base target]))).run = r at all
      cases all with
      | whole descents => exact .whole check text (descents.imp fun next tree run => run ▸ each next)
      | stopped member run => exact .stopped check text member (run ▸ each _)
      | shallow member run => exact .shallow check text member (run ▸ each _)

mutual

/-- A tree is what the directives of a file lead to: no file on the branch is met again, and below
each file stands one tree for each of its directives. -/
def Resolves (read : Path → Except Refusal ByteArray) (base : Path) :
    IncludeTree → Chain → Path → ByteArray → Prop
  | .node path content includes, chain, target, bytes =>
    path = place base target ∧ Chain.check chain path = .ok () ∧
      ∃ source, sourceOf path bytes = .ok source ∧ content = String.ofList source.content ∧
        ResolvesAll read base includes (chain ++ [path]) source.targets

/-- One tree for each target, in their order. -/
def ResolvesAll (read : Path → Except Refusal ByteArray) (base : Path) :
    List IncludeTree → Chain → List Path → Prop
  | [], _, targets => targets = []
  | tree :: trees, chain, targets => ∃ target rest bytes, targets = target :: rest ∧
      read (place base target) = .ok bytes ∧ Resolves read base tree chain target bytes ∧
      ResolvesAll read base trees chain rest

end

variable {read base}

theorem ResolvesAll.forall₂ {trees : List IncludeTree} {chain : Chain} {targets : List Path} :
    ResolvesAll read base trees chain targets ↔ List.Forall₂ (fun target tree =>
      ∃ bytes, read (place base target) = .ok bytes ∧ Resolves read base tree chain target bytes)
      targets trees := by
  induction trees generalizing targets with
  | nil => simp [ResolvesAll]
  | cons tree trees ih =>
    cases targets with
    | nil => simp [ResolvesAll]
    | cons target targets =>
      constructor
      · rintro ⟨_, _, bytes, same, fetched, here, rest⟩
        cases same
        exact .cons ⟨bytes, fetched, here⟩ (ih.mp rest)
      · rintro (_ | ⟨⟨bytes, fetched, here⟩, rest⟩)
        exact ⟨target, targets, bytes, rfl, fetched, here, ih.mpr rest⟩

theorem Resolves.check {tree : IncludeTree} {chain : Chain} {target : Path} {bytes : ByteArray}
    (resolves : Resolves read base tree chain target bytes) :
    Chain.check chain (place base target) = .ok () := by
  cases tree with
  | node path content includes =>
    obtain ⟨rfl, check, -⟩ := resolves
    exact check

/-- A search that ends with a tree has followed every directive. -/
theorem resolves_of_grow {depth : Nat} {chain : Chain} {target : Path} {bytes : ByteArray}
    {tree : IncludeTree} (grown : (grow read base depth chain target bytes).run = some (.ok tree)) :
    Resolves read base tree chain target bytes := by
  induction depth generalizing chain target bytes tree with
  | zero => cases grown
  | succ depth ih =>
    have search := grow_search read base depth chain target bytes
    rw [grown] at search
    cases search with
    | @whole source trees check text descents =>
      refine ⟨rfl, check, source, text, rfl, ResolvesAll.forall₂.mpr (descents.imp ?_)⟩
      intro next tree descent
      cases descent with
      | entered check fetched grown => exact ⟨_, fetched, ih grown⟩

theorem ResolvesAll.exists_of_mem {trees : List IncludeTree} {chain : Chain} {targets : List Path}
    (below : ResolvesAll read base trees chain targets) {target : Path} (member : target ∈ targets) :
    ∃ tree ∈ trees, ∃ bytes, read (place base target) = .ok bytes ∧
      Resolves read base tree chain target bytes := by
  induction trees generalizing targets with
  | nil => simp [ResolvesAll] at below; simp [below] at member
  | cons tree trees ih =>
    obtain ⟨first, rest, bytes, rfl, fetched, here, others⟩ := below
    rcases List.mem_cons.mp member with rfl | member
    · exact ⟨tree, List.mem_cons_self, bytes, fetched, here⟩
    · obtain ⟨found, inside, bytes, fetched, there⟩ := ih others member
      exact ⟨found, List.mem_cons_of_mem _ inside, bytes, fetched, there⟩

theorem ResolvesAll.exists_target_of_mem {trees : List IncludeTree} {chain : Chain}
    {targets : List Path} (below : ResolvesAll read base trees chain targets) {tree : IncludeTree}
    (member : tree ∈ trees) : ∃ target ∈ targets, ∃ bytes, read (place base target) = .ok bytes ∧
      Resolves read base tree chain target bytes := by
  induction trees generalizing targets with
  | nil => cases member
  | cons first trees ih =>
    obtain ⟨target, rest, bytes, rfl, fetched, here, others⟩ := below
    rcases List.mem_cons.mp member with rfl | member
    · exact ⟨target, List.mem_cons_self, bytes, fetched, here⟩
    · obtain ⟨found, inside, there⟩ := ih others member
      exact ⟨found, List.mem_cons_of_mem _ inside, there⟩

theorem Resolves.path_eq {tree : IncludeTree} {chain : Chain} {target : Path} {bytes : ByteArray}
    (resolves : Resolves read base tree chain target bytes) : tree.path = place base target := by
  cases tree with
  | node path content includes => exact resolves.1

theorem eq_of_forall₂ {α β : Type} {R S : α → β → Prop} (unique : ∀ x y z, R x y → S x z → y = z)
    {xs : List α} {ys zs : List β} (left : List.Forall₂ R xs ys) (right : List.Forall₂ S xs zs) :
    ys = zs := by
  induction left generalizing zs with
  | nil => cases right; rfl
  | cons here _ ih =>
    cases right with
    | cons there others => rw [unique _ _ _ here there, ih others]

theorem Resolves.descends {tree : IncludeTree} {chain : Chain} {next : Path} {bytes : ByteArray}
    {depth : Nat} {r : Option (Except Error IncludeTree)} (fetched : read (place base next) = .ok bytes)
    (resolves : Resolves read base tree chain next bytes)
    (descent : Descent read base depth chain next r) :
    (grow read base depth chain next bytes).run = r := by
  cases descent with
  | looped looped => rw [resolves.check] at looped; cases looped
  | unreadable refused => rw [fetched] at refused; cases refused
  | entered _ again grown =>
    rw [fetched] at again
    cases again
    exact grown

/-- Conversely a search for such a tree can only lack depth. -/
theorem grow_of_resolves (depth : Nat) {chain : Chain} {target : Path} {bytes : ByteArray}
    {tree : IncludeTree} (resolves : Resolves read base tree chain target bytes) :
    (grow read base depth chain target bytes).run = none ∨
      (grow read base depth chain target bytes).run = some (.ok tree) := by
  induction depth generalizing chain target bytes tree with
  | zero => exact .inl rfl
  | succ depth ih =>
    cases tree with
    | node path content includes =>
      obtain ⟨rfl, check, source, text, rfl, below⟩ := resolves
      have search := grow_search read base depth chain target bytes
      generalize (grow read base (depth + 1) chain target bytes).run = r at search
      cases search with
      | looped looped => rw [check] at looped; cases looped
      | illegible _ fault => rw [text] at fault; cases fault
      | stopped _ same member descent =>
        rw [text] at same
        cases same
        obtain ⟨tree, _, bytes, fetched, here⟩ := below.exists_of_mem member
        have run := here.descends fetched descent
        rcases ih here with h | h <;> rw [run] at h <;> cases h
      | shallow => exact .inl rfl
      | whole _ same descents =>
        rw [text] at same
        cases same
        right
        have each (next : Path) (found tree : IncludeTree)
            (descent : Descent read base depth (chain ++ [place base target]) next (some (.ok found)))
            (here : ∃ bytes, read (place base next) = .ok bytes ∧
              Resolves read base tree (chain ++ [place base target]) next bytes) : found = tree := by
          obtain ⟨bytes, fetched, here⟩ := here
          have run := here.descends fetched descent
          rcases ih here with h | h <;> rw [run] at h <;> cases h
          rfl
        rw [eq_of_forall₂ each descents (ResolvesAll.forall₂.mp below)]

/-! ### The check and the targets -/

theorem mem_of_check_error {chain : Chain} {path : Path} {e : Error}
    (looped : Chain.check chain path = .error e) :
    e = .includeCycle path (chain ++ [path]) ∧ ∃ p ∈ chain, p.same path = true := by
  unfold Chain.check at looped
  split at looped
  next h =>
    cases looped
    exact ⟨rfl, List.any_eq_true.mp h⟩
  next => cases looped

theorem not_mem_of_check_ok {chain : Chain} {path : Path}
    (check : Chain.check chain path = .ok ()) : path ∉ chain := by
  intro member
  have looped : List.any chain (·.same path) = true :=
    List.any_eq_true.mpr ⟨path, member, by simp [Path.same]⟩
  simp [Chain.check, looped] at check

/-- The targets of a file's directives. A file that is not a text has none. -/
def targetsOf (bytes : ByteArray) : List Path :=
  match String.fromUTF8? bytes with
  | some text => (Source.ofText text.toList).targets
  | none => []

theorem targetCount_eq_length (bytes : ByteArray) : targetCount bytes = (targetsOf bytes).length := by
  unfold targetCount targetsOf
  cases String.fromUTF8? bytes <;> rfl

theorem targets_of_sourceOf {path : Path} {bytes : ByteArray} {source : Source}
    (text : sourceOf path bytes = .ok source) : source.targets = targetsOf bytes := by
  unfold sourceOf at text
  unfold targetsOf
  cases found : String.fromUTF8? bytes with
  | none => rw [found] at text; cases text
  | some content => rw [found] at text; cases text; rfl

end RouteForge.Include
