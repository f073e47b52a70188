import Mathlib.Data.List.Chain
import Mathlib.Data.Set.Card
import RouteForge.Proofs.Include.Search
import RouteForge.Proofs.Traversal

/-! The calls of the search along one branch. Every further call takes a target of the file at hand
to a place that is not on the branch yet, so there are no more of them than places where targets
lead. Only paths are compared: it does not matter which of them stand for one file. -/
namespace RouteForge.Include

/-- A file to be resolved and the branch that leads to it. -/
structure Call where
  chain : Chain
  target : Path
  bytes : ByteArray

namespace Call

variable (base : Path) (c : Call)

def path : Path := place base c.target

/-- The branch with the file of the call on it. -/
def branch : Chain := c.chain ++ [c.path base]

theorem path_mem_branch : c.path base ∈ c.branch base := by simp [branch]

end Call

section Calls

variable (read : Path → Except Refusal ByteArray) (base : Path)

/-- A call that follows a directive of its file into another. -/
structure Enters (c d : Call) : Prop where
  checked : Chain.check c.chain (c.path base) = .ok ()
  named : ∃ source, sourceOf (c.path base) c.bytes = .ok source ∧ d.target ∈ source.targets
  onward : d.chain = c.branch base
  fresh : Chain.check d.chain (d.path base) = .ok ()
  fetched : read (d.path base) = .ok d.bytes

/-- The targets of all directives, in the bytes at hand or in any file that can be read. -/
def Targets (bytes : ByteArray) : Set Path :=
  {next | next ∈ targetsOf bytes ∨ ∃ p x, read p = .ok x ∧ next ∈ targetsOf x}

/-- Where all targets lead. -/
def places (bytes : ByteArray) : Set Path := place base '' Targets read bytes

end Calls

variable {read : Path → Except Refusal ByteArray} {base : Path} {c d : Call} {cs : List Call}

/-- What can be read brings no targets that do not count already. -/
theorem targets_subset_of_read {p : Path} {bytes more : ByteArray} (fetched : read p = .ok more) :
    Targets read more ⊆ Targets read bytes := by
  rintro next (inside | elsewhere)
  · exact .inr ⟨p, more, fetched, inside⟩
  · exact .inr elsewhere

namespace Enters

theorem not_mem_branch (step : Enters read base c d) : d.path base ∉ c.branch base :=
  step.onward ▸ not_mem_of_check_ok step.fresh

theorem mem_targetsOf (step : Enters read base c d) : d.target ∈ targetsOf c.bytes := by
  obtain ⟨source, text, member⟩ := step.named
  exact targets_of_sourceOf text ▸ member

theorem targets_subset (step : Enters read base c d) :
    Targets read d.bytes ⊆ Targets read c.bytes :=
  targets_subset_of_read step.fetched

theorem branch_subset (step : Enters read base c d) : c.branch base ⊆ d.branch base :=
  fun _ member => List.mem_append_left _ (step.onward ▸ member)

end Enters

/-- The last call has the files of all calls on its branch, in their order. -/
theorem branch_getLast (calls : (c :: cs).IsChain (Enters read base)) :
    ((c :: cs).getLast (List.cons_ne_nil _ _)).branch base =
      c.chain ++ (c :: cs).map (Call.path base) := by
  induction cs generalizing c with
  | nil => rfl
  | cons d cs ih =>
    obtain ⟨step, deeper⟩ := List.isChain_cons_cons.mp calls
    rw [List.getLast_cons (List.cons_ne_nil _ _), ih deeper, step.onward, Call.branch,
      List.append_assoc]
    rfl

theorem branch_subset_of_calls (calls : (c :: cs).IsChain (Enters read base)) :
    ∀ d ∈ c :: cs, c.branch base ⊆ d.branch base := by
  induction cs generalizing c with
  | nil => simp
  | cons e cs ih =>
    obtain ⟨step, deeper⟩ := List.isChain_cons_cons.mp calls
    intro d member
    rcases List.mem_cons.mp member with rfl | member
    · exact List.Subset.refl _
    · exact List.Subset.trans step.branch_subset (ih deeper d member)

/-- The calls behind a call are of different files, none of them on its branch. -/
theorem nodup_of_calls (calls : (c :: cs).IsChain (Enters read base)) :
    (cs.map (Call.path base)).Nodup ∧ ∀ p ∈ cs.map (Call.path base), p ∉ c.branch base := by
  induction cs generalizing c with
  | nil => simp
  | cons d cs ih =>
    obtain ⟨step, deeper⟩ := List.isChain_cons_cons.mp calls
    obtain ⟨distinct, off⟩ := ih deeper
    refine ⟨List.nodup_cons.mpr ⟨fun again => off _ again (d.path_mem_branch base), distinct⟩,
      fun p member => ?_⟩
    rcases List.mem_cons.mp member with rfl | member
    · exact step.not_mem_branch
    · exact fun inside => off p member (step.branch_subset inside)

theorem nodup_paths_of_calls (calls : (c :: cs).IsChain (Enters read base)) :
    ((c :: cs).map (Call.path base)).Nodup := by
  obtain ⟨distinct, off⟩ := nodup_of_calls calls
  exact List.nodup_cons.mpr ⟨fun again => off _ again (c.path_mem_branch base), distinct⟩

theorem mem_places_of_calls (calls : (c :: cs).IsChain (Enters read base)) :
    ∀ p ∈ cs.map (Call.path base), p ∈ places read base c.bytes := by
  induction cs generalizing c with
  | nil => simp
  | cons d cs ih =>
    obtain ⟨step, deeper⟩ := List.isChain_cons_cons.mp calls
    intro p member
    rcases List.mem_cons.mp member with rfl | member
    · exact Set.mem_image_of_mem _ (.inl step.mem_targetsOf)
    · exact Set.image_mono step.targets_subset (ih deeper p member)

theorem length_le_of_calls (finite : (places read base c.bytes).Finite)
    (calls : (c :: cs).IsChain (Enters read base)) :
    cs.length ≤ (places read base c.bytes).ncard := by
  have distinct := (nodup_of_calls calls).1
  have within : ((cs.map (Call.path base)).toFinset : Set Path) ⊆ places read base c.bytes :=
    fun p member => mem_places_of_calls calls p (by simpa using member)
  calc cs.length
      = (cs.map (Call.path base)).toFinset.card := by
        rw [List.toFinset_card_of_nodup distinct, List.length_map]
    _ = ((cs.map (Call.path base)).toFinset : Set Path).ncard := (Set.ncard_coe_finset _).symm
    _ ≤ (places read base c.bytes).ncard := Set.ncard_le_ncard within finite

/-- A search that lacks depth has made as many calls, one inside the other. -/
theorem calls_of_shallow (depth : Nat) {chain : Chain} {target : Path} {bytes : ByteArray}
    (shallow : (grow read base depth chain target bytes).run = none) :
    ∃ cs, cs.length = depth ∧ (⟨chain, target, bytes⟩ :: cs).IsChain (Enters read base) := by
  induction depth generalizing chain target bytes with
  | zero => exact ⟨[], rfl, .singleton _⟩
  | succ depth ih =>
    have search := grow_search read base depth chain target bytes
    rw [shallow] at search
    cases search with
    | shallow check text member descent =>
      cases descent with
      | entered fresh fetched grown =>
        obtain ⟨cs, long, calls⟩ := ih grown
        refine ⟨_ :: cs, by rw [List.length_cons, long], .cons_cons ?_ calls⟩
        exact ⟨check, ⟨_, text, member⟩, rfl, fresh, fetched⟩

/-- One call more than there are places is enough depth. -/
theorem grow_ne_none {depth : Nat} (chain : Chain) (target : Path) {bytes : ByteArray}
    (finite : (places read base bytes).Finite) (enough : (places read base bytes).ncard < depth) :
    (grow read base depth chain target bytes).run ≠ none := by
  intro shallow
  obtain ⟨cs, long, calls⟩ := calls_of_shallow depth shallow
  have bound : cs.length ≤ (places read base bytes).ncard :=
    length_le_of_calls (c := ⟨chain, target, bytes⟩) finite calls
  omega

/-! ### More depth -/

section Approximation

variable {ε α β : Type}

/-- Whatever answer the first computation comes to, the second comes to it as well. -/
def Approximates (x y : ExceptT ε Option α) : Prop := ∀ r, x.run = some r → y.run = some r

namespace Approximates

theorem refl (x : ExceptT ε Option α) : Approximates x x := fun _ found => found

theorem bind {x y : ExceptT ε Option α} {f g : α → ExceptT ε Option β} (first : Approximates x y)
    (rest : ∀ a, Approximates (f a) (g a)) : Approximates (x >>= f) (y >>= g) := by
  intro r found
  rw [ExceptT.run_bind] at found ⊢
  cases run : x.run with
  | none => rw [run] at found; cases found
  | some answer =>
    rw [run] at found
    rw [first answer run]
    cases answer with
    | error e => exact found
    | ok a => exact rest a r found

theorem mapM {f g : α → ExceptT ε Option β} (each : ∀ x, Approximates (f x) (g x)) (xs : List α) :
    Approximates (xs.mapM f) (xs.mapM g) :=
  mapM_related Approximates (fun a => .refl (Pure.pure a)) Approximates.bind each xs

end Approximates

end Approximation

/-- One unit more of depth keeps every answer, call by call. -/
theorem grow_approximates (depth : Nat) (chain : Chain) (target : Path) (bytes : ByteArray) :
    Approximates (grow read base depth chain target bytes)
      (grow read base (depth + 1) chain target bytes) := by
  induction depth generalizing chain target bytes with
  | zero => exact nofun
  | succ depth ih =>
    have each (branch : Chain) (next : Path) : Approximates (descend read base depth branch next)
        (descend read base (depth + 1) branch next) := by
      unfold descend
      exact .bind (.refl _) fun _ => .bind (.refl _) fun opened => ih branch next opened
    rw [grow_succ, grow_succ]
    exact .bind (.refl _) fun _ => .bind (.refl _) fun _ => .bind (.mapM (each _) _) fun _ => .refl _

/-- More depth than is enough changes no answer. -/
theorem grow_mono {depth more : Nat} {chain : Chain} {target : Path} {bytes : ByteArray}
    {r : Except Error IncludeTree} (le : depth ≤ more)
    (found : (grow read base depth chain target bytes).run = some r) :
    (grow read base more chain target bytes).run = some r := by
  induction le with
  | refl => exact found
  | step _ ih => exact grow_approximates _ _ _ _ _ ih

/-- The search comes to an answer, the same at every depth beyond the number of places. -/
theorem grow_settles (chain : Chain) (target : Path) {bytes : ByteArray}
    (finite : (places read base bytes).Finite) :
    ∃ r, ∀ depth, (places read base bytes).ncard < depth →
      (grow read base depth chain target bytes).run = some r := by
  obtain ⟨r, found⟩ := Option.ne_none_iff_exists'.mp
    (grow_ne_none chain target finite (Nat.lt_succ_self _))
  exact ⟨r, fun depth enough => grow_mono enough found⟩

end RouteForge.Include
