import Mathlib.Data.List.Chain
import Mathlib.Logic.Relation
import RouteForge.Proofs.Include.Resolution
import RouteForge.Proofs.Path.Canonical

/-! The graph of files and the files they include. Resolving gives a tree exactly when every file
that the root reaches can be read as text and none of them reaches itself, and every error it gives
is true of the graph. -/
namespace RouteForge.Include

open Relation (ReflTransGen TransGen)

section Graph

variable (read : Path → Except Refusal ByteArray) (base : Path)

/-- A directive of the first file leads to the second. -/
def Includes (p q : Path) : Prop :=
  ∃ bytes source target, read p = .ok bytes ∧ sourceOf p bytes = .ok source ∧
    target ∈ source.targets ∧ place base target = q

def Reaches : Path → Path → Prop := ReflTransGen (Includes read base)

/-- A file that includes itself, by itself or through others. -/
def Circular (p : Path) : Prop := TransGen (Includes read base) p p

def Legible (p : Path) : Prop := ∃ bytes, read p = .ok bytes ∧ String.fromUTF8? bytes ≠ none

/-- What an error says about the files below a root. A cycle is shown by the branch that leads from
the root to the file that comes a second time, each of its files including the next. -/
def Explains (root : Path) : Error → Prop
  | .includeCycle path chain => ∃ branch, chain = branch ++ [path] ∧ branch.head? = some root ∧
      chain.IsChain (Includes read base) ∧ branch.Nodup ∧ path ∈ branch
  | .unreadable path reason => Reaches read base root path ∧ read path = .error reason
  | .decode (.file path) .notUtf8 => Reaches read base root path ∧
      ∃ bytes, read path = .ok bytes ∧ String.fromUTF8? bytes = none
  | _ => False

/-- The files being resolved, from the root to the one at hand. -/
structure Branch (root : Path) (chain : Chain) (path : Path) : Prop where
  start : (chain ++ [path]).head? = some root
  linked : (chain ++ [path]).IsChain (Includes read base)
  distinct : chain.Nodup
  cleaned : ∀ p ∈ chain ++ [path], ∃ q : Path, p = q.clean

end Graph

theorem transGen_of_isChain {α : Type} {r : α → α → Prop} {a b : α} {l : List α}
    (linked : (a :: l).IsChain r) (member : b ∈ l) : TransGen r a b := by
  induction l generalizing a with
  | nil => cases member
  | cons c l ih =>
    have step : r a c := linked.rel_head? rfl
    rcases List.mem_cons.mp member with rfl | member
    · exact .single step
    · exact .head step (ih linked.tail member)

theorem sourceOf_eq_ok_iff {path : Path} {bytes : ByteArray} {source : Source} :
    sourceOf path bytes = .ok source ↔
      ∃ text, String.fromUTF8? bytes = some text ∧ Source.ofText text.toList = source := by
  unfold sourceOf
  cases String.fromUTF8? bytes <;> simp

theorem sourceOf_toUTF8 (path : Path) (text : String) :
    sourceOf path text.toUTF8 = .ok (Source.ofText text.toList) :=
  sourceOf_eq_ok_iff.mpr ⟨text, dif_pos text.isValidUTF8, rfl⟩

theorem sourceOf_eq_error_iff {path : Path} {bytes : ByteArray} {e : Error} :
    sourceOf path bytes = .error e ↔
      String.fromUTF8? bytes = none ∧ e = .decode (.file path) .notUtf8 := by
  unfold sourceOf
  cases String.fromUTF8? bytes <;> simp [eq_comm]

variable {read : Path → Except Refusal ByteArray} {base : Path}

namespace Branch

variable {root path next : Path} {chain : Chain}

theorem reaches (branch : Branch read base root chain path) : Reaches read base root path := by
  have walk := List.relationReflTransGen_of_exists_isChain _ branch.linked (by simp)
  have first : (chain ++ [path]).head (by simp) = root :=
    Option.some.inj ((List.head?_eq_some_head _).symm.trans branch.start)
  rw [first, List.getLast_append_singleton] at walk
  exact walk

/-- An error of the check shows a cycle, since on cleaned paths the check compares texts. -/
theorem explains (branch : Branch read base root chain path) {e : Error}
    (looped : Chain.check chain path = .error e) : Explains read base root e := by
  obtain ⟨rfl, p, member, same⟩ := mem_of_check_error looped
  obtain ⟨q, rfl⟩ := branch.cleaned p (by simp [member])
  obtain ⟨r, rfl⟩ := branch.cleaned path (by simp)
  have again : q.clean = r.clean := (Path.same_clean_iff q r).mp same
  have start : chain.head? = some root := by
    cases chain with
    | nil => cases member
    | cons => exact branch.start
  exact ⟨chain, rfl, start, branch.linked, branch.distinct, again ▸ member⟩

/-- The branch with one more file, if the one at hand is new on it. -/
theorem extend (branch : Branch read base root chain (place base path))
    (check : Chain.check chain (place base path) = .ok ())
    (step : Includes read base (place base path) (place base next)) :
    Branch read base root (chain ++ [place base path]) (place base next) where
  start := by
    have some : chain ++ [place base path] ≠ [] := by simp
    rw [List.head?_append_of_ne_nil _ some]
    exact branch.start
  linked := branch.linked.append (.singleton _) (by simpa using step)
  distinct := List.concat_eq_append ▸
    (List.nodup_concat chain _).mpr ⟨not_mem_of_check_ok check, branch.distinct⟩
  cleaned := by
    intro p member
    rcases List.mem_append.mp member with member | member
    · exact branch.cleaned p member
    · exact ⟨base.join next, List.mem_singleton.mp member⟩

end Branch

/-- Every error of a search is true of the graph. -/
theorem explains_of_grow {root target : Path} {depth : Nat} {chain : Chain} {bytes : ByteArray}
    {e : Error} (fetched : read (place base target) = .ok bytes)
    (branch : Branch read base root chain (place base target))
    (stopped : (grow read base depth chain target bytes).run = some (.error e)) :
    Explains read base root e := by
  induction depth generalizing chain target bytes with
  | zero => cases stopped
  | succ depth ih =>
    have search := grow_search read base depth chain target bytes
    rw [stopped] at search
    cases search with
    | looped looped => exact branch.explains looped
    | illegible check text =>
      obtain ⟨broken, rfl⟩ := sourceOf_eq_error_iff.mp text
      exact ⟨branch.reaches, bytes, fetched, broken⟩
    | @stopped source next e check text member descent =>
      have longer := branch.extend check ⟨bytes, source, next, fetched, text, member, rfl⟩
      cases descent with
      | looped looped => exact longer.explains looped
      | unreadable refused => exact ⟨longer.reaches, refused⟩
      | entered _ opened grown => exact ih opened longer grown

mutual

/-- Below a resolved file everything can be read as text, is not on the branch above, and does not
reach itself. -/
theorem Resolves.reaches : ∀ {tree : IncludeTree} {chain : Chain} {target p : Path}
    {bytes : ByteArray}, read (place base target) = .ok bytes →
    Resolves read base tree chain target bytes → Reaches read base (place base target) p →
    p ∉ chain ∧ Legible read p ∧ ¬ Circular read base p
  | .node _ _ includes, chain, target, p, bytes, fetched, resolves, walk => by
    obtain ⟨rfl, check, source, text, rfl, below⟩ := resolves
    obtain ⟨content, decoded, rfl⟩ := sourceOf_eq_ok_iff.mp text
    have child {q : Path} (step : Includes read base (place base target) q) :
        ∃ next ∈ (Source.ofText content.toList).targets, place base next = q := by
      obtain ⟨again, other, next, read, text', member, rfl⟩ := step
      rw [fetched] at read
      cases read
      rw [text] at text'
      cases text'
      exact ⟨next, member, rfl⟩
    rcases Relation.ReflTransGen.cases_head walk with rfl | ⟨q, step, walk⟩
    · refine ⟨not_mem_of_check_ok check, ⟨bytes, fetched, by simp [decoded]⟩, fun circle => ?_⟩
      obtain ⟨q, step, walk⟩ := Relation.TransGen.head'_iff.mp circle
      obtain ⟨next, member, rfl⟩ := child step
      exact (ResolvesAll.reaches below member walk).1 (by simp)
    · obtain ⟨next, member, rfl⟩ := child step
      obtain ⟨off, rest⟩ := ResolvesAll.reaches below member walk
      exact ⟨fun inside => off (List.mem_append_left _ inside), rest⟩

theorem ResolvesAll.reaches : ∀ {trees : List IncludeTree} {chain : Chain} {targets : List Path}
    {next p : Path}, ResolvesAll read base trees chain targets → next ∈ targets →
    Reaches read base (place base next) p → p ∉ chain ∧ Legible read p ∧ ¬ Circular read base p
  | [], _, _, _, _, below, member, _ => by
    rw [ResolvesAll] at below
    simp [below] at member
  | _ :: trees, chain, _, next, p, below, member, walk => by
    obtain ⟨first, rest, bytes, rfl, fetched, here, others⟩ := below
    rcases List.mem_cons.mp member with rfl | member
    · exact Resolves.reaches fetched here walk
    · exact ResolvesAll.reaches others member walk

end

/-- The file of a cycle is below the root and includes itself. -/
theorem Explains.circular {root path : Path} {chain : Chain}
    (explains : Explains read base root (.includeCycle path chain)) :
    Reaches read base root path ∧ Circular read base path := by
  obtain ⟨branch, rfl, start, linked, -, member⟩ := explains
  constructor
  · cases branch with
    | nil => cases member
    | cons first rest =>
      cases start
      exact (transGen_of_isChain linked (by simp)).to_reflTransGen
  · obtain ⟨before, behind, rfl⟩ := List.append_of_mem member
    rw [List.append_assoc] at linked
    exact transGen_of_isChain linked.right_of_append (by simp)

/-- No error is true of a graph without faults. -/
theorem Explains.fault {root : Path} {e : Error} (explains : Explains read base root e) :
    ∃ p, Reaches read base root p ∧ ¬ (Legible read p ∧ ¬ Circular read base p) := by
  match e, explains with
  | .includeCycle path _, explains =>
    obtain ⟨reaches, circle⟩ := explains.circular
    exact ⟨path, reaches, fun sound => sound.2 circle⟩
  | .unreadable path _, ⟨reaches, refused⟩ =>
    refine ⟨path, reaches, fun ⟨⟨bytes, fetched, _⟩, _⟩ => ?_⟩
    rw [refused] at fetched
    cases fetched
  | .decode (.file path) .notUtf8, ⟨reaches, bytes, fetched, broken⟩ =>
    refine ⟨path, reaches, fun ⟨⟨again, opened, text⟩, _⟩ => ?_⟩
    rw [fetched] at opened
    cases opened
    exact text broken

theorem explains_of_resolveRoot {t : FileTree} {config : Path} {e : Error}
    (stopped : resolveRoot t config = .error e) :
    Explains t.read (baseOf config) (rootOf config) e := by
  rcases resolveRoot_error stopped with ⟨reason, refused, rfl⟩ | ⟨bytes, fetched, grown⟩
  · exact ⟨.refl, refused⟩
  · refine explains_of_grow fetched ?_ grown
    exact ⟨rfl, .singleton _, List.nodup_nil, fun p member => ⟨_, List.mem_singleton.mp member⟩⟩

/-- Resolving gives a tree exactly when every file below the root can be read as text and none
includes itself, and every error it gives names a fault that is there. A file that does not include
itself is never taken for a cycle, on however many branches it is met. -/
theorem resolveRoot_ok_iff_acyclic (t : FileTree) (config : Path) :
    ((∃ tree, resolveRoot t config = .ok tree) ↔
      ∀ p, Reaches t.read (baseOf config) (rootOf config) p →
        Legible t.read p ∧ ¬ Circular t.read (baseOf config) p) ∧
    (∀ e, resolveRoot t config = .error e →
      Explains t.read (baseOf config) (rootOf config) e) ∧
    ∀ p chain, ¬ Circular t.read (baseOf config) p →
      resolveRoot t config ≠ .error (.includeCycle p chain) := by
  refine ⟨⟨?_, ?_⟩, fun e stopped => explains_of_resolveRoot stopped, ?_⟩
  · rintro ⟨tree, ok⟩ p walk
    obtain ⟨bytes, fetched, resolves⟩ := resolveRoot_eq_ok_iff.mp ok
    exact (Resolves.reaches fetched resolves walk).2
  · intro sound
    cases answer : resolveRoot t config with
    | ok tree => exact ⟨tree, rfl⟩
    | error e =>
      obtain ⟨p, walk, fault⟩ := (explains_of_resolveRoot answer).fault
      exact absurd (sound p walk) fault
  · intro p chain acyclic stopped
    exact acyclic (explains_of_resolveRoot stopped).circular.2

end RouteForge.Include
