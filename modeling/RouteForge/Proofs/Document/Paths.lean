import Mathlib.Data.List.Infix
import RouteForge.Proofs.Document.Compatible

/-! Merging path by path. Two mappings go together along a path of keys for as long as both hold a
mapping there. Where they part, the incoming document decides what stands on the rest of the path if
it holds anything there, and only two sequences are joined. -/
namespace RouteForge.Document

variable {a b d : Document} {path : List String}

theorem at?_append (d : Document) (front back : List String) :
    d.at? (front ++ back) = (d.at? front).bind (at? back) := by
  induction front generalizing d with
  | nil => rfl
  | cons name front ih =>
    cases d with
    | scalar | sequence => rfl
    | mapping fields =>
      rw [List.cons_append, at?, at?, Option.bind_assoc]
      exact congrArg _ (funext ih)

/-- Only a mapping has anything below it. -/
theorem at?_cons_eq_none {name : String} (leaf : d.shape ≠ .mapping) :
    d.at? (name :: path) = none := by
  cases d with
  | scalar | sequence => rfl
  | mapping => exact absurd rfl leaf

/-- Both have a mapping at the path. -/
def Meet (a b : Document) (path : List String) : Prop :=
  (a.at? path).map shape = some .mapping ∧ (b.at? path).map shape = some .mapping

instance : Decidable (Meet a b path) := inferInstanceAs (Decidable (_ ∧ _))

/-- The shortest way from the top towards a path, of one key at least, at whose end the two are not
both mappings. Where there is none it is the path. -/
def parting (a b : Document) (path : List String) : List String :=
  (path.inits.tail.find? fun way => !decide (Meet a b way)).getD path

theorem meet_nil_iff : Meet a b [] ↔ a.shape = .mapping ∧ b.shape = .mapping := by
  simp [Meet, at?]

/-- Documents that meet at a path meet on the way. -/
theorem Meet.front {front back : List String} (meet : Meet a b (front ++ back)) :
    Meet a b front := by
  have each (d : Document) (below : (d.at? (front ++ back)).map shape = some .mapping) :
      (d.at? front).map shape = some .mapping := by
    rw [at?_append] at below
    cases found : d.at? front with
    | none => simp [found] at below
    | some e =>
      rw [found, Option.bind_some] at below
      cases back with
      | nil => exact below
      | cons name back =>
        by_contra leaf
        rw [at?_cons_eq_none (by simpa using leaf)] at below
        cases below
  exact ⟨each a meet.1, each b meet.2⟩

theorem Meet.tops (meet : Meet a b path) : a.shape = .mapping ∧ b.shape = .mapping :=
  meet_nil_iff.mp (@Meet.front a b [] path meet)

section Fields

variable {fields incoming : Fields Document} {name : String}

/-- Mappings that meet below a key hold mappings there, which meet at the rest of the way. -/
theorem meet_cons_iff : Meet (.mapping fields) (.mapping incoming) (name :: path) ↔
    ∃ x y, Fields.get? fields name = some x ∧ Fields.get? incoming name = some y ∧
      Meet x y path := by
  unfold Meet
  simp only [at?, Option.map_bind]
  cases Fields.get? fields name <;> cases Fields.get? incoming name <;> simp

theorem at?_singleton (fields : Fields Document) (name : String) :
    at? [name] (.mapping fields) = Fields.get? fields name := by
  rw [at?]
  cases Fields.get? fields name <;> rfl

theorem parting_cons_of_not_meet (apart : ¬ Meet a b [name]) :
    a.parting b (name :: path) = [name] := by
  unfold parting
  rw [List.inits_cons, List.tail_cons]
  cases path <;> simp [apart]

theorem parting_cons_of_meet {x y : Document} (left : Fields.get? fields name = some x)
    (right : Fields.get? incoming name = some y) (meet : Meet x y []) :
    parting (.mapping fields) (.mapping incoming) (name :: path) = name :: x.parting y path := by
  have below (way : List String) :
      Meet (.mapping fields) (.mapping incoming) (name :: way) ↔ Meet x y way := by
    simp [meet_cons_iff, left, right]
  have whole : (name :: path).inits.tail =
      [name] :: path.inits.tail.map (name :: ·) := by
    cases path <;> simp
  unfold parting
  rw [whole, List.find?_cons_of_neg (by simpa [below] using meet), List.find?_map]
  simp only [Function.comp_def, below]
  cases path.inits.tail.find? fun way => !decide (Meet x y way) <;> rfl

end Fields

/-- The parting lies on the path, and before its end only where the documents do not meet. -/
theorem exists_behind_parting (topA : a.shape = .mapping) (topB : b.shape = .mapping)
    (path : List String) :
    ∃ behind, path = a.parting b path ++ behind ∧ (behind ≠ [] → ¬ Meet a b (a.parting b path)) := by
  induction path generalizing a b with
  | nil => exact ⟨[], rfl, fun some => absurd rfl some⟩
  | cons name path ih =>
    by_cases meet : Meet a b [name]
    · cases a with
      | scalar | sequence => cases topA
      | mapping fields =>
        cases b with
        | scalar | sequence => cases topB
        | mapping incoming =>
          obtain ⟨x, y, left, right, inner⟩ := meet_cons_iff.mp meet
          obtain ⟨x_top, y_top⟩ := meet_nil_iff.mp inner
          obtain ⟨behind, whole, apart⟩ := ih x_top y_top
          rw [parting_cons_of_meet left right inner]
          refine ⟨behind, by rw [List.cons_append, ← whole], fun some below => apart some ?_⟩
          simpa [meet_cons_iff, left, right] using below
    · rw [parting_cons_of_not_meet meet]
      exact ⟨path, rfl, fun _ => meet⟩

/-- Behind a mapping of both, the first key at which they do not meet is the parting. -/
theorem parting_of_meet {above below : List String} {name : String} (meet : Meet a b above)
    (apart : ¬ Meet a b (above ++ [name])) :
    a.parting b (above ++ name :: below) = above ++ [name] := by
  induction above generalizing a b with
  | nil => exact parting_cons_of_not_meet apart
  | cons first above ih =>
    obtain ⟨topA, topB⟩ := meet.tops
    cases a with
    | scalar | sequence => cases topA
    | mapping fields =>
      cases b with
      | scalar | sequence => cases topB
      | mapping incoming =>
        obtain ⟨x, y, left, right, inner⟩ := meet_cons_iff.mp meet
        have onward : ¬ Meet x y (above ++ [name]) := fun below => apart <| by
          simpa [meet_cons_iff, left, right] using below
        rw [List.cons_append, parting_cons_of_meet left right (meet_nil_iff.mpr inner.tops),
          ih inner onward]
        rfl

/-- Up to the parting the merged document holds what both hold there, merged. -/
theorem at?_merge_parting (ordered : b.Ordered) (topA : a.shape = .mapping)
    (topB : b.shape = .mapping) (path : List String) :
    (a.merge b).at? (a.parting b path) =
      Option.merge merge (a.at? (a.parting b path)) (b.at? (a.parting b path)) := by
  induction path generalizing a b with
  | nil => rfl
  | cons name path ih =>
    cases a with
    | scalar | sequence => cases topA
    | mapping fields =>
      cases b with
      | scalar | sequence => cases topB
      | mapping incoming =>
        by_cases meet : Meet (.mapping fields) (.mapping incoming) [name]
        · obtain ⟨x, y, left, right, inner⟩ := meet_cons_iff.mp meet
          obtain ⟨x_top, y_top⟩ := meet_nil_iff.mp inner
          rw [parting_cons_of_meet left right inner, merge, at?, at?, at?,
            get?_mergeFields ordered.1, left, right]
          exact ih (ordered.field right) x_top y_top
        · rw [parting_cons_of_not_meet meet, merge, at?_singleton, at?_singleton, at?_singleton,
            get?_mergeFields ordered.1]

/-- Merged fields have the names of both sides. -/
theorem mem_names_mergeFields {fields incoming : Fields Document} {name : String} :
    name ∈ (mergeFields fields incoming).map Prod.fst ↔
      name ∈ fields.map Prod.fst ∨ name ∈ incoming.map Prod.fst := by
  induction incoming generalizing fields with
  | nil => simp [mergeFields]
  | cons f rest ih =>
    obtain ⟨n, x⟩ := f
    rw [mergeFields]
    refine ih.trans ?_
    rw [Fields.mem_names_put, List.map_cons, List.mem_cons, or_assoc]
    exact or_left_comm

section Parted

variable (ordered : b.Ordered) (topA : a.shape = .mapping) (topB : b.shape = .mapping)

theorem at?_behind {way behind : List String} (whole : path = way ++ behind) (d : Document) :
    d.at? path = (d.at? way).bind (at? behind) := by
  rw [whole, at?_append]

include topA topB in
theorem parting_eq_self (meet : Meet a b path) : a.parting b path = path := by
  obtain ⟨behind, whole, apart⟩ := exists_behind_parting topA topB path
  have here : behind = [] := by
    by_contra more
    rw [whole] at meet
    exact apart more meet.front
  rw [here, List.append_nil] at whole
  exact whole.symm

include ordered topA topB

/-- What nothing comes in for stays. -/
theorem at?_merge_of_none (none : b.at? (a.parting b path) = none) :
    (a.merge b).at? path = a.at? path := by
  obtain ⟨behind, whole, -⟩ := exists_behind_parting topA topB path
  rw [at?_behind whole, at?_merge_parting ordered topA topB, none, Option.merge_none_right,
    ← at?_behind whole]

/-- What comes in stands, unless there is something to unite or join it with. -/
theorem at?_merge_of_some {y : Document} (incoming : b.at? (a.parting b path) = some y)
    (apart : ¬ Meet a b (a.parting b path))
    (unlike : ∀ x, a.at? (a.parting b path) = some x →
      ¬ (x.shape = .sequence ∧ y.shape = .sequence)) :
    (a.merge b).at? path = b.at? path := by
  obtain ⟨behind, whole, -⟩ := exists_behind_parting topA topB path
  rw [at?_behind whole, at?_merge_parting ordered topA topB, at?_behind whole b, incoming]
  cases old : a.at? (a.parting b path) with
  | none => rfl
  | some x =>
    have mappings : ¬ (x.shape = .mapping ∧ y.shape = .mapping) := by
      simpa [Meet, old, incoming] using apart
    exact congrArg (fun d => d.at? behind) (merge_eq_incoming mappings (unlike x old))

theorem at?_merge_of_meet (meet : Meet a b path) : ∃ xs ys fields,
    a.at? path = some (.mapping xs) ∧ b.at? path = some (.mapping ys) ∧
      (a.merge b).at? path = some (.mapping fields) ∧
      ∀ name, name ∈ fields.map Prod.fst ↔ name ∈ xs.map Prod.fst ∨ name ∈ ys.map Prod.fst := by
  have parted := at?_merge_parting ordered topA topB path
  rw [parting_eq_self topA topB meet] at parted
  obtain ⟨x, old, left⟩ := Option.map_eq_some_iff.mp meet.1
  obtain ⟨y, incoming, right⟩ := Option.map_eq_some_iff.mp meet.2
  cases x with
  | scalar | sequence => cases left
  | mapping xs =>
    cases y with
    | scalar | sequence => cases right
    | mapping ys =>
      rw [old, incoming] at parted
      exact ⟨xs, ys, _, old, incoming, parted, fun _ => mem_names_mergeFields⟩

theorem at?_merge_of_scalar {s : Scalar} (found : b.at? path = some (.scalar s)) :
    (a.merge b).at? path = some (.scalar s) := by
  obtain ⟨behind, whole, apart⟩ := exists_behind_parting topA topB path
  have below := found
  rw [at?_behind whole] at below
  obtain ⟨y, incoming, below⟩ := Option.bind_eq_some_iff.mp below
  rw [← found]
  -- The scalar is at the parting itself, or below a mapping there that the other has not.
  cases behind with
  | nil =>
    obtain rfl : y = .scalar s := Option.some.inj below
    exact at?_merge_of_some ordered topA topB incoming
      (fun meet => by simp [Meet, incoming, shape] at meet) fun _ _ both => nomatch both.2
  | cons name behind =>
    have top : y.shape = .mapping := by
      by_contra leaf
      rw [at?_cons_eq_none leaf] at below
      cases below
    exact at?_merge_of_some ordered topA topB incoming (apart (List.cons_ne_nil _ _))
      fun _ _ both => by simp [top] at both

theorem at?_merge_of_untouched {above below : List String} {name : String} (meet : Meet a b above)
    (none : b.at? (above ++ [name]) = none) :
    (a.merge b).at? (above ++ name :: below) = a.at? (above ++ name :: below) := by
  have apart : ¬ Meet a b (above ++ [name]) := fun both => by simp [Meet, none] at both
  apply at?_merge_of_none ordered topA topB
  rwa [parting_of_meet meet apart]

end Parted

/-- What stands at a path of the merged document hangs on the parting. The first document keeps what
the incoming one has nothing for, the incoming one has its own there in every other case but that of
two sequences, which are joined, and of two mappings, whose names are united. So every scalar that
comes in stands at its path, and nothing is changed below a key that does not come in. -/
theorem merge_path_by_path (ordered : b.Ordered) (topA : a.shape = .mapping)
    (topB : b.shape = .mapping) (path : List String) :
    let way := a.parting b path
    let merged := a.merge b
    (b.at? way = none → merged.at? path = a.at? path) ∧
    (∀ y, b.at? way = some y → ¬ Meet a b way →
      (∀ x, a.at? way = some x → ¬ (x.shape = .sequence ∧ y.shape = .sequence)) →
      merged.at? path = b.at? path) ∧
    (∀ xs ys, a.at? way = some (.sequence xs) → b.at? way = some (.sequence ys) →
      merged.at? way = some (.sequence (xs ++ ys))) ∧
    (Meet a b path → ∃ xs ys fields, a.at? path = some (.mapping xs) ∧
      b.at? path = some (.mapping ys) ∧ merged.at? path = some (.mapping fields) ∧
      ∀ name, name ∈ fields.map Prod.fst ↔ name ∈ xs.map Prod.fst ∨ name ∈ ys.map Prod.fst) ∧
    (∀ s, b.at? path = some (.scalar s) → merged.at? path = some (.scalar s)) ∧
    ∀ above name below, path = above ++ name :: below → Meet a b above →
      b.at? (above ++ [name]) = none → merged.at? path = a.at? path := by
  intro way merged
  refine ⟨at?_merge_of_none ordered topA topB, fun _ => at?_merge_of_some ordered topA topB,
    fun xs ys old incoming => ?_, at?_merge_of_meet ordered topA topB,
    fun _ => at?_merge_of_scalar ordered topA topB, ?_⟩
  · exact (at?_merge_parting ordered topA topB path).trans (by rw [old, incoming]; rfl)
  · rintro above name below rfl meet none
    exact at?_merge_of_untouched ordered topA topB meet none

/-- The settings of a project, and those of a part of it. -/
def settings : Document :=
  .mapping [("out", .scalar (.text "gen")), ("vars", .mapping [
    ("limits", .mapping [("retries", .scalar (.text "3"))]),
    ("tags", .sequence [.scalar (.text "a")])])]

def override : Document :=
  .mapping [("vars", .mapping [("limits", .scalar .null), ("tags", .sequence [.scalar (.text "b")])])]

/-- Under one key the lists are joined, and a mapping gives way to null; the other key stays. -/
theorem merge_path_by_path_settings : override.Ordered ∧ settings.shape = .mapping ∧
    override.shape = .mapping ∧
    settings.parting override ["vars", "tags"] = ["vars", "tags"] ∧
    (settings.merge override).at? ["vars", "tags"] =
      some (.sequence [.scalar (.text "a"), .scalar (.text "b")]) ∧
    settings.parting override ["vars", "limits", "retries"] = ["vars", "limits"] ∧
    (settings.merge override).at? ["vars", "limits", "retries"] = none ∧
    (settings.merge override).at? ["vars", "limits"] = some (.scalar .null) ∧
    (settings.merge override).at? ["out"] = some (.scalar (.text "gen")) := by
  have ordered : override.Ordered := by
    simp only [override, Ordered, FieldsOrdered, ItemsOrdered]
    decide
  have laws := merge_path_by_path ordered (a := settings) rfl rfl
  obtain ⟨-, -, joined, -⟩ := laws ["vars", "tags"]
  obtain ⟨-, replaced, -⟩ := laws ["vars", "limits", "retries"]
  obtain ⟨-, -, -, -, scalar, -⟩ := laws ["vars", "limits"]
  obtain ⟨kept, -⟩ := laws ["out"]
  refine ⟨ordered, rfl, rfl, by decide, ?_, by decide, ?_, scalar _ rfl, kept rfl⟩
  · exact joined _ _ rfl rfl
  · exact replaced _ rfl (by decide) fun _ _ both => by simp [shape] at both

end RouteForge.Document
