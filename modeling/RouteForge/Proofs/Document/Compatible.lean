import RouteForge.Proofs.Document.Merge

/-! Documents that agree on their shapes. Merging is not associative in general: a scalar between two
sequences takes away what the first one held. It is where no value of one shape meets one of another,
and then each path of the merged document holds what the paths of its parts held. -/
namespace RouteForge.Document

/-- What stands at a path of keys. -/
def at? : List String → Document → Option Document
  | [], d => some d
  | name :: path, .mapping fields => (Fields.get? fields name).bind (at? path)
  | _ :: _, _ => none

/-- Wherever both have a value, the two are mappings, sequences, or scalars. -/
def Compatible (a b : Document) : Prop :=
  ∀ path x y, a.at? path = some x → b.at? path = some y → x.shape = y.shape

namespace Compatible

variable {a b c d : Document}

theorem shape_eq (ab : a.Compatible b) : a.shape = b.shape := ab [] a b rfl rfl

theorem symm (ab : a.Compatible b) : b.Compatible a :=
  fun path x y left right => (ab path y x right left).symm

theorem field {fields incoming : Fields Document} {name : String} {x y : Document}
    (ab : Compatible (.mapping fields) (.mapping incoming)) (left : Fields.get? fields name = some x)
    (right : Fields.get? incoming name = some y) : x.Compatible y := by
  intro path u v found next
  exact ab (name :: path) u v (by simpa [at?, left] using found) (by simpa [at?, right] using next)

theorem of_fields {fields incoming : Fields Document}
    (each : ∀ name x y, Fields.get? fields name = some x → Fields.get? incoming name = some y →
      x.Compatible y) : Compatible (.mapping fields) (.mapping incoming) := by
  intro path u v left right
  cases path with
  | nil =>
    cases left
    cases right
    rfl
  | cons name path =>
    obtain ⟨x, old, left⟩ := Option.bind_eq_some_iff.mp left
    obtain ⟨y, new, right⟩ := Option.bind_eq_some_iff.mp right
    exact each name x y old new path u v left right

theorem of_leaves (same : a.shape = b.shape) (leaf : a.shape ≠ .mapping) : a.Compatible b := by
  intro path u v left right
  cases path with
  | nil =>
    cases left
    cases right
    exact same
  | cons name path =>
    cases a with
    | scalar | sequence => cases left
    | mapping => exact absurd rfl leaf

/-- Along each path compatible documents are merged by themselves. -/
theorem at?_merge (ab : a.Compatible b) (ordered : b.Ordered) (path : List String) :
    (a.merge b).at? path = Option.merge merge (a.at? path) (b.at? path) := by
  induction path generalizing a b with
  | nil => rfl
  | cons name path ih =>
    have same := ab.shape_eq
    cases a with
    | scalar s =>
      cases b with
      | scalar t => rfl
      | sequence | mapping => cases same
    | sequence items =>
      cases b with
      | sequence incoming => rfl
      | scalar | mapping => cases same
    | mapping fields =>
      cases b with
      | scalar | sequence => cases same
      | mapping incoming =>
        rw [merge, at?, at?, at?, get?_mergeFields ordered.1]
        cases old : Fields.get? fields name with
        | none => simp
        | some x =>
          cases new : Fields.get? incoming name with
          | none => simp
          | some y => exact ih (ab.field old new) (ordered.field new)

/-- A document that is compatible with both parts is compatible with the merged one. -/
theorem merge_left (ab : a.Compatible b) (ordered : b.Ordered) (ac : a.Compatible c)
    (bc : b.Compatible c) : (a.merge b).Compatible c := by
  intro path x z left right
  rw [ab.at?_merge ordered] at left
  cases old : a.at? path with
  | none =>
    rw [old, Option.merge_none_left] at left
    exact bc path x z left right
  | some u =>
    cases new : b.at? path with
    | none =>
      rw [old, new, Option.merge_none_right] at left
      cases left
      exact ac path x z old right
    | some v =>
      rw [old, new] at left
      cases left
      rw [shape_merge]
      exact bc path v z new right

/-- Merging is associative where the middle document is compatible with both others. -/
theorem merge_assoc (ab : a.Compatible b) (bc : b.Compatible c) (first : a.Ordered)
    (second : b.Ordered) (third : c.Ordered) :
    (a.merge b).merge c = a.merge (b.merge c) := by
  induction b using inductionOn generalizing a c with
  | scalar s =>
    cases a with
    | scalar =>
      cases c with
      | scalar => rfl
      | sequence | mapping => cases bc.shape_eq
    | sequence | mapping => cases ab.shape_eq
  | sequence items _ =>
    cases a with
    | sequence =>
      cases c with
      | sequence => simp [merge]
      | scalar | mapping => cases bc.shape_eq
    | scalar | mapping => cases ab.shape_eq
  | mapping fields ih =>
    cases a with
    | scalar | sequence => cases ab.shape_eq
    | mapping below =>
      cases c with
      | scalar | sequence => cases bc.shape_eq
      | mapping above =>
        have inner : Fields.Ascending (mergeFields fields above) := ascending_mergeFields second.1
        simp only [merge, mapping.injEq]
        refine Fields.Ascending.ext (ascending_mergeFields (ascending_mergeFields first.1))
          (ascending_mergeFields first.1) fun name => ?_
        rw [get?_mergeFields third.1, get?_mergeFields second.1, get?_mergeFields inner,
          get?_mergeFields third.1]
        cases left : Fields.get? below name with
        | none => simp
        | some x =>
          cases middle : Fields.get? fields name with
          | none => simp
          | some y =>
            cases right : Fields.get? above name with
            | none => simp
            | some z =>
              exact congrArg some (ih _ (Fields.mem_of_get? middle) (ab.field left middle)
                (bc.field middle right) (first.field left) (second.field middle)
                (third.field right))

end Compatible

mutual

/-- Compatibility, computed. -/
def agrees : Document → Document → Bool
  | .mapping fields, .mapping incoming => fieldsAgree fields incoming
  | .scalar _, .scalar _ | .sequence _, .sequence _ => true
  | _, _ => false

def fieldsAgree : List (String × Document) → List (String × Document) → Bool
  | [], _ => true
  | (name, d) :: rest, incoming =>
    (match Fields.get? incoming name with
      | some e => agrees d e
      | none => true) && fieldsAgree rest incoming

end

theorem fieldsAgree_iff {fields incoming : Fields Document} : fieldsAgree fields incoming = true ↔
    ∀ f ∈ fields, ∀ e, Fields.get? incoming f.1 = some e → agrees f.2 e = true := by
  induction fields with
  | nil => simp [fieldsAgree]
  | cons f rest ih =>
    obtain ⟨name, d⟩ := f
    cases found : Fields.get? incoming name <;> simp [fieldsAgree, found, ih]

theorem agrees_iff {a b : Document} (ordered : a.Ordered) : a.agrees b = true ↔ a.Compatible b := by
  induction a using inductionOn generalizing b with
  | scalar s =>
    cases b with
    | scalar => exact iff_of_true rfl (.of_leaves rfl nofun)
    | sequence | mapping => exact iff_of_false nofun fun ab => nomatch ab.shape_eq
  | sequence items _ =>
    cases b with
    | sequence => exact iff_of_true rfl (.of_leaves rfl nofun)
    | scalar | mapping => exact iff_of_false nofun fun ab => nomatch ab.shape_eq
  | mapping fields ih =>
    cases b with
    | scalar | sequence => exact iff_of_false nofun fun ab => nomatch ab.shape_eq
    | mapping incoming =>
      rw [agrees, fieldsAgree_iff]
      constructor
      · intro all
        refine .of_fields fun name x y old new => ?_
        have member := Fields.mem_of_get? old
        exact (ih _ member (ordered.field old)).mp (all _ member y new)
      · intro ab f member e new
        have old := Fields.get?_of_mem ordered.1 member
        exact (ih f member (ordered.field old)).mpr (ab.field old new)

theorem compatible_empty {d : Document} (top : d.shape = .mapping) : empty.Compatible d := by
  intro path x y left right
  cases path with
  | nil =>
    cases left
    cases right
    exact top.symm
  | cons name path => cases left

/-! ### Many documents, one after the other -/

/-- Ordered mappings of which any two are compatible. -/
structure Family (docs : List Document) : Prop where
  ordered : ∀ d ∈ docs, d.Ordered
  mappings : ∀ d ∈ docs, d.shape = .mapping
  compatible : docs.Pairwise Compatible

namespace Family

variable {d x y : Document} {docs before behind : List Document}

theorem of_sublist (family : Family docs) (fewer : before.Sublist docs) : Family before where
  ordered e member := family.ordered e (fewer.subset member)
  mappings e member := family.mappings e (fewer.subset member)
  compatible := family.compatible.sublist fewer

theorem cons_empty (family : Family docs) : Family (empty :: docs) where
  ordered := by simpa [empty, Ordered, Fields.Ascending, FieldsOrdered] using family.ordered
  mappings := by simpa [empty, shape] using family.mappings
  compatible := List.pairwise_cons.mpr
    ⟨fun e member => compatible_empty (family.mappings e member), family.compatible⟩

/-- Two neighbours may be replaced by what they merge to. -/
theorem merge_neighbours (before : List Document) (family : Family (before ++ x :: y :: behind)) :
    Family (before ++ x.merge y :: behind) := by
  obtain ⟨ordered, mappings, compatible⟩ := family
  simp only [List.forall_mem_append, List.forall_mem_cons, List.pairwise_append,
    List.pairwise_cons] at ordered mappings compatible
  obtain ⟨front, ⟨⟨xy, xs⟩, ys, back⟩, across⟩ := compatible
  have yo : y.Ordered := ordered.2.2.1
  constructor
  · simp only [List.forall_mem_append, List.forall_mem_cons]
    exact ⟨ordered.1, ordered.2.1.merge yo, ordered.2.2.2⟩
  · simp only [List.forall_mem_append, List.forall_mem_cons, shape_merge]
    exact ⟨mappings.1, mappings.2.2⟩
  · simp only [List.pairwise_append, List.pairwise_cons, List.forall_mem_cons]
    refine ⟨front, ⟨fun e member => xy.merge_left yo (xs e member) (ys e member), back⟩, ?_⟩
    intro e member
    obtain ⟨ex, ey, rest⟩ := across e member
    exact ⟨(xy.merge_left yo ex.symm ey.symm).symm, rest⟩

/-- What the first of a family have been merged to is of a family with the others. -/
theorem foldl (family : Family (d :: (before ++ behind))) :
    Family (before.foldl merge d :: behind) := by
  induction before generalizing d with
  | nil => exact family
  | cons x before ih => exact ih (family.merge_neighbours [])

/-- Documents may be merged among themselves before they are merged into another. -/
theorem merge_foldl (family : Family (d :: x :: docs)) :
    d.merge (docs.foldl merge x) = docs.foldl merge (d.merge x) := by
  induction docs generalizing x with
  | nil => rfl
  | cons y docs ih =>
    have closer : Family (d :: x.merge y :: docs) := family.merge_neighbours [d]
    obtain ⟨ordered, -, compatible⟩ := family
    simp only [List.forall_mem_cons, List.pairwise_cons] at ordered compatible
    have grouped : (d.merge x).merge y = d.merge (x.merge y) :=
      compatible.1.1.merge_assoc compatible.2.1.1 ordered.1 ordered.2.1 ordered.2.2.1
    rw [List.foldl_cons, List.foldl_cons, grouped, ih closer]

theorem merge_foldl_empty (family : Family (d :: docs)) :
    d.merge (docs.foldl merge empty) = docs.foldl merge d := by
  obtain ⟨ordered, mappings, -⟩ := id family
  simp only [List.forall_mem_cons] at ordered mappings
  cases docs with
  | nil =>
    cases d with
    | scalar | sequence => cases mappings.1
    | mapping fields => rfl
  | cons x docs =>
    simp only [List.forall_mem_cons] at ordered mappings
    rw [List.foldl_cons, List.foldl_cons, empty_merge ordered.2.1 mappings.2.1, merge_foldl family]

/-- What stands at a path of the merged documents: the values that they have there, merged. -/
theorem at?_foldl (family : Family (d :: docs)) (path : List String) :
    (docs.foldl merge d).at? path =
      (docs.filterMap (at? path)).foldl (fun held v => Option.merge merge held (some v))
        (d.at? path) := by
  induction docs generalizing d with
  | nil => rfl
  | cons x docs ih =>
    have ordered : x.Ordered := family.ordered x (by simp)
    have first : d.Compatible x := (List.pairwise_cons.mp family.compatible).1 x (by simp)
    rw [List.foldl_cons, ih (family.merge_neighbours []), first.at?_merge ordered]
    cases found : x.at? path with
    | none => simp [found]
    | some v => simp [found]

end Family

/-- The items of a sequence. -/
def items : Document → List Document
  | .sequence items => items
  | _ => []

theorem foldl_merge_some (v : Document) (vs : List Document) :
    vs.foldl (fun held v => Option.merge merge held (some v)) (some v) =
      some (vs.foldl merge v) := by
  induction vs generalizing v with
  | nil => rfl
  | cons w vs ih => exact ih (v.merge w)

theorem shape_foldl {v : Document} {vs : List Document} (same : ∀ w ∈ vs, w.shape = v.shape) :
    (vs.foldl merge v).shape = v.shape := by
  induction vs generalizing v with
  | nil => rfl
  | cons w vs ih =>
    obtain ⟨first, rest⟩ := List.forall_mem_cons.mp same
    have next : (v.merge w).shape = v.shape := (shape_merge v w).trans first
    rw [List.foldl_cons, ih (by simpa [next] using rest), next]

theorem foldl_sequences {xs : List Document} {vs : List Document}
    (same : ∀ w ∈ vs, w.shape = .sequence) :
    vs.foldl merge (.sequence xs) = .sequence (xs ++ vs.flatMap items) := by
  induction vs generalizing xs with
  | nil => simp
  | cons w vs ih =>
    obtain ⟨first, rest⟩ := List.forall_mem_cons.mp same
    cases w with
    | scalar | mapping => cases first
    | sequence ys => simp [merge, ih rest, items]

theorem foldl_scalars {s : Scalar} {vs : List Document} (same : ∀ w ∈ vs, w.shape = .scalar) :
    some (vs.foldl merge (.scalar s)) = (.scalar s :: vs).getLast? := by
  induction vs generalizing s with
  | nil => rfl
  | cons w vs ih =>
    obtain ⟨first, rest⟩ := List.forall_mem_cons.mp same
    cases w with
    | sequence | mapping => cases first
    | scalar t =>
      have replaced : (scalar s).merge (scalar t) = scalar t := rfl
      rw [List.foldl_cons, replaced, ih rest, List.getLast?_cons_cons]

namespace Family

variable {docs : List Document}

/-- The values that the documents of a family have at a path are of one shape, and merged they stand
there in the merged document. -/
theorem at?_cases (family : Family docs) (path : List String) :
    (docs.filterMap (at? path) = [] ∧ (docs.foldl merge empty).at? path = empty.at? path) ∨
      ∃ v vs, docs.filterMap (at? path) = v :: vs ∧ (∀ w ∈ vs, w.shape = v.shape) ∧
        (docs.foldl merge empty).at? path = some (vs.foldl merge v) := by
  rw [family.cons_empty.at?_foldl]
  cases values : docs.filterMap (at? path) with
  | nil => exact .inl ⟨rfl, rfl⟩
  | cons v vs =>
    right
    have alike : (v :: vs).Pairwise (fun x y => x.shape = y.shape) := by
      rw [← values, List.pairwise_filterMap]
      exact family.compatible.imp fun compatible x left y right => compatible path x y left right
    have start : Option.merge merge (empty.at? path) (some v) = some v := by
      cases path with
      | cons name path => rfl
      | nil =>
        have member : v ∈ docs := by
          have inside : v ∈ docs.filterMap (at? []) := values ▸ List.mem_cons_self
          obtain ⟨d, there, same⟩ := List.mem_filterMap.mp inside
          exact Option.some.inj same ▸ there
        exact congrArg some (empty_merge (family.ordered v member) (family.mappings v member))
    refine ⟨v, vs, rfl, fun w member => ?_, ?_⟩
    · exact ((List.pairwise_cons.mp alike).1 w member).symm
    · rw [List.foldl_cons, start, foldl_merge_some]

/-- A sequence in the merged document is the sequences of the documents behind each other. -/
theorem at?_eq_sequence_iff (family : Family docs) {path : List String} {xs : List Document} :
    (docs.foldl merge empty).at? path = some (.sequence xs) ↔
      (∃ v ∈ docs.filterMap (at? path), v.shape = .sequence) ∧
        xs = (docs.filterMap (at? path)).flatMap items := by
  rcases family.at?_cases path with ⟨none, found⟩ | ⟨v, vs, values, same, found⟩
  · rw [none, found]
    cases path <;> simp [at?, empty, Fields.get?]
  · have all : ∀ w ∈ v :: vs, w.shape = v.shape := List.forall_mem_cons.mpr ⟨rfl, same⟩
    rw [values, found, Option.some.injEq]
    cases v with
    | sequence ys => simp [foldl_sequences same, items, shape, eq_comm]
    | scalar | mapping =>
      refine iff_of_false (fun equal => ?_) ?_
      · have shaped := shape_foldl same
        rw [equal] at shaped
        cases shaped
      · rintro ⟨⟨w, member, shaped⟩, -⟩
        rw [all w member] at shaped
        cases shaped

/-- A scalar in the merged document is that of the last document that has a value there. -/
theorem at?_eq_scalar_iff (family : Family docs) {path : List String} {s : Scalar} :
    (docs.foldl merge empty).at? path = some (.scalar s) ↔
      (docs.filterMap (at? path)).getLast? = some (.scalar s) := by
  rcases family.at?_cases path with ⟨none, found⟩ | ⟨v, vs, values, same, found⟩
  · rw [none, found]
    cases path <;> simp [at?, empty, Fields.get?]
  · have all : ∀ w ∈ v :: vs, w.shape = v.shape := List.forall_mem_cons.mpr ⟨rfl, same⟩
    rw [values, found]
    cases v with
    | scalar t => rw [foldl_scalars same]
    | sequence | mapping =>
      refine iff_of_false (fun equal => ?_) fun last => ?_
      · have shaped := shape_foldl same
        rw [Option.some.inj equal] at shaped
        cases shaped
      · have shaped := all _ (List.mem_of_getLast? last)
        cases shaped

end Family

end RouteForge.Document
