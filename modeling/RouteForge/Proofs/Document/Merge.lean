import RouteForge.Document.Merge
import RouteForge.Proofs.Document.Fields

/-! Laws of merging, said by what stands under each name. Merging keeps the order of the fields, so
that what stands under each name settles the merged document. -/
namespace RouteForge.Document

/-- Induction over a document by its items and fields. -/
@[elab_as_elim]
theorem inductionOn {motive : Document → Prop} (scalar : ∀ s, motive (.scalar s))
    (sequence : ∀ items, (∀ d ∈ items, motive d) → motive (.sequence items))
    (mapping : ∀ fields, (∀ f ∈ fields, motive f.2) → motive (.mapping fields)) :
    ∀ d, motive d
  | .scalar s => scalar s
  | .sequence items => sequence items fun d _ => inductionOn scalar sequence mapping d
  | .mapping fields => mapping fields fun f _ => inductionOn scalar sequence mapping f.2
termination_by d => d
decreasing_by
  · have := List.sizeOf_lt_of_mem ‹d ∈ items›
    simp
    omega
  · have := List.sizeOf_lt_of_mem ‹f ∈ fields›
    cases f
    simp at *
    omega

/-- The kind without a difference between null and the other scalars. -/
def shape : Document → Kind
  | .scalar _ => .scalar
  | .sequence _ => .sequence
  | .mapping _ => .mapping

theorem shape_merge (a b : Document) : (a.merge b).shape = b.shape := by
  cases a <;> cases b <;> rfl

/-- Unless both are mappings or both are sequences, the incoming document stands. -/
theorem merge_eq_incoming {a b : Document} (mappings : ¬ (a.shape = .mapping ∧ b.shape = .mapping))
    (sequences : ¬ (a.shape = .sequence ∧ b.shape = .sequence)) : a.merge b = b := by
  cases a with
  | scalar => cases b <;> rfl
  | sequence =>
    cases b with
    | scalar | mapping => rfl
    | sequence => exact absurd ⟨rfl, rfl⟩ sequences
  | mapping =>
    cases b with
    | scalar | sequence => rfl
    | mapping => exact absurd ⟨rfl, rfl⟩ mappings

theorem itemsOrdered_iff {items : List Document} : ItemsOrdered items ↔ ∀ d ∈ items, d.Ordered := by
  induction items with
  | nil => simp [ItemsOrdered]
  | cons d rest ih => simp [ItemsOrdered, ih]

theorem fieldsOrdered_iff {fields : Fields Document} :
    FieldsOrdered fields ↔ ∀ f ∈ fields, f.2.Ordered := by
  induction fields with
  | nil => simp [FieldsOrdered]
  | cons f rest ih => simp [FieldsOrdered, ih]

theorem Ordered.field {fields : Fields Document} {name : String} {d : Document}
    (ordered : Ordered (.mapping fields)) (found : Fields.get? fields name = some d) : d.Ordered :=
  fieldsOrdered_iff.mp ordered.2 _ (Fields.mem_of_get? found)

theorem ordered_mapping {fields : Fields Document} (ascending : fields.Ascending)
    (each : ∀ name d, Fields.get? fields name = some d → d.Ordered) : Ordered (.mapping fields) :=
  ⟨ascending, fieldsOrdered_iff.mpr fun f member => each f.1 f.2 (Fields.get?_of_mem ascending member)⟩

theorem Ordered.put {fields : Fields Document} {name : String} {d : Document}
    (ordered : Ordered (.mapping fields)) (new : d.Ordered) :
    Ordered (.mapping (Fields.put name d fields)) := by
  refine ⟨ordered.1.put, fieldsOrdered_iff.mpr fun f member => ?_⟩
  rcases Fields.mem_put member with rfl | member
  · exact new
  · exact fieldsOrdered_iff.mp ordered.2 f member

section Fields

variable {fields incoming : Fields Document}

theorem ascending_mergeFields (ascending : fields.Ascending) :
    Fields.Ascending (mergeFields fields incoming) := by
  induction incoming generalizing fields with
  | nil => exact ascending
  | cons f rest ih => exact ih ascending.put

/-- Under each name stands what both sides have there, merged. -/
theorem get?_mergeFields (ascending : incoming.Ascending) (name : String) :
    Fields.get? (mergeFields fields incoming) name =
      Option.merge merge (Fields.get? fields name) (Fields.get? incoming name) := by
  induction incoming generalizing fields with
  | nil => simp [mergeFields, Fields.get?]
  | cons f rest ih =>
    obtain ⟨n, d⟩ := f
    rw [mergeFields, ih (List.pairwise_cons.mp ascending).2]
    by_cases here : n = name
    · subst here
      rw [ascending.get?_rest, Fields.get?_put_self]
      cases found : Fields.get? fields n <;> simp [Fields.get?]
    · rw [Fields.get?_put_other _ _ (Ne.symm here)]
      simp [Fields.get?, here]

end Fields

/-- Merging ordered documents gives an ordered document. -/
theorem Ordered.merge {a b : Document} (left : a.Ordered) (right : b.Ordered) :
    (a.merge b).Ordered := by
  induction b using inductionOn generalizing a with
  | scalar s => cases a <;> exact right
  | sequence items _ =>
    cases a with
    | scalar | mapping => exact right
    | sequence below =>
      simp only [Document.merge, Ordered, itemsOrdered_iff] at *
      exact List.forall_mem_append.mpr ⟨left, right⟩
  | mapping incoming ih =>
    cases a with
    | scalar | sequence => exact right
    | mapping fields =>
      refine ordered_mapping (ascending_mergeFields left.1) fun name d found => ?_
      rw [get?_mergeFields right.1] at found
      cases old : Fields.get? fields name with
      | none =>
        rw [old, Option.merge_none_left] at found
        exact right.field found
      | some e =>
        cases new : Fields.get? incoming name with
        | none =>
          rw [old, new, Option.merge_none_right] at found
          cases found
          exact left.field old
        | some v =>
          rw [old, new] at found
          cases found
          exact ih _ (Fields.mem_of_get? new) (left.field old) (right.field new)

theorem empty_merge {d : Document} (ordered : d.Ordered) (top : d.shape = .mapping) :
    empty.merge d = d := by
  cases d with
  | scalar | sequence => cases top
  | mapping fields =>
    have start : Fields.Ascending ([] : Fields Document) := List.Pairwise.nil
    simp only [empty, merge, mapping.injEq]
    refine Fields.Ascending.ext (ascending_mergeFields start) ordered.1 fun name => ?_
    rw [get?_mergeFields ordered.1]
    simp [Fields.get?]

end RouteForge.Document
