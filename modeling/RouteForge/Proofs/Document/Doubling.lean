import RouteForge.Proofs.Document.Compatible

/-! Merging a document with nothing and with itself. The empty mapping adds nothing on either side. A
document that is merged into itself has every sequence to which keys alone lead twice, one after the
other; what stands inside the items of a sequence is out of reach and is copied as it is. -/
namespace RouteForge.Document

mutual

/-- The document with each sequence to which keys alone lead behind itself once more. -/
def doubled : Document → Document
  | .scalar s => .scalar s
  | .sequence items => .sequence (items ++ items)
  | .mapping fields => .mapping (fieldsDoubled fields)

def fieldsDoubled : List (String × Document) → List (String × Document)
  | [] => []
  | (name, d) :: rest => (name, d.doubled) :: fieldsDoubled rest

end

theorem fieldsDoubled_eq_map (fields : Fields Document) :
    fieldsDoubled fields = fields.map fun f => (f.1, f.2.doubled) := by
  induction fields with
  | nil => rfl
  | cons f rest ih => rw [fieldsDoubled, ih, List.map_cons]

theorem names_fieldsDoubled (fields : Fields Document) :
    (fieldsDoubled fields).map Prod.fst = fields.map Prod.fst := by
  rw [fieldsDoubled_eq_map, List.map_map]
  rfl

theorem get?_fieldsDoubled (fields : Fields Document) (name : String) :
    Fields.get? (fieldsDoubled fields) name = (Fields.get? fields name).map doubled := by
  rw [fieldsDoubled_eq_map, Fields.get?_map]

theorem merge_empty {d : Document} (top : d.shape = .mapping) : d.merge empty = d := by
  cases d with
  | scalar | sequence => cases top
  | mapping fields => rfl

/-- Under each name a mapping meets what it holds there itself. -/
theorem merge_self {d : Document} (ordered : d.Ordered) : d.merge d = d.doubled := by
  induction d using inductionOn with
  | scalar s => rfl
  | sequence items _ => rfl
  | mapping fields ih =>
    have ascending : Fields.Ascending (fieldsDoubled fields) := by
      rw [fieldsDoubled_eq_map]
      exact ordered.1.map doubled
    rw [merge, doubled]
    apply congrArg mapping
    apply Fields.Ascending.ext (ascending_mergeFields ordered.1) ascending
    intro name
    rw [get?_mergeFields ordered.1, get?_fieldsDoubled]
    cases found : Fields.get? fields name with
    | none => rfl
    | some e => exact congrArg some (ih _ (Fields.mem_of_get? found) (ordered.field found))

theorem at?_doubled (d : Document) (path : List String) :
    d.doubled.at? path = (d.at? path).map doubled := by
  induction path generalizing d with
  | nil => rfl
  | cons name path ih =>
    cases d with
    | scalar | sequence => rfl
    | mapping fields =>
      rw [doubled, at?, at?, get?_fieldsDoubled]
      cases Fields.get? fields name with
      | none => rfl
      | some e => exact ih e

/-- No items stand at the end of any path. -/
def Itemless (d : Document) : Prop := ∀ path items, d.at? path = some (.sequence items) → items = []

theorem Itemless.field {fields : Fields Document} {name : String} {d : Document}
    (itemless : Itemless (.mapping fields)) (found : Fields.get? fields name = some d) : d.Itemless := by
  intro path items here
  apply itemless (name :: path)
  rw [at?, found]
  exact here

theorem doubled_eq_self_iff {d : Document} (ordered : d.Ordered) : d.doubled = d ↔ d.Itemless := by
  constructor
  · intro same path items here
    have twice : (d.doubled).at? path = some (.sequence (items ++ items)) := by
      rw [at?_doubled, here]
      rfl
    rw [same, here] at twice
    simpa using twice
  · intro itemless
    induction d using inductionOn with
    | scalar s => rfl
    | sequence items _ =>
      obtain rfl : items = [] := itemless [] items rfl
      rfl
    | mapping fields ih =>
      have each : ∀ f ∈ fields, (f.1, f.2.doubled) = f := by
        intro f member
        have found : Fields.get? fields f.1 = some f.2 := Fields.get?_of_mem ordered.1 member
        rw [ih f member (ordered.field found) (itemless.field found)]
      rw [doubled, fieldsDoubled_eq_map, List.map_congr_left each, List.map_id']

/-- Nothing merged into a mapping, or a mapping into nothing, leaves the mapping. A mapping merged into
itself holds at each path what it held there, but for the sequences, which it holds twice: the names
are the same, and the scalars, and there is nothing where nothing was. So it is unchanged exactly if
no sequence at the end of a path has an item. -/
theorem merge_self_doubles {d : Document} (ordered : d.Ordered) (top : d.shape = .mapping) :
    d.merge empty = d ∧ empty.merge d = d ∧ d.merge d = d.doubled ∧
    (∀ path,
      (∀ items, d.at? path = some (.sequence items) →
        (d.merge d).at? path = some (.sequence (items ++ items))) ∧
      (∀ s, d.at? path = some (.scalar s) → (d.merge d).at? path = some (.scalar s)) ∧
      (∀ fields, d.at? path = some (.mapping fields) → ∃ merged,
        (d.merge d).at? path = some (.mapping merged) ∧
          merged.map Prod.fst = fields.map Prod.fst) ∧
      (d.at? path = none → (d.merge d).at? path = none)) ∧
    (d.merge d = d ↔ ∀ path items, d.at? path = some (.sequence items) → items = []) := by
  have twice : d.merge d = d.doubled := merge_self ordered
  refine ⟨merge_empty top, empty_merge ordered top, twice, fun path => ?_, ?_⟩
  · rw [twice, at?_doubled]
    refine ⟨?_, ?_, ?_, ?_⟩
    · intro items here
      rw [here]
      rfl
    · intro s here
      rw [here]
      rfl
    · intro fields here
      rw [here]
      exact ⟨_, rfl, names_fieldsDoubled fields⟩
    · intro none
      rw [none]
      rfl
  · rw [twice]
    exact doubled_eq_self_iff ordered

/-- Tags below two keys, one of them a list and one a mapping, with limits beside them. -/
def layered : Document :=
  .mapping [("vars", .mapping [
    ("limits", .mapping [("retries", .scalar (.text "3"))]),
    ("tags", .sequence [.scalar .null, .sequence [.scalar (.text "a")],
      .mapping [("more", .sequence [.scalar (.text "b")])]])])]

/-- The tags come twice, and none of them is changed. -/
theorem merge_self_doubles_layered : layered.Ordered ∧ layered.shape = .mapping ∧
    layered.merge layered ≠ layered ∧ ∃ tags, layered.at? ["vars", "tags"] = some (.sequence tags) ∧
      tags.length = 3 ∧
      (layered.merge layered).at? ["vars", "tags"] = some (.sequence (tags ++ tags)) ∧
      (layered.merge layered).at? ["vars", "limits", "retries"] = some (.scalar (.text "3")) := by
  have ordered : layered.Ordered := by
    simp only [layered, Ordered, FieldsOrdered, ItemsOrdered]
    decide
  obtain ⟨-, -, -, held, same⟩ := merge_self_doubles ordered rfl
  obtain ⟨twice, -⟩ := held ["vars", "tags"]
  obtain ⟨-, kept, -⟩ := held ["vars", "limits", "retries"]
  refine ⟨ordered, rfl, ?_, _, rfl, rfl, twice _ rfl, kept _ rfl⟩
  intro unchanged
  cases same.mp unchanged ["vars", "tags"] _ rfl

end RouteForge.Document
