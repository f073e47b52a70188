import Mathlib.Data.List.Forall2
import RouteForge.Proofs.Document.RoundTrip

/-! Documents by the texts of their scalars. A document is written as a value in which every scalar but
null is its text, and that value always reads again. What is read has the names, the items and the nulls
of the document, and converting commutes with merging, since it changes no shape. -/
namespace RouteForge.Document

open RouteForge.Yaml (Value)

mutual

/-- The value of a document with the text of every scalar in its place. -/
def textValue : Document → Value
  | .scalar s => match s.text? with
    | some text => .string text
    | none => .null
  | .sequence items => .sequence (textValues items)
  | .mapping fields => .mapping (textEntries fields)

def textValues : List Document → List Value
  | [] => []
  | item :: rest => item.textValue :: textValues rest

def textEntries : List (String × Document) → List (Value × Value)
  | [] => []
  | (name, document) :: rest => (.string name, document.textValue) :: textEntries rest

end

/-- The document that is read from the texts of another. -/
def converted (d : Document) : Except DecodeError Document := ofValue d.textValue

/-- Two documents of one structure, the second with a text for every scalar but null. -/
inductive Conversion : Document → Document → Prop where
  | null : Conversion (.scalar .null) (.scalar .null)
  | text {s t} (same : s.text? = some t) : Conversion (.scalar s) (.scalar (.text t))
  | sequence {xs ys} (items : List.Forall₂ Conversion xs ys) :
      Conversion (.sequence xs) (.sequence ys)
  | mapping {fields texts : List (String × Document)}
      (names : fields.map Prod.fst = texts.map Prod.fst)
      (values : List.Forall₂ Conversion (fields.map Prod.snd) (texts.map Prod.snd)) :
      Conversion (.mapping fields) (.mapping texts)

theorem itemsAsText_eq_map (items : List Document) : itemsAsText items = items.map asText := by
  induction items with
  | nil => rfl
  | cons d rest ih => rw [itemsAsText, ih, List.map_cons]

theorem fieldsAsText_eq_map (fields : Fields Document) :
    fieldsAsText fields = fields.map fun f => (f.1, f.2.asText) := by
  induction fields with
  | nil => rfl
  | cons f rest ih => rw [fieldsAsText, ih, List.map_cons]

theorem shape_asText (d : Document) : d.asText.shape = d.shape := by
  cases d with
  | scalar s => cases s <;> rfl
  | sequence | mapping => rfl

theorem asText_asText (d : Document) : d.asText.asText = d.asText := by
  induction d using inductionOn with
  | scalar s => cases s <;> rfl
  | sequence items ih =>
    simp only [asText, itemsAsText_eq_map, List.map_map]
    exact congrArg sequence (List.map_congr_left ih)
  | mapping fields ih =>
    simp only [asText, fieldsAsText_eq_map, List.map_map]
    apply congrArg mapping
    apply List.map_congr_left
    intro f member
    exact congrArg (Prod.mk f.1) (ih f member)

theorem Ordered.asText {d : Document} (ordered : d.Ordered) : d.asText.Ordered := by
  induction d using inductionOn with
  | scalar s => cases s <;> trivial
  | sequence items ih =>
    rw [Document.asText, itemsAsText_eq_map]
    apply itemsOrdered_iff.mpr
    intro x member
    obtain ⟨d, inside, rfl⟩ := List.mem_map.mp member
    exact ih d inside (itemsOrdered_iff.mp ordered d inside)
  | mapping fields ih =>
    rw [Document.asText, fieldsAsText_eq_map]
    refine ⟨ordered.1.map _, fieldsOrdered_iff.mpr ?_⟩
    intro x member
    obtain ⟨f, inside, rfl⟩ := List.mem_map.mp member
    exact ih f inside (fieldsOrdered_iff.mp ordered.2 f inside)

mutual

theorem textValue_eq : ∀ d : Document, d.textValue = d.asText.toValue
  | .scalar s => by cases s <;> rfl
  | .sequence items => congrArg Value.sequence (textValues_eq items)
  | .mapping fields => congrArg Value.mapping (textEntries_eq fields)

theorem textValues_eq : ∀ items : List Document,
    textValues items = itemValues (itemsAsText items)
  | [] => rfl
  | d :: rest => by rw [textValues, textValue_eq d, textValues_eq rest]; rfl

theorem textEntries_eq : ∀ fields : List (String × Document),
    textEntries fields = fieldValues (fieldsAsText fields)
  | [] => rfl
  | (name, d) :: rest => by rw [textEntries, textValue_eq d, textEntries_eq rest]; rfl

end

/-- The texts of a document always read again, and as the document with its texts in their places. -/
theorem converted_eq {d : Document} (ordered : d.Ordered) : d.converted = .ok d.asText := by
  rw [converted, textValue_eq]
  exact ofValue_toValue ordered.asText

theorem conversion_asText (d : Document) : Conversion d d.asText := by
  induction d using inductionOn with
  | scalar s =>
    cases s with
    | null => exact .null
    | bool | number | text => exact .text rfl
  | sequence items ih =>
    rw [asText, itemsAsText_eq_map]
    apply Conversion.sequence
    rw [List.forall₂_map_right_iff, List.forall₂_same]
    exact ih
  | mapping fields ih =>
    rw [asText, fieldsAsText_eq_map]
    apply Conversion.mapping
    · rw [List.map_map]
      rfl
    · rw [List.map_map, List.forall₂_map_left_iff, List.forall₂_map_right_iff, List.forall₂_same]
      exact ih

/-- Fields commute with merging as soon as the values that come in do. -/
theorem fieldsAsText_mergeFields {incoming : Fields Document}
    (each : ∀ f ∈ incoming, ∀ a : Document, (a.merge f.2).asText = a.asText.merge f.2.asText)
    (fields : Fields Document) :
    fieldsAsText (mergeFields fields incoming) =
      mergeFields (fieldsAsText fields) (fieldsAsText incoming) := by
  induction incoming generalizing fields with
  | nil => rfl
  | cons f rest ih =>
    obtain ⟨name, d⟩ := f
    obtain ⟨first, others⟩ := List.forall_mem_cons.mp each
    rw [mergeFields, ih others, fieldsAsText, mergeFields]
    simp only [fieldsAsText_eq_map, Fields.map_put, Fields.get?_map]
    cases Fields.get? fields name with
    | none => rfl
    | some old =>
      have united : (old.merge d).asText = old.asText.merge d.asText := first old
      simp only [Option.map_some, united]

/-- Both documents keep their shapes, so the same rule applies before and after. -/
theorem asText_merge (a b : Document) : (a.merge b).asText = a.asText.merge b.asText := by
  have replaced {a b : Document} (mappings : ¬ (a.shape = .mapping ∧ b.shape = .mapping))
      (sequences : ¬ (a.shape = .sequence ∧ b.shape = .sequence)) :
      (a.merge b).asText = a.asText.merge b.asText := by
    rw [merge_eq_incoming mappings sequences, merge_eq_incoming]
    · rwa [shape_asText, shape_asText]
    · rwa [shape_asText, shape_asText]
  induction b using inductionOn generalizing a with
  | scalar s => exact replaced (by simp [shape]) (by simp [shape])
  | sequence items _ =>
    cases a with
    | scalar | mapping => exact replaced (by simp [shape]) (by simp [shape])
    | sequence below => simp only [merge, asText, itemsAsText_eq_map, List.map_append]
  | mapping incoming ih =>
    cases a with
    | scalar | sequence => exact replaced (by simp [shape]) (by simp [shape])
    | mapping fields => exact congrArg mapping (fieldsAsText_mergeFields ih fields)

end RouteForge.Document
